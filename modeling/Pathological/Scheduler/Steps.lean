import Pathological.Framework.System
import Pathological.Scheduler.State

/-!
# The scheduler as a labelled system

One label for each critical section of each handler, so that a run is an
interleaving of any number of HTTP handlers, gRPC handlers, dispatch threads
and iterations of `assignJobs`. What the environment decides is in the label:
the payload of a request and the id of the render it creates, which worker
calls and with which arguments, when a link is built, what a `RenderJob` call
returned, and the job id `generateJobId` mints. An id the source generates at
random (`id(gen())`, `generateJobId`) has to be unused.

`step` is the executable definition. `Step` is the same relation with one
constructor for each way a label can go, its guards as hypotheses
(`Step.iff_step`). Every invariant of the development is a case analysis over
`Step`.
-/

namespace Pathological

open Framework

/-- The steps of the scheduler and of the calls it answers. -/
inductive Label where
  /-- `createRenderRequest` up to `addRender`. -/
  | createRenderRequest (id : RenderId) (payload : RenderPayload) (timestamp : String)
  /-- `addJob` up to the end of its progress section. -/
  | addJobProgress (id : RenderId)
  /-- The queue section of `addJob`, and the 201 answer. -/
  | addJobQueue (id : RenderId)
  /-- `EstablishConnection` up to the end of its `findWorkerByID`. -/
  | establishConnection (t : ThreadId) (info : WorkerInfo)
  | registerWorker (t : ThreadId) (id : WorkerId)
  | reconnectWorker (t : ThreadId) (id : WorkerId)
  /-- `Disconnect` of a worker `findWorkerByID` does not know, the whole call. -/
  | disconnectUnknown (id : WorkerId)
  /-- `Disconnect` of a known worker, up to the end of its `findWorkerByID`. -/
  | disconnect (t : ThreadId) (id : WorkerId)
  | markWorkerOffline (t : ThreadId) (id : WorkerId)
  /-- `JobCompleted` from a worker `findWorkerByID` does not know, the whole call. -/
  | jobCompletedUnknown (worker : WorkerId) (job : JobId)
  /-- `JobCompleted` from a known worker, up to the end of its `findWorkerByID`. -/
  | jobCompleted (t : ThreadId) (worker : WorkerId) (job : JobId)
  | takeJob (t : ThreadId)
  /-- `getRenderRequest` and `buildDownloadLink`, at the moment `now`. -/
  | buildLink (t : ThreadId) (now : ℕ)
  | recordFrame (t : ThreadId) (ctx : FrameJobContext)
  /-- The next setter call of `markRenderCompleted`. -/
  | publish (t : ThreadId)
  | markWorkerIdle (t : ThreadId)
  /-- One iteration of `assignJobs`. -/
  | assignJob (job : JobId)
  /-- The `RenderJob` call of a dispatch thread returns. -/
  | renderJobReturned (job : JobId) (accepted : Bool)
  /-- The three sections of a dispatch thread whose call failed. -/
  | undoRegistration (job : JobId)
  | requeueFrame (job : JobId)
  | markDispatchOffline (job : JobId)

namespace State

/-! ### The steps of each handler -/

def setSubmit (s : State) (id : RenderId) (pc : SubmitPc) : State :=
  { s with submits := s.submits.insert id pc }

def setConnect (s : State) (t : ThreadId) (info : WorkerInfo) (pc : ConnectPc) : State :=
  { s with connects := s.connects.insert t ⟨info, pc⟩ }

def setDisconnect (s : State) (t : ThreadId) (id : WorkerId) (answered : Bool) : State :=
  { s with disconnects := s.disconnects.insert t ⟨id, answered⟩ }

def setCompletion (s : State) (t : ThreadId) (c : CompletionThread) (pc : CompletionPc) : State :=
  { s with completions := s.completions.insert t { c with pc } }

def setDispatch (s : State) (job : JobId) (d : DispatchThread) (pc : DispatchPc) : State :=
  { s with dispatchThreads := s.dispatchThreads.insert job { d with pc } }

/-- A `createRenderRequest` handler and its `addJob`. -/
def stepSubmit (s : State) : Label → Option State
  | .createRenderRequest id payload timestamp =>
    if id ∈ s.history then none
    else
      match RenderRequest.ofPayload id payload timestamp with
      -- answered with 400
      | .error _ => some s
      | .ok render =>
        some { s.setSubmit id .addJob with history := s.history.insert id render }
  | .addJobProgress id =>
    match s.submits.lookup id, s.history.lookup id with
    | some .addJob, some render =>
      -- `addJob` returns early, and the request is answered with 201 all the same
      if render.animationRuntime ≤ 0 then some (s.setSubmit id .returned)
      else some ((s.addJobProgress render).setSubmit id .enqueue)
    | _, _ => none
  | .addJobQueue id =>
    match s.submits.lookup id, s.history.lookup id with
    | some .enqueue, some render => some ((s.addJobQueue render).setSubmit id .returned)
    | _, _ => none
  | _ => none

/-- An `EstablishConnection` or a `Disconnect` handler. -/
def stepConnection (s : State) : Label → Option State
  | .establishConnection t info =>
    -- the answer of `findWorkerByID` decides the branch, and the lock is released before it
    if t ∈ s.connects then none
    else if (s.findWorkerByID info.workerId).isSome then some (s.setConnect t info .reconnect)
    else some (s.setConnect t info .register)
  | .registerWorker t id =>
    match s.connects.lookup t with
    | some ⟨info, .register⟩ =>
      if info.workerId = id then
        some ((s.registerWorker info).setConnect t info (.answered .ok))
      else none
    | _ => none
  | .reconnectWorker t id =>
    match s.connects.lookup t with
    | some ⟨info, .reconnect⟩ =>
      if info.workerId = id then
        some ((s.reconnectWorker id).setConnect t info (.answered .reconnected))
      else none
    | _ => none
  | .disconnectUnknown id => if (s.findWorkerByID id).isSome then none else some s
  | .disconnect t id =>
    -- between the check and `markWorkerOffline` other handlers can write the status
    if t ∈ s.disconnects then none
    else if (s.findWorkerByID id).isSome then some (s.setDisconnect t id false)
    else none
  | .markWorkerOffline t id =>
    if s.disconnects.lookup t = some ⟨id, false⟩ then
      some ((s.markWorkerOffline id).setDisconnect t id true)
    else none
  | _ => none

/-- A `JobCompleted` handler. -/
def stepCompletion (env : Env) (s : State) : Label → Option State
  | .jobCompletedUnknown worker _ => if (s.findWorkerByID worker).isSome then none else some s
  | .jobCompleted t worker job =>
    -- any known worker may report any job id: nothing compares the two
    if t ∈ s.completions then none
    else if (s.findWorkerByID worker).isSome then
      some (s.setCompletion t ⟨worker, job, .take⟩ .take)
    else none
  | .takeJob t =>
    match s.completions.lookup t with
    | some ⟨w, j, .take⟩ =>
      match s.takeJob j with
      | some (ctx, s') => some (s'.setCompletion t ⟨w, j, .take⟩ (.link ctx))
      -- `markRenderCompleted` returns false
      | none => some (s.setCompletion t ⟨w, j, .take⟩ (.publish []))
    | _ => none
  | .buildLink t now =>
    match s.completions.lookup t with
    | some ⟨w, j, .link ctx⟩ =>
      match s.history.lookup ctx.renderId with
      | some render =>
        let link := buildDownloadLink env now (render.frameKey ctx.frameIndex)
        some (s.setCompletion t ⟨w, j, .link ctx⟩ (.record ctx link))
      -- `markRenderCompleted` returns false, with the registration already erased
      | none => some (s.setCompletion t ⟨w, j, .link ctx⟩ (.publish []))
    | _ => none
  | .recordFrame t ctx =>
    match s.completions.lookup t with
    | some ⟨w, j, .record ctx' link⟩ =>
      if ctx' = ctx then
        match s.recordFrame ctx link with
        | some (setters, s') =>
          some (s'.setCompletion t ⟨w, j, .record ctx link⟩
            (.publish (setters.map fun x => (ctx.renderId, x))))
        -- already finalized
        | none => some (s.setCompletion t ⟨w, j, .record ctx link⟩ (.publish []))
      else none
    | _ => none
  | .publish t =>
    match s.completions.lookup t with
    | some ⟨w, j, .publish ((id, x) :: todo)⟩ =>
      some ((s.applySetter id x).setCompletion t ⟨w, j, .publish ((id, x) :: todo)⟩ (.publish todo))
    | _ => none
  | .markWorkerIdle t =>
    match s.completions.lookup t with
    -- whatever `markRenderCompleted` returned, the reporting worker is IDLE again
    | some ⟨w, j, .publish []⟩ =>
      some ((s.markWorkerIdle w).setCompletion t ⟨w, j, .publish []⟩ .answered)
    | _ => none
  | _ => none

/-- `assignJobs` and the dispatch threads it starts. -/
def stepDispatch (s : State) : Label → Option State
  | .assignJob job => if job ∈ s.dispatchThreads then none else s.assignJob job
  | .renderJobReturned job accepted =>
    match s.dispatchThreads.lookup job with
    -- an accepted call ends the thread: the rest is left to `JobCompleted`
    | some ⟨w, a, f, .calling⟩ =>
      some (s.setDispatch job ⟨w, a, f, .calling⟩ (if accepted then .ended true else .undo))
    | _ => none
  | .undoRegistration job =>
    match s.dispatchThreads.lookup job with
    -- erased whether or not the id is still there
    | some ⟨w, a, f, .undo⟩ =>
      some { s.setDispatch job ⟨w, a, f, .undo⟩ .requeue with
        workerJobToRenderId := s.workerJobToRenderId.erase job }
    | _ => none
  | .requeueFrame job =>
    match s.dispatchThreads.lookup job with
    -- pushed back whether or not the frame has been completed meanwhile
    | some ⟨w, a, f, .requeue⟩ =>
      some { s.setDispatch job ⟨w, a, f, .requeue⟩ .offline with
        pendingJobs := s.pendingJobs ++ [f] }
    | _ => none
  | .markDispatchOffline job =>
    match s.dispatchThreads.lookup job with
    -- the worker is looked up by the id captured at dispatch, whoever has it by now
    | some ⟨w, a, f, .offline⟩ =>
      some ((s.markWorkerOffline w).setDispatch job ⟨w, a, f, .offline⟩ (.ended false))
    | _ => none
  | _ => none

/-- A step of the scheduler. -/
def step (env : Env) (s : State) (a : Label) : Option State :=
  s.stepSubmit a <|> s.stepConnection a <|> s.stepCompletion env a <|> s.stepDispatch a

end State

/-- The scheduler. -/
def scheduler (env : Env) : System State Label where
  init := State.initial
  step := State.step env

/-! ### What a step can do -/

/-- The ways a step can go, with the guards each needs and the state it leads to. -/
inductive Step (env : Env) (s : State) : Label → State → Prop where
  | createRejected {id payload timestamp e}
      (hnew : id ∉ s.history) (hpayload : RenderRequest.ofPayload id payload timestamp = .error e) :
      Step env s (.createRenderRequest id payload timestamp) s
  | createAccepted {id payload timestamp render}
      (hnew : id ∉ s.history)
      (hpayload : RenderRequest.ofPayload id payload timestamp = .ok render) :
      Step env s (.createRenderRequest id payload timestamp)
        { s.setSubmit id .addJob with history := s.history.insert id render }
  | addJobSkipped {id render}
      (hpc : s.submits.lookup id = some .addJob) (hrender : s.history.lookup id = some render)
      (hframes : render.animationRuntime ≤ 0) :
      Step env s (.addJobProgress id) (s.setSubmit id .returned)
  | addJobProgress {id render}
      (hpc : s.submits.lookup id = some .addJob) (hrender : s.history.lookup id = some render)
      (hframes : 0 < render.animationRuntime) :
      Step env s (.addJobProgress id) ((s.addJobProgress render).setSubmit id .enqueue)
  | addJobQueue {id render}
      (hpc : s.submits.lookup id = some .enqueue) (hrender : s.history.lookup id = some render) :
      Step env s (.addJobQueue id) ((s.addJobQueue render).setSubmit id .returned)
  | establishKnown {t info w}
      (hnew : t ∉ s.connects) (hfind : s.findWorkerByID info.workerId = some w) :
      Step env s (.establishConnection t info) (s.setConnect t info .reconnect)
  | establishNew {t info}
      (hnew : t ∉ s.connects) (hfind : s.findWorkerByID info.workerId = none) :
      Step env s (.establishConnection t info) (s.setConnect t info .register)
  | registerWorker {t info}
      (hpc : s.connects.lookup t = some ⟨info, .register⟩) :
      Step env s (.registerWorker t info.workerId)
        ((s.registerWorker info).setConnect t info (.answered .ok))
  | reconnectWorker {t info}
      (hpc : s.connects.lookup t = some ⟨info, .reconnect⟩) :
      Step env s (.reconnectWorker t info.workerId)
        ((s.reconnectWorker info.workerId).setConnect t info (.answered .reconnected))
  | disconnectUnknown {id} (hfind : s.findWorkerByID id = none) :
      Step env s (.disconnectUnknown id) s
  | disconnect {t id w}
      (hnew : t ∉ s.disconnects) (hfind : s.findWorkerByID id = some w) :
      Step env s (.disconnect t id) (s.setDisconnect t id false)
  | markWorkerOffline {t id}
      (hpc : s.disconnects.lookup t = some ⟨id, false⟩) :
      Step env s (.markWorkerOffline t id) ((s.markWorkerOffline id).setDisconnect t id true)
  | jobCompletedUnknown {worker job} (hfind : s.findWorkerByID worker = none) :
      Step env s (.jobCompletedUnknown worker job) s
  | jobCompleted {t worker job w}
      (hnew : t ∉ s.completions) (hfind : s.findWorkerByID worker = some w) :
      Step env s (.jobCompleted t worker job) (s.setCompletion t ⟨worker, job, .take⟩ .take)
  | takeJob {t w j ctx}
      (hpc : s.completions.lookup t = some ⟨w, j, .take⟩)
      (hjob : s.workerJobToRenderId.lookup j = some ctx) :
      Step env s (.takeJob t)
        { s.setCompletion t ⟨w, j, .take⟩ (.link ctx) with
          workerJobToRenderId := s.workerJobToRenderId.erase j }
  | takeUnknown {t w j}
      (hpc : s.completions.lookup t = some ⟨w, j, .take⟩)
      (hjob : s.workerJobToRenderId.lookup j = none) :
      Step env s (.takeJob t) (s.setCompletion t ⟨w, j, .take⟩ (.publish []))
  | buildLink {t now w j ctx render}
      (hpc : s.completions.lookup t = some ⟨w, j, .link ctx⟩)
      (hrender : s.history.lookup ctx.renderId = some render) :
      Step env s (.buildLink t now)
        (s.setCompletion t ⟨w, j, .link ctx⟩
          (.record ctx (buildDownloadLink env now (render.frameKey ctx.frameIndex))))
  | buildLinkLost {t now w j ctx}
      (hpc : s.completions.lookup t = some ⟨w, j, .link ctx⟩)
      (hrender : s.history.lookup ctx.renderId = none) :
      Step env s (.buildLink t now) (s.setCompletion t ⟨w, j, .link ctx⟩ (.publish []))
  | recordProgress {t w j ctx link p}
      (hpc : s.completions.lookup t = some ⟨w, j, .record ctx link⟩)
      (hentry : s.renderProgress.lookup ctx.renderId = some p)
      (hdone : (p.record ctx.frameIndex link).done = false) :
      Step env s (.recordFrame t ctx)
        { s.setCompletion t ⟨w, j, .record ctx link⟩
            (.publish ((p.record ctx.frameIndex link).setters.map fun x => (ctx.renderId, x))) with
          renderProgress := s.renderProgress.insert ctx.renderId (p.record ctx.frameIndex link) }
  | recordLast {t w j ctx link p}
      (hpc : s.completions.lookup t = some ⟨w, j, .record ctx link⟩)
      (hentry : s.renderProgress.lookup ctx.renderId = some p)
      (hdone : (p.record ctx.frameIndex link).done = true) :
      Step env s (.recordFrame t ctx)
        { s.setCompletion t ⟨w, j, .record ctx link⟩
            (.publish ((p.record ctx.frameIndex link).setters.map fun x => (ctx.renderId, x))) with
          renderProgress := s.renderProgress.erase ctx.renderId }
  | recordFinalized {t w j ctx link}
      (hpc : s.completions.lookup t = some ⟨w, j, .record ctx link⟩)
      (hentry : s.renderProgress.lookup ctx.renderId = none) :
      Step env s (.recordFrame t ctx) (s.setCompletion t ⟨w, j, .record ctx link⟩ (.publish []))
  | publish {t w j id x todo}
      (hpc : s.completions.lookup t = some ⟨w, j, .publish ((id, x) :: todo)⟩) :
      Step env s (.publish t)
        ((s.applySetter id x).setCompletion t ⟨w, j, .publish ((id, x) :: todo)⟩ (.publish todo))
  | markWorkerIdle {t w j}
      (hpc : s.completions.lookup t = some ⟨w, j, .publish []⟩) :
      Step env s (.markWorkerIdle t)
        ((s.markWorkerIdle w).setCompletion t ⟨w, j, .publish []⟩ .answered)
  | assignJob {job f rest w}
      (hnew : job ∉ s.dispatchThreads) (hqueue : s.pendingJobs = f :: rest)
      (hidle : s.findIdleWorker = some w) :
      Step env s (.assignJob job)
        { s with
          history := s.history.modify f.renderRequest (Setter.status .inProgress).apply
          pendingJobs := rest
          workers := updateFirst (fun w => decide (w.status = .idle))
            (fun w => { w with status := .busy }) s.workers
          workerJobToRenderId := s.workerJobToRenderId.insert job f.context
          dispatchThreads := s.dispatchThreads.insert job
            ⟨w.id, State.workerAddress w, f, .calling⟩ }
  | renderJobReturned {job accepted w a f}
      (hpc : s.dispatchThreads.lookup job = some ⟨w, a, f, .calling⟩) :
      Step env s (.renderJobReturned job accepted)
        (s.setDispatch job ⟨w, a, f, .calling⟩ (if accepted then .ended true else .undo))
  | undoRegistration {job w a f}
      (hpc : s.dispatchThreads.lookup job = some ⟨w, a, f, .undo⟩) :
      Step env s (.undoRegistration job)
        { s.setDispatch job ⟨w, a, f, .undo⟩ .requeue with
          workerJobToRenderId := s.workerJobToRenderId.erase job }
  | requeueFrame {job w a f}
      (hpc : s.dispatchThreads.lookup job = some ⟨w, a, f, .requeue⟩) :
      Step env s (.requeueFrame job)
        { s.setDispatch job ⟨w, a, f, .requeue⟩ .offline with
          pendingJobs := s.pendingJobs ++ [f] }
  | markDispatchOffline {job w a f}
      (hpc : s.dispatchThreads.lookup job = some ⟨w, a, f, .offline⟩) :
      Step env s (.markDispatchOffline job)
        ((s.markWorkerOffline w).setDispatch job ⟨w, a, f, .offline⟩ (.ended false))

variable {env : Env} {s s' : State} {a : Label}

theorem Step.of_stepSubmit (h : s.stepSubmit a = some s') : Step env s a s' := by
  cases a <;> simp only [State.stepSubmit, reduceCtorEq] at h
  case createRenderRequest id payload timestamp =>
    split at h
    · cases h
    · next hnew =>
      split at h
      · next e hpayload =>
        obtain rfl := Option.some.inj h
        exact .createRejected hnew hpayload
      · next render hpayload =>
        obtain rfl := Option.some.inj h
        exact .createAccepted hnew hpayload
  case addJobProgress id =>
    split at h
    · next render hpc hrender =>
      split at h
      · next hframes =>
        obtain rfl := Option.some.inj h
        exact .addJobSkipped hpc hrender hframes
      · next hframes =>
        obtain rfl := Option.some.inj h
        exact .addJobProgress hpc hrender (Int.not_le.mp hframes)
    · cases h
  case addJobQueue id =>
    split at h
    · next render hpc hrender =>
      obtain rfl := Option.some.inj h
      exact .addJobQueue hpc hrender
    · cases h

theorem Step.of_stepConnection (h : s.stepConnection a = some s') : Step env s a s' := by
  cases a <;> simp only [State.stepConnection, reduceCtorEq] at h
  case establishConnection t info =>
    split at h
    · cases h
    · next hnew =>
      split at h
      · next hfind =>
        obtain rfl := Option.some.inj h
        obtain ⟨w, hw⟩ := Option.isSome_iff_exists.mp hfind
        exact .establishKnown hnew hw
      · next hfind =>
        obtain rfl := Option.some.inj h
        exact .establishNew hnew (Option.not_isSome_iff_eq_none.mp hfind)
  case registerWorker t id =>
    split at h
    · next info hpc =>
      split at h
      · next hid =>
        obtain rfl := Option.some.inj h
        subst hid
        exact .registerWorker hpc
      · cases h
    · cases h
  case reconnectWorker t id =>
    split at h
    · next info hpc =>
      split at h
      · next hid =>
        obtain rfl := Option.some.inj h
        subst hid
        exact .reconnectWorker hpc
      · cases h
    · cases h
  case disconnectUnknown id =>
    split at h
    · cases h
    · next hfind =>
      obtain rfl := Option.some.inj h
      exact .disconnectUnknown (Option.not_isSome_iff_eq_none.mp hfind)
  case disconnect t id =>
    split at h
    · cases h
    · next hnew =>
      split at h
      · next hfind =>
        obtain rfl := Option.some.inj h
        obtain ⟨w, hw⟩ := Option.isSome_iff_exists.mp hfind
        exact .disconnect hnew hw
      · cases h
  case markWorkerOffline t id =>
    split at h
    · next hpc =>
      obtain rfl := Option.some.inj h
      exact .markWorkerOffline hpc
    · cases h

theorem Step.of_stepCompletion (h : s.stepCompletion env a = some s') : Step env s a s' := by
  cases a <;> simp only [State.stepCompletion, reduceCtorEq] at h
  case jobCompletedUnknown worker job =>
    split at h
    · cases h
    · next hfind =>
      obtain rfl := Option.some.inj h
      exact .jobCompletedUnknown (Option.not_isSome_iff_eq_none.mp hfind)
  case jobCompleted t worker job =>
    split at h
    · cases h
    · next hnew =>
      split at h
      · next hfind =>
        obtain rfl := Option.some.inj h
        obtain ⟨w, hw⟩ := Option.isSome_iff_exists.mp hfind
        exact .jobCompleted hnew hw
      · cases h
  case takeJob t =>
    split at h
    · next w j hpc =>
      -- the two answers of the lookup in the map
      unfold State.takeJob at h
      cases hjob : s.workerJobToRenderId.lookup j with
      | none =>
        rw [hjob] at h
        obtain rfl := Option.some.inj h
        exact .takeUnknown hpc hjob
      | some ctx =>
        rw [hjob] at h
        obtain rfl := Option.some.inj h
        exact .takeJob hpc hjob
    · cases h
  case buildLink t now =>
    split at h
    · next w j ctx hpc =>
      split at h
      · next render hrender =>
        obtain rfl := Option.some.inj h
        exact .buildLink hpc hrender
      · next hrender =>
        obtain rfl := Option.some.inj h
        exact .buildLinkLost hpc hrender
    · cases h
  case recordFrame t ctx =>
    split at h
    · next w j ctx' link hpc =>
      split at h
      · next hctx =>
        subst hctx
        -- no entry any more, the last frame of the entry, or one of several missing
        unfold State.recordFrame at h
        cases hentry : s.renderProgress.lookup ctx'.renderId with
        | none =>
          rw [hentry] at h
          obtain rfl := Option.some.inj h
          exact .recordFinalized hpc hentry
        | some p =>
          cases hdone : (p.record ctx'.frameIndex link).done with
          | true =>
            simp only [hentry, hdone, if_true] at h
            obtain rfl := Option.some.inj h
            exact .recordLast hpc hentry hdone
          | false =>
            simp only [hentry, hdone, Bool.false_eq_true, if_false] at h
            obtain rfl := Option.some.inj h
            exact .recordProgress hpc hentry hdone
      · cases h
    · cases h
  case publish t =>
    split at h
    · next w j id x todo hpc =>
      obtain rfl := Option.some.inj h
      exact .publish hpc
    · cases h
  case markWorkerIdle t =>
    split at h
    · next w j hpc =>
      obtain rfl := Option.some.inj h
      exact .markWorkerIdle hpc
    · cases h

theorem Step.of_stepDispatch (h : s.stepDispatch a = some s') : Step env s a s' := by
  cases a <;> simp only [State.stepDispatch, reduceCtorEq] at h
  case assignJob job =>
    split at h
    · cases h
    · next hnew =>
      unfold State.assignJob at h
      split at h
      · next f rest w hqueue hidle =>
        obtain rfl := Option.some.inj h
        exact .assignJob hnew hqueue hidle
      · cases h
  case renderJobReturned job accepted =>
    split at h
    · next w addr f hpc =>
      obtain rfl := Option.some.inj h
      exact .renderJobReturned hpc
    · cases h
  case undoRegistration job =>
    split at h
    · next w addr f hpc =>
      obtain rfl := Option.some.inj h
      exact .undoRegistration hpc
    · cases h
  case requeueFrame job =>
    split at h
    · next w addr f hpc =>
      obtain rfl := Option.some.inj h
      exact .requeueFrame hpc
    · cases h
  case markDispatchOffline job =>
    split at h
    · next w addr f hpc =>
      obtain rfl := Option.some.inj h
      exact .markDispatchOffline hpc
    · cases h

/-- **Every step is one of the cases of `Step`.** -/
theorem Step.of_step (h : (scheduler env).step s a = some s') : Step env s a s' := by
  replace h : (s.stepSubmit a <|> s.stepConnection a <|> s.stepCompletion env a <|>
    s.stepDispatch a) = some s' := h
  -- the first of the four handlers' functions that knows the label
  simp only [Option.orElse_eq_orElse, Option.orElse_eq_or, Option.or_eq_some_iff] at h
  rcases h with h | ⟨-, h | ⟨-, h | ⟨-, h⟩⟩⟩
  · exact .of_stepSubmit h
  · exact .of_stepConnection h
  · exact .of_stepCompletion h
  · exact .of_stepDispatch h

/-- Every case of `Step` is a step. -/
theorem Step.to_step (h : Step env s a s') : (scheduler env).step s a = some s' := by
  show (s.stepSubmit a <|> s.stepConnection a <|> s.stepCompletion env a <|>
    s.stepDispatch a) = some s'
  -- the guards of the case evaluate its function, and the functions before it know no such label
  cases h with
  | createRejected hnew hpayload => simp [State.stepSubmit, hnew, hpayload]
  | createAccepted hnew hpayload => simp [State.stepSubmit, hnew, hpayload]
  | addJobSkipped hpc hrender hframes => simp [State.stepSubmit, hpc, hrender, hframes]
  | addJobProgress hpc hrender hframes =>
    simp [State.stepSubmit, hpc, hrender, Int.not_le.mpr hframes]
  | addJobQueue hpc hrender => simp [State.stepSubmit, hpc, hrender]
  | establishKnown hnew hfind => simp [State.stepSubmit, State.stepConnection, hnew, hfind]
  | establishNew hnew hfind => simp [State.stepSubmit, State.stepConnection, hnew, hfind]
  | registerWorker hpc => simp [State.stepSubmit, State.stepConnection, hpc]
  | reconnectWorker hpc => simp [State.stepSubmit, State.stepConnection, hpc]
  | disconnectUnknown hfind => simp [State.stepSubmit, State.stepConnection, hfind]
  | disconnect hnew hfind => simp [State.stepSubmit, State.stepConnection, hnew, hfind]
  | markWorkerOffline hpc => simp [State.stepSubmit, State.stepConnection, hpc]
  | jobCompletedUnknown hfind =>
    simp [State.stepSubmit, State.stepConnection, State.stepCompletion, hfind]
  | jobCompleted hnew hfind =>
    simp [State.stepSubmit, State.stepConnection, State.stepCompletion, hnew, hfind]
  | takeJob hpc hjob =>
    simp [State.stepSubmit, State.stepConnection, State.stepCompletion, hpc, State.takeJob, hjob,
      State.setCompletion]
  | takeUnknown hpc hjob =>
    simp [State.stepSubmit, State.stepConnection, State.stepCompletion, hpc, State.takeJob, hjob]
  | buildLink hpc hrender =>
    simp [State.stepSubmit, State.stepConnection, State.stepCompletion, hpc, hrender]
  | buildLinkLost hpc hrender =>
    simp [State.stepSubmit, State.stepConnection, State.stepCompletion, hpc, hrender]
  | recordProgress hpc hentry hdone =>
    simp [State.stepSubmit, State.stepConnection, State.stepCompletion, hpc, State.recordFrame,
      hentry, hdone, State.setCompletion]
  | recordLast hpc hentry hdone =>
    simp [State.stepSubmit, State.stepConnection, State.stepCompletion, hpc, State.recordFrame,
      hentry, hdone, State.setCompletion]
  | recordFinalized hpc hentry =>
    simp [State.stepSubmit, State.stepConnection, State.stepCompletion, hpc, State.recordFrame,
      hentry]
  | publish hpc => simp [State.stepSubmit, State.stepConnection, State.stepCompletion, hpc]
  | markWorkerIdle hpc => simp [State.stepSubmit, State.stepConnection, State.stepCompletion, hpc]
  | assignJob hnew hqueue hidle =>
    simp [State.stepSubmit, State.stepConnection, State.stepCompletion, State.stepDispatch, hnew,
      State.assignJob, hqueue, hidle, State.updateStatus, State.applySetter]
  | renderJobReturned hpc =>
    simp [State.stepSubmit, State.stepConnection, State.stepCompletion, State.stepDispatch, hpc]
  | undoRegistration hpc =>
    simp [State.stepSubmit, State.stepConnection, State.stepCompletion, State.stepDispatch, hpc]
  | requeueFrame hpc =>
    simp [State.stepSubmit, State.stepConnection, State.stepCompletion, State.stepDispatch, hpc]
  | markDispatchOffline hpc =>
    simp [State.stepSubmit, State.stepConnection, State.stepCompletion, State.stepDispatch, hpc]

/-- `Step` is the step relation of the scheduler. -/
theorem Step.iff_step : (scheduler env).step s a = some s' ↔ Step env s a s' :=
  ⟨Step.of_step, Step.to_step⟩

end Pathological
