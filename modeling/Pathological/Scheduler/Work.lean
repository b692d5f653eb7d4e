import Pathological.Framework.Potential
import Pathological.Scheduler.Conservation

/-!
# The work a message causes

The scheduler's threads move on their own between the messages it receives
(`Label.own`), and each message leaves them so much to do: an accepted render of `n`
frames its two sections of `addJob` and the assignment of each frame, a `JobCompleted`
its sections and the setters after them, a failed call the three sections of the
dispatch thread and another assignment of the frame.

`State.work` is what is left to do in a state. It is a potential: a step of the
scheduler's own threads lowers it, and a message raises it by its cost at most
(`Step.work`). So the threads never run on by themselves: in any run, they take no more
steps than the messages received account for (`own_steps_le`).

`Rates` says what an outstanding call is charged with besides, before its first
`JobCompleted` and after it: nothing, where the reports and the returns of the calls are
paid for as they come.
-/

namespace Pathological

open Framework

/-- The step is one of the scheduler's own threads, not a message or the outcome of a
call. -/
def Label.own : Label → Bool
  | .createRenderRequest .. | .establishConnection .. | .disconnectUnknown _ | .disconnect ..
  | .jobCompletedUnknown .. | .jobCompleted .. | .renderJobReturned .. => false
  | _ => true

/-- What an outstanding call is charged with. -/
structure Rates where
  unreported : ℕ
  reported : ℕ
  le : reported ≤ unreported

/-- A queued frame has its assignment before it, and its call. -/
def Rates.frame (k : Rates) : ℕ := k.unreported + 1

/-! ### What is left to do -/

/-- What a `createRenderRequest` handler has left to do for a render of so many frames,
of which each costs `frame` in the queue. -/
def SubmitPc.work (frame totalFrames : ℕ) : SubmitPc → ℕ
  | .addJob => 2 + frame * totalFrames
  | .enqueue => 1 + frame * totalFrames
  | .returned => 0

def ConnectPc.work : ConnectPc → ℕ
  | .register | .reconnect => 1
  | .answered _ => 0

def DisconnectThread.work (d : DisconnectThread) : ℕ := if d.answered then 0 else 1

/-- What a `JobCompleted` handler has left to do: the last frame of a render comes with
four setter calls. -/
def CompletionPc.work : CompletionPc → ℕ
  | .take => 8
  | .link _ => 7
  | .record _ _ => 6
  | .publish todo => todo.length + 1
  | .answered => 0

/-- What a dispatch thread has left to do: `call` while its call is outstanding, and
after a failed one also what the frame costs that it pushes back. -/
def DispatchPc.work (call frame : ℕ) : DispatchPc → ℕ
  | .calling => call
  | .undo => frame + 3
  | .requeue => frame + 2
  | .offline => 1
  | .ended _ => 0

section Tables

variable (k : Rates) (frames : RenderId → ℕ) (call : JobId → ℕ)

/-- What the handlers of a table have left to do, where a render has `frames` frames and an
outstanding call is charged with `call`. -/
def submitsWork (m : Table RenderId SubmitPc) : ℕ :=
  Table.total (fun id pc => pc.work k.frame (frames id)) m

def connectsWork (m : Table ThreadId ConnectThread) : ℕ := Table.total (fun _ c => c.pc.work) m

def disconnectsWork (m : Table ThreadId DisconnectThread) : ℕ := Table.total (fun _ d => d.work) m

def completionsWork (m : Table ThreadId CompletionThread) : ℕ :=
  Table.total (fun _ c => c.pc.work) m

def dispatchWork (m : Table JobId DispatchThread) : ℕ :=
  Table.total (fun j d => d.pc.work (call j) k.frame) m

end Tables

namespace State

/-- The number of frames of a render of the history. -/
def framesOf (s : State) (id : RenderId) : ℕ := ((s.history.lookup id).map (·.totalFrames)).getD 0

/-- A `JobCompleted` for the job id has been received from a known worker. -/
def received (s : State) (j : JobId) : Bool :=
  s.completions.entries.any fun e => decide (e.2.jobId = j)

/-- What the call of the job is charged with. -/
def callWork (k : Rates) (s : State) (j : JobId) : ℕ :=
  if s.received j then k.reported else k.unreported

/-- What is left to do in the handlers, the queue and the dispatch threads. -/
def workOf (k : Rates) (frames : RenderId → ℕ) (call : JobId → ℕ) (s : State) : ℕ :=
  submitsWork k frames s.submits + k.frame * s.pendingJobs.length + connectsWork s.connects +
    disconnectsWork s.disconnects + completionsWork s.completions +
    dispatchWork k call s.dispatchThreads

/-- **What is left to do.** -/
def work (k : Rates) (s : State) : ℕ := s.workOf k s.framesOf (s.callWork k)

end State

/-- What the message of the label leaves to do. -/
def Label.cost (k : Rates) : Label → ℕ
  | .createRenderRequest id payload timestamp =>
    match RenderRequest.ofPayload id payload timestamp with
    | .ok render => 2 + k.frame * render.totalFrames
    | .error _ => 0
  | .establishConnection .. | .disconnect .. => 1
  | .jobCompleted .. => 8
  | .renderJobReturned _ false => k.frame + 3
  | _ => 0

variable {env : Env} {s s' : State} {a : Label} {k : Rates}

/-! ### What a step does to the parts -/

@[simp] theorem length_frameJobs (render : RenderRequest) :
    (State.frameJobs render).length = render.totalFrames := by
  unfold State.frameJobs
  rw [List.length_map, List.length_range]

theorem State.framesOf_of_lookup {id : RenderId} {render : RenderRequest}
    (h : s.history.lookup id = some render) : s.framesOf id = render.totalFrames := by
  unfold State.framesOf
  rw [h]
  rfl

/-- A step leaves the number of frames of a render of the history as it is. -/
theorem Step.framesOf {id : RenderId} (h : Step env s a s') (hid : id ∈ s.history) :
    s'.framesOf id = s.framesOf id := by
  obtain ⟨render, hrender⟩ := Table.exists_lookup_of_mem hid
  obtain ⟨render', hrender', hsub⟩ := h.history hrender
  rw [State.framesOf_of_lookup hrender, State.framesOf_of_lookup hrender',
    RenderRequest.totalFrames_congr hsub]

theorem State.received_iff {j : JobId} :
    s.received j = true ↔ ∃ t c, s.completions.lookup t = some c ∧ c.jobId = j := by
  unfold State.received
  rw [List.any_eq_true]
  constructor
  · rintro ⟨⟨t, c⟩, hmem, hid⟩
    exact ⟨t, c, AList.mem_lookup_iff.mpr hmem, of_decide_eq_true hid⟩
  · rintro ⟨t, c, hc, hid⟩
    exact ⟨⟨t, c⟩, AList.mem_lookup_iff.mp hc, decide_eq_true hid⟩

/-- A message once received has been received. -/
theorem Step.received {j : JobId} (h : Step env s a s') (hj : s.received j = true) :
    s'.received j = true := by
  obtain ⟨t, c, hc, hid⟩ := State.received_iff.mp hj
  refine State.received_iff.mpr ⟨t, ?_⟩
  cases h with
  | jobCompleted hnew => exact ⟨c, Table.lookup_insert_new hnew hc, hid⟩
  | takeJob hpc | takeUnknown hpc | buildLink hpc | buildLinkLost hpc | recordProgress hpc
  | recordLast hpc | recordFinalized hpc | publish hpc | markWorkerIdle hpc =>
    exact Table.exists_insert_over hpc id ⟨c, hc, hid⟩
  | _ => exact ⟨c, hc, hid⟩

theorem Step.callWork_le (h : Step env s a s') (j : JobId) :
    s'.callWork k j ≤ s.callWork k j := by
  unfold State.callWork
  by_cases hj : s.received j = true
  · rw [if_pos hj, if_pos (h.received hj)]
  · rw [if_neg hj]
    split
    · exact k.le
    · exact le_rfl

theorem State.callWork_le (j : JobId) : s.callWork k j ≤ k.unreported := by
  unfold State.callWork
  split
  · exact k.le
  · exact le_rfl

theorem State.le_callWork (j : JobId) : k.reported ≤ s.callWork k j := by
  unfold State.callWork
  split
  · exact le_rfl
  · exact k.le

theorem DispatchPc.work_mono {call call' frame : ℕ} (h : call ≤ call') (pc : DispatchPc) :
    pc.work call frame ≤ pc.work call' frame := by
  cases pc with
  | calling => exact h
  | _ => exact le_rfl

/-- The setters of a recorded frame are at most four. -/
theorem length_setters_le (p : RenderProgress) : p.setters.length ≤ 4 := by
  unfold RenderProgress.setters
  cases p.orderedLinks with
  | nil => split <;> simp
  | cons l ls => split <;> simp

/-! ### What a step does to the work -/

section Parts

variable (k) (frames : RenderId → ℕ) (call : JobId → ℕ)

/-- A handler that moves on changes the sum by what it had and has left to do. -/
theorem submitsWork_insert {id : RenderId} {pc : SubmitPc} (pc' : SubmitPc)
    (hpc : s.submits.lookup id = some pc) :
    submitsWork k frames (s.submits.insert id pc') + pc.work k.frame (frames id) =
      submitsWork k frames s.submits + pc'.work k.frame (frames id) :=
  Table.total_insert_over hpc

theorem connectsWork_insert {t : ThreadId} {info : WorkerInfo} {pc : ConnectPc} (pc' : ConnectPc)
    (hpc : s.connects.lookup t = some ⟨info, pc⟩) :
    connectsWork (s.connects.insert t ⟨info, pc'⟩) + pc.work =
      connectsWork s.connects + pc'.work :=
  Table.total_insert_over hpc

theorem completionsWork_insert {t : ThreadId} {w : WorkerId} {j : JobId} {pc : CompletionPc}
    (pc' : CompletionPc) (hpc : s.completions.lookup t = some ⟨w, j, pc⟩) :
    completionsWork (s.completions.insert t ⟨w, j, pc'⟩) + pc.work =
      completionsWork s.completions + pc'.work :=
  Table.total_insert_over hpc

theorem dispatchWork_insert {j : JobId} {w : WorkerId} {addr : String} {f : FrameJob}
    {pc : DispatchPc} (pc' : DispatchPc)
    (hpc : s.dispatchThreads.lookup j = some ⟨w, addr, f, pc⟩) :
    dispatchWork k call (s.dispatchThreads.insert j ⟨w, addr, f, pc'⟩) +
        pc.work (call j) k.frame =
      dispatchWork k call s.dispatchThreads + pc'.work (call j) k.frame :=
  Table.total_insert_over hpc

/-- A recorded frame leaves its setters, at most four, and the answer. -/
theorem completionsWork_recorded {t : ThreadId} {w : WorkerId} {j : JobId} {ctx : FrameJobContext}
    {link : Option String} (p : RenderProgress)
    (hpc : s.completions.lookup t = some ⟨w, j, .record ctx link⟩) :
    completionsWork (s.completions.insert t
        ⟨w, j, .publish (p.setters.map fun x => (ctx.renderId, x))⟩) + 1 ≤
      completionsWork s.completions := by
  have hmove := completionsWork_insert (.publish (p.setters.map fun x => (ctx.renderId, x))) hpc
  have hfour := length_setters_le p
  simp only [CompletionPc.work, List.length_map] at hmove
  omega

variable {k frames call}

/-- **What a step does to the work**, by the frames of the renders after it. -/
theorem Step.workOf (h : Step env s a s')
    (hframes : ∀ id render, s'.history.lookup id = some render → frames id = render.totalFrames)
    (hcall : ∀ j, call j ≤ k.unreported) :
    s'.workOf k frames call + a.own.toNat ≤ s.workOf k frames call + a.cost k := by
  unfold State.workOf
  cases h with
  | createRejected => exact Nat.add_le_add_left (Nat.zero_le _) _
  | @createAccepted id payload timestamp render hnew hpayload =>
    have hcost : Label.cost k (.createRenderRequest id payload timestamp) =
        2 + k.frame * render.totalFrames := by
      simp only [Label.cost, hpayload]
    have hmove : submitsWork k frames (s.submits.insert id .addJob) ≤
        submitsWork k frames s.submits + (2 + k.frame * frames id) := Table.total_insert_le
    rw [hframes id render (AList.lookup_insert _)] at hmove
    simp only [State.setSubmit, Label.own, Bool.toNat_false, hcost]
    omega
  | addJobSkipped hpc hrender hnone =>
    have hmove := submitsWork_insert k frames .returned hpc
    simp only [SubmitPc.work] at hmove
    simp only [State.setSubmit, Label.own, Label.cost, Bool.toNat_true]
    omega
  | addJobProgress hpc hrender hsome =>
    have hmove := submitsWork_insert k frames .enqueue hpc
    simp only [SubmitPc.work] at hmove
    simp only [State.setSubmit, State.addJobProgress, Label.own, Label.cost, Bool.toNat_true]
    omega
  | @addJobQueue id render hpc hrender =>
    -- the frames go from the handler to the queue
    have hmove := submitsWork_insert k frames .returned hpc
    simp only [SubmitPc.work, hframes id render hrender] at hmove
    simp only [State.setSubmit, State.addJobQueue, List.length_append, length_frameJobs,
      Nat.mul_add, Label.own, Label.cost, Bool.toNat_true]
    omega
  | @establishKnown t info w hnew hfind =>
    have hmove : connectsWork (s.connects.insert t ⟨info, .reconnect⟩) ≤
        connectsWork s.connects + 1 := Table.total_insert_le
    simp only [State.setConnect, Label.own, Label.cost, Bool.toNat_false]
    omega
  | @establishNew t info hnew hfind =>
    have hmove : connectsWork (s.connects.insert t ⟨info, .register⟩) ≤
        connectsWork s.connects + 1 := Table.total_insert_le
    simp only [State.setConnect, Label.own, Label.cost, Bool.toNat_false]
    omega
  | registerWorker hpc =>
    have hmove := connectsWork_insert (.answered .ok) hpc
    simp only [ConnectPc.work] at hmove
    simp only [State.setConnect, State.registerWorker, Label.own, Label.cost, Bool.toNat_true]
    omega
  | reconnectWorker hpc =>
    have hmove := connectsWork_insert (.answered .reconnected) hpc
    simp only [ConnectPc.work] at hmove
    simp only [State.setConnect, State.reconnectWorker, Label.own, Label.cost, Bool.toNat_true]
    omega
  | disconnectUnknown => exact le_rfl
  | @disconnect t id w hnew hfind =>
    have hmove : disconnectsWork (s.disconnects.insert t ⟨id, false⟩) ≤
        disconnectsWork s.disconnects + 1 := Table.total_insert_le
    simp only [State.setDisconnect, Label.own, Label.cost, Bool.toNat_false]
    omega
  | @markWorkerOffline t id hpc =>
    have hmove : disconnectsWork (s.disconnects.insert t ⟨id, true⟩) + 1 =
        disconnectsWork s.disconnects + 0 := Table.total_insert_over hpc
    simp only [State.setDisconnect, State.markWorkerOffline, Label.own, Label.cost,
      Bool.toNat_true]
    omega
  | jobCompletedUnknown => exact le_rfl
  | @jobCompleted t worker job w hnew hfind =>
    have hmove : completionsWork (s.completions.insert t ⟨worker, job, .take⟩) ≤
        completionsWork s.completions + 8 := Table.total_insert_le
    simp only [State.setCompletion, Label.own, Label.cost, Bool.toNat_false]
    omega
  | @takeJob t w j ctx hpc hjob =>
    have hmove := completionsWork_insert (.link ctx) hpc
    simp only [CompletionPc.work] at hmove
    simp only [State.setCompletion, Label.own, Label.cost, Bool.toNat_true]
    omega
  | takeUnknown hpc hjob =>
    have hmove := completionsWork_insert (.publish []) hpc
    simp only [CompletionPc.work, List.length_nil] at hmove
    simp only [State.setCompletion, Label.own, Label.cost, Bool.toNat_true]
    omega
  | @buildLink t now w j ctx render hpc hrender =>
    have hmove := completionsWork_insert
      (.record ctx (buildDownloadLink env now (render.frameKey ctx.frameIndex))) hpc
    simp only [CompletionPc.work] at hmove
    simp only [State.setCompletion, Label.own, Label.cost, Bool.toNat_true]
    omega
  | buildLinkLost hpc hrender =>
    have hmove := completionsWork_insert (.publish []) hpc
    simp only [CompletionPc.work, List.length_nil] at hmove
    simp only [State.setCompletion, Label.own, Label.cost, Bool.toNat_true]
    omega
  | @recordProgress t w j ctx link p hpc hentry hdone =>
    have hmove := completionsWork_recorded (p.record ctx.frameIndex link) hpc
    simp only [State.setCompletion, Label.own, Label.cost, Bool.toNat_true]
    omega
  | @recordLast t w j ctx link p hpc hentry hdone =>
    have hmove := completionsWork_recorded (p.record ctx.frameIndex link) hpc
    simp only [State.setCompletion, Label.own, Label.cost, Bool.toNat_true]
    omega
  | recordFinalized hpc hentry =>
    have hmove := completionsWork_insert (.publish []) hpc
    simp only [CompletionPc.work, List.length_nil] at hmove
    simp only [State.setCompletion, Label.own, Label.cost, Bool.toNat_true]
    omega
  | @publish t w j id x todo hpc =>
    have hmove := completionsWork_insert (.publish todo) hpc
    simp only [CompletionPc.work, List.length_cons] at hmove
    simp only [State.setCompletion, State.applySetter, Label.own, Label.cost, Bool.toNat_true]
    omega
  | markWorkerIdle hpc =>
    have hmove := completionsWork_insert .answered hpc
    simp only [CompletionPc.work, List.length_nil] at hmove
    simp only [State.setCompletion, State.markWorkerIdle, Label.own, Label.cost, Bool.toNat_true]
    omega
  | @assignJob job f rest w hnew hqueue hidle =>
    -- the frame goes from the queue to its call
    have hmove : dispatchWork k call (s.dispatchThreads.insert job
        ⟨w.id, State.workerAddress w, f, .calling⟩) ≤
        dispatchWork k call s.dispatchThreads + call job := Table.total_insert_le
    have hle := hcall job
    simp only [hqueue, List.length_cons, Nat.mul_succ, Label.own, Label.cost, Bool.toNat_true]
    unfold Rates.frame at hmove ⊢
    omega
  | @renderJobReturned job accepted w addr f hpc =>
    cases accepted with
    | true =>
      have hmove := dispatchWork_insert k call (.ended true) hpc
      simp only [DispatchPc.work] at hmove
      simp only [State.setDispatch, if_true, Label.own, Label.cost, Bool.toNat_false]
      omega
    | false =>
      have hmove := dispatchWork_insert k call .undo hpc
      simp only [DispatchPc.work] at hmove
      simp only [State.setDispatch, Bool.false_eq_true, if_false, Label.own, Label.cost,
        Bool.toNat_false]
      omega
  | undoRegistration hpc =>
    have hmove := dispatchWork_insert k call .requeue hpc
    simp only [DispatchPc.work] at hmove
    simp only [State.setDispatch, Label.own, Label.cost, Bool.toNat_true]
    omega
  | requeueFrame hpc =>
    -- the frame goes back to the queue
    have hmove := dispatchWork_insert k call .offline hpc
    simp only [DispatchPc.work] at hmove
    simp only [State.setDispatch, List.length_append, List.length_singleton, Nat.mul_succ,
      Label.own, Label.cost, Bool.toNat_true]
    omega
  | markDispatchOffline hpc =>
    have hmove := dispatchWork_insert k call (.ended false) hpc
    simp only [DispatchPc.work] at hmove
    simp only [State.setDispatch, State.markWorkerOffline, Label.own, Label.cost, Bool.toNat_true]
    omega

end Parts

/-- What was left to do, by other charges for the calls. -/
theorem State.workOf_congr (frames : RenderId → ℕ) (call call' : JobId → ℕ) :
    s.workOf k frames call' + dispatchWork k call s.dispatchThreads =
      s.workOf k frames call + dispatchWork k call' s.dispatchThreads := by
  unfold State.workOf
  omega

/-- What was left to do, by the frames of the renders after the step. -/
theorem Step.workOf_framesOf (hI : s.WF env) (h : Step env s a s') (call : JobId → ℕ) :
    s.workOf k s'.framesOf call = s.workOf k s.framesOf call := by
  have hsubmits : submitsWork k s'.framesOf s.submits = submitsWork k s.framesOf s.submits := by
    refine Table.total_congr fun id pc hpc => ?_
    rw [h.framesOf (hI.submit_known id pc hpc)]
  unfold State.workOf
  rw [hsubmits]

/-- Where each call is charged with no more, there is no more to do. -/
theorem dispatchWork_mono {call call' : JobId → ℕ} {m : Table JobId DispatchThread}
    (h : ∀ j, call j ≤ call' j) : dispatchWork k call m ≤ dispatchWork k call' m :=
  Table.total_mono fun j d _ => DispatchPc.work_mono (h j) d.pc

/-- What an outstanding call is charged with less, there is less to do. -/
theorem dispatchWork_add_le {call call' : JobId → ℕ} {m : Table JobId DispatchThread} {j : JobId}
    {d : DispatchThread} {n : ℕ} (h : ∀ j, call j ≤ call' j) (hd : m.lookup j = some d)
    (hpc : d.pc = .calling) (hn : call j + n ≤ call' j) :
    dispatchWork k call m + n ≤ dispatchWork k call' m := by
  refine Table.total_add_le (fun j d _ => DispatchPc.work_mono (h j) d.pc) hd ?_
  rw [hpc]
  exact hn

/-- What a step does to the work, where the calls are charged with `call'` after it. -/
theorem Step.workOf_le (hI : s.WF env) (h : Step env s a s') (call : JobId → ℕ)
    {call' : JobId → ℕ} (hcall : ∀ j, call' j ≤ k.unreported) :
    s'.workOf k s'.framesOf call' + a.own.toNat + dispatchWork k call s.dispatchThreads ≤
      s.workOf k s.framesOf call + a.cost k + dispatchWork k call' s.dispatchThreads := by
  have hstep : s'.workOf k s'.framesOf call' + a.own.toNat ≤
      s.workOf k s'.framesOf call' + a.cost k :=
    h.workOf (fun id render => State.framesOf_of_lookup) hcall
  have hcongr := s.workOf_congr (k := k) s.framesOf call call'
  rw [h.workOf_framesOf hI] at hstep
  omega

/-- **A step takes its work out of what is left to do**, and a message adds its cost. -/
theorem Step.work (hI : s.WF env) (h : Step env s a s') :
    s'.work k + a.own.toNat ≤ s.work k + a.cost k := by
  have hstep : s'.work k + a.own.toNat + dispatchWork k (s.callWork k) s.dispatchThreads ≤
      s.work k + a.cost k + dispatchWork k (s'.callWork k) s.dispatchThreads :=
    h.workOf_le hI _ State.callWork_le
  have hcalls : dispatchWork k (s'.callWork k) s.dispatchThreads ≤
      dispatchWork k (s.callWork k) s.dispatchThreads := dispatchWork_mono h.callWork_le
  omega

/-- The first report of a job takes the charge for it off. -/
theorem Step.work_report {t : ThreadId} {w : WorkerId} {j : JobId} {addr : String} {f : FrameJob}
    (hI : s.WF env) (h : Step env s (.jobCompleted t w j) s')
    (hd : s.dispatchThreads.lookup j = some ⟨w, addr, f, .calling⟩)
    (hnew : s.received j = false) : s'.work k + k.unreported ≤ s.work k + k.reported + 8 := by
  have hstep : s'.work k + 0 + dispatchWork k (s.callWork k) s.dispatchThreads ≤
      s.work k + 8 + dispatchWork k (s'.callWork k) s.dispatchThreads :=
    h.workOf_le hI _ State.callWork_le
  have hafter : s'.callWork k j = k.reported := by
    refine if_pos (State.received_iff.mpr ?_)
    cases h with
    | jobCompleted => exact ⟨t, _, AList.lookup_insert _, rfl⟩
  have hbefore : s.callWork k j = k.unreported := if_neg (by rw [hnew]; nofun)
  -- the call of the job, and no other, is charged with less
  have hless : dispatchWork k (s'.callWork k) s.dispatchThreads + (k.unreported - k.reported) ≤
      dispatchWork k (s.callWork k) s.dispatchThreads := by
    refine dispatchWork_add_le h.callWork_le hd rfl ?_
    rw [hafter, hbefore]
    exact (Nat.add_sub_cancel' k.le).le
  have hle := k.le
  omega

/-- A call that returns OK takes its charge off. -/
theorem Step.workOf_returned {j : JobId} (h : Step env s (.renderJobReturned j true) s')
    (frames : RenderId → ℕ) (call : JobId → ℕ) :
    s'.workOf k frames call + call j = s.workOf k frames call := by
  cases h with
  | @renderJobReturned _ _ w addr f hpc =>
    have hmove := dispatchWork_insert k call (.ended true) hpc
    simp only [DispatchPc.work] at hmove
    unfold State.workOf
    simp only [State.setDispatch, if_true]
    omega

/-- It changes neither the frames of the renders nor the other charges. -/
theorem Step.renderJobReturned_same {j : JobId} {accepted : Bool}
    (h : Step env s (.renderJobReturned j accepted) s') :
    s'.framesOf = s.framesOf ∧ s'.received = s.received := by
  cases h with
  | renderJobReturned => exact ⟨rfl, rfl⟩

/-- The threads' own steps cost nothing. -/
theorem Label.cost_of_own (h : a.own = true) : a.cost k = 0 := by
  cases a with
  | renderJobReturned => cases h
  | createRenderRequest => cases h
  | establishConnection => cases h
  | disconnect => cases h
  | jobCompleted => cases h
  | _ => rfl

/-! ### The steps of a run -/

/-- Where the outstanding calls are charged with nothing: their reports and returns are
messages too. -/
def Rates.messages : Rates := ⟨0, 0, le_rfl⟩

/-- The steps the scheduler's own threads have taken. -/
def ownSteps (tr : List Label) : ℕ := System.tally (fun a => a.own.toNat) tr

/-- What the messages of a run leave to do. -/
def messageCost (tr : List Label) : ℕ := System.tally (Label.cost .messages) tr

/-- A render of one frame, from the connection of its worker to COMPLETED. -/
def oneFrameRendered : List Label :=
  [.establishConnection 0 ⟨"10.0.0.1", "w", 50051⟩, .registerWorker 0 "w",
    .createRenderRequest "r" (samplePayload 1) "now", .addJobProgress "r", .addJobQueue "r",
    .assignJob "j", .jobCompleted 1 "w" "j", .takeJob 1, .buildLink 1 0, .recordFrame 1 ⟨"r", 0⟩,
    .publish 1, .publish 1, .publish 1, .publish 1, .markWorkerIdle 1]

-- here the threads have taken all of the steps
example : messageCost oneFrameRendered = 12 := by decide

end Pathological
