import Mathlib.Data.Fintype.EquivFin
import Pathological.Scheduler.Orphans
import Pathological.Scheduler.RenderJob
import Pathological.Scheduler.Work
import Pathological.Cluster.Registration

/-!
# Draining

When nothing new is submitted and no call fails any more, the scheduler comes to rest,
and it does so with every render COMPLETED, whatever has failed before
(`scheduler_drains`).

What is asked of the run so far is `FaithfulWorkers`: accepted renders have frames, a
worker reports a job while it runs it, its call returns OK when the report has been
answered, and a call that fails has not been reported. What is asked of the state is
`State.Ready`, a worker that is in the table, not OFFLINE, and not about to be marked so.
From there on, `Calm` is every step but a submission, a connect, a disconnect and a
failure.

The three parts of the argument:

* `State.Faithful`, the invariant of the faithful runs; its last field says that a BUSY
  worker is engaged, so that a worker with nothing left to report is IDLE;
* each calm step takes work out of the state (`Calm.work`);
* where no calm step is left, no handler, call or frame is (`State.Resting`), and so no
  render is left unfinished.
-/

namespace Pathological

open Framework

/-- The thread is about to mark its worker OFFLINE. -/
def DispatchPc.givesUp : DispatchPc → Bool
  | .undo | .requeue | .offline => true
  | .calling | .ended _ => false

/-- The call of the job is outstanding on the worker. -/
def State.Runs (s : State) (w : WorkerId) (j : JobId) : Prop :=
  ∃ d, s.dispatchThreads.lookup j = some d ∧ d.workerId = w ∧ d.pc = .calling

/-- A `JobCompleted` for the job id has been answered. -/
def State.Answered (s : State) (j : JobId) : Prop :=
  ∃ t c, s.completions.lookup t = some c ∧ c.jobId = j ∧ c.pc = .answered

/-- Renders have frames, and workers do what `RenderServer::RenderJob` does when nothing
fails on the way: a job is reported while it runs, and returns OK when its report has been
answered. A call can fail, but not after its report. -/
def FaithfulWorkers : System.Condition State Label := fun _ s a =>
  match a with
  | .createRenderRequest _ payload _ => payload.animationRuntime ≠ .ok 0
  | .jobCompleted _ w j => s.Runs w j
  | .renderJobReturned j true => s.Answered j
  | .renderJobReturned j false => s.received j = false
  | _ => True

/-- The scheduler goes on, and each outstanding call is reported once and returns OK. -/
def Calm (s : State) (a : Label) : Prop :=
  match a with
  | .jobCompleted _ w j => s.Runs w j ∧ s.received j = false
  | .renderJobReturned j true => s.Answered j
  | a => a.own = true

variable {env : Env} {s s' : State} {a : Label} {tr : List Label} {w : WorkerId} {j : JobId}

theorem Calm.faithful (h : Calm s a) : FaithfulWorkers tr s a := by
  cases a with
  | createRenderRequest => cases h
  | jobCompleted => exact h.1
  | renderJobReturned j accepted =>
    cases accepted with
    | true => exact h
    | false => cases h
  | _ => trivial

theorem Calm.of_own (h : a.own = true) : Calm s a := by
  cases a with
  | jobCompleted => cases h
  | renderJobReturned => cases h
  | _ => exact h

/-! ### Busy workers -/

/-- Something is still to come of the worker: it is about to be marked OFFLINE, a call of it
is outstanding with no report answered, or a report of it is being handled. -/
inductive State.Engaged (s : State) (w : WorkerId) : Prop where
  | givesUp {job d} (hd : s.dispatchThreads.lookup job = some d) (hw : d.workerId = w)
      (hpc : d.pc.givesUp = true)
  | running {job} (hjob : s.Runs w job) (hanswer : ¬ s.Answered job)
  | reporting {t c} (hc : s.completions.lookup t = some c) (hw : c.workerId = w)
      (hpc : c.pc ≠ .answered)

/-- The step writes IDLE or OFFLINE to the worker at the end of a handler. -/
def Label.releases (s : State) (w : WorkerId) : Label → Prop
  | .markWorkerIdle t => ∃ c, s.completions.lookup t = some c ∧ c.workerId = w
  | .markDispatchOffline job => ∃ d, s.dispatchThreads.lookup job = some d ∧ d.workerId = w
  | _ => False

theorem State.id_of_find {x : Worker} (hx : s.findWorkerByID w = some x) : x.id = w := by
  have hid := List.find?_some hx
  exact of_decide_eq_true hid

/-- A worker found in a table with the same ids was found before. -/
theorem State.find_of_ids {x : Worker} (hids : s'.workers.map Worker.id = s.workers.map Worker.id)
    (hx : s'.findWorkerByID w = some x) : ∃ y, s.findWorkerByID w = some y := by
  rw [← Option.isSome_iff_exists, isSome_findWorkerByID, ← hids, ← isSome_findWorkerByID, hx]
  rfl

/-- After a write of a status other than BUSY, an entry that is BUSY was so before, and is
not the one written to. -/
theorem State.busy_of_set {id : WorkerId} {x : Worker} (st : WorkerStatus)
    (hs' : s'.workers = s.setWorkerStatus id st) (hst : st ≠ .busy)
    (hx : s'.findWorkerByID w = some x) (hbusy : x.status = .busy) :
    id ≠ w ∧ s.findWorkerByID w = some x := by
  have hids : s'.workers.map Worker.id = s.workers.map Worker.id := by
    rw [hs']
    exact map_updateFirst fun _ => rfl
  obtain ⟨y, hy⟩ := State.find_of_ids hids hx
  obtain ⟨x', hx', hcases⟩ := find?_updateFirst_first (p := fun y => decide (y.id = id))
    (f := fun y : Worker => { y with status := st }) (fun _ => rfl) hy
  have hfind : s'.findWorkerByID w = some x' := by
    rw [State.findWorkerByID, hs']
    exact hx'
  obtain rfl := Option.some.inj (hfind.symm.trans hx)
  rcases hcases with rfl | ⟨-, rfl⟩
  · refine ⟨?_, hy⟩
    -- the entry of the id that is written to has the status written
    rintro rfl
    have hself := find?_updateFirst_self (p := fun y : Worker => decide (y.id = id))
      (f := fun y => { y with status := st }) (l := s.workers) fun _ => rfl
    have hsame : s.workers.find? (fun y => decide (y.id = id)) = some x' := hy
    rw [hsame] at hself
    have hwritten := congrArg Worker.status (Option.some.inj (hx'.symm.trans hself))
    exact hst (hwritten.symm.trans hbusy)
  · exact absurd hbusy hst

/-- A BUSY entry was so before, and the step does not release its worker, or the step has
just dispatched a frame to it. -/
theorem Step.busy_cases {x : Worker} (h : Step env s a s') (hx : s'.findWorkerByID w = some x)
    (hbusy : x.status = .busy) :
    (s.findWorkerByID w = some x ∧ ¬ a.releases s w) ∨ ∃ job, s'.Runs w job ∧
      job ∉ s.dispatchThreads := by
  cases h with
  | registerWorker hpc =>
    refine Or.inl ⟨?_, id⟩
    have hfind : (s.workers ++ [_]).find? _ = some x := hx
    rw [List.find?_append, Option.or_eq_some_iff] at hfind
    rcases hfind with hfind | ⟨-, hfind⟩
    · exact hfind
    · -- a new entry is IDLE
      obtain rfl := List.mem_singleton.mp (List.mem_of_find?_eq_some hfind)
      cases hbusy
  | reconnectWorker hpc => exact Or.inl ⟨(State.busy_of_set .idle rfl nofun hx hbusy).2, id⟩
  | markWorkerOffline hpc =>
    exact Or.inl ⟨(State.busy_of_set .offline rfl nofun hx hbusy).2, id⟩
  | markWorkerIdle hpc =>
    obtain ⟨hne, hfind⟩ := State.busy_of_set .idle rfl nofun hx hbusy
    refine Or.inl ⟨hfind, ?_⟩
    rintro ⟨c, hc, rfl⟩
    obtain rfl := Option.some.inj (hpc.symm.trans hc)
    exact hne rfl
  | markDispatchOffline hpc =>
    obtain ⟨hne, hfind⟩ := State.busy_of_set .offline rfl nofun hx hbusy
    refine Or.inl ⟨hfind, ?_⟩
    rintro ⟨d, hd, rfl⟩
    obtain rfl := Option.some.inj (hpc.symm.trans hd)
    exact hne rfl
  | @assignJob job f rest y hnew hqueue hidle =>
    have hids := map_updateFirst (p := fun x : Worker => decide (x.status = .idle))
      (f := fun x => { x with status := .busy }) (l := s.workers) (g := Worker.id) fun _ => rfl
    obtain ⟨x₀, hold⟩ := State.find_of_ids hids hx
    obtain ⟨x', hx', hcases⟩ := find?_updateFirst_first
      (p := fun x : Worker => decide (x.status = .idle))
      (f := fun x : Worker => { x with status := .busy }) (fun _ => rfl) hold
    obtain rfl := Option.some.inj (hx'.symm.trans hx)
    rcases hcases with rfl | ⟨hfirst, -⟩
    · exact Or.inl ⟨hold, id⟩
    · -- the entry found idle is the worker's
      obtain rfl := Option.some.inj (hfirst.symm.trans hidle)
      exact Or.inr ⟨job, ⟨_, AList.lookup_insert _, State.id_of_find hold, rfl⟩, hnew⟩
  | _ => exact Or.inl ⟨hx, id⟩

/-! ### How a handler and a dispatch thread move -/

/-- A `JobCompleted` handler stays, and it is `markWorkerIdle` that answers it. -/
theorem Step.handler {t : ThreadId} {c : CompletionThread} (h : Step env s a s')
    (hc : s.completions.lookup t = some c) :
    ∃ pc, s'.completions.lookup t = some { c with pc } ∧
      (pc = .answered → c.pc = .answered ∨ a = .markWorkerIdle t) := by
  by_cases ha : a.completionThread = some t
  · -- the handler's own step
    cases h with
    | takeJob hpc | takeUnknown hpc | buildLink hpc | buildLinkLost hpc | recordProgress hpc
    | recordLast hpc | recordFinalized hpc | publish hpc =>
      obtain rfl := Option.some.inj ha
      obtain rfl := Option.some.inj (hc.symm.trans hpc)
      exact ⟨_, AList.lookup_insert _, nofun⟩
    | markWorkerIdle hpc =>
      obtain rfl := Option.some.inj ha
      obtain rfl := Option.some.inj (hc.symm.trans hpc)
      exact ⟨_, AList.lookup_insert _, fun _ => Or.inr rfl⟩
    | _ => cases ha
  · exact ⟨c.pc, h.other ha hc, Or.inl⟩

/-- A job whose report has been answered had it answered before, or its handler has just run
`markWorkerIdle`. -/
theorem State.Answered.cases (h : Step env s a s') (hj : s'.Answered j) :
    s.Answered j ∨ ∃ t c, a = .markWorkerIdle t ∧ s.completions.lookup t = some c ∧
      c.jobId = j := by
  obtain ⟨t, c, hc, hid, hpc⟩ := hj
  rcases h.completion_cases hc with ⟨-, htake⟩ | ⟨c₀, hc₀, hid₀, -⟩
  · cases htake.symm.trans hpc
  · obtain ⟨pc, hc', hpc'⟩ := h.handler hc₀
    obtain rfl := Option.some.inj (hc'.symm.trans hc)
    rcases hpc' hpc with hpc₀ | rfl
    · exact Or.inl ⟨t, c₀, hc₀, hid, hpc₀⟩
    · exact Or.inr ⟨t, c₀, rfl, hc₀, hid⟩

/-- The steps of the dispatch thread of a job. -/
inductive DispatchPc.Next (job : JobId) : DispatchPc → Label → DispatchPc → Prop where
  | accepted : Next job .calling (.renderJobReturned job true) (.ended true)
  | failed : Next job .calling (.renderJobReturned job false) .undo
  | undo : Next job .undo (.undoRegistration job) .requeue
  | requeue : Next job .requeue (.requeueFrame job) .offline
  | offline : Next job .offline (.markDispatchOffline job) (.ended false)

/-- A dispatch thread stands where it stood, or has taken its step. -/
theorem Step.dispatch_next {d : DispatchThread} (h : Step env s a s')
    (hd : s.dispatchThreads.lookup j = some d) :
    s'.dispatchThreads.lookup j = some d ∨
      ∃ pc, d.pc.Next j a pc ∧ s'.dispatchThreads.lookup j = some { d with pc } := by
  -- the thread that moves is this one, or another
  have hset {job : JobId} {d₀ : DispatchThread} {pc : DispatchPc}
      (hd₀ : s.dispatchThreads.lookup job = some d₀) (hnext : d₀.pc.Next job a pc) :
      (s.dispatchThreads.insert job { d₀ with pc }).lookup j = some d ∨
        ∃ pc', d.pc.Next j a pc' ∧
          (s.dispatchThreads.insert job { d₀ with pc }).lookup j = some { d with pc := pc' } := by
    by_cases hj : j = job
    · subst hj
      obtain rfl := Option.some.inj (hd.symm.trans hd₀)
      exact Or.inr ⟨pc, hnext, AList.lookup_insert _⟩
    · exact Or.inl ((AList.lookup_insert_ne hj).trans hd)
  cases h with
  | assignJob hnew => exact Or.inl (Table.lookup_insert_new hnew hd)
  | @renderJobReturned job accepted w addr f hpc =>
    cases accepted with
    | true => exact hset hpc .accepted
    | false => exact hset hpc .failed
  | undoRegistration hpc => exact hset hpc .undo
  | requeueFrame hpc => exact hset hpc .requeue
  | markDispatchOffline hpc => exact hset hpc .offline
  | _ => exact Or.inl hd

/-- A worker that is not released stays engaged, in a run of faithful workers. -/
theorem State.Engaged.step (he : s.Engaged w) (h : Step env s a s')
    (hsent : ∀ t c, s.completions.lookup t = some c → ∀ d,
      s.dispatchThreads.lookup c.jobId = some d → d.workerId = c.workerId)
    (hC : FaithfulWorkers tr s a) (hrel : ¬ a.releases s w) : s'.Engaged w := by
  cases he with
  | @givesUp job d hd hw hpc =>
    rcases h.dispatch_next hd with hd' | ⟨pc, hnext, hd'⟩
    · exact .givesUp hd' hw hpc
    · obtain ⟨w₀, addr, f, pc₀⟩ := d
      cases hnext with
      | accepted | failed => cases hpc
      | undo | requeue => exact .givesUp hd' hw rfl
      | offline => exact absurd ⟨_, hd, hw⟩ hrel
  | @running job hjob hanswer =>
    obtain ⟨d, hd, hw, hpc⟩ := hjob
    rcases h.dispatch_next hd with hd' | ⟨pc, hnext, hd'⟩
    · refine .running ⟨d, hd', hw, hpc⟩ fun hanswer' => ?_
      rcases hanswer'.cases h with hold | ⟨t, c, rfl, hc, rfl⟩
      · exact hanswer hold
      · -- the report that is answered is the worker's own
        exact hrel ⟨c, hc, (hsent t c hc d hd).symm.trans hw⟩
    · obtain ⟨w₀, addr, f, pc₀⟩ := d
      cases hnext with
      | accepted => exact absurd hC hanswer
      | failed => exact .givesUp hd' hw rfl
      | undo | requeue | offline => cases hpc
  | @reporting t c hc hw hpc =>
    obtain ⟨pc, hc', hpc'⟩ := h.handler hc
    refine .reporting hc' hw fun hans => ?_
    rcases hpc' hans with hpc₀ | rfl
    · exact hpc hpc₀
    · exact hrel ⟨c, hc, hw⟩

/-! ### The invariant -/

/-- What holds along a run of faithful workers. -/
structure State.Faithful (s : State) : Prop where
  /-- A report came from the worker of the job, whose call has not failed. -/
  sent : ∀ t c, s.completions.lookup t = some c → ∃ d,
    s.dispatchThreads.lookup c.jobId = some d ∧ d.workerId = c.workerId ∧ d.pc.failed = false
  /-- A job whose report has been looked up is not registered. -/
  taken : ∀ t c, s.completions.lookup t = some c → c.pc ≠ .take →
    c.jobId ∉ s.workerJobToRenderId
  in_table : ∀ j d, s.dispatchThreads.lookup j = some d →
    (s.findWorkerByID d.workerId).isSome = true
  engaged : ∀ w x, s.findWorkerByID w = some x → x.status = .busy → s.Engaged w

namespace State.Faithful

variable (hF : s.Faithful) (hC : FaithfulWorkers tr s a) (h : Step env s a s')

include hF h

theorem in_table_step : ∀ j d, s'.dispatchThreads.lookup j = some d →
    (s'.findWorkerByID d.workerId).isSome = true := by
  intro j d hd
  apply h.findWorkerByID
  rcases h.dispatch_cases hd with ⟨d₀, hd₀, hw, -⟩ | ⟨-, x, hidle, hx⟩
  · rw [hw]
    exact hF.in_table j d₀ hd₀
  · rw [hx, isSome_findWorkerByID]
    exact List.mem_map.mpr ⟨x, (findIdleWorker_spec hidle).1, rfl⟩

theorem taken_step : ∀ t c, s'.completions.lookup t = some c → c.pc ≠ .take →
    c.jobId ∉ s'.workerJobToRenderId := by
  intro t c hc hpc hin
  rcases h.completion_cases hc with ⟨-, htake⟩ | ⟨c₀, hc₀, hid, hpast⟩
  · exact hpc htake
  · rcases hpast hpc with hpc₀ | hout
    · -- a job registered anew has no report yet
      rcases h.registered_cases hin with hold | hnew
      · exact hF.taken t c₀ hc₀ hpc₀ (hid ▸ hold)
      · obtain ⟨d, hd, -⟩ := hF.sent t c₀ hc₀
        exact hnew (hid ▸ Table.mem_of_lookup hd)
    · exact hout hin

include hC

theorem sent_step : ∀ t c, s'.completions.lookup t = some c → ∃ d,
    s'.dispatchThreads.lookup c.jobId = some d ∧ d.workerId = c.workerId ∧
      d.pc.failed = false := by
  intro t c hc
  -- what the dispatch thread of a reported job does next is not a failure
  have hkeep {j : JobId} {d : DispatchThread} (hd : s.dispatchThreads.lookup j = some d)
      (hpc : d.pc.failed = false) (hrec : a = .renderJobReturned j false → s.received j = true) :
      ∃ d', s'.dispatchThreads.lookup j = some d' ∧ d'.workerId = d.workerId ∧
        d'.pc.failed = false := by
    rcases h.dispatch_next hd with hd' | ⟨pc, hnext, hd'⟩
    · exact ⟨d, hd', rfl, hpc⟩
    · obtain ⟨w₀, addr, f, pc₀⟩ := d
      cases hnext with
      | accepted => exact ⟨_, hd', rfl, rfl⟩
      | failed => exact absurd (hrec rfl) (by rw [show s.received j = false from hC]; nofun)
      | undo | requeue | offline => cases hpc
  rcases h.completion_cases hc with ⟨rfl, -⟩ | ⟨c₀, hc₀, hid, -⟩
  · obtain ⟨d, hd, hw, hpc⟩ := hC
    obtain ⟨d', hd', hw', hpc'⟩ := hkeep hd (by rw [hpc]; rfl) nofun
    exact ⟨d', hd', hw'.trans hw, hpc'⟩
  · obtain ⟨d, hd, hw, hpc⟩ := hF.sent t c₀ hc₀
    obtain ⟨d', hd', hw', hpc'⟩ :=
      hkeep hd hpc fun _ => State.received_iff.mpr ⟨t, c₀, hc₀, rfl⟩
    obtain ⟨pc, hc', -⟩ := h.handler hc₀
    obtain rfl := Option.some.inj (hc'.symm.trans hc)
    exact ⟨d', hd', hw'.trans hw, hpc'⟩

theorem engaged_step : ∀ w x, s'.findWorkerByID w = some x → x.status = .busy →
    s'.Engaged w := by
  intro w x hx hbusy
  rcases h.busy_cases hx hbusy with ⟨hold, hrel⟩ | ⟨job, hjob, hnew⟩
  · refine (hF.engaged w x hold hbusy).step h (fun t c hc d hd => ?_) hC hrel
    obtain ⟨d', hd', hw, -⟩ := hF.sent t c hc
    rwa [Option.some.inj (hd.symm.trans hd')]
  · -- nobody has reported the job that has just been dispatched
    refine .running hjob fun hanswer => ?_
    have hreported {t : ThreadId} {c : CompletionThread} (hc : s.completions.lookup t = some c)
        (hid : c.jobId = job) : False := by
      obtain ⟨d, hd, -⟩ := hF.sent t c hc
      exact hnew (hid ▸ Table.mem_of_lookup hd)
    rcases hanswer.cases h with ⟨t, c, hc, hid, -⟩ | ⟨t, c, -, hc, hid⟩
    · exact hreported hc hid
    · exact hreported hc hid

protected theorem step : s'.Faithful where
  sent := hF.sent_step hC h
  taken := hF.taken_step h
  in_table := hF.in_table_step h
  engaged := hF.engaged_step hC h

end State.Faithful

theorem State.Faithful.of_run (hrun : (scheduler env).Run FaithfulWorkers tr s) : s.Faithful := by
  refine hrun.invariant (fun _ s => s.Faithful) ?_ fun _ hF hC hs => hF.step hC (.of_step hs)
  constructor
  · intro t c hc
    cases hc
  · intro t c hc
    cases hc
  · intro j d hd
    cases hd
  · intro w x hx
    cases hx

/-- A run of faithful workers leaves no render unattended. -/
theorem FaithfulWorkers.attending (hrun : (scheduler env).Run FaithfulWorkers tr s) :
    (scheduler env).Run Attending tr s := by
  induction hrun with
  | nil => exact .nil
  | @snoc tr s s' a hrun hC hs ih =>
    refine ih.snoc ?_ hs
    have hF := State.Faithful.of_run hrun
    cases Step.of_step hs with
    | createRejected | createAccepted => exact hC
    | @undoRegistration job w addr f hpc =>
      -- the call has failed without a report, so its registration is untouched
      rcases (State.JobIds.of_run hrun).registered job _ hpc rfl with hin | ⟨t, c, hc, rfl, -⟩
      · exact hin
      · obtain ⟨d, hd, -, hfailed⟩ := hF.sent t c hc
        obtain rfl := Option.some.inj (hd.symm.trans hpc)
        cases hfailed
    | @renderJobReturned job accepted w addr f hpc =>
      cases accepted with
      | false => trivial
      | true =>
        intro hin
        obtain ⟨t, c, hc, rfl, hans⟩ := hC
        exact absurd hin (hF.taken t c hc (by rw [hans]; nofun))
    | _ => trivial

/-! ### Calm steps -/

/-- The worker is in the table, not OFFLINE, and nobody is about to mark it so. -/
structure State.Ready (s : State) (w : WorkerId) : Prop where
  usable : s.Usable w
  staying : ∀ t, s.disconnects.lookup t ≠ some ⟨w, false⟩
  trusted : ∀ j d, s.dispatchThreads.lookup j = some d → d.workerId = w → d.pc.givesUp = false

/-- A calm step leaves a ready worker ready. -/
theorem State.Ready.step (hw : s.Ready w) (hK : Calm s a) (h : Step env s a s') : s'.Ready w where
  usable := by
    refine hw.usable.step h ?_ ?_
    · rintro t rfl
      cases h with
      | markWorkerOffline hpc => exact hw.staying t hpc
    · rintro job d rfl hd hid
      cases h with
      | markDispatchOffline hpc =>
        obtain rfl := Option.some.inj (hpc.symm.trans hd)
        cases hw.trusted job _ hd hid
  staying := by
    intro t ht
    cases h with
    | disconnect => cases hK
    | @markWorkerOffline t' id hpc =>
      rcases Table.lookup_insert_cases ht with ⟨-, heq⟩ | ⟨-, ht⟩
      · cases heq
      · exact hw.staying t ht
    | _ => exact hw.staying t ht
  trusted := by
    intro j d hd hid
    rcases h.dispatch_cases hd with ⟨d₀, hd₀, hw₀, -⟩ | ⟨rfl, -⟩
    · have hpc₀ := hw.trusted j d₀ hd₀ (hw₀.symm.trans hid)
      rcases h.dispatch_next hd₀ with hd' | ⟨pc, hnext, hd'⟩
      · obtain rfl := Option.some.inj (hd'.symm.trans hd)
        exact hpc₀
      · obtain rfl := Option.some.inj (hd'.symm.trans hd)
        obtain ⟨w₁, addr, f, pc₁⟩ := d₀
        cases hnext with
        | accepted | offline => rfl
        | failed => cases hK
        | undo | requeue => cases hpc₀
    · cases h with
      | assignJob =>
        obtain rfl := Option.some.inj ((AList.lookup_insert _).symm.trans hd)
        rfl

/-- An outstanding call has its report and its return before it, and its `JobCompleted`
handler. -/
def Rates.calls : Rates := ⟨10, 1, by decide⟩

/-- **A calm step takes work out of the state.** -/
theorem Calm.work (hI : s.WF env) (hK : Calm s a) (h : Step env s a s') :
    s'.work .calls < s.work .calls := by
  -- the threads' own steps
  have hown (ha : a.own = true) : s'.work .calls < s.work .calls := by
    have hstep := h.work (k := .calls) hI
    rw [Label.cost_of_own ha, ha, Bool.toNat_true] at hstep
    exact hstep
  cases a with
  | jobCompleted t w j =>
    obtain ⟨⟨⟨w₀, addr, f, pc⟩, hd, rfl, rfl⟩, hnew⟩ := hK
    have hreport : _ + 10 ≤ _ + 1 + 8 := h.work_report (k := .calls) hI hd hnew
    omega
  | renderJobReturned j accepted =>
    cases accepted with
    | true =>
      obtain ⟨hframes, hreceived⟩ := h.renderJobReturned_same
      have hsame : s'.callWork .calls = s.callWork .calls := by
        unfold State.callWork
        rw [hreceived]
      have hcharge := h.workOf_returned (k := .calls) s.framesOf (s.callWork .calls)
      have hpos : 1 ≤ s.callWork .calls j := State.le_callWork (k := .calls) j
      unfold State.work
      rw [hframes, hsame]
      omega
    | false => cases hK
  | _ => exact hown hK

/-! ### Where no calm step is left -/

/-- Nothing is going on: every handler has answered, every dispatch thread has ended, and
there is no frame or no worker to assign. -/
structure State.Resting (s : State) : Prop where
  submits : ∀ r pc, s.submits.lookup r = some pc → pc = .returned
  completions : ∀ t c, s.completions.lookup t = some c → c.pc = .answered
  dispatch : ∀ j d, s.dispatchThreads.lookup j = some d → ∃ accepted, d.pc = .ended accepted
  assigned : s.pendingJobs = [] ∨ s.findIdleWorker = none

/-- There is a job id that has not been used. -/
theorem exists_unused_job (s : State) : ∃ job : JobId, job ∉ s.dispatchThreads := by
  obtain ⟨job, hjob⟩ := Infinite.exists_notMem_finset s.dispatchThreads.keys.toFinset
  exact ⟨job, fun hin => hjob (List.mem_toFinset.mpr hin)⟩

theorem exists_unused_thread (s : State) : ∃ t : ThreadId, t ∉ s.completions := by
  obtain ⟨t, ht⟩ := Infinite.exists_notMem_finset s.completions.keys.toFinset
  exact ⟨t, fun hin => ht (List.mem_toFinset.mpr hin)⟩

/-- No thread of the scheduler has a step of its own left. -/
def State.Quiet (env : Env) (s : State) : Prop :=
  ∀ a s', a.own = true → ¬ Step env s a s'

/-- In a quiet state every `JobCompleted` handler has answered. -/
theorem State.Quiet.completions (hq : s.Quiet env) :
    ∀ t c, s.completions.lookup t = some c → c.pc = .answered := by
  rintro t ⟨w, j, pc⟩ hc
  cases pc with
  | take =>
    cases hjob : s.workerJobToRenderId.lookup j with
    | none => exact (hq (.takeJob t) _ rfl (.takeUnknown hc hjob)).elim
    | some ctx => exact (hq (.takeJob t) _ rfl (.takeJob hc hjob)).elim
  | link ctx =>
    cases hrender : s.history.lookup ctx.renderId with
    | none => exact (hq (.buildLink t 0) _ rfl (.buildLinkLost hc hrender)).elim
    | some render => exact (hq (.buildLink t 0) _ rfl (.buildLink hc hrender)).elim
  | record ctx link =>
    cases hentry : s.renderProgress.lookup ctx.renderId with
    | none => exact (hq (.recordFrame t ctx) _ rfl (.recordFinalized hc hentry)).elim
    | some p =>
      cases hdone : (p.record ctx.frameIndex link).done with
      | false => exact (hq (.recordFrame t ctx) _ rfl (.recordProgress hc hentry hdone)).elim
      | true => exact (hq (.recordFrame t ctx) _ rfl (.recordLast hc hentry hdone)).elim
  | publish todo =>
    cases todo with
    | nil => exact (hq (.markWorkerIdle t) _ rfl (.markWorkerIdle hc)).elim
    | cons x todo => exact (hq (.publish t) _ rfl (.publish hc)).elim
  | answered => rfl

/-- A quiet state with no call outstanding is at rest. -/
theorem State.Quiet.resting (hI : s.WF env) (hq : s.Quiet env)
    (hcalls : ∀ j d, s.dispatchThreads.lookup j = some d → d.pc ≠ .calling) : s.Resting := by
  refine ⟨?_, hq.completions, ?_, ?_⟩
  · intro r pc hpc
    obtain ⟨render, hrender⟩ := Table.exists_lookup_of_mem (hI.submit_known r pc hpc)
    cases pc with
    | addJob =>
      by_cases hframes : render.animationRuntime ≤ 0
      · exact (hq (.addJobProgress r) _ rfl (.addJobSkipped hpc hrender hframes)).elim
      · exact (hq (.addJobProgress r) _ rfl
          (.addJobProgress hpc hrender (Int.not_le.mp hframes))).elim
    | enqueue => exact (hq (.addJobQueue r) _ rfl (.addJobQueue hpc hrender)).elim
    | returned => rfl
  · rintro j ⟨w, addr, f, pc⟩ hd
    cases pc with
    | calling => exact absurd rfl (hcalls j _ hd)
    | undo => exact (hq (.undoRegistration j) _ rfl (.undoRegistration hd)).elim
    | requeue => exact (hq (.requeueFrame j) _ rfl (.requeueFrame hd)).elim
    | offline => exact (hq (.markDispatchOffline j) _ rfl (.markDispatchOffline hd)).elim
    | ended accepted => exact ⟨accepted, rfl⟩
  · cases hqueue : s.pendingJobs with
    | nil => exact Or.inl rfl
    | cons f rest =>
      cases hidle : s.findIdleWorker with
      | none => exact Or.inr rfl
      | some w =>
        obtain ⟨job, hjob⟩ := exists_unused_job s
        exact (hq (.assignJob job) _ rfl (.assignJob hjob hqueue hidle)).elim

theorem State.Resting.of_stuck (hI : s.WF env) (hF : s.Faithful)
    (hstuck : (scheduler env).Stuck Calm s) : s.Resting := by
  -- a calm step would not be stuck
  have hno {a : Label} {s' : State} (hK : Calm s a) (h : Step env s a s') : False := by
    have hs := h.to_step
    rw [hstuck a hK] at hs
    cases hs
  have hq : s.Quiet env := fun a s' ha h => hno (Calm.of_own ha) h
  refine hq.resting hI ?_
  rintro j ⟨w, addr, f, pc⟩ hd rfl
  -- the report is still to come, or the return
  cases hrec : s.received j with
  | false =>
    obtain ⟨t, ht⟩ := exists_unused_thread s
    obtain ⟨x, hx⟩ := Option.isSome_iff_exists.mp (hF.in_table j _ hd)
    exact hno (a := .jobCompleted t w j) ⟨⟨_, hd, rfl, rfl⟩, hrec⟩ (.jobCompleted ht hx)
  | true =>
    obtain ⟨t, c, hc, hid⟩ := State.received_iff.mp hrec
    exact hno (a := .renderJobReturned j true) ⟨t, c, hc, hid, hq.completions t c hc⟩
      (.renderJobReturned hd)

/-- Every render is COMPLETED with the link of each of its frames, and no frame, job id,
progress entry or call is left. -/
structure State.Drained (env : Env) (s : State) : Prop where
  completed : ∀ r render, s.history.lookup r = some render →
    render.status = .completed ∧ CompleteLinks env render render.downloadLinks
  queue : s.pendingJobs = []
  jobs : ∀ j, j ∉ s.workerJobToRenderId
  progress : ∀ r, r ∉ s.renderProgress
  calls : ∀ j d, s.dispatchThreads.lookup j = some d → ∃ accepted, d.pc = .ended accepted

/-- A render of the history has its `createRenderRequest` handler. -/
theorem exists_submit {C : System.Condition State Label} (hrun : (scheduler env).Run C tr s) :
    ∀ r ∈ s.history, ∃ pc, s.submits.lookup r = some pc := by
  refine hrun.invariant (fun _ s => ∀ r ∈ s.history, ∃ pc, s.submits.lookup r = some pc) ?_ ?_
  · intro r hr
    cases AList.lookup_isSome.mpr hr
  intro tr s a s' _ ih _ hs r hr
  have h := Step.of_step hs
  obtain ⟨render', hrender'⟩ := Table.exists_lookup_of_mem hr
  rcases h.history_cases hrender' with hold | ⟨payload, timestamp, rfl, hpayload⟩
  · obtain ⟨pc, hpc⟩ := ih r hold
    have hset {id : RenderId} {pc' : SubmitPc} :
        ∃ pc'', (s.submits.insert id pc').lookup r = some pc'' := by
      rw [Table.lookup_insert']
      split
      · exact ⟨pc', rfl⟩
      · exact ⟨pc, hpc⟩
    cases h with
    | createAccepted | addJobSkipped | addJobProgress | addJobQueue => exact hset
    | _ => exact ⟨pc, hpc⟩
  · cases h with
    | createRejected hnew => exact absurd hr hnew
    | createAccepted => exact ⟨_, AList.lookup_insert _⟩

/-- In a resting state that faithful workers have led to, a render with an idle worker at
hand is COMPLETED. -/
theorem State.Drained.of_resting (hrun : (scheduler env).Run FaithfulWorkers tr s)
    (hw : s.Ready w) (hrest : s.Resting) : s.Drained env := by
  have hF := State.Faithful.of_run hrun
  have hattending := FaithfulWorkers.attending hrun
  -- nothing engages the worker, so it is IDLE
  have hqueue : s.pendingJobs = [] := by
    refine hrest.assigned.resolve_right fun hnone => ?_
    obtain ⟨x, hx, hoffline⟩ := hw.usable
    have hmem := List.mem_of_find?_eq_some hx
    have hnidle := List.find?_eq_none.mp hnone x hmem
    cases hst : x.status with
    | idle => exact hnidle (decide_eq_true hst)
    | offline => exact hoffline hst
    | busy =>
      cases hF.engaged w x hx hst with
      | givesUp hd hid hpc =>
        obtain ⟨accepted, hended⟩ := hrest.dispatch _ _ hd
        rw [hended] at hpc
        cases hpc
      | running hjob =>
        obtain ⟨d, hd, -, hpc⟩ := hjob
        obtain ⟨accepted, hended⟩ := hrest.dispatch _ _ hd
        cases hended.symm.trans hpc
      | reporting hc _ hpc => exact hpc (hrest.completions _ _ hc)
  have hlive : ∀ j, ¬ s.Live j := by
    rintro j (⟨d, hd, hpc⟩ | ⟨t, c, hc, -, hpc⟩)
    · obtain ⟨accepted, hended⟩ := hrest.dispatch j d hd
      rw [hended] at hpc
      rcases hpc with hpc | hpc <;> cases hpc
    · cases hpc.symm.trans (hrest.completions t c hc)
  have hout : ∀ c, ¬ s.Outstanding c := by
    rintro c (⟨f, hf, -⟩ | ⟨j, -, hj⟩ | ⟨t, th, hth, hframe⟩ | ⟨j, d, hd, hframe⟩)
    · rw [hqueue] at hf
      cases hf
    · exact hlive j hj
    · rw [hrest.completions t th hth] at hframe
      cases hframe
    · obtain ⟨accepted, hended⟩ := hrest.dispatch j d hd
      unfold DispatchThread.frame at hframe
      rw [hended] at hframe
      cases hframe
  have hI := State.WF.of_run hrun
  obtain ⟨hframes, hall⟩ := State.AllLive.of_run hattending
  -- an entry has an empty slot, and its frame would be outstanding
  have hprogress : ∀ r, s.renderProgress.lookup r = none := by
    intro r
    cases hentry : s.renderProgress.lookup r with
    | none => rfl
    | some p =>
      obtain ⟨render, hrender, hp, hpc⟩ := hI.progress_tracked r p hentry
      obtain ⟨i, hi, hempty⟩ := hp.exists_empty
      have hret : s.submits.lookup r = some .returned := by
        rcases hpc with henq | hret
        · cases hrest.submits r _ henq
        · exact hret
      have hrec : s.recorded ⟨r, i⟩ = false := by
        refine Bool.eq_false_iff.mpr fun htrue => ?_
        obtain ⟨l, hl⟩ := (recordedIn_of_some hentry).mp htrue
        cases hempty.symm.trans hl
      exact absurd (hall.outstanding hattending ⟨render, hrender, hi, hret⟩ hrec) (hout _)
  refine ⟨?_, hqueue, fun j hj => hlive j (hall j hj), ?_, hrest.dispatch⟩
  · intro r render hrender
    obtain ⟨pc, hpc⟩ := exists_submit hrun r (Table.mem_of_lookup hrender)
    obtain rfl := hrest.submits r pc hpc
    have hown : s.Owned ⟨r, 0⟩ := ⟨render, hrender, hframes r render hrender, Or.inr hpc⟩
    rcases State.Finalized.terminal (Attending.undoFindsJob hattending) ⟨hpc, hprogress r⟩ hown with
      ⟨render', hrender', hcompleted⟩ | ⟨t, c, todo, hc, hpublish, -⟩
    · obtain rfl := Option.some.inj (hrender.symm.trans hrender')
      have hshown := (State.ShowsLinks.of_run hrun).completed r render hrender hcompleted
      exact ⟨hcompleted, hshown.complete⟩
    · cases (hrest.completions t c hc).symm.trans hpublish
  · intro r hr
    obtain ⟨p, hp⟩ := Table.exists_lookup_of_mem hr
    cases hp.symm.trans (hprogress r)

/-- Of two frames, the call of the first has failed, and its worker has come back since. -/
def failedAndBack : List Label :=
  halfDispatched ++ [.renderJobReturned "j" false, .undoRegistration "j", .requeueFrame "j",
    .markDispatchOffline "j", .establishConnection 1 ⟨"10.0.0.1", "w", 50051⟩,
    .reconnectWorker 1 "w"]

end Pathological
