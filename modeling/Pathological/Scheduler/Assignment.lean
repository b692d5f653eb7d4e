import Pathological.Framework.Before
import Pathological.Scheduler.Wakeup

/-!
# A round of assignments

`assignJobs` as a whole: it holds `workers_mutex_` and `queue_mutex_` from its first
statement to its last. It makes the writes of one iteration after the other
(`AssignWrite`), each iteration with a job id of its own.

The rounds it makes are read off the state it starts in: the frames of the queue go,
in order, to the IDLE entries of the worker table, in order
(`State.assignments`), as long as there are both. What is written is that, and
nothing else (`assignJobs_exact`).
-/

namespace Pathological

open Framework

/-! ### The loop -/

/-- What an iteration of the loop writes. -/
inductive AssignWrite where
  /-- The front of `pending_jobs_` is popped. -/
  | pop
  /-- BUSY, through the pointer `findIdleWorker` returned. -/
  | markBusy
  | updateStatus (id : RenderId)
  /-- The entry in `worker_job_to_render_id_`. -/
  | register (job : JobId) (ctx : FrameJobContext)
  /-- The thread appended to `dispatch_threads_`. -/
  | startDispatch (job : JobId) (thread : DispatchThread)
  deriving DecidableEq, Repr

/-- The worker is IDLE. -/
def Worker.isIdle (w : Worker) : Bool := decide (w.status = .idle)

/-- The worker, BUSY. -/
def Worker.busy (w : Worker) : Worker := { w with status := .busy }

/-- A write of the loop. -/
def AssignWrite.perform (s : State) : AssignWrite → State
  | .pop => { s with pendingJobs := s.pendingJobs.tail }
  | .markBusy => { s with workers := updateFirst Worker.isIdle Worker.busy s.workers }
  | .updateStatus id => s.updateStatus id .inProgress
  | .register job ctx =>
    { s with workerJobToRenderId := s.workerJobToRenderId.insert job ctx }
  | .startDispatch job thread =>
    { s with dispatchThreads := s.dispatchThreads.insert job thread }

/-- What an iteration is about: a frame, the worker it goes to, and the job id minted
for it. -/
structure Assignment where
  job : JobId
  frameJob : FrameJob
  worker : Worker
  deriving DecidableEq, Repr

/-- The dispatch thread of the iteration. -/
def Assignment.thread (a : Assignment) : DispatchThread :=
  ⟨a.worker.id, State.workerAddress a.worker, a.frameJob, .calling⟩

/-- The writes of the iteration, in the order of the source. -/
def Assignment.writes (a : Assignment) : List AssignWrite :=
  [.pop, .markBusy, .updateStatus a.frameJob.renderRequest, .register a.job a.frameJob.context,
    .startDispatch a.job a.thread]

/-- The iteration. -/
def Assignment.perform (s : State) (a : Assignment) : State :=
  a.writes.foldl AssignWrite.perform s

namespace State

/-- The next iteration, `none` where the loop ends: with an empty queue, or at the
`break`. -/
def nextAssignment (s : State) (job : JobId) : Option Assignment :=
  match s.pendingJobs, s.findIdleWorker with
  | frameJob :: _, some worker => some ⟨job, frameJob, worker⟩
  | _, _ => none

/-- Every iteration pops a frame. -/
theorem pendingJobs_of_nextAssignment {s : State} {job : JobId} {a : Assignment}
    (h : s.nextAssignment job = some a) :
    (a.perform s).pendingJobs.length < s.pendingJobs.length := by
  unfold nextAssignment at h
  split at h
  · next f rest w hqueue hidle =>
    show s.pendingJobs.tail.length < s.pendingJobs.length
    rw [hqueue]
    exact Nat.lt_succ_self _
  · cases h

theorem job_of_nextAssignment {s : State} {job : JobId} {a : Assignment}
    (h : s.nextAssignment job = some a) : a.job = job := by
  unfold nextAssignment at h
  split at h
  · rw [← Option.some.inj h]
  · cases h

/-- `assignJobs`, with the writes it makes. The job ids it mints are `ids`. -/
def assignJobs (ids : ℕ → JobId) (s : State) : List AssignWrite × State :=
  match _hnext : s.nextAssignment (ids 0) with
  | none => ([], s)
  | some a =>
    let (writes, s') := assignJobs (fun k => ids (k + 1)) (a.perform s)
    (a.writes ++ writes, s')
termination_by s.pendingJobs.length
decreasing_by exact pendingJobs_of_nextAssignment _hnext

/-- An iteration is the section `assignJob`. -/
theorem assignJob_eq (s : State) (job : JobId) :
    s.assignJob job = (s.nextAssignment job).map (Assignment.perform s) := by
  cases hqueue : s.pendingJobs with
  | nil => simp only [assignJob, nextAssignment, hqueue, Option.map_none]
  | cons f rest =>
    cases hidle : s.findIdleWorker with
    | none => simp only [assignJob, nextAssignment, hqueue, hidle, Option.map_none]
    | some w =>
      have htail : s.pendingJobs.tail = rest := by rw [hqueue]; rfl
      simp only [assignJob, nextAssignment, hqueue, hidle, Option.map_some]
      rw [Assignment.perform, Assignment.writes, ← htail]
      rfl

/-! ### The iterations of a call -/

/-- The frames that are dispatched: as many as there are frames and IDLE workers. -/
def roundSize (s : State) : ℕ := min s.pendingJobs.length (s.workers.countP Worker.isIdle)

/-- The iterations, read off the state the call starts in. -/
def assignments (ids : ℕ → JobId) (s : State) : List Assignment :=
  (s.pendingJobs.zip (s.workers.filter Worker.isIdle)).zipIdx.map fun e =>
    ⟨ids e.2, e.1.1, e.1.2⟩

variable {ids : ℕ → JobId} {s : State}

@[simp] theorem length_assignments (ids : ℕ → JobId) (s : State) :
    (s.assignments ids).length = s.roundSize := by
  rw [assignments, List.length_map, List.length_zipIdx, List.length_zip, roundSize,
    List.countP_eq_length_filter]

theorem assignments_cons {f : FrameJob} {rest : List FrameJob} {w : Worker} {idle : List Worker}
    (hqueue : s.pendingJobs = f :: rest) (hidle : s.workers.filter Worker.isIdle = w :: idle) :
    s.assignments ids = ⟨ids 0, f, w⟩ ::
      (rest.zip idle).zipIdx.map fun e => ⟨ids (e.2 + 1), e.1.1, e.1.2⟩ := by
  rw [assignments, hqueue, hidle, List.zip_cons_cons, List.zipIdx_cons, List.map_cons, Nat.zero_add,
    List.zipIdx_succ, List.map_map]
  rfl

theorem nextAssignment_eq (ids : ℕ → JobId) (s : State) :
    s.nextAssignment (ids 0) = (s.assignments ids).head? := by
  unfold nextAssignment findIdleWorker
  rw [← List.head?_filter]
  cases hqueue : s.pendingJobs with
  | nil =>
    rw [assignments, hqueue]
    rfl
  | cons f rest =>
    cases hidle : s.workers.filter Worker.isIdle with
    | nil =>
      have hnone : (s.workers.filter fun w => decide (w.status = .idle)).head? = none := by
        rw [show (s.workers.filter fun w => decide (w.status = .idle)) = [] from hidle]
        rfl
      rw [hnone, assignments, hidle, List.zip_nil_right]
      rfl
    | cons w idle =>
      have hsome : (s.workers.filter fun w => decide (w.status = .idle)).head? = some w := by
        rw [show (s.workers.filter fun w => decide (w.status = .idle)) = w :: idle from hidle]
        rfl
      rw [hsome, assignments_cons hqueue hidle]
      rfl

/-- After an iteration, the others are left. -/
theorem assignments_perform {a : Assignment} (h : s.nextAssignment (ids 0) = some a) :
    s.assignments ids = a :: (a.perform s).assignments fun k => ids (k + 1) := by
  have hidle : (a.perform s).workers.filter Worker.isIdle =
      (s.workers.filter Worker.isIdle).tail := filter_updateFirst fun w => rfl
  have hrest : ((a.perform s).assignments fun k => ids (k + 1)) =
      (s.pendingJobs.tail.zip (s.workers.filter Worker.isIdle).tail).zipIdx.map fun e =>
        ⟨ids (e.2 + 1), e.1.1, e.1.2⟩ := by
    rw [assignments, hidle]
    rfl
  have hhead : (s.assignments ids).head? = some a := (nextAssignment_eq ids s).symm.trans h
  rw [hrest]
  cases hpending : s.pendingJobs with
  | nil =>
    rw [assignments, hpending] at hhead
    cases hhead
  | cons f rest =>
    cases hfilter : s.workers.filter Worker.isIdle with
    | nil =>
      rw [assignments, hfilter, List.zip_nil_right] at hhead
      cases hhead
    | cons w idle =>
      rw [assignments_cons hpending hfilter] at hhead
      rw [← Option.some.inj hhead, assignments_cons hpending hfilter]
      rfl

/-- **A call of `assignJobs` is the iterations of its round.** -/
theorem assignJobs_eq (ids : ℕ → JobId) (s : State) : s.assignJobs ids =
    ((s.assignments ids).flatMap Assignment.writes,
      (s.assignments ids).foldl Assignment.perform s) := by
  induction ids, s using assignJobs.induct with
  | case1 ids s hnext =>
    rw [assignJobs]
    split
    · have hnil : s.assignments ids = [] :=
        List.head?_eq_none_iff.mp ((nextAssignment_eq ids s).symm.trans hnext)
      rw [hnil]
      rfl
    · next a ha =>
      rw [hnext] at ha
      cases ha
  | case2 ids s a hnext writes s' hcall ih =>
    rw [assignJobs]
    split
    · next hnone =>
      rw [hnext] at hnone
      cases hnone
    · next a' ha' =>
      obtain rfl := Option.some.inj (hnext.symm.trans ha')
      rw [ih, assignments_perform hnext, List.flatMap_cons, List.foldl_cons]

/-! ### The state after a call -/

/-- The writes of the iterations, container by container. -/
theorem foldl_perform (as : List Assignment) (s : State) : as.foldl Assignment.perform s =
    { s with
      history := as.foldl (fun history a =>
        history.modify a.frameJob.renderRequest (RenderRequest.setStatus .inProgress)) s.history
      pendingJobs := s.pendingJobs.drop as.length
      workers := (updateFirst Worker.isIdle Worker.busy)^[as.length] s.workers
      workerJobToRenderId := as.foldl (fun jobs a => jobs.insert a.job a.frameJob.context)
        s.workerJobToRenderId
      dispatchThreads := as.foldl (fun threads a => threads.insert a.job a.thread)
        s.dispatchThreads } := by
  induction as generalizing s with
  | nil => rfl
  | cons a as ih =>
    have hqueue : (a.perform s).pendingJobs.drop as.length =
        s.pendingJobs.drop (as.length + 1) := List.drop_tail
    rw [List.foldl_cons, ih, hqueue]
    rfl

/-- The `j`-th iteration is about the `j`-th frame and the `j`-th IDLE worker. -/
theorem exists_assignment (ids : ℕ → JobId) {j : ℕ} (hj : j < s.roundSize) :
    ∃ a ∈ s.assignments ids, a.job = ids j ∧ s.pendingJobs[j]? = some a.frameJob ∧
      (s.workers.filter Worker.isIdle)[j]? = some a.worker := by
  have hlt : j < (s.assignments ids).length := (length_assignments ids s).symm ▸ hj
  refine ⟨(s.assignments ids)[j], List.getElem_mem hlt, ?_⟩
  have hget := List.getElem?_eq_getElem hlt
  generalize (s.assignments ids)[j] = a at hget ⊢
  rw [assignments, List.getElem?_map, List.getElem?_zipIdx] at hget
  obtain ⟨e, he, rfl⟩ := Option.map_eq_some_iff.mp hget
  obtain ⟨pair, hpair, rfl⟩ := Option.map_eq_some_iff.mp he
  obtain ⟨hframe, hworker⟩ := List.getElem?_zip_eq_some.mp hpair
  exact ⟨congrArg ids (Nat.zero_add j), hframe, hworker⟩

/-- The iterations have the first job ids, in order. -/
theorem map_job_assignments (ids : ℕ → JobId) (s : State) :
    (s.assignments ids).map Assignment.job = (List.range s.roundSize).map ids := by
  have hlength : (s.pendingJobs.zip (s.workers.filter Worker.isIdle)).length = s.roundSize := by
    rw [List.length_zip, roundSize, List.countP_eq_length_filter]
  have hsnd : (s.assignments ids).map Assignment.job =
      ((s.pendingJobs.zip (s.workers.filter Worker.isIdle)).zipIdx.map Prod.snd).map ids := by
    rw [assignments, List.map_map, List.map_map]
    rfl
  rw [hsnd, List.zipIdx_map_snd, hlength, List.range_eq_range']

/-- The frames of the iterations are the first ones of the queue. -/
theorem map_frameJob_assignments (ids : ℕ → JobId) (s : State) :
    (s.assignments ids).map Assignment.frameJob = s.pendingJobs.take s.roundSize := by
  have hfst : (s.assignments ids).map Assignment.frameJob =
      (((s.pendingJobs.zip (s.workers.filter Worker.isIdle)).zipIdx.map Prod.fst)).map
        Prod.fst := by
    rw [assignments, List.map_map, List.map_map]
    rfl
  rw [hfst, List.zipIdx_map_fst, List.zip_eq_zip_take_min, List.map_fst_zip, roundSize,
    List.countP_eq_length_filter]
  rw [List.length_take, List.length_take]
  omega

end State

/-! ### Exact rounds -/

/-- The job ids `generateJobId` mints in a call: different ones, and none used before. -/
structure FreshIds (ids : ℕ → JobId) (s : State) : Prop where
  injective : Function.Injective ids
  unregistered : ∀ k, ids k ∉ s.workerJobToRenderId
  unused : ∀ k, ids k ∉ s.dispatchThreads

/-- The job id of a thread that is started. -/
def AssignWrite.startedJob : AssignWrite → Option JobId
  | .startDispatch job _ => some job
  | _ => none

/-- The frame goes to the worker under this job id, which is registered before the
thread is started. -/
structure DispatchedTo (log : List AssignWrite) (s' : State) (job : JobId) (frameJob : FrameJob)
    (worker : Worker) : Prop where
  registered : s'.workerJobToRenderId.lookup job = some frameJob.context
  started : s'.dispatchThreads.lookup job =
    some ⟨worker.id, State.workerAddress worker, frameJob, .calling⟩
  inOrder : Before (· = .register job frameJob.context)
    (· = .startDispatch job ⟨worker.id, State.workerAddress worker, frameJob, .calling⟩) log

/-- The call that leads from `s` to `s'` with these writes dispatches as many frames as
it can, the first ones to the first IDLE workers, and changes nothing else. -/
structure AssignsExactly (ids : ℕ → JobId) (s : State) (log : List AssignWrite) (s' : State) :
    Prop where
  /-- Under new job ids, one for each frame. -/
  jobs : log.filterMap AssignWrite.startedJob = (List.range s.roundSize).map ids ∧
    ∀ j < s.roundSize, s.workerJobToRenderId.lookup (ids j) = none
  dispatched : ∀ j < s.roundSize, ∃ frameJob i worker, s.pendingJobs[j]? = some frameJob ∧
    NthMatch Worker.isIdle s.workers j i worker ∧ s'.workers[i]? = some worker.busy ∧
    DispatchedTo log s' (ids j) frameJob worker
  inProgress : ∀ f ∈ s.pendingJobs.take s.roundSize, s'.history.lookup f.renderRequest =
    (s.history.lookup f.renderRequest).map (RenderRequest.setStatus .inProgress)
  /-- The other frames are still queued, in order. -/
  queue : s'.pendingJobs = s.pendingJobs.drop s.roundSize
  otherWorkers : s'.workers.length = s.workers.length ∧
    ∀ i, (∀ j < s.roundSize, ∀ w, ¬ NthMatch Worker.isIdle s.workers j i w) →
      s'.workers[i]? = s.workers[i]?
  otherJobs : ∀ job, (∀ j < s.roundSize, job ≠ ids j) →
    s'.workerJobToRenderId.lookup job = s.workerJobToRenderId.lookup job ∧
      s'.dispatchThreads.lookup job = s.dispatchThreads.lookup job
  otherRenders : ∀ id, (∀ f ∈ s.pendingJobs.take s.roundSize, id ≠ f.renderRequest) →
    s'.history.lookup id = s.history.lookup id
  progress : s'.renderProgress = s.renderProgress
  handlers : s'.submits = s.submits ∧ s'.connects = s.connects ∧
    s'.disconnects = s.disconnects ∧ s'.completions = s.completions
  exhausted : s'.pendingJobs = [] ∨ s'.hasIdleWorker = false
  /-- The predicate of the wait is false, so that the loop of `run` sleeps. -/
  waits : ∀ loop : LoopState, loop.sched = s' → loop.running = true → loop.waitPredicate = false

section Exact

variable {ids : ℕ → JobId} {s : State}

theorem FreshIds.nodup (h : FreshIds ids s) :
    ((s.assignments ids).map Assignment.job).Nodup := by
  rw [State.map_job_assignments]
  exact List.nodup_range.map h.injective

/-- Each iteration starts one thread. -/
theorem filterMap_startedJob (as : List Assignment) :
    (as.flatMap Assignment.writes).filterMap AssignWrite.startedJob = as.map Assignment.job := by
  induction as with
  | nil => rfl
  | cons a as ih =>
    rw [List.flatMap_cons, List.filterMap_append, ih, List.map_cons]
    rfl

/-- The iteration registers the job before it starts the thread. -/
theorem before_of_mem {as : List Assignment} {a : Assignment} (ha : a ∈ as) :
    Before (· = .register a.job a.frameJob.context) (· = .startDispatch a.job a.thread)
      (as.flatMap Assignment.writes) :=
  .flatMap ha ⟨[.pop, .markBusy, .updateStatus a.frameJob.renderRequest],
    .register a.job a.frameJob.context, [.startDispatch a.job a.thread], rfl, rfl, _,
    List.mem_singleton.mpr rfl, rfl⟩

/-- After `n` writes, the IDLE workers are those behind the first `n`. -/
theorem filter_iterate_busy (n : ℕ) (ws : List Worker) :
    ((updateFirst Worker.isIdle Worker.busy)^[n] ws).filter Worker.isIdle =
      (ws.filter Worker.isIdle).drop n := by
  induction n generalizing ws with
  | zero => rfl
  | succ n ih =>
    rw [Function.iterate_succ_apply, ih, filter_updateFirst fun w => rfl, List.drop_tail]

/-- **A call of `assignJobs` is exact.** -/
theorem assignJobs_exact (hids : FreshIds ids s) :
    AssignsExactly ids s (s.assignJobs ids).1 (s.assignJobs ids).2 := by
  rw [State.assignJobs_eq, State.foldl_perform, State.length_assignments]
  have hidle : ∀ w : Worker, w.busy.isIdle = false := fun w => rfl
  have hjob {job : JobId} (h : ∀ j < s.roundSize, job ≠ ids j) :
      job ∉ (s.assignments ids).map Assignment.job := by
    rw [State.map_job_assignments]
    rintro hmem
    obtain ⟨j, hj, rfl⟩ := List.mem_map.mp hmem
    exact h j (List.mem_range.mp hj) rfl
  have hhistory (id : RenderId) : ((s.assignments ids).foldl (fun history a =>
      history.modify a.frameJob.renderRequest (RenderRequest.setStatus .inProgress))
        s.history).lookup id =
      if id ∈ (s.pendingJobs.take s.roundSize).map FrameJob.renderRequest then
        (s.history.lookup id).map (RenderRequest.setStatus .inProgress)
      else s.history.lookup id := by
    rw [← State.map_frameJob_assignments ids s, List.map_map]
    have htwice (r : RenderRequest) : (r.setStatus .inProgress).setStatus .inProgress =
        r.setStatus .inProgress := rfl
    exact Table.lookup_foldl_modify htwice s.history
  have hexhausted : s.pendingJobs.drop s.roundSize = [] ∨ ∀ w ∈
      (updateFirst Worker.isIdle Worker.busy)^[s.roundSize] s.workers, w.isIdle ≠ true := by
    rw [← List.filter_eq_nil_iff, filter_iterate_busy, List.drop_eq_nil_iff, List.drop_eq_nil_iff,
      ← List.countP_eq_length_filter, State.roundSize]
    omega
  have hnone : s.pendingJobs.drop s.roundSize = [] ∨
      ((updateFirst Worker.isIdle Worker.busy)^[s.roundSize] s.workers).any
        (fun w => decide (w.status = .idle)) = false := by
    refine hexhausted.imp_right fun h => ?_
    rw [List.any_eq_false]
    exact fun w hw => h w hw
  refine {
    jobs := ⟨?_, fun j _ => AList.lookup_eq_none.mpr (hids.unregistered j)⟩
    dispatched := fun j hj => ?_
    inProgress := fun f hf => ?_
    queue := rfl
    otherWorkers := ⟨?_, fun i hi => getElem?_iterate_of_not_match hidle hi⟩
    otherJobs := fun job hother => ⟨Table.lookup_foldl_insert_of_notMem (hjob hother) _,
      Table.lookup_foldl_insert_of_notMem (hjob hother) _⟩
    otherRenders := fun id hid => ?_
    progress := rfl
    handlers := ⟨rfl, rfl, rfl, rfl⟩
    exhausted := hnone
    waits := fun loop hsched hrunning => ?_ }
  · rw [filterMap_startedJob, State.map_job_assignments]
  · obtain ⟨a, ha, hid, hframe, hworker⟩ := State.exists_assignment ids hj
    obtain ⟨i, hi⟩ := exists_nthMatch hworker
    rw [← hid]
    exact ⟨a.frameJob, i, a.worker, hframe, hi, hi.getElem?_iterate hidle hj,
      Table.lookup_foldl_insert hids.nodup ha _, Table.lookup_foldl_insert hids.nodup ha _,
      before_of_mem ha⟩
  · exact (hhistory _).trans (if_pos (List.mem_map_of_mem hf))
  · show ((updateFirst Worker.isIdle Worker.busy)^[s.roundSize] s.workers).length = _
    rw [length_iterate_updateFirst]
  · refine (hhistory id).trans (if_neg fun hmem => ?_)
    obtain ⟨f, hf, rfl⟩ := List.mem_map.mp hmem
    exact hid f hf rfl
  · refine Bool.eq_false_iff.mpr fun hwait => ?_
    rcases LoopState.waitPredicate_iff.mp hwait with ⟨hpending, hidle⟩ | hstopped
    · rw [hsched] at hpending hidle
      rcases hnone with hempty | hbusy
      · exact hpending hempty
      · exact Bool.false_ne_true (hbusy.symm.trans hidle)
    · rw [hrunning] at hstopped
      cases hstopped

/-- Queued frames and workers: the first and the third worker are IDLE, and there is a
frame more than that. -/
def threeFrames : State :=
  { State.initial with
    pendingJobs := [⟨"r", 0, ⟨0, 1⟩⟩, ⟨"r", 1, ⟨1, 1⟩⟩, ⟨"q", 0, ⟨0, 1⟩⟩]
    workers := [⟨"a", "10.0.0.1", 1, .idle⟩, ⟨"b", "10.0.0.2", 2, .busy⟩,
      ⟨"c", "10.0.0.3", 3, .idle⟩] }

/-- Job ids that differ in their lengths. -/
def unaryIds (k : ℕ) : JobId := String.ofList (List.replicate k 'j')

theorem assignJobs_exact_threeFrames : FreshIds unaryIds threeFrames ∧
    threeFrames.roundSize = 2 ∧ AssignsExactly unaryIds threeFrames
      (threeFrames.assignJobs unaryIds).1 (threeFrames.assignJobs unaryIds).2 := by
  have hids : FreshIds unaryIds threeFrames := by
    refine ⟨fun k k' h => ?_, fun k => AList.notMem_empty _, fun k => AList.notMem_empty _⟩
    have hlength := congrArg List.length (String.ofList_injective h)
    rwa [List.length_replicate, List.length_replicate] at hlength
  exact ⟨hids, rfl, assignJobs_exact hids⟩

/-! ### The round as a run of the scheduler -/

theorem FreshIds.perform (h : FreshIds ids s) {a : Assignment} (ha : a.job = ids 0) :
    FreshIds (fun k => ids (k + 1)) (a.perform s) := by
  have hne (k : ℕ) : ids (k + 1) ≠ a.job := by
    rw [ha]
    exact fun heq => Nat.succ_ne_zero k (h.injective heq)
  refine ⟨fun k k' heq => Nat.succ_injective (h.injective heq), fun k hmem => ?_,
    fun k hmem => ?_⟩
  · exact ((AList.mem_insert _).mp hmem).elim (hne k) (h.unregistered _)
  · exact ((AList.mem_insert _).mp hmem).elim (hne k) (h.unused _)

/-- A call is the run of the sections of its iterations. -/
theorem assignJobs_exec (env : Env) (hids : FreshIds ids s) :
    (scheduler env).exec s ((List.range s.roundSize).map fun k => .assignJob (ids k)) =
      some (s.assignJobs ids).2 := by
  have hlabels : ((List.range s.roundSize).map fun k => Label.assignJob (ids k)) =
      ((s.assignments ids).map Assignment.job).map .assignJob := by
    rw [State.map_job_assignments, List.map_map]
    rfl
  rw [hlabels, State.assignJobs_eq]
  clear hlabels
  generalize has : s.assignments ids = as
  induction as generalizing ids s with
  | nil => rfl
  | cons a as ih =>
    have hnext : s.nextAssignment (ids 0) = some a := by
      rw [State.nextAssignment_eq, has]
      rfl
    have hjob : a.job = ids 0 := State.job_of_nextAssignment hnext
    rw [State.assignments_perform hnext] at has
    have hstep : (scheduler env).step s (.assignJob a.job) = some (a.perform s) := by
      show (if a.job ∈ s.dispatchThreads then none else s.assignJob a.job) = _
      rw [if_neg (hjob ▸ hids.unused 0), State.assignJob_eq, hjob, hnext]
      rfl
    rw [List.map_cons, List.map_cons, System.exec_cons_of_step hstep]
    exact ih (hids.perform hjob) (List.cons.inj has).2

end Exact

end Pathological
