import Mathlib.Data.Fintype.EquivFin
import Pathological.Scheduler.CompletionHandler
import Pathological.Scheduler.Conservation

/-!
# Stale and repeated completions

A `JobCompleted` is stale when its job id is not in `worker_job_to_render_id_`:
it was never issued, it has been completed already, or a failed dispatch has
withdrawn it. `markRenderCompleted` answers `false` then, but its answer is not
looked at, and the handler goes on to `markWorkerIdle`. So a stale completion
leaves the scheduler's data alone exactly when the reporting worker is IDLE
already (`stale_completion_noop`), and sets a worker to IDLE in the middle of
its next frame otherwise (`repeatedCompletion`).

`State.Processes` is one whole call, its steps undisturbed, from any reachable
state: the handlers of other calls may stand anywhere in it. Between a call and
its repetition the run is arbitrary, and `repeated_unregistered` carries over
it that the id of a reported job is not registered again.
-/

namespace Pathological

open Framework

/-- The queue, the worker table, the two maps and every render are the same. -/
structure State.SameData (s s' : State) : Prop where
  pendingJobs : s'.pendingJobs = s.pendingJobs
  workers : s'.workers = s.workers
  workerJobToRenderId : s'.workerJobToRenderId = s.workerJobToRenderId
  renderProgress : s'.renderProgress = s.renderProgress
  history : s'.history = s.history

/-- The call `JobCompleted(w, j)`, handled by the thread `t` from its start to
its answer with no other step in between, leads from `s` to `s'`. -/
def State.Processes (env : Env) (s : State) (t : ThreadId) (w : WorkerId) (j : JobId)
    (s' : State) : Prop :=
  ∃ ls, (∀ a ∈ ls, a.completionThread = some t) ∧
    (scheduler env).exec s (.jobCompleted t w j :: ls) = some s' ∧
    s'.completions.lookup t = some ⟨w, j, .answered⟩

variable {env : Env} {s s' : State} {a : Label} {tr : List Label}
  {t : ThreadId} {w : WorkerId} {j : JobId} {x : Worker}

/-! ### The handler's own steps -/

/-- The lookup leaves its job id out of the map. -/
theorem Step.taken (hc : s.completions.lookup t = some ⟨w, j, .take⟩)
    (h : Step env s (.takeJob t) s') : j ∉ s'.workerJobToRenderId := by
  cases h with
  | takeJob hpc hjob =>
    obtain ⟨-, rfl, -⟩ := CompletionThread.mk.inj (Option.some.inj (hc.symm.trans hpc))
    exact fun hin => (AList.mem_erase.mp hin).1 rfl
  | takeUnknown hpc hjob =>
    obtain ⟨-, rfl, -⟩ := CompletionThread.mk.inj (Option.some.inj (hc.symm.trans hpc))
    exact AList.lookup_eq_none.mp hjob

/-- No step of a handler registers a job id. -/
theorem Step.own_unregistered (h : Step env s a s') (ha : a.completionThread = some t)
    (hj : j ∉ s.workerJobToRenderId) : j ∉ s'.workerJobToRenderId := by
  cases h with
  | takeJob hpc hjob => exact fun hin => hj (AList.mem_erase.mp hin).2
  | assignJob => cases ha
  | undoRegistration => cases ha
  | _ => exact hj

theorem exec_own_unregistered {ls : List Label} (hls : ∀ a ∈ ls, a.completionThread = some t)
    (he : (scheduler env).exec s ls = some s') (hj : j ∉ s.workerJobToRenderId) :
    j ∉ s'.workerJobToRenderId := by
  induction ls generalizing s with
  | nil =>
    obtain rfl := Option.some.inj he
    exact hj
  | cons a ls ih =>
    obtain ⟨s₁, hs, he⟩ := Option.bind_eq_some_iff.mp he
    refine ih (fun b hb => hls b (List.mem_cons_of_mem _ hb)) he ?_
    exact (Step.of_step hs).own_unregistered (hls a List.mem_cons_self) hj

/-! ### One call -/

/-- A call starts by looking its worker up, and changes nothing yet. -/
theorem State.Processes.start (h : s.Processes env t w j s') :
    ∃ ls, (∀ a ∈ ls, a.completionThread = some t) ∧
      (scheduler env).exec (s.setCompletion t ⟨w, j, .take⟩ .take) (.takeJob t :: ls) = some s' ∧
      s'.completions.lookup t = some ⟨w, j, .answered⟩ := by
  obtain ⟨ls, hls, he, hend⟩ := h
  obtain ⟨s₁, hs, he⟩ := Option.bind_eq_some_iff.mp he
  cases Step.of_step hs with
  | jobCompleted hnew hfind =>
    have hc : (s.setCompletion t ⟨w, j, .take⟩ .take).completions.lookup t =
        some ⟨w, j, .take⟩ := AList.lookup_insert _
    cases ls with
    | nil =>
      -- the handler has not answered yet
      obtain rfl := Option.some.inj he
      cases hc.symm.trans hend
    | cons a ls =>
      obtain ⟨s₂, hs₂, -⟩ := Option.bind_eq_some_iff.mp he
      obtain rfl : a = .takeJob t := (Step.of_step hs₂).next hc (hls a List.mem_cons_self)
      exact ⟨ls, fun b hb => hls b (List.mem_cons_of_mem _ hb), he, hend⟩

/-- No call leaves its job id registered. -/
theorem State.Processes.unregistered (h : s.Processes env t w j s') :
    j ∉ s'.workerJobToRenderId := by
  obtain ⟨ls, hls, he, -⟩ := h.start
  obtain ⟨s₁, hs, he⟩ := Option.bind_eq_some_iff.mp he
  exact exec_own_unregistered hls he ((Step.of_step hs).taken (AList.lookup_insert _))

/-- A stale call does `markWorkerIdle`, and nothing else to the data. -/
theorem State.Processes.stale (h : s.Processes env t w j s')
    (hj : s.workerJobToRenderId.lookup j = none) : (s.markWorkerIdle w).SameData s' := by
  obtain ⟨ls, hls, hexec, hend⟩ := h.start
  obtain ⟨s₁, hs, he⟩ := Option.bind_eq_some_iff.mp hexec
  -- the lookup finds nothing
  have hc : (s.setCompletion t ⟨w, j, .take⟩ .take).completions.lookup t =
      some ⟨w, j, .take⟩ := AList.lookup_insert _
  have htake : Step env _ (.takeJob t) _ := .takeUnknown hc hj
  have hs₁ := Option.some.inj (hs.symm.trans htake.to_step)
  have hc₁ : s₁.completions.lookup t = some ⟨w, j, .publish []⟩ := by
    rw [hs₁]
    exact AList.lookup_insert _
  cases ls with
  | nil =>
    obtain rfl := Option.some.inj he
    cases hc₁.symm.trans hend
  | cons a ls =>
    obtain ⟨s₂, hs₂, he₂⟩ := Option.bind_eq_some_iff.mp he
    have ha : a = .markWorkerIdle t := (Step.of_step hs₂).next hc₁ (hls a List.mem_cons_self)
    rw [ha] at hs₂
    have hidle : Step env _ (.markWorkerIdle t) _ := .markWorkerIdle hc₁
    have hs₂' := Option.some.inj (hs₂.symm.trans hidle.to_step)
    have hc₂ : s₂.completions.lookup t = some ⟨w, j, .answered⟩ := by
      rw [hs₂']
      exact AList.lookup_insert _
    -- an answered handler takes no further step
    cases ls with
    | nil =>
      obtain rfl := Option.some.inj he₂
      subst hs₂' hs₁
      exact ⟨rfl, rfl, rfl, rfl, rfl⟩
    | cons b ls =>
      obtain ⟨s₃, hs₃, -⟩ := Option.bind_eq_some_iff.mp he₂
      have hb := hls b (List.mem_cons_of_mem _ List.mem_cons_self)
      exact ((Step.of_step hs₃).next hc₂ hb).elim

/-- A known worker can report any id: a stale call runs to its answer. -/
theorem State.exists_processes (hnew : t ∉ s.completions) (hfind : s.findWorkerByID w = some x)
    (hj : s.workerJobToRenderId.lookup j = none) : ∃ s', s.Processes env t w j s' := by
  let taken := s.setCompletion t ⟨w, j, .take⟩ .take
  let found := taken.setCompletion t ⟨w, j, .take⟩ (.publish [])
  let idle := (found.markWorkerIdle w).setCompletion t ⟨w, j, .publish []⟩ .answered
  have h₁ : Step env s (.jobCompleted t w j) taken := .jobCompleted hnew hfind
  have h₂ : Step env taken (.takeJob t) found := .takeUnknown (AList.lookup_insert _) hj
  have h₃ : Step env found (.markWorkerIdle t) idle := .markWorkerIdle (AList.lookup_insert _)
  refine ⟨idle, [.takeJob t, .markWorkerIdle t], ?_, ?_, AList.lookup_insert _⟩
  · intro a ha
    rcases List.mem_cons.mp ha with rfl | ha
    · rfl
    · obtain rfl := List.mem_singleton.mp ha
      rfl
  · rw [System.exec_cons_of_step h₁.to_step, System.exec_cons_of_step h₂.to_step,
      System.exec_cons_of_step h₃.to_step, System.exec_nil]

/-- There is always another handler thread. -/
theorem State.exists_newCompletion (s : State) : ∃ t, t ∉ s.completions := by
  obtain ⟨t, ht⟩ := Infinite.exists_notMem_finset s.completions.keys.toFinset
  exact ⟨t, fun hin => ht (List.mem_toFinset.mpr (AList.mem_keys.mp hin))⟩

/-- `markWorkerIdle` changes nothing exactly when the worker is IDLE. -/
theorem State.markWorkerIdle_workers (hfind : s.findWorkerByID w = some x) :
    (s.markWorkerIdle w).workers = s.workers ↔ x.status = .idle := by
  refine updateFirst_eq_self.trans ⟨fun h => ?_, fun h y hy => ?_⟩
  · exact (congrArg Worker.status (h x hfind)).symm
  · obtain rfl := Option.some.inj (hfind.symm.trans hy)
    rw [← h]

/-- A stale call leaves the data alone exactly when its worker is IDLE. -/
theorem State.Processes.sameData_iff (h : s.Processes env t w j s')
    (hfind : s.findWorkerByID w = some x) (hj : s.workerJobToRenderId.lookup j = none) :
    s.SameData s' ↔ x.status = .idle := by
  have hstale := h.stale hj
  rw [← s.markWorkerIdle_workers hfind, ← hstale.workers]
  -- the worker table is the only part of the data the call writes to
  exact ⟨fun hsame => hsame.workers, fun hworkers => ⟨hstale.pendingJobs, hworkers,
    hstale.workerJobToRenderId, hstale.renderProgress, hstale.history⟩⟩

/-! ### Repeated calls -/

/-- Once the handler of an issued job id has looked it up, the id is never
registered again. -/
theorem repeated_unregistered {ls : List Label} (he : (scheduler env).exec s ls = some s')
    (hissued : j ∈ s.dispatchThreads)
    (hc : s.completions.lookup t = some ⟨w, j, .take⟩ ∨ j ∉ s.workerJobToRenderId) :
    s'.completions.lookup t = some ⟨w, j, .take⟩ ∨ j ∉ s'.workerJobToRenderId := by
  induction ls generalizing s with
  | nil =>
    obtain rfl := Option.some.inj he
    exact hc
  | cons a ls ih =>
    obtain ⟨s₁, hs, he⟩ := Option.bind_eq_some_iff.mp he
    have h := Step.of_step hs
    obtain ⟨d, hd⟩ := Table.exists_lookup_of_mem hissued
    obtain ⟨d', hd', -⟩ := h.dispatched hd
    refine ih he (Table.mem_of_lookup hd') ?_
    rcases hc with hc | hj
    · by_cases ha : a.completionThread = some t
      · obtain rfl : a = .takeJob t := h.next hc ha
        exact Or.inr (h.taken hc)
      · exact Or.inl (h.other ha hc)
    · -- a registered id is new
      exact Or.inr fun hin => (h.registered_cases hin).elim hj fun hnew => hnew hissued

/-- Processing the call `JobCompleted(w, j)` leaves the data as it is. -/
def State.NoOp (env : Env) (s : State) (w : WorkerId) (j : JobId) : Prop :=
  ∀ t s', s.Processes env t w j s' → s.SameData s'

/-- The state comes after a `JobCompleted(w, j)` that has been answered. The job
id had been issued when that call came in; the steps since then, of its handler
and of any other thread, are arbitrary. -/
def State.HandledBefore (env : Env) (s : State) (w : WorkerId) (j : JobId) : Prop :=
  ∃ s₀ t ls, j ∈ s₀.dispatchThreads ∧
    (scheduler env).exec s₀ (.jobCompleted t w j :: ls) = some s ∧
    s.completions.lookup t = some ⟨w, j, .answered⟩

/-- A repeated completion is stale. -/
theorem State.HandledBefore.unregistered (h : s.HandledBefore env w j) :
    j ∉ s.workerJobToRenderId := by
  obtain ⟨s₀, t, ls, hissued, he, hend⟩ := h
  obtain ⟨s₁, hs, he⟩ := Option.bind_eq_some_iff.mp he
  cases Step.of_step hs with
  | jobCompleted hnew hfind =>
    refine (repeated_unregistered he hissued (Or.inl (AList.lookup_insert _))).resolve_left ?_
    intro htake
    cases htake.symm.trans hend

/-- No stale or repeated completion of a known worker changes the data. -/
def StaleCompletionsAreNoOps (env : Env) (s : State) : Prop :=
  ∀ w x j, s.findWorkerByID w = some x →
    j ∉ s.workerJobToRenderId ∨ s.HandledBefore env w j → s.NoOp env w j

/-- **A stale or repeated completion is a no-op exactly when the reporting
worker is IDLE already.** -/
theorem stale_completion_noop (hfind : s.findWorkerByID w = some x) (j : JobId) :
    (j ∉ s.workerJobToRenderId → (s.NoOp env w j ↔ x.status = .idle)) ∧
      (s.HandledBefore env w j → (s.NoOp env w j ↔ x.status = .idle)) := by
  have hstale : j ∉ s.workerJobToRenderId → (s.NoOp env w j ↔ x.status = .idle) := by
    intro hj
    rw [← AList.lookup_eq_none] at hj
    constructor
    · intro hnoop
      obtain ⟨t, ht⟩ := s.exists_newCompletion
      obtain ⟨s', hs'⟩ : ∃ s', s.Processes env t w j s' := State.exists_processes ht hfind hj
      exact (hs'.sameData_iff hfind hj).mp (hnoop t s' hs')
    · exact fun hidle t s' hs' => (hs'.sameData_iff hfind hj).mpr hidle
  exact ⟨hstale, fun hbefore => hstale hbefore.unregistered⟩

/-- The worker reports its only frame so far. -/
def reportedOnce : List Label :=
  [.establishConnection 0 ⟨"10.0.0.1", "w", 50051⟩, .registerWorker 0 "w",
    .createRenderRequest "r" (samplePayload 2) "now", .addJobProgress "r", .addJobQueue "r",
    .assignJob "j0", .jobCompleted 1 "w" "j0", .takeJob 1, .buildLink 1 0,
    .recordFrame 1 ⟨"r", 0⟩, .publish 1, .markWorkerIdle 1]

theorem stale_completion_noop_reportedOnce :
    ((scheduler sampleEnv).after reportedOnce).NoOp sampleEnv "w" "j0" := by
  have hfind : ((scheduler sampleEnv).after reportedOnce).findWorkerByID "w" =
      some ⟨"w", "10.0.0.1", 50051, .idle⟩ := by decide
  have hj : "j0" ∉ ((scheduler sampleEnv).after reportedOnce).workerJobToRenderId := by
    decide
  exact ((stale_completion_noop hfind "j0").1 hj).mpr rfl

/-- The worker has been given another frame since. -/
def repeatedCompletion : List Label := reportedOnce ++ [.assignJob "j1"]

theorem not_staleCompletionsAreNoOps :
    (scheduler sampleEnv).Reaches repeatedCompletion
      ((scheduler sampleEnv).after repeatedCompletion) ∧
    ¬ StaleCompletionsAreNoOps sampleEnv ((scheduler sampleEnv).after repeatedCompletion) := by
  refine ⟨.after (by decide), fun hall => ?_⟩
  have hfind : ((scheduler sampleEnv).after repeatedCompletion).findWorkerByID "w" =
      some ⟨"w", "10.0.0.1", 50051, .busy⟩ := by decide
  have hj : ((scheduler sampleEnv).after repeatedCompletion).workerJobToRenderId.lookup "j0" =
      none := by decide
  obtain ⟨t, ht⟩ := ((scheduler sampleEnv).after repeatedCompletion).exists_newCompletion
  obtain ⟨s', hs'⟩ : ∃ s', State.Processes sampleEnv _ t "w" "j0" s' :=
    State.exists_processes ht hfind hj
  have hsame := hall "w" _ "j0" hfind (Or.inl (AList.lookup_eq_none.mp hj)) t s' hs'
  cases (hs'.sameData_iff hfind hj).mp hsame

end Pathological
