import Pathological.Scheduler.JobIds
import Pathological.Scheduler.Conservation

/-!
# The worker table

Five places of the source write a worker's status, and none looks at the old
one. `TableStep` lists what a step does to `workers_`; the facts below are case
analyses over it.

* **A disconnected worker gets no work** (`disconnected_gets_no_work`). What
  breaks it is a `JobCompleted` handler that runs `markWorkerIdle` for a worker
  after its `Disconnect`, and a second registration under one id.
* **One frame per worker at a time** (`one_frame_per_worker`). What breaks it is
  a worker set to IDLE while one of its jobs is unreported, by a reconnect or by
  a late or repeated `JobCompleted`, and a second registration under one id.

Each comes with the condition that rules these steps out and a run that takes
one.
-/

namespace Pathological

open Framework

/-- What a step does to the worker table. -/
inductive TableStep (s : State) : Label → List Worker → Prop where
  | keep {a} (hregister : ∀ t id, a ≠ .registerWorker t id)
      (hreconnect : ∀ t id, a ≠ .reconnectWorker t id)
      (hoffline : ∀ t id, a ≠ .markWorkerOffline t id)
      (hunknown : ∀ id, a ≠ .disconnectUnknown id) : TableStep s a s.workers
  | unknown {id} (hfind : s.findWorkerByID id = none) :
      TableStep s (.disconnectUnknown id) s.workers
  | register {t info} (hpc : s.connects.lookup t = some ⟨info, .register⟩) :
      TableStep s (.registerWorker t info.workerId) (s.registerWorker info).workers
  | reconnect {t id} : TableStep s (.reconnectWorker t id) (s.setWorkerStatus id .idle)
  | disconnect {t id} : TableStep s (.markWorkerOffline t id) (s.setWorkerStatus id .offline)
  | completed {t w j} (hpc : s.completions.lookup t = some ⟨w, j, .publish []⟩) :
      TableStep s (.markWorkerIdle t) (s.setWorkerStatus w .idle)
  | failed {job w addr f} (hpc : s.dispatchThreads.lookup job = some ⟨w, addr, f, .offline⟩) :
      TableStep s (.markDispatchOffline job) (s.setWorkerStatus w .offline)
  | assign {job w} (hidle : s.findIdleWorker = some w) :
      TableStep s (.assignJob job)
        (updateFirst (fun w => decide (w.status = .idle))
          (fun w => { w with status := .busy }) s.workers)

variable {env : Env} {s s' : State} {a : Label} {tr : List Label}

theorem Step.table (h : Step env s a s') : TableStep s a s'.workers := by
  cases h with
  | registerWorker hpc => exact .register hpc
  | reconnectWorker hpc => exact .reconnect
  | disconnectUnknown hfind => exact .unknown hfind
  | markWorkerOffline hpc => exact .disconnect
  | markWorkerIdle hpc => exact .completed hpc
  | assignJob hnew hqueue hidle => exact .assign hidle
  | markDispatchOffline hpc => exact .failed hpc
  | _ => exact .keep nofun nofun nofun nofun

/-- An entry after a status write: an old one, or one under the id, with the
status written. -/
theorem State.mem_setWorkerStatus {id : WorkerId} {st : WorkerStatus} {x : Worker}
    (h : x ∈ s.setWorkerStatus id st) : x ∈ s.workers ∨ (x.id = id ∧ x.status = st) := by
  rcases mem_updateFirst h with hx | ⟨y, hy, rfl⟩
  · exact Or.inl hx
  · have hid := List.find?_some hy
    exact Or.inr ⟨of_decide_eq_true hid, rfl⟩

/-- An entry after a dispatch: an old one, or the one found idle, now busy. -/
theorem mem_assigned {x : Worker}
    (h : x ∈ updateFirst (fun w => decide (w.status = .idle))
      (fun w => { w with status := .busy }) s.workers) :
    x ∈ s.workers ∨ ∃ y ∈ s.workers, y.status = .idle ∧ x = { y with status := .busy } := by
  rcases mem_updateFirst h with hx | ⟨y, hy, rfl⟩
  · exact Or.inl hx
  · have hidle := List.find?_some hy
    exact Or.inr ⟨y, List.mem_of_find?_eq_some hy, of_decide_eq_true hidle, rfl⟩

theorem findIdleWorker_spec {x : Worker} (h : s.findIdleWorker = some x) :
    x ∈ s.workers ∧ x.status = .idle := by
  have hst := List.find?_some h
  exact ⟨List.mem_of_find?_eq_some h, of_decide_eq_true hst⟩

/-! ### Worker ids -/

/-- A step keeps the ids of the table, but for a registration. -/
theorem TableStep.ids {ws : List Worker} (h : TableStep s a ws) :
    ws.map Worker.id = s.workers.map Worker.id ∨
      ∃ t id, a = .registerWorker t id ∧ ws.map Worker.id = s.workers.map Worker.id ++ [id] := by
  cases h with
  | keep => exact Or.inl rfl
  | unknown => exact Or.inl rfl
  | @register t info hpc =>
    refine Or.inr ⟨t, info.workerId, rfl, ?_⟩
    exact List.map_append
  | reconnect => exact Or.inl (map_updateFirst fun _ => rfl)
  | disconnect => exact Or.inl (map_updateFirst fun _ => rfl)
  | completed => exact Or.inl (map_updateFirst fun _ => rfl)
  | failed => exact Or.inl (map_updateFirst fun _ => rfl)
  | assign => exact Or.inl (map_updateFirst fun _ => rfl)

/-- No id is registered twice. -/
def FreshRegistration (s : State) (a : Label) : Prop :=
  match a with
  | .registerWorker _ id => ∀ x ∈ s.workers, x.id ≠ id
  | _ => True

/-- Where no id is registered twice, the ids of the table are distinct. -/
theorem nodup_ids {C : System.Condition State Label}
    (hC : ∀ {tr s a}, C tr s a → FreshRegistration s a) (h : (scheduler env).Run C tr s) :
    (s.workers.map Worker.id).Nodup := by
  refine h.invariant (fun _ s => (s.workers.map Worker.id).Nodup) List.nodup_nil ?_
  intro tr s a s' _ hnodup hc hs
  rcases (Step.of_step hs).table.ids with hids | ⟨t, id, rfl, hids⟩
  · rwa [hids]
  · rw [hids, List.nodup_append]
    refine ⟨hnodup, List.nodup_singleton _, fun x hx y hy => ?_⟩
    obtain rfl := List.mem_singleton.mp hy
    obtain ⟨w, hw, rfl⟩ := List.mem_map.mp hx
    exact hC hc w hw

/-! ### Disconnected workers -/

/-- The label processes an `EstablishConnection` (`true`) or a `Disconnect`
(`false`) of the worker. -/
def Label.callOf (w : WorkerId) : Label → Option Bool
  | .registerWorker _ id => if id = w then some true else none
  | .reconnectWorker _ id => if id = w then some true else none
  | .markWorkerOffline _ id => if id = w then some false else none
  | .disconnectUnknown id => if id = w then some false else none
  | _ => none

/-- The last of the worker's `EstablishConnection` and `Disconnect` calls to be
processed is a `Disconnect`. -/
def LastCallDisconnect (tr : List Label) (w : WorkerId) : Prop :=
  (tr.filterMap (Label.callOf w)).getLast? = some false

theorem lastCallDisconnect_append {w : WorkerId} :
    LastCallDisconnect (tr ++ [a]) w ↔
      a.callOf w = some false ∨ (a.callOf w = none ∧ LastCallDisconnect tr w) := by
  unfold LastCallDisconnect
  rw [List.filterMap_append]
  cases hcall : a.callOf w with
  | none => simp [hcall]
  | some b => simp [hcall]

/-- The worker is not in the table, or OFFLINE, and no dispatch picks it. -/
structure State.GetsNoWork (env : Env) (s : State) (w : WorkerId) : Prop where
  offline : ∀ x ∈ s.workers, x.id = w → x.status = .offline
  not_picked : ∀ job s' d, (scheduler env).step s (.assignJob job) = some s' →
    s'.dispatchThreads.lookup job = some d → d.workerId ≠ w

/-- Workers whose last call was a `Disconnect` get no work. -/
def DisconnectedGetNoWork (env : Env) (tr : List Label) (s : State) : Prop :=
  ∀ w, LastCallDisconnect tr w → s.GetsNoWork env w

/-- The worker disconnects while it renders; its `JobCompleted` comes after. -/
def lateCompletion : List Label :=
  [.establishConnection 0 ⟨"10.0.0.1", "w", 50051⟩, .registerWorker 0 "w",
    .createRenderRequest "r" (samplePayload 1) "now", .addJobProgress "r", .addJobQueue "r",
    .assignJob "j", .disconnect 1 "w", .markWorkerOffline 1 "w",
    .jobCompleted 2 "w" "j", .takeJob 2, .buildLink 2 0, .recordFrame 2 ⟨"r", 0⟩,
    .publish 2, .publish 2, .publish 2, .publish 2, .markWorkerIdle 2]

theorem not_disconnectedGetNoWork : (scheduler sampleEnv).Reaches lateCompletion
    ((scheduler sampleEnv).after lateCompletion) ∧
    ¬ DisconnectedGetNoWork sampleEnv lateCompletion
      ((scheduler sampleEnv).after lateCompletion) := by
  refine ⟨.after (by decide), fun hall => ?_⟩
  have hlast : LastCallDisconnect lateCompletion "w" := by
    unfold LastCallDisconnect
    decide
  have hmem : (⟨"w", "10.0.0.1", 50051, .idle⟩ : Worker) ∈
      ((scheduler sampleEnv).after lateCompletion).workers := by
    decide
  cases (hall "w" hlast).offline _ hmem rfl

/-- No handler sets a worker to IDLE after its `Disconnect`, and no id is
registered twice. -/
def NoLateIdle : System.Condition State Label := fun tr s a =>
  match a with
  | .registerWorker _ id => ∀ x ∈ s.workers, x.id ≠ id
  | .markWorkerIdle t => ∀ c, s.completions.lookup t = some c → ¬ LastCallDisconnect tr c.workerId
  | _ => True

theorem NoLateIdle.freshRegistration (h : NoLateIdle tr s a) : FreshRegistration s a := by
  cases a with
  | registerWorker t id => exact h
  | _ => trivial

/-- The entries of a worker whose last call was a `Disconnect` are OFFLINE. -/
theorem offline_of_disconnect {w : WorkerId} (hrun : (scheduler env).Run NoLateIdle tr s)
    (hlast : LastCallDisconnect tr w) : ∀ x ∈ s.workers, x.id = w → x.status = .offline := by
  revert hlast
  refine hrun.invariant (fun tr s => LastCallDisconnect tr w →
    ∀ x ∈ s.workers, x.id = w → x.status = .offline) (fun _ _ hx => absurd hx List.not_mem_nil) ?_
  intro tr s a s' hrun ih hC hs hlast x hx hid
  have hnodup := nodup_ids NoLateIdle.freshRegistration hrun
  have htable := (Step.of_step hs).table
  generalize s'.workers = ws at htable hx
  rw [lastCallDisconnect_append] at hlast
  -- a write under another id leaves the entries of `w` as they were
  have hother : ∀ {id : WorkerId} {st : WorkerStatus}, id ≠ w → LastCallDisconnect tr w →
      x ∈ s.setWorkerStatus id st → x.status = .offline := by
    intro id st hne hlast hx
    rcases State.mem_setWorkerStatus hx with hx | ⟨hid', -⟩
    · exact ih hlast x hx hid
    · exact absurd (hid'.symm.trans hid) hne
  cases htable with
  | keep hregister hreconnect hoffline hunknown =>
    have hcall : a.callOf w = none := by
      cases a with
      | registerWorker t id => exact absurd rfl (hregister t id)
      | reconnectWorker t id => exact absurd rfl (hreconnect t id)
      | markWorkerOffline t id => exact absurd rfl (hoffline t id)
      | disconnectUnknown id => exact absurd rfl (hunknown id)
      | _ => rfl
    rw [hcall] at hlast
    exact ih (hlast.resolve_left nofun).2 x hx hid
  | @unknown id hfind =>
    rcases hlast with hcall | ⟨-, hlast⟩
    · -- nobody in the table has the id
      have hid' : id = w := by
        by_contra hne
        simp [Label.callOf, hne] at hcall
      have hnone := List.find?_eq_none.mp hfind x hx
      rw [hid, hid', decide_eq_true rfl] at hnone
      exact absurd rfl hnone
    · exact ih hlast x hx hid
  | @register t info hpc =>
    -- a connect of `w` itself would be its last call
    have hne : info.workerId ≠ w := by
      rintro rfl
      simp [Label.callOf] at hlast
    rcases List.mem_append.mp hx with hx | hx
    · refine ih ?_ x hx hid
      simpa [Label.callOf, hne] using hlast
    · obtain rfl := List.mem_singleton.mp hx
      exact absurd hid hne
  | @reconnect t id =>
    have hne : id ≠ w := by
      rintro rfl
      simp [Label.callOf] at hlast
    refine hother hne ?_ hx
    simpa [Label.callOf, hne] using hlast
  | @disconnect t id =>
    by_cases hne : id = w
    · -- the entry written is the only one under the id
      subst hne
      obtain ⟨y, -, rfl⟩ := eq_of_mem_updateFirst_key hnodup hx hid
      rfl
    · refine hother hne ?_ hx
      simpa [Label.callOf, hne] using hlast
  | @completed t id j hpc =>
    have hlast' : LastCallDisconnect tr w := (hlast.resolve_left nofun).2
    -- what the condition rules out
    refine hother ?_ hlast' hx
    rintro rfl
    exact hC _ hpc hlast'
  | failed =>
    have hlast' : LastCallDisconnect tr w := (hlast.resolve_left nofun).2
    -- a failed call writes OFFLINE too
    rcases State.mem_setWorkerStatus hx with hx | ⟨-, hst⟩
    · exact ih hlast' x hx hid
    · exact hst
  | assign hidle =>
    have hlast' : LastCallDisconnect tr w := (hlast.resolve_left nofun).2
    rcases mem_assigned hx with hx | ⟨y, hy, hst, rfl⟩
    · exact ih hlast' x hx hid
    · -- the worker found idle is another one
      cases hst.symm.trans (ih hlast' y hy hid)

/-- A dispatch picks an idle entry of the table. -/
theorem picked_idle {job : JobId} {d : DispatchThread}
    (hs : (scheduler env).step s (.assignJob job) = some s')
    (hd : s'.dispatchThreads.lookup job = some d) :
    ∃ x ∈ s.workers, x.id = d.workerId ∧ x.status = .idle := by
  cases Step.of_step hs with
  | @assignJob _ f rest w hnew hqueue hidle =>
    obtain rfl := Option.some.inj ((AList.lookup_insert _).symm.trans hd)
    obtain ⟨hmem, hst⟩ := findIdleWorker_spec hidle
    exact ⟨w, hmem, rfl, hst⟩

/-- **A disconnected worker gets no work**, in a run where no handler sets a
worker to IDLE after its `Disconnect` and no id is registered twice. -/
theorem disconnected_gets_no_work (hrun : (scheduler env).Run NoLateIdle tr s) :
    DisconnectedGetNoWork env tr s := by
  intro w hlast
  have hoffline := offline_of_disconnect hrun hlast
  refine ⟨hoffline, fun job s' d hs hd hw => ?_⟩
  obtain ⟨x, hx, hid, hidle⟩ := picked_idle hs hd
  cases hidle.symm.trans (hoffline x hx (hid.trans hw))

/-- A worker connects, takes a frame, and disconnects with the frame unfinished. -/
def quietDisconnect : List Label :=
  [.establishConnection 0 ⟨"10.0.0.1", "w", 50051⟩, .registerWorker 0 "w",
    .createRenderRequest "r" (samplePayload 2) "now", .addJobProgress "r", .addJobQueue "r",
    .assignJob "j", .disconnect 1 "w", .markWorkerOffline 1 "w"]

theorem disconnected_gets_no_work_quietDisconnect :
    DisconnectedGetNoWork sampleEnv quietDisconnect
      ((scheduler sampleEnv).after quietDisconnect) := by
  have hconnect : (scheduler sampleEnv).Run NoLateIdle
      [.establishConnection 0 ⟨"10.0.0.1", "w", 50051⟩] _ :=
    .after (by simp [NoLateIdle]) (by decide)
  -- the table is empty when the worker registers
  have hempty : ((scheduler sampleEnv).after
      [.establishConnection 0 ⟨"10.0.0.1", "w", 50051⟩]).workers = [] := by decide
  have hregister := hconnect.after_snoc (.registerWorker 0 "w")
    (fun x hx => absurd (hempty ▸ hx) List.not_mem_nil) (by decide)
  refine disconnected_gets_no_work (hregister.after_append (quietDisconnect.drop 2) ?_ ?_)
  · simp [quietDisconnect, NoLateIdle]
  · decide

/-! ### One frame per worker -/

/-- The call of the job is outstanding on the worker, and no `JobCompleted`
handler for it is past its lookup. -/
def State.Holds (s : State) (w : WorkerId) (j : JobId) : Prop :=
  (∃ d, s.dispatchThreads.lookup j = some d ∧ d.workerId = w ∧ d.pc = .calling) ∧ ¬ s.Reported j

/-- Each worker holds at most one job, and no dispatch picks a worker that holds one. -/
structure OneFramePerWorker (env : Env) (s : State) : Prop where
  unique : ∀ w j j', s.Holds w j → s.Holds w j' → j = j'
  picked_free : ∀ job s' d, (scheduler env).step s (.assignJob job) = some s' →
    s'.dispatchThreads.lookup job = some d → ∀ j, ¬ s.Holds d.workerId j

/-- The worker restarts while its first frame is outstanding, and reconnects. -/
def reconnectWhileBusy : List Label :=
  [.establishConnection 0 ⟨"10.0.0.1", "w", 50051⟩, .registerWorker 0 "w",
    .createRenderRequest "r" (samplePayload 2) "now", .addJobProgress "r", .addJobQueue "r",
    .assignJob "j0", .establishConnection 1 ⟨"10.0.0.1", "w", 50051⟩, .reconnectWorker 1 "w",
    .assignJob "j1"]

theorem not_oneFramePerWorker : (scheduler sampleEnv).Reaches reconnectWhileBusy
    ((scheduler sampleEnv).after reconnectWhileBusy) ∧
    ¬ OneFramePerWorker sampleEnv ((scheduler sampleEnv).after reconnectWhileBusy) := by
  refine ⟨.after (by decide), fun hone => ?_⟩
  -- no `JobCompleted` has been received
  have hunreported : ∀ j, ¬ ((scheduler sampleEnv).after reconnectWhileBusy).Reported j := by
    rintro j ⟨t, c, hc, -⟩
    cases hc
  have hholds : ∀ j, j = "j0" ∨ j = "j1" →
      ((scheduler sampleEnv).after reconnectWhileBusy).Holds "w" j := by
    rintro j (rfl | rfl)
    · exact ⟨⟨_, rfl, rfl, rfl⟩, hunreported _⟩
    · exact ⟨⟨_, rfl, rfl, rfl⟩, hunreported _⟩
  have heq := hone.unique "w" "j0" "j1" (hholds _ (Or.inl rfl)) (hholds _ (Or.inr rfl))
  exact absurd heq (by decide)

/-- No worker is set to IDLE while it holds a job, and no id is registered twice. -/
def NoIdleWhileHolding : System.Condition State Label := fun _ s a =>
  match a with
  | .registerWorker _ id => ∀ x ∈ s.workers, x.id ≠ id
  | .reconnectWorker _ id => ∀ j, ¬ s.Holds id j
  | .markWorkerIdle t => ∀ c, s.completions.lookup t = some c → ∀ j, ¬ s.Holds c.workerId j
  | _ => True

theorem NoIdleWhileHolding.freshRegistration (h : NoIdleWhileHolding tr s a) :
    FreshRegistration s a := by
  cases a with
  | registerWorker t id => exact h
  | _ => trivial

/-- A dispatch thread after a step was there before, with the same captured
values, or has just been started for an idle worker. -/
theorem Step.dispatch_cases {j : JobId} {d : DispatchThread} (h : Step env s a s')
    (hd : s'.dispatchThreads.lookup j = some d) :
    (∃ d₀, s.dispatchThreads.lookup j = some d₀ ∧ d.workerId = d₀.workerId ∧
        (d.pc = .calling → d₀.pc = .calling)) ∨
      (a = .assignJob j ∧ ∃ x, s.findIdleWorker = some x ∧ d.workerId = x.id) := by
  have hold : s.dispatchThreads.lookup j = some d →
      ∃ d₀, s.dispatchThreads.lookup j = some d₀ ∧ d.workerId = d₀.workerId ∧
        (d.pc = .calling → d₀.pc = .calling) :=
    fun hd => ⟨d, hd, rfl, id⟩
  have hmove : ∀ {job : JobId} {d₀ : DispatchThread} {pc : DispatchPc},
      (s.dispatchThreads.insert job { d₀ with pc }).lookup j = some d →
      s.dispatchThreads.lookup job = some d₀ → (pc = .calling → d₀.pc = .calling) →
      ∃ d₀, s.dispatchThreads.lookup j = some d₀ ∧ d.workerId = d₀.workerId ∧
        (d.pc = .calling → d₀.pc = .calling) := by
    intro job d₀ pc hd hd₀ hpc
    refine Table.exists_of_insert_over hd hd₀ ?_ ⟨rfl, id⟩
    rintro rfl
    exact ⟨rfl, hpc⟩
  cases h with
  | @assignJob job f rest x hnew hqueue hidle =>
    rcases Table.lookup_insert_cases hd with ⟨rfl, rfl⟩ | ⟨-, hd⟩
    · exact Or.inr ⟨rfl, x, hidle, rfl⟩
    · exact Or.inl (hold hd)
  | renderJobReturned hpc => exact Or.inl (hmove hd hpc fun _ => rfl)
  | undoRegistration hpc => exact Or.inl (hmove hd hpc nofun)
  | requeueFrame hpc => exact Or.inl (hmove hd hpc nofun)
  | markDispatchOffline hpc => exact Or.inl (hmove hd hpc nofun)
  | _ => exact Or.inl (hold hd)

/-- A job a worker holds after a step is one it held before, or the step
dispatched it to the worker, which was idle. -/
theorem State.Holds.cases {w : WorkerId} {j : JobId} (hh : s'.Holds w j) (h : Step env s a s') :
    s.Holds w j ∨ (a = .assignJob j ∧ ∃ x, s.findIdleWorker = some x ∧ x.id = w) := by
  obtain ⟨⟨d, hd, hw, hpc⟩, hunreported⟩ := hh
  rcases h.dispatch_cases hd with ⟨d₀, hd₀, hw₀, hpc₀⟩ | ⟨ha, x, hidle, hx⟩
  · exact Or.inl ⟨⟨d₀, hd₀, hw₀.symm.trans hw, hpc₀ hpc⟩, fun hr => hunreported (hr.step h)⟩
  · exact Or.inr ⟨ha, x, hidle, hx.symm.trans hw⟩

/-- A worker that holds a job is in the table, not idle, and holds no other. -/
structure State.Occupied (s : State) : Prop where
  in_table : ∀ j d, s.dispatchThreads.lookup j = some d → d.workerId ∈ s.workers.map Worker.id
  not_idle : ∀ w j, s.Holds w j → ∀ x ∈ s.workers, x.id = w → x.status ≠ .idle
  unique : ∀ w j j', s.Holds w j → s.Holds w j' → j = j'

namespace State.Occupied

variable (hO : s.Occupied) (hC : NoIdleWhileHolding tr s a) (h : Step env s a s')

include hO h

theorem in_table_step : ∀ j d, s'.dispatchThreads.lookup j = some d →
    d.workerId ∈ s'.workers.map Worker.id := by
  intro j d hd
  -- no entry ever leaves the table
  have hgrow : ∀ id ∈ s.workers.map Worker.id, id ∈ s'.workers.map Worker.id := by
    intro id hid
    rcases h.table.ids with hids | ⟨t, id', -, hids⟩
    · rwa [hids]
    · rw [hids]
      exact List.mem_append_left _ hid
  refine hgrow _ ?_
  rcases h.dispatch_cases hd with ⟨d₀, hd₀, hw, -⟩ | ⟨-, x, hidle, hx⟩
  · rw [hw]
    exact hO.in_table j d₀ hd₀
  · rw [hx]
    exact List.mem_map.mpr ⟨x, (findIdleWorker_spec hidle).1, rfl⟩

theorem unique_step : ∀ w j j', s'.Holds w j → s'.Holds w j' → j = j' := by
  intro w j j' hh hh'
  -- an idle worker holds nothing
  have hfree : ∀ {x : Worker} {j : JobId}, s.findIdleWorker = some x → x.id = w →
      ¬ s.Holds w j := by
    intro x j hidle hx hh
    obtain ⟨hmem, hst⟩ := findIdleWorker_spec hidle
    exact hO.not_idle w j hh x hmem hx hst
  rcases hh.cases h with hold | ⟨ha, x, hidle, hx⟩
  · rcases hh'.cases h with hold' | ⟨-, x, hidle, hx⟩
    · exact hO.unique w j j' hold hold'
    · exact absurd hold (hfree hidle hx)
  · rcases hh'.cases h with hold' | ⟨ha', -⟩
    · exact absurd hold' (hfree hidle hx)
    · -- one dispatch mints one id
      exact Label.assignJob.inj (ha.symm.trans ha')

include hC

theorem not_idle_step (hnodup : (s.workers.map Worker.id).Nodup) :
    ∀ w j, s'.Holds w j → ∀ x ∈ s'.workers, x.id = w → x.status ≠ .idle := by
  intro w j hh x hx hid
  rcases hh.cases h with hold | ⟨rfl, y, hidle, hy⟩
  · have hin : w ∈ s.workers.map Worker.id := by
      obtain ⟨⟨d, hd, rfl, -⟩, -⟩ := hold
      exact hO.in_table j d hd
    have hkeep : x ∈ s.workers → x.status ≠ .idle := fun hx => hO.not_idle w j hold x hx hid
    have htable := h.table
    generalize s'.workers = ws at htable hx
    cases htable with
    | keep => exact hkeep hx
    | unknown => exact hkeep hx
    -- the cases that write IDLE are those the condition is about
    | @register t info hpc =>
      rcases List.mem_append.mp hx with hx | hx
      · exact hkeep hx
      · -- the id is in the table already
        obtain rfl := List.mem_singleton.mp hx
        obtain ⟨z, hz, hzid⟩ := List.mem_map.mp hin
        exact absurd (hzid.trans hid.symm) (hC z hz)
    | reconnect =>
      rcases State.mem_setWorkerStatus hx with hx | ⟨rfl, -⟩
      · exact hkeep hx
      · exact absurd (hid ▸ hold) (hC j)
    | disconnect =>
      rcases State.mem_setWorkerStatus hx with hx | ⟨-, hst⟩
      · exact hkeep hx
      · rw [hst]
        nofun
    | completed hpc =>
      rcases State.mem_setWorkerStatus hx with hx | ⟨rfl, -⟩
      · exact hkeep hx
      · exact absurd (hid ▸ hold) (hC _ hpc j)
    | failed =>
      rcases State.mem_setWorkerStatus hx with hx | ⟨-, hst⟩
      · exact hkeep hx
      · rw [hst]
        nofun
    | assign =>
      rcases mem_assigned hx with hx | ⟨z, -, -, rfl⟩
      · exact hkeep hx
      · nofun
  · -- the only entry of the worker just picked is the one set to BUSY
    have hnodup' : (s'.workers.map Worker.id).Nodup := by
      rcases h.table.ids with hids | ⟨_, _, ha, -⟩
      · rwa [hids]
      · cases ha
    cases h with
    | @assignJob _ f rest z hnew hqueue hidle' =>
      obtain rfl := Option.some.inj (hidle.symm.trans hidle')
      have hbusy := mem_updateFirst_self (f := fun w : Worker => { w with status := .busy }) hidle
      have hsame := List.inj_on_of_nodup_map hnodup' hx hbusy (hid.trans hy.symm)
      rw [hsame]
      nofun

end State.Occupied

/-- In a run that meets `NoIdleWhileHolding`, workers hold at most one job. -/
theorem State.Occupied.of_run (hrun : (scheduler env).Run NoIdleWhileHolding tr s) :
    s.Occupied := by
  refine hrun.invariant (fun _ s => s.Occupied) ?_ ?_
  · constructor
    · intro j d hd
      cases hd
    · rintro w j ⟨⟨d, hd, -⟩, -⟩
      cases hd
    · rintro w j j' ⟨⟨d, hd, -⟩, -⟩
      cases hd
  · intro tr s a s' hrun hO hC hs
    have hnodup := nodup_ids NoIdleWhileHolding.freshRegistration hrun
    have h := Step.of_step hs
    exact ⟨hO.in_table_step h, hO.not_idle_step hC h hnodup, hO.unique_step h⟩

/-- **One frame per worker at a time**, in a run where no worker is set to IDLE
while it holds a job and no id is registered twice. -/
theorem one_frame_per_worker (hrun : (scheduler env).Run NoIdleWhileHolding tr s) :
    OneFramePerWorker env s := by
  have hO := State.Occupied.of_run hrun
  refine ⟨hO.unique, fun job s' d hs hd j hh => ?_⟩
  obtain ⟨x, hx, hid, hidle⟩ := picked_idle hs hd
  exact hO.not_idle _ j hh x hx hid hidle

/-- Two workers, each with one frame of a render, one of them reported. -/
def oneFrameEach : List Label :=
  [.establishConnection 0 ⟨"10.0.0.1", "v", 50051⟩, .registerWorker 0 "v",
    .createRenderRequest "r" (samplePayload 2) "now", .addJobProgress "r", .addJobQueue "r",
    .assignJob "j0", .jobCompleted 2 "v" "j0", .takeJob 2]

theorem one_frame_per_worker_oneFrameEach :
    OneFramePerWorker sampleEnv ((scheduler sampleEnv).after oneFrameEach) := by
  have hconnect : (scheduler sampleEnv).Run NoIdleWhileHolding
      [.establishConnection 0 ⟨"10.0.0.1", "v", 50051⟩] _ :=
    .after (by simp [NoIdleWhileHolding]) (by decide)
  have hempty : ((scheduler sampleEnv).after
      [.establishConnection 0 ⟨"10.0.0.1", "v", 50051⟩]).workers = [] := by decide
  have hregister := hconnect.after_snoc (.registerWorker 0 "v")
    (fun x hx => absurd (hempty ▸ hx) List.not_mem_nil) (by decide)
  refine one_frame_per_worker (hregister.after_append (oneFrameEach.drop 2) ?_ ?_)
  · simp [oneFrameEach, NoIdleWhileHolding]
  · decide

end Pathological
