import Pathological.Scheduler.WorkerTable

/-!
# Connecting workers

`EstablishConnection` looks the worker id up (`findWorkerByID`), and then runs
`registerWorker` or `reconnectWorker`, each under a lock of its own.

* **Worker ids are unique** (`worker_ids_unique`), in a run where no worker is
  registered between another handler's lookup of the same id and that handler's
  own registration. `registerWorker` does not look again, so two handlers that
  have both found nothing make two entries (`overlappingConnects`).
* **Dispatch goes where the worker last said it is** (`dispatched_to_address`),
  in a run where every connect that is processed finds the worker's entries
  under the address it carries. `reconnectWorker` is not given the address, so a
  worker that comes back from another one is still called at the old
  (`movedWorker`).

`PendingRegistration` carries the first: what a handler about to register has
not found was not there, and what is there now was registered since.
-/

namespace Pathological

open Framework

variable {env : Env} {s s' : State} {a : Label} {tr : List Label}

/-! ### The handlers of `EstablishConnection` -/

/-- A handler stays, for the same worker. -/
theorem Step.connects {t : ThreadId} {c : ConnectThread} (h : Step env s a s')
    (hc : s.connects.lookup t = some c) : ∃ pc, s'.connects.lookup t = some ⟨c.info, pc⟩ := by
  have hmove : ∀ {t₀ : ThreadId} {info : WorkerInfo} {pc₀ pc : ConnectPc},
      s.connects.lookup t₀ = some ⟨info, pc₀⟩ →
      ∃ pc', (s.connects.insert t₀ ⟨info, pc⟩).lookup t = some ⟨c.info, pc'⟩ := by
    intro t₀ info pc₀ pc hc₀
    obtain ⟨c', hc', hinfo⟩ := Table.exists_insert_over (Q := fun c' => c'.info = c.info)
      (v := (⟨info, pc⟩ : ConnectThread)) hc₀ id ⟨c, hc, rfl⟩
    exact ⟨c'.pc, by rw [hc', ← hinfo]⟩
  cases h with
  | establishKnown hn hfind => exact ⟨c.pc, Table.lookup_insert_new hn hc⟩
  | establishNew hn hfind => exact ⟨c.pc, Table.lookup_insert_new hn hc⟩
  | registerWorker hpc => exact hmove hpc
  | reconnectWorker hpc => exact hmove hpc
  | _ => exact ⟨c.pc, hc⟩

/-- A handler about to register its worker was so before, or has just found no
entry for it. -/
theorem Step.register_cases {t : ThreadId} {info : WorkerInfo} (h : Step env s a s')
    (hc : s'.connects.lookup t = some ⟨info, .register⟩) :
    s.connects.lookup t = some ⟨info, .register⟩ ∨
      (a = .establishConnection t info ∧ s.findWorkerByID info.workerId = none) := by
  have hset : ∀ {t₀ : ThreadId} {info₀ : WorkerInfo} {pc : ConnectPc},
      (s.connects.insert t₀ ⟨info₀, pc⟩).lookup t = some ⟨info, .register⟩ →
      pc ≠ .register → s.connects.lookup t = some ⟨info, .register⟩ := by
    intro t₀ info₀ pc hc hpc
    rcases Table.lookup_insert_cases hc with ⟨-, heq⟩ | ⟨-, hc⟩
    · exact absurd (ConnectThread.mk.inj heq).2.symm hpc
    · exact hc
  cases h with
  | establishKnown hnew hfind => exact Or.inl (hset hc nofun)
  | establishNew hnew hfind =>
    rcases Table.lookup_insert_cases hc with ⟨rfl, heq⟩ | ⟨-, hc⟩
    · obtain ⟨rfl, -⟩ := ConnectThread.mk.inj heq
      exact Or.inr ⟨rfl, hfind⟩
    · exact Or.inl hc
  | registerWorker hpc => exact Or.inl (hset hc nofun)
  | reconnectWorker hpc => exact Or.inl (hset hc nofun)
  | _ => exact Or.inl hc

/-! ### Worker ids -/

/-- At most one entry per worker id, and `findWorkerByID` finds that one. -/
structure WorkerIdsUnique (s : State) : Prop where
  nodup : (s.workers.map Worker.id).Nodup
  only_entry : ∀ w x, s.findWorkerByID w = some x ↔ x ∈ s.workers ∧ x.id = w

/-- The labels since the handler's lookup of its worker id. -/
def SinceLookup (tr : List Label) (t : ThreadId) (info : WorkerInfo) (since : List Label) : Prop :=
  ∃ before, tr = before ++ .establishConnection t info :: since

/-- Between the lookup of an `EstablishConnection` handler that goes on to
register its worker and that registration, no other handler registers a worker
of the same id. -/
def UndisturbedRegistration : System.Condition State Label := fun tr _ a =>
  match a with
  | .registerWorker t id => ∀ info since, SinceLookup tr t info since →
      ∀ t', .registerWorker t' id ∉ since
  | _ => True

/-- A handler about to register its worker has looked it up, and the entries
that are there under the id have been registered since. -/
def PendingRegistration (tr : List Label) (s : State) : Prop :=
  ∀ t info, s.connects.lookup t = some ⟨info, .register⟩ →
    ∃ since, SinceLookup tr t info since ∧
      ∀ x ∈ s.workers, x.id = info.workerId → ∃ t', .registerWorker t' info.workerId ∈ since

/-- An id after a step was there before, or has just been registered. -/
theorem Step.worker_cases {x : Worker} (h : Step env s a s') (hx : x ∈ s'.workers) :
    (∃ y ∈ s.workers, y.id = x.id) ∨ ∃ t, a = .registerWorker t x.id := by
  have hid : x.id ∈ s'.workers.map Worker.id := List.mem_map.mpr ⟨x, hx, rfl⟩
  rcases h.table.ids with hids | ⟨t, id, rfl, hids⟩
  · rw [hids] at hid
    exact Or.inl (List.mem_map.mp hid)
  · rw [hids] at hid
    rcases List.mem_append.mp hid with hid | hid
    · exact Or.inl (List.mem_map.mp hid)
    · exact Or.inr ⟨t, by rw [List.mem_singleton.mp hid]⟩

theorem PendingRegistration.of_run {C : System.Condition State Label}
    (h : (scheduler env).Run C tr s) : PendingRegistration tr s := by
  refine h.invariant PendingRegistration ?_ ?_
  · intro t info hc
    cases hc
  intro tr s a s' _ hP _ hs t info hc
  have hstep := Step.of_step hs
  rcases hstep.register_cases hc with hold | ⟨rfl, hfind⟩
  · obtain ⟨since, ⟨before, rfl⟩, hsince⟩ := hP t info hold
    refine ⟨since ++ [a], ⟨before, List.append_assoc _ _ _⟩, fun x hx hid => ?_⟩
    rcases hstep.worker_cases hx with ⟨y, hy, hyx⟩ | ⟨t', rfl⟩
    · obtain ⟨t', ht'⟩ := hsince y hy (hyx.trans hid)
      exact ⟨t', List.mem_append_left _ ht'⟩
    · exact ⟨t', List.mem_append_right _ (by rw [hid]; exact List.mem_singleton_self _)⟩
  · -- nothing was found, and nothing has been registered since
    refine ⟨[], ⟨tr, rfl⟩, fun x hx hid => ?_⟩
    rcases hstep.worker_cases hx with ⟨y, hy, hyx⟩ | ⟨t', ha⟩
    · have hnone := List.find?_eq_none.mp hfind y hy
      rw [hyx, hid, decide_eq_true rfl] at hnone
      exact absurd rfl hnone
    · cases ha

/-- A registration that no other one has come before is of a new id. -/
theorem UndisturbedRegistration.freshRegistration (hrun : (scheduler env).Reaches tr s)
    (hC : UndisturbedRegistration tr s a) (h : Step env s a s') : FreshRegistration s a := by
  cases h with
  | @registerWorker t info hpc =>
    intro x hx hid
    obtain ⟨since, hlookup, hsince⟩ := PendingRegistration.of_run hrun t info hpc
    obtain ⟨t', ht'⟩ := hsince x hx hid
    exact hC info since hlookup t' ht'
  | _ => trivial

/-- Under the condition, every registration is of a new id. -/
theorem UndisturbedRegistration.run (h : (scheduler env).Run UndisturbedRegistration tr s) :
    (scheduler env).Run (fun _ s a => FreshRegistration s a) tr s := by
  induction h with
  | nil => exact .nil
  | snoc hrun hC hs ih =>
    have hfresh := UndisturbedRegistration.freshRegistration hrun.reaches hC (.of_step hs)
    exact ih.snoc hfresh hs

/-- **Worker ids are unique**, in a run where no other handler registers a
worker between a handler's lookup of its id and its own registration. -/
theorem worker_ids_unique (hrun : (scheduler env).Run UndisturbedRegistration tr s) :
    WorkerIdsUnique s := by
  have hnodup : (s.workers.map Worker.id).Nodup := nodup_ids id (UndisturbedRegistration.run hrun)
  refine ⟨hnodup, fun w x => ⟨fun hfind => ?_, fun ⟨hx, hid⟩ => ?_⟩⟩
  · have hid := List.find?_some hfind
    exact ⟨List.mem_of_find?_eq_some hfind, of_decide_eq_true hid⟩
  · -- the search stops at some entry under the id, and there is only one
    have hsome : (s.workers.find? fun y => decide (y.id = w)).isSome = true :=
      List.find?_isSome.mpr ⟨x, hx, decide_eq_true hid⟩
    obtain ⟨y, hy⟩ := Option.isSome_iff_exists.mp hsome
    have hyw := List.find?_some hy
    have hxy := List.inj_on_of_nodup_map hnodup (List.mem_of_find?_eq_some hy) hx
      ((of_decide_eq_true hyw).trans hid.symm)
    exact hxy ▸ hy

/-- Two workers connect at the same time, and one of them again later. -/
def connectsInTurn : List Label :=
  [.establishConnection 0 ⟨"10.0.0.1", "v", 50051⟩, .establishConnection 1 ⟨"10.0.0.2", "w", 50051⟩,
    .registerWorker 1 "w", .registerWorker 0 "v",
    .establishConnection 2 ⟨"10.0.0.2", "w", 50051⟩, .reconnectWorker 2 "w"]

theorem worker_ids_unique_connectsInTurn :
    WorkerIdsUnique ((scheduler sampleEnv).after connectsInTurn) := by
  -- nobody of the same id has been registered before
  have hfirst : ∀ {tr : List Label} {s : State} {t : ThreadId} {id : WorkerId},
      (∀ t', .registerWorker t' id ∉ tr) → UndisturbedRegistration tr s (.registerWorker t id) := by
    rintro tr s t id hnone info since ⟨before, rfl⟩ t' ht'
    exact hnone t' (List.mem_append_right _ (List.mem_cons_of_mem _ ht'))
  have hlookups : (scheduler sampleEnv).Run UndisturbedRegistration (connectsInTurn.take 2) _ :=
    .after (by simp [connectsInTurn, UndisturbedRegistration]) (by decide)
  have hw := hlookups.after_snoc (.registerWorker 1 "w")
    (hfirst (by simp [connectsInTurn])) (by decide)
  have hv := hw.after_snoc (.registerWorker 0 "v")
    (hfirst (by simp [connectsInTurn])) (by decide)
  refine worker_ids_unique (hv.after_append (connectsInTurn.drop 4) ?_ ?_)
  · simp [connectsInTurn, UndisturbedRegistration]
  · decide

/-- One worker's connect is handled by two threads at the same time. -/
def overlappingConnects : List Label :=
  [.establishConnection 0 ⟨"10.0.0.1", "w", 50051⟩, .establishConnection 1 ⟨"10.0.0.1", "w", 50051⟩,
    .registerWorker 0 "w", .registerWorker 1 "w"]

theorem not_workerIdsUnique : (scheduler sampleEnv).Reaches overlappingConnects
    ((scheduler sampleEnv).after overlappingConnects) ∧
    ¬ WorkerIdsUnique ((scheduler sampleEnv).after overlappingConnects) := by
  refine ⟨.after (by decide), fun hunique => ?_⟩
  have hdup : ¬ (((scheduler sampleEnv).after overlappingConnects).workers.map
      Worker.id).Nodup := by decide
  exact hdup hunique.nodup

/-! ### Addresses -/

/-- The address a worker gives for itself. -/
def WorkerInfo.address (info : WorkerInfo) : String := info.workerIp ++ ":" ++ toString info.port

/-- The label processes an `EstablishConnection` of the worker, handled by the thread. -/
def Label.connectOf (w : WorkerId) : Label → Option ThreadId
  | .registerWorker t id | .reconnectWorker t id => if id = w then some t else none
  | _ => none

/-- The handler of the last of the worker's `EstablishConnection` calls to be processed. -/
def lastConnect (tr : List Label) (w : WorkerId) : Option ThreadId :=
  (tr.filterMap (Label.connectOf w)).getLast?

theorem lastConnect_append {w : WorkerId} :
    lastConnect (tr ++ [a]) w = (a.connectOf w).or (lastConnect tr w) := by
  unfold lastConnect
  rw [List.filterMap_append]
  cases hcall : a.connectOf w with
  | none => simp [hcall]
  | some t => simp [hcall]

/-- A frame dispatched to a worker is sent to the address that the last of the
worker's `EstablishConnection` calls to be processed carried. -/
def DispatchedToAddress (env : Env) (tr : List Label) (s : State) : Prop :=
  ∀ w t info pc, lastConnect tr w = some t → s.connects.lookup t = some ⟨info, pc⟩ →
    ∀ job s' d, (scheduler env).step s (.assignJob job) = some s' →
      s'.dispatchThreads.lookup job = some d → d.workerId = w →
      d.workerAddress = info.address

/-- A connect that is processed finds the entries of its worker under the
address it carries. -/
def SameAddress : System.Condition State Label := fun _ s a =>
  match a with
  | .registerWorker t id | .reconnectWorker t id =>
    ∀ info pc, s.connects.lookup t = some ⟨info, pc⟩ →
      ∀ x ∈ s.workers, x.id = id → State.workerAddress x = info.address
  | _ => True

/-- The entries of a worker are under the address its last connect carried. -/
def State.Addressed (tr : List Label) (s : State) : Prop :=
  ∀ w t, lastConnect tr w = some t → ∃ info pc, s.connects.lookup t = some ⟨info, pc⟩ ∧
    ∀ x ∈ s.workers, x.id = w → State.workerAddress x = info.address

/-- An entry after a step was there before under the same address, or is the one
the handler of the step has just registered. -/
theorem Step.address_cases {x : Worker} (h : Step env s a s') (hx : x ∈ s'.workers) :
    (∃ y ∈ s.workers, y.id = x.id ∧ State.workerAddress y = State.workerAddress x) ∨
      ∃ t info, a = .registerWorker t x.id ∧ s.connects.lookup t = some ⟨info, .register⟩ ∧
        State.workerAddress x = info.address := by
  -- a status write keeps the address
  have hwrite : ∀ {p : Worker → Bool} {st : WorkerStatus},
      x ∈ updateFirst p (fun y => { y with status := st }) s.workers →
      ∃ y ∈ s.workers, y.id = x.id ∧ State.workerAddress y = State.workerAddress x := by
    intro p st hx
    rcases mem_updateFirst hx with hx | ⟨y, hy, rfl⟩
    · exact ⟨x, hx, rfl, rfl⟩
    · exact ⟨y, List.mem_of_find?_eq_some hy, rfl, rfl⟩
  have htable := h.table
  generalize s'.workers = ws at htable hx
  cases htable with
  | keep => exact Or.inl ⟨x, hx, rfl, rfl⟩
  | unknown => exact Or.inl ⟨x, hx, rfl, rfl⟩
  | @register t info hpc =>
    rcases List.mem_append.mp hx with hx | hx
    · exact Or.inl ⟨x, hx, rfl, rfl⟩
    · obtain rfl := List.mem_singleton.mp hx
      exact Or.inr ⟨t, info, rfl, hpc, rfl⟩
  | reconnect => exact Or.inl (hwrite hx)
  | disconnect => exact Or.inl (hwrite hx)
  | completed => exact Or.inl (hwrite hx)
  | failed => exact Or.inl (hwrite hx)
  | assign => exact Or.inl (hwrite hx)

/-- What a step that processes a connect does to the entries of its worker. -/
theorem State.Addressed.connect {w : WorkerId} {t : ThreadId} (h : Step env s a s')
    (hC : SameAddress tr s a) (ht : a.connectOf w = some t) :
    ∃ info pc, s'.connects.lookup t = some ⟨info, pc⟩ ∧
      ∀ x ∈ s'.workers, x.id = w → State.workerAddress x = info.address := by
  cases h with
  | @registerWorker t₀ info hpc =>
    simp only [Label.connectOf, Option.ite_none_right_eq_some, Option.some.injEq] at ht
    obtain ⟨rfl, rfl⟩ := ht
    refine ⟨info, _, AList.lookup_insert _, fun x hx hid => ?_⟩
    rcases List.mem_append.mp hx with hx | hx
    · exact hC info _ hpc x hx hid
    · obtain rfl := List.mem_singleton.mp hx
      rfl
  | @reconnectWorker t₀ info hpc =>
    simp only [Label.connectOf, Option.ite_none_right_eq_some, Option.some.injEq] at ht
    obtain ⟨rfl, rfl⟩ := ht
    refine ⟨info, _, AList.lookup_insert _, fun x hx hid => ?_⟩
    -- the entry that is set to IDLE keeps its address
    rcases mem_updateFirst hx with hx | ⟨y, hy, rfl⟩
    · exact hC info _ hpc x hx hid
    · exact hC info _ hpc y (List.mem_of_find?_eq_some hy) hid
  | _ => cases ht

theorem State.Addressed.of_run (hrun : (scheduler env).Run SameAddress tr s) :
    State.Addressed tr s := by
  refine hrun.invariant State.Addressed (fun _ _ ht => absurd ht nofun) ?_
  intro tr s a s' _ hA hC hs w t ht
  have h := Step.of_step hs
  rw [lastConnect_append] at ht
  cases hcall : a.connectOf w with
  | some t' =>
    rw [hcall, Option.some_or] at ht
    obtain rfl := Option.some.inj ht
    exact State.Addressed.connect h hC hcall
  | none =>
    rw [hcall, Option.none_or] at ht
    obtain ⟨info, pc, hc, haddr⟩ := hA w t ht
    obtain ⟨pc', hc'⟩ := h.connects hc
    refine ⟨info, pc', hc', fun x hx hid => ?_⟩
    rcases h.address_cases hx with ⟨y, hy, hyid, hyaddr⟩ | ⟨t', info', rfl, -⟩
    · rw [← hyaddr]
      exact haddr y hy (hyid.trans hid)
    · -- a registration of the worker would be its last connect
      simp [Label.connectOf, hid] at hcall

/-- A dispatch calls the address of an idle entry of the table. -/
theorem picked_address {job : JobId} {d : DispatchThread}
    (hs : (scheduler env).step s (.assignJob job) = some s')
    (hd : s'.dispatchThreads.lookup job = some d) :
    ∃ x ∈ s.workers, x.id = d.workerId ∧ d.workerAddress = State.workerAddress x := by
  cases Step.of_step hs with
  | assignJob hnew hqueue hidle =>
    obtain rfl := Option.some.inj ((AList.lookup_insert _).symm.trans hd)
    exact ⟨_, (findIdleWorker_spec hidle).1, rfl, rfl⟩

/-- **Dispatch goes where the worker last said it is**, in a run where every
connect that is processed finds the entries of its worker under the address it
carries. -/
theorem dispatched_to_address (hrun : (scheduler env).Run SameAddress tr s) :
    DispatchedToAddress env tr s := by
  intro w t info pc hlast hc job s' d hs hd hw
  obtain ⟨info', pc', hc', haddr⟩ := State.Addressed.of_run hrun w t hlast
  obtain ⟨rfl, rfl⟩ := ConnectThread.mk.inj (Option.some.inj (hc.symm.trans hc'))
  obtain ⟨x, hx, hid, hdx⟩ := picked_address hs hd
  rw [hdx]
  exact haddr x hx (hid.trans hw)

/-- A worker connects and comes back from the same address, with a frame waiting. -/
def sameAddressAgain : List Label :=
  [.establishConnection 0 ⟨"10.0.0.1", "w", 50051⟩, .registerWorker 0 "w",
    .createRenderRequest "r" (samplePayload 1) "now", .addJobProgress "r", .addJobQueue "r",
    .establishConnection 1 ⟨"10.0.0.1", "w", 50051⟩, .reconnectWorker 1 "w"]

theorem dispatched_to_address_sameAddressAgain :
    DispatchedToAddress sampleEnv sameAddressAgain
      ((scheduler sampleEnv).after sameAddressAgain) := by
  have hconnect : (scheduler sampleEnv).Run SameAddress (sameAddressAgain.take 1) _ :=
    .after (by simp [sameAddressAgain, SameAddress]) (by decide)
  -- the table is empty when the worker registers
  have hempty : ((scheduler sampleEnv).after (sameAddressAgain.take 1)).workers = [] := by
    decide
  have hregister := hconnect.after_snoc (.registerWorker 0 "w")
    (fun _ _ _ x hx => absurd (hempty ▸ hx) List.not_mem_nil) (by decide)
  have hwaiting := hregister.after_append [.createRenderRequest "r" (samplePayload 1) "now",
    .addJobProgress "r", .addJobQueue "r", .establishConnection 1 ⟨"10.0.0.1", "w", 50051⟩]
    (by simp [SameAddress]) (by decide)
  refine dispatched_to_address (hwaiting.after_snoc (.reconnectWorker 1 "w") ?_ (by decide))
  intro info pc hc x hx _
  have hone : ((scheduler sampleEnv).after (sameAddressAgain.take 6)).workers =
      [⟨"w", "10.0.0.1", 50051, .idle⟩] := by decide
  have hinfo : ((scheduler sampleEnv).after (sameAddressAgain.take 6)).connects.lookup 1 =
      some ⟨⟨"10.0.0.1", "w", 50051⟩, .reconnect⟩ := by decide
  obtain ⟨rfl, -⟩ := ConnectThread.mk.inj (Option.some.inj (hinfo.symm.trans hc))
  obtain rfl := List.mem_singleton.mp (hone ▸ hx)
  rfl

/-- A worker comes back from another address, and gets a frame. -/
def movedWorker : List Label :=
  [.establishConnection 0 ⟨"10.0.0.1", "w", 50051⟩, .registerWorker 0 "w",
    .createRenderRequest "r" (samplePayload 1) "now", .addJobProgress "r", .addJobQueue "r",
    .establishConnection 1 ⟨"10.0.0.2", "w", 50051⟩, .reconnectWorker 1 "w"]

theorem not_dispatchedToAddress : (scheduler sampleEnv).Reaches movedWorker
    ((scheduler sampleEnv).after movedWorker) ∧
    ¬ DispatchedToAddress sampleEnv movedWorker ((scheduler sampleEnv).after movedWorker) := by
  refine ⟨.after (by decide), fun hall => ?_⟩
  have hlast : lastConnect movedWorker "w" = some 1 := by decide
  have hinfo : ((scheduler sampleEnv).after movedWorker).connects.lookup 1 =
      some ⟨⟨"10.0.0.2", "w", 50051⟩, .answered .reconnected⟩ := by decide
  have hdispatch : ((scheduler sampleEnv).after
      (movedWorker ++ [.assignJob "j"])).dispatchThreads.lookup "j" =
        some ⟨"w", "10.0.0.1:50051", ⟨"r", 0, ⟨0, 24⟩⟩, .calling⟩ := by decide
  have hstep : (scheduler sampleEnv).step ((scheduler sampleEnv).after movedWorker)
      (.assignJob "j") = some ((scheduler sampleEnv).after (movedWorker ++ [.assignJob "j"])) := by
    rfl
  have haddr := hall "w" 1 _ _ hlast hinfo "j" _ _ hstep hdispatch rfl
  exact absurd haddr (by decide)

end Pathological
