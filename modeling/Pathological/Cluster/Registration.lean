import Pathological.Scheduler.Connections
import Pathological.Cluster.FailedCalls

/-!
# Live workers

A worker that is up should not be OFFLINE for the scheduler once nothing is in
flight (`NotWrittenOff`). Two places write OFFLINE without looking at the
worker: the last section of a dispatch thread whose call failed, however late it
runs and whatever the failure was, and a `Disconnect` handler. A single frame on
which the handler throws is enough (`not_notWrittenOff`).

Where neither writes it to a worker that is up (`NoLiveWriteOff`), the property
holds (`not_written_off`). The invariant is `Cluster.Connected`, what the
handlers of `EstablishConnection` know of the processes that wait for them.
-/

namespace Pathological

open Framework

/-! ### The worker's entry -/

/-- `findWorkerByID` finds an entry for the worker that is not OFFLINE. -/
def State.Usable (s : State) (w : WorkerId) : Prop :=
  ∃ x, s.findWorkerByID w = some x ∧ x.status ≠ .offline

section Table

variable {env : Env} {s s' : State} {a : Label} {w : WorkerId}

theorem isSome_findWorkerByID : (s.findWorkerByID w).isSome = true ↔
    w ∈ s.workers.map Worker.id := by
  unfold State.findWorkerByID
  rw [List.find?_isSome, List.mem_map]
  simp

/-- A worker that is known stays known. -/
theorem Step.findWorkerByID (h : Step env s a s') (hw : (s.findWorkerByID w).isSome = true) :
    (s'.findWorkerByID w).isSome = true := by
  rw [isSome_findWorkerByID] at hw ⊢
  rcases h.table.ids with hids | ⟨t, id, -, hids⟩
  · rwa [hids]
  · rw [hids]
    exact List.mem_append_left _ hw

/-- A status write other than OFFLINE to this worker, or any to another one,
leaves a usable worker usable. -/
theorem State.Usable.set {id : WorkerId} {st : WorkerStatus} (h : s.Usable w)
    (hs' : s'.workers = s.setWorkerStatus id st) (hst : id = w → st ≠ .offline) : s'.Usable w := by
  obtain ⟨x, hx, hne⟩ := h
  obtain ⟨y, hy, hcases⟩ :=
    find?_updateFirst (p := fun x => decide (x.id = id)) (f := fun x => { x with status := st })
      (fun _ => rfl) hx
  refine ⟨y, by rw [State.findWorkerByID, hs']; exact hy, ?_⟩
  rcases hcases with rfl | ⟨hid, rfl⟩
  · exact hne
  · -- the entry written is the worker's, so the write is not OFFLINE
    have hxw := List.find?_some hx
    exact hst ((of_decide_eq_true hid).symm.trans (of_decide_eq_true hxw))

/-- Setting a known worker to IDLE makes it usable, -/
theorem State.usable_of_idle (hw : (s.findWorkerByID w).isSome = true)
    (hs' : s'.workers = s.setWorkerStatus w .idle) : s'.Usable w := by
  obtain ⟨x, hx⟩ := Option.isSome_iff_exists.mp hw
  have hself := find?_updateFirst_self (p := fun x : Worker => decide (x.id = w))
    (f := fun x => { x with status := .idle }) (l := s.workers) fun _ => rfl
  refine ⟨{ x with status := .idle }, ?_, nofun⟩
  rw [State.findWorkerByID, hs', State.setWorkerStatus, hself]
  exact congrArg (Option.map _) hx

/-- and so does registering a new one. -/
theorem State.usable_of_register {info : WorkerInfo}
    (hnew : ∀ x ∈ s.workers, x.id ≠ info.workerId) :
    (s.registerWorker info).Usable info.workerId := by
  refine ⟨⟨info.workerId, info.workerIp, info.port, .idle⟩, ?_, nofun⟩
  have hnone : s.workers.find? (fun x => decide (x.id = info.workerId)) = none :=
    List.find?_eq_none.mpr fun x hx => by simpa using hnew x hx
  show (s.workers ++ [_]).find? _ = _
  rw [List.find?_append, hnone]
  simp

/-- An entry that is there is not affected by a registration. -/
theorem State.Usable.register {info : WorkerInfo} (h : s.Usable w) :
    (s.registerWorker info).Usable w := by
  obtain ⟨x, hx, hne⟩ := h
  refine ⟨x, ?_, hne⟩
  show (s.workers ++ [_]).find? _ = _
  rw [List.find?_append]
  exact congrArg (Option.or · _) hx

/-- A step that writes no OFFLINE to a usable worker leaves it usable. -/
theorem State.Usable.step (h : s.Usable w) (hs : Step env s a s')
    (hdisconnect : ∀ t, a ≠ .markWorkerOffline t w)
    (hfailed : ∀ job d, a = .markDispatchOffline job → s.dispatchThreads.lookup job = some d →
      d.workerId ≠ w) : s'.Usable w := by
  cases hs with
  | registerWorker hpc => exact h.register
  | reconnectWorker hpc => exact h.set rfl fun _ => nofun
  | @markWorkerOffline t id hpc =>
    refine h.set rfl fun hid => ?_
    exact absurd (congrArg (Label.markWorkerOffline t) hid) (hdisconnect t)
  | markWorkerIdle hpc => exact h.set rfl fun _ => nofun
  | @assignJob job f rest x hnew hqueue hidle =>
    -- a dispatch writes BUSY
    obtain ⟨y, hy, hne⟩ := h
    obtain ⟨z, hz, hcases⟩ :=
      find?_updateFirst (p := fun x : Worker => decide (x.status = .idle))
        (f := fun x => { x with status := .busy }) (fun _ => rfl) hy
    refine ⟨z, hz, ?_⟩
    rcases hcases with rfl | ⟨-, rfl⟩
    · exact hne
    · exact nofun
  | markDispatchOffline hpc =>
    exact h.set rfl fun hid => absurd hid (hfailed _ _ rfl hpc)
  | _ => exact h

/-! ### The handlers of `EstablishConnection` -/

/-- A handler that has answered has done so before, or has just registered or
reconnected its worker. -/
theorem Step.answered_cases {t : ThreadId} {info : WorkerInfo} {st : RegistrationStatus}
    (h : Step env s a s') (ht : s'.connects.lookup t = some ⟨info, .answered st⟩) :
    s.connects.lookup t = some ⟨info, .answered st⟩ ∨
      (a = .registerWorker t info.workerId ∧ s.connects.lookup t = some ⟨info, .register⟩) ∨
      (a = .reconnectWorker t info.workerId ∧ s.connects.lookup t = some ⟨info, .reconnect⟩) := by
  cases h with
  | establishKnown hnew hfind =>
    rcases Table.lookup_insert_cases ht with ⟨-, hc⟩ | ⟨-, ht⟩
    · cases hc
    · exact Or.inl ht
  | establishNew hnew hfind =>
    rcases Table.lookup_insert_cases ht with ⟨-, hc⟩ | ⟨-, ht⟩
    · cases hc
    · exact Or.inl ht
  | registerWorker hpc =>
    rcases Table.lookup_insert_cases ht with ⟨rfl, hc⟩ | ⟨-, ht⟩
    · obtain ⟨rfl, -⟩ := ConnectThread.mk.inj hc
      exact Or.inr (Or.inl ⟨rfl, hpc⟩)
    · exact Or.inl ht
  | reconnectWorker hpc =>
    rcases Table.lookup_insert_cases ht with ⟨rfl, hc⟩ | ⟨-, ht⟩
    · obtain ⟨rfl, -⟩ := ConnectThread.mk.inj hc
      exact Or.inr (Or.inr ⟨rfl, hpc⟩)
    · exact Or.inl ht
  | _ => exact Or.inl ht

/-- A handler that is about to reconnect its worker has found it, and the worker
is still there. -/
theorem reconnect_known_step (hR : ∀ t info, s.connects.lookup t = some ⟨info, .reconnect⟩ →
    (s.findWorkerByID info.workerId).isSome = true) (h : Step env s a s') :
    ∀ t info, s'.connects.lookup t = some ⟨info, .reconnect⟩ →
      (s'.findWorkerByID info.workerId).isSome = true := by
  have hold : ∀ t info, s.connects.lookup t = some ⟨info, .reconnect⟩ →
      (s'.findWorkerByID info.workerId).isSome = true :=
    fun t info ht => h.findWorkerByID (hR t info ht)
  have hset : ∀ {t₀ : ThreadId} {c : ConnectThread},
      (c.pc = .reconnect → (s'.findWorkerByID c.info.workerId).isSome = true) → ∀ t info,
      (s.connects.insert t₀ c).lookup t = some ⟨info, .reconnect⟩ →
      (s'.findWorkerByID info.workerId).isSome = true := by
    intro t₀ c hc t info ht
    rcases Table.lookup_insert_cases ht with ⟨-, rfl⟩ | ⟨-, ht⟩
    · exact hc rfl
    · exact hold t info ht
  cases h with
  | establishKnown hnew hfind => exact hset fun _ => Option.isSome_iff_exists.mpr ⟨_, hfind⟩
  | establishNew hnew hfind => exact hset nofun
  | registerWorker hpc => exact hset nofun
  | reconnectWorker hpc => exact hset nofun
  | _ => exact hold

end Table

/-! ### Processes that are up -/

/-- The scheduler has answered the worker's `EstablishConnection`, and since then
the process has neither sent `Disconnect` nor gone down. -/
def Cluster.Up (s : Cluster) (w : WorkerId) : Prop :=
  ∃ p, s.procs.lookup w = some p ∧ (p.pc = .starting ∨ p.pc = .serving ∨
    ∃ t st, p.pc = .awaiting t ∧ s.sched.connects.lookup t = some ⟨p.info, .answered st⟩)

/-- The processes and the handlers of `EstablishConnection` they wait for. -/
structure Cluster.Connected (s : Cluster) : Prop where
  named : ∀ w p, s.procs.lookup w = some p → p.info.workerId = w
  awaited : ∀ w p t, s.procs.lookup w = some p → p.pc = .awaiting t →
    ∃ pc, s.sched.connects.lookup t = some ⟨p.info, pc⟩
  known : ∀ t info, s.sched.connects.lookup t = some ⟨info, .reconnect⟩ →
    (s.sched.findWorkerByID info.workerId).isSome = true

section Runs

variable {env : Env} {s s' : Cluster} {tr : List ClusterLabel} {l : ClusterLabel} {w : WorkerId}

theorem Cluster.Connected.step (hK : s.Connected) (h : ClusterStep env s l s') : s'.Connected := by
  -- a process that waits for nobody
  have hset : ∀ {w₀ : WorkerId} {p₀ : Process}, p₀.info.workerId = w₀ →
      (∀ t, p₀.pc ≠ .awaiting t) →
      Cluster.Connected { s with procs := s.procs.insert w₀ p₀ } := by
    intro w₀ p₀ hname hpc
    refine ⟨fun w p hp => ?_, fun w p t hp ht => ?_, hK.known⟩
    · rcases Table.lookup_insert_cases hp with ⟨rfl, rfl⟩ | ⟨-, hp⟩
      · exact hname
      · exact hK.named w p hp
    · rcases Table.lookup_insert_cases hp with ⟨-, rfl⟩ | ⟨-, hp⟩
      · exact absurd ht (hpc t)
      · exact hK.awaited w p t hp ht
  cases h with
  | @sched a s₁ sched hsends hstep =>
    refine ⟨fun w p hp => ?_, fun w p t hp ht => ?_, reconnect_known_step hK.known hstep⟩
    · rcases hsends.proc_cases hp with hp | ⟨-, p₀, hp₀, hinfo⟩ | ⟨t, -, -, hname⟩
      · exact hK.named w p hp
      · rw [← hinfo]
        exact hK.named w p₀ hp₀
      · exact hname
    · -- the process that waits did so before, or its handler has just been started
      rcases hsends.proc_cases hp with hp | ⟨hpc, -⟩ | ⟨t', rfl, hpc, -⟩
      · obtain ⟨pc, hc⟩ := hK.awaited w p t hp ht
        exact hstep.connects hc
      · cases ht.symm.trans hpc
      · obtain rfl := ProcessPc.awaiting.inj (ht.symm.trans hpc)
        cases hstep with
        | establishKnown => exact ⟨_, AList.lookup_insert _⟩
        | establishNew => exact ⟨_, AList.lookup_insert _⟩
  | bootFirst hp => exact hset rfl nofun
  | bootAgain hp hpc => exact hset rfl nofun
  | @process w₀ e p p' hp hstep hpermits =>
    obtain ⟨hinfo, hpc⟩ := Process.step_spec hstep
    refine hset (by rw [hinfo]; exact hK.named w₀ p hp) fun t ht => ?_
    rcases hpc with ⟨-, -, hpc⟩ | ⟨-, hpc⟩ | hpc | hpc <;> cases ht.symm.trans hpc
  | deliver => exact ⟨hK.named, hK.awaited, hK.known⟩
  | handler => exact ⟨hK.named, hK.awaited, hK.known⟩

/-- A process that is up after a step was so before, or the step registered or
reconnected its worker. -/
theorem Cluster.Up.cases (hup : s'.Up w) (hK : s.Connected) (h : ClusterStep env s l s') :
    s.Up w ∨ (∃ t, l = .sched (.registerWorker t w)) ∨
      ∃ t, l = .sched (.reconnectWorker t w) ∧ (s.sched.findWorkerByID w).isSome = true := by
  obtain ⟨p, hp, hpc⟩ := hup
  cases h with
  | @sched a s₁ sched hsends hstep =>
    rcases hsends.proc_cases hp with hp₀ | ⟨hdown, -⟩ | ⟨t', rfl, haw, -⟩
    · rcases hpc with hstart | hserve | ⟨t, st, haw, ht⟩
      · exact Or.inl ⟨p, hp₀, Or.inl hstart⟩
      · exact Or.inl ⟨p, hp₀, Or.inr (Or.inl hserve)⟩
      · have hname := hK.named w p hp₀
        rcases hstep.answered_cases ht with ht | ⟨rfl, ht⟩ | ⟨rfl, ht⟩
        · exact Or.inl ⟨p, hp₀, Or.inr (Or.inr ⟨t, st, haw, ht⟩)⟩
        · exact Or.inr (Or.inl ⟨t, by rw [hname]⟩)
        · exact Or.inr (Or.inr ⟨t, by rw [hname], hname ▸ hK.known t p.info ht⟩)
    · rcases hpc with hpc | hpc | ⟨t, st, hpc, -⟩ <;> cases hdown.symm.trans hpc
    · -- the handler it waits for has just started
      rcases hpc with hpc | hpc | ⟨t, st, hpc, ht⟩
      · cases haw.symm.trans hpc
      · cases haw.symm.trans hpc
      · obtain rfl := ProcessPc.awaiting.inj (haw.symm.trans hpc)
        cases hstep with
        | establishKnown => cases (AList.lookup_insert _).symm.trans ht
        | establishNew => cases (AList.lookup_insert _).symm.trans ht
  | bootFirst hp₀ =>
    rcases Table.lookup_insert_cases hp with ⟨-, rfl⟩ | ⟨-, hp⟩
    · -- a new process has not connected yet
      rcases hpc with hpc | hpc | ⟨t, st, hpc, -⟩ <;> cases hpc
    · exact Or.inl ⟨p, hp, hpc⟩
  | bootAgain hp₀ hpc₀ =>
    rcases Table.lookup_insert_cases hp with ⟨-, rfl⟩ | ⟨-, hp⟩
    · rcases hpc with hpc | hpc | ⟨t, st, hpc, -⟩ <;> cases hpc
    · exact Or.inl ⟨p, hp, hpc⟩
  | @process w₀ e p₀ p₁ hp₀ hstep hpermits =>
    rcases Table.lookup_insert_cases hp with ⟨rfl, rfl⟩ | ⟨-, hp⟩
    · refine Or.inl ⟨p₀, hp₀, ?_⟩
      obtain ⟨-, ⟨rfl, ⟨t, haw⟩, -⟩ | ⟨hstart, -⟩ | hdown | hdown⟩ := Process.step_spec hstep
      · -- it has just heard that it is connected
        obtain ⟨info, st, hc⟩ := Cluster.permits_established hpermits haw
        obtain ⟨pc, hc'⟩ := hK.awaited w p₀ t hp₀ haw
        obtain ⟨rfl, -⟩ := ConnectThread.mk.inj (Option.some.inj (hc.symm.trans hc'))
        exact Or.inr (Or.inr ⟨t, st, haw, hc⟩)
      · exact Or.inl hstart
      · rcases hpc with hpc | hpc | ⟨t, st, hpc, -⟩ <;> cases hdown.symm.trans hpc
      · rcases hpc with hpc | hpc | ⟨t, st, hpc, -⟩ <;> cases hdown.symm.trans hpc
    · exact Or.inl ⟨p, hp, hpc⟩
  | deliver => exact Or.inl ⟨p, hp, hpc⟩
  | handler => exact Or.inl ⟨p, hp, hpc⟩

theorem Cluster.Connected.of_run {C : System.Condition Cluster ClusterLabel}
    (h : (cluster env).Run C tr s) : s.Connected := by
  refine h.invariant (fun _ s => s.Connected) ⟨?_, ?_, ?_⟩ fun _ hK _ hs => hK.step (.of_step hs)
  · intro w p hp
    cases hp
  · intro w p t hp
    cases hp
  · intro t info ht
    cases ht

/-! ### Live workers are not written off -/

/-- OFFLINE is never written to a worker that is up, and no id is registered twice. -/
def NoLiveWriteOff : System.Condition Cluster ClusterLabel := fun _ s l =>
  match l with
  | .sched (.registerWorker _ id) => ∀ x ∈ s.sched.workers, x.id ≠ id
  | .sched (.markWorkerOffline _ id) => ¬ s.Up id
  | .sched (.markDispatchOffline job) =>
    ∀ d, s.sched.dispatchThreads.lookup job = some d → ¬ s.Up d.workerId
  | _ => True

/-- A worker that is up is usable, in a run where OFFLINE is never written to one. -/
theorem Cluster.Up.usable (hrun : (cluster env).Run NoLiveWriteOff tr s) (hup : s.Up w) :
    s.sched.Usable w := by
  revert hup
  refine hrun.invariant (fun _ s => s.Up w → s.sched.Usable w) ?_ ?_
  · rintro ⟨p, hp, -⟩
    cases hp
  · intro tr s l s' hrun ih hC hs hup
    have hK := Cluster.Connected.of_run hrun
    have h := ClusterStep.of_step hs
    rcases hup.cases hK h with hup₀ | ⟨t, rfl⟩ | ⟨t, rfl, hknown⟩
    · -- it was up before, and the step leaves its entry alone
      cases h with
      | @sched a s₁ sched hsends hstep =>
        refine (ih hup₀).step hstep ?_ ?_
        · rintro t rfl
          exact hC hup₀
        · rintro job d rfl hd rfl
          exact hC d hd hup₀
      | _ => exact ih hup₀
    · -- it is up from here on, with the entry just written
      cases h with
      | sched hsends hstep =>
        cases hstep with
        | registerWorker hpc => exact State.usable_of_register hC
    · cases h with
      | sched hsends hstep =>
        cases hstep with
        | reconnectWorker hpc => exact State.usable_of_idle hknown rfl

/-- No RPC is in flight and every dispatch thread has finished. -/
def Cluster.quiescent (s : Cluster) : Bool :=
  (s.sched.connects.entries.all fun e => e.2.pc matches .answered _) &&
    (s.sched.disconnects.entries.all fun e => e.2.answered) &&
    (s.sched.completions.entries.all fun e => e.2.pc matches .answered) &&
    (s.sched.dispatchThreads.entries.all fun e => e.2.pc matches .ended _) &&
    (s.procs.entries.all fun e => e.2.pc matches .down | .starting | .serving | .draining) &&
    (s.calls.entries.all fun e => !s.runs e.2 || e.2.pc matches .returned _)

/-- With nothing in flight, a worker that serves is not OFFLINE. -/
def NotWrittenOff (s : Cluster) : Prop :=
  s.quiescent = true → ∀ w p, s.procs.lookup w = some p → p.pc = .serving → s.sched.Usable w

/-- **A live registered worker is not written off** in a run where OFFLINE is
never written to a worker that is up, and no id is registered twice. -/
theorem not_written_off (hrun : (cluster env).Run NoLiveWriteOff tr s) : NotWrittenOff s :=
  fun _ _ p hp hserving => Cluster.Up.usable hrun ⟨p, hp, Or.inr (Or.inl hserving)⟩

end Runs

/-- The worker throws on a frame and reports it; the call returns INTERNAL, and its
dispatch thread runs to the end. -/
def writtenOff : List ClusterLabel :=
  completedByCatch ++ [.handler "j" .jobCompletedReturned, .handler "j" .reply,
    .sched (.renderJobReturned "j" false), .sched (.undoRegistration "j"),
    .sched (.requeueFrame "j"), .sched (.markDispatchOffline "j")]

theorem not_notWrittenOff :
    (cluster sampleEnv).Reaches writtenOff ((cluster sampleEnv).after writtenOff) ∧
      ¬ NotWrittenOff ((cluster sampleEnv).after writtenOff) := by
  refine ⟨.after (by decide), fun hnot => ?_⟩
  have hserving : ((cluster sampleEnv).after writtenOff).procs.lookup "w" =
      some ⟨⟨"10.0.0.1", "w", 50051⟩, 0, .serving⟩ := by decide
  have hoffline : ((cluster sampleEnv).after writtenOff).sched.findWorkerByID "w" =
      some ⟨"w", "10.0.0.1", 50051, .offline⟩ := by decide
  obtain ⟨x, hx, hne⟩ := hnot (by decide) "w" _ hserving rfl
  obtain rfl := Option.some.inj (hoffline.symm.trans hx)
  exact hne rfl

/-- The worker renders a frame, and everything comes to rest. -/
def atRest : List ClusterLabel := rendered ++ completing ++ accepted

theorem not_written_off_atRest : ((cluster sampleEnv).after atRest).quiescent = true ∧
    NotWrittenOff ((cluster sampleEnv).after atRest) := by
  refine ⟨by decide, ?_⟩
  have hconnect : (cluster sampleEnv).Run NoLiveWriteOff (atRest.take 2) _ :=
    .after (by simp [atRest, rendered, rendering, NoLiveWriteOff]) (by decide)
  -- the table is empty when the worker registers
  have hempty : ((cluster sampleEnv).after (atRest.take 2)).sched.workers = [] := by
    decide
  have hregister := hconnect.after_snoc (.sched (.registerWorker 0 "w"))
    (fun x hx => absurd (hempty ▸ hx) List.not_mem_nil) (by decide)
  refine not_written_off (hregister.after_append (atRest.drop 3) ?_ ?_)
  · simp [atRest, rendered, rendering, completing, accepted, NoLiveWriteOff]
  · decide

end Pathological
