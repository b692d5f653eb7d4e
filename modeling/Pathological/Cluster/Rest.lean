import Pathological.Cluster.Reliable

/-!
# Clusters that come to rest

The scheduler drains when its workers go on (`scheduler_drains`). Here the workers are
part of what goes on: the requests of the calls still have to arrive, and their handlers
still have to render, upload, report and return (`cluster_drains`).

Of the worker processes, only those that the scheduler still counts on have to be up
(`State.InUse`, `Cluster.Serving`); a worker that is OFFLINE may be gone. Nothing is asked
of the uploads: `RenderJob` goes on after a `putObject` that has returned false.

`Cluster.work` extends the scheduler's work by what the handlers have left to do. A call is
charged with the handler that its request will start.
-/

namespace Pathological

open Framework

variable {env : Env}

/-- No request comes in and nothing fails, for the scheduler, the way to the workers, and the
handlers. -/
def CalmCluster (s : Cluster) : ClusterLabel → Prop
  | .sched (.jobCompleted ..) | .sched (.renderJobReturned _ true) => True
  | .sched a => a.own = true
  | .deliver j w => s.sched.Runs w j
  | .handler _ .throw | .handler _ .jobCompletedLost => False
  | .handler j .jobCompletedReturned => s.sched.Answered j
  | .handler _ _ => True
  | .boot _ | .process _ _ => False

/-! ### Workers in use -/

/-- The scheduler counts on the worker: it is not OFFLINE in the table, a call of it is
outstanding, or a report of it is being handled, which will make it IDLE. -/
inductive State.InUse (s : State) (w : WorkerId) : Prop where
  | entry {x} (hx : x ∈ s.workers) (hid : x.id = w) (hst : x.status ≠ .offline)
  | called {job} (hjob : s.Runs w job)
  | reporting {t c} (hc : s.completions.lookup t = some c) (hw : c.workerId = w)
      (hpc : c.pc ≠ .answered)

section Scheduler

variable {s s' : State} {a : Label} {w : WorkerId} {j : JobId}

/-- A handler that is not answered after a step was not before, or has just started. -/
theorem Step.reporting_cases {t : ThreadId} {c : CompletionThread} (h : Step env s a s')
    (hc : s'.completions.lookup t = some c) (hpc : c.pc ≠ .answered) :
    a = .jobCompleted t c.workerId c.jobId ∨ ∃ c₀, s.completions.lookup t = some c₀ ∧
      c₀.workerId = c.workerId ∧ c₀.pc ≠ .answered := by
  rcases h.completion_cases hc with ⟨rfl, -⟩ | ⟨c₀, hc₀, -⟩
  · exact Or.inl rfl
  · obtain ⟨pc, hc', -⟩ := h.handler hc₀
    obtain rfl := Option.some.inj (hc'.symm.trans hc)
    refine Or.inr ⟨c₀, hc₀, rfl, fun hans => hpc ?_⟩
    rw [h.answered_stays hc₀ hans] at hc
    exact (congrArg CompletionThread.pc (Option.some.inj hc)).symm.trans hans

/-- An entry that is not OFFLINE after a step that connects nobody was not before, or its
worker's report has just been answered. -/
theorem Step.usable_cases {x : Worker} (h : Step env s a s')
    (hregister : ∀ t info, s.connects.lookup t = some info → ∃ st, info.pc = .answered st)
    (hx : x ∈ s'.workers) (hst : x.status ≠ .offline) :
    (∃ y ∈ s.workers, y.id = x.id ∧ y.status ≠ .offline) ∨ ∃ t c,
      s.completions.lookup t = some c ∧ c.workerId = x.id ∧ c.pc ≠ .answered := by
  have htable := h.table
  generalize s'.workers = ws at htable hx
  cases htable with
  | keep | unknown => exact Or.inl ⟨x, hx, rfl, hst⟩
  | register hpc =>
    obtain ⟨st, hanswered⟩ := hregister _ _ hpc
    cases hanswered
  | @reconnect t id =>
    cases h with
    | reconnectWorker hpc =>
      obtain ⟨st, hanswered⟩ := hregister _ _ hpc
      cases hanswered
  | disconnect | failed =>
    -- the entry written to is OFFLINE
    rcases mem_updateFirst hx with hx | ⟨y, -, rfl⟩
    · exact Or.inl ⟨x, hx, rfl, hst⟩
    · exact absurd rfl hst
  | completed hpc =>
    rcases mem_updateFirst hx with hx | ⟨y, hy, rfl⟩
    · exact Or.inl ⟨x, hx, rfl, hst⟩
    · have hid := List.find?_some hy
      exact Or.inr ⟨_, _, hpc, (of_decide_eq_true hid).symm, nofun⟩
  | assign hidle =>
    rcases mem_updateFirst hx with hx | ⟨y, hy, rfl⟩
    · exact Or.inl ⟨x, hx, rfl, hst⟩
    · -- the entry written to was IDLE
      have hidle := List.find?_some hy
      have hwas : y.status = .idle := of_decide_eq_true hidle
      exact Or.inl ⟨y, List.mem_of_find?_eq_some hy, rfl, by rw [hwas]; nofun⟩

/-- A calm step takes no worker into use. -/
theorem State.InUse.of_step (h : Step env s a s') (hK : Calm s a)
    (hsettled : ∀ t info, s.connects.lookup t = some info → ∃ st, info.pc = .answered st)
    (hu : s'.InUse w) : s.InUse w := by
  cases hu with
  | entry hx hid hst =>
    rcases h.usable_cases hsettled hx hst with ⟨y, hy, hyid, hyst⟩ | ⟨t, c, hc, hw, hpc⟩
    · exact .entry hy (hyid.trans hid) hyst
    · exact .reporting hc (hw.trans hid) hpc
  | called hjob =>
    obtain ⟨d, hd, hw, hpc⟩ := hjob
    rcases h.dispatch_cases hd with ⟨d₀, hd₀, hw₀, hpc₀⟩ | ⟨-, x, hidle, hx⟩
    · exact .called ⟨d₀, hd₀, hw₀.symm.trans hw, hpc₀ hpc⟩
    · obtain ⟨hmem, hst⟩ := findIdleWorker_spec hidle
      exact .entry hmem (hx.symm.trans hw) (by rw [hst]; nofun)
  | @reporting t c hc hw hpc =>
    rcases h.reporting_cases hc hpc with rfl | ⟨c₀, hc₀, hw₀, hpc₀⟩
    · exact .called (hw ▸ hK.1)
    · exact .reporting hc₀ (hw₀.trans hw) hpc₀

/-- A new dispatch thread calls an idle worker under the address of its entry. -/
theorem Step.dispatched_new {d : DispatchThread} (h : Step env s a s')
    (hnone : s.dispatchThreads.lookup j = none) (hd : s'.dispatchThreads.lookup j = some d) :
    ∃ x, s.findIdleWorker = some x ∧ d.workerId = x.id ∧
      d.workerAddress = State.workerAddress x := by
  have hold {job : JobId} {d₀ d₁ : DispatchThread} (hd₀ : s.dispatchThreads.lookup job = some d₀)
      (hd : (s.dispatchThreads.insert job d₁).lookup j = some d) : False := by
    rcases Table.lookup_insert_cases hd with ⟨rfl, -⟩ | ⟨-, hd⟩
    · cases hnone.symm.trans hd₀
    · cases hnone.symm.trans hd
  cases h with
  | assignJob hnew hqueue hidle =>
    rcases Table.lookup_insert_cases hd with ⟨-, rfl⟩ | ⟨-, hd⟩
    · exact ⟨_, hidle, rfl, rfl⟩
    · cases hnone.symm.trans hd
  | renderJobReturned hpc | undoRegistration hpc | requeueFrame hpc | markDispatchOffline hpc =>
    exact (hold hpc hd).elim
  | _ => cases hnone.symm.trans hd

/-- Nobody connects in a calm step. -/
theorem Calm.settled (hK : Calm s a) (h : Step env s a s')
    (hsettled : ∀ t info, s.connects.lookup t = some info → ∃ st, info.pc = .answered st) :
    ∀ t info, s'.connects.lookup t = some info → ∃ st, info.pc = .answered st := by
  cases h with
  | establishKnown | establishNew => cases hK
  | registerWorker | reconnectWorker => exact Table.forall_insert hsettled ⟨_, rfl⟩
  | _ => exact hsettled

end Scheduler

/-! ### Processes that serve -/

/-- The process of the worker accepts calls. -/
def Cluster.Listens (s : Cluster) (w : WorkerId) : Prop :=
  ∃ p, s.procs.lookup w = some p ∧ p.pc.listening = true

/-- The workers the scheduler counts on are up, under the addresses that it has, and nobody
is connecting. -/
structure Cluster.Serving (s : Cluster) : Prop where
  listens : ∀ w, s.sched.InUse w → s.Listens w
  entries : ∀ x ∈ s.sched.workers, ∀ p, s.procs.lookup x.id = some p →
    p.info.address = State.workerAddress x
  threads : ∀ j d, s.sched.dispatchThreads.lookup j = some d → ∀ p,
    s.procs.lookup d.workerId = some p → p.info.address = d.workerAddress
  handlers : ∀ j c, s.calls.lookup j = some c → c.pc = .returned true ∨ s.runs c = true
  settled : ∀ t info, s.sched.connects.lookup t = some info → ∃ st, info.pc = .answered st

section Calm

variable {s s' s₁ : Cluster} {l : ClusterLabel} {a : Label} {sched : State}
  {tr : List ClusterLabel}

theorem CalmCluster.reliable (hK : CalmCluster s l) : Reliable tr s l := by
  cases l with
  | sched a =>
    cases a with
    | createRenderRequest => cases hK
    | renderJobReturned j accepted =>
      cases accepted with
      | true => trivial
      | false => cases hK
    | _ => trivial
  | deliver => exact hK
  | handler j e => cases e <;> exact hK
  | _ => trivial

/-- A calm step of the cluster is a calm one for the scheduler. -/
theorem CalmCluster.calm (hR : s.Reporting) (hK : CalmCluster s (.sched a))
    (hsends : s.sends a = some s₁) : Calm s.sched a := by
  cases a with
  | jobCompleted t w j =>
    obtain ⟨c, ok, hc, rfl, hpc, -⟩ := Cluster.of_sendJobCompleted hsends
    exact ⟨(hR.outstanding j c hc).resolve_left (by rw [hpc]; nofun),
      hR.unsent j c hc (by rw [hpc]; rfl)⟩
  | renderJobReturned j accepted =>
    cases accepted with
    | true =>
      obtain ⟨c, hc, hpc⟩ := Cluster.returned_of_sends hsends
      exact hR.answered j c hc (by rw [hpc]; rfl)
    | false => cases hK
  | _ => exact Calm.of_own hK

theorem CalmCluster.of_own (h : a.own = true) : CalmCluster s (.sched a) := by
  cases a with
  | jobCompleted | renderJobReturned => cases h
  | _ => exact h

theorem CalmCluster.ready {w : WorkerId} (hR : s.Reporting) (hK : CalmCluster s l)
    (hw : s.sched.Ready w) (h : (cluster env).step s l = some s') : s'.sched.Ready w := by
  by_cases hl : ∃ a, l = .sched a
  · obtain ⟨a, rfl⟩ := hl
    obtain ⟨s₁, sched, hsends, hstep, rfl⟩ := Cluster.of_step_sched h
    exact hw.step (hK.calm hR hsends) hstep
  · cases ClusterStep.of_step h with
    | @sched a => exact absurd ⟨a, rfl⟩ hl
    | _ => exact hw

/-- The processes have no part in a calm step. -/
theorem CalmCluster.procs (hK : CalmCluster s l) (h : ClusterStep env s l s') :
    s'.procs = s.procs := by
  cases h with
  | sched hsends =>
    cases hsends with
    | establish => cases hK
    | disconnect ha => rcases ha with ⟨t, rfl⟩ | rfl <;> cases hK
    | _ => rfl
  | bootFirst | bootAgain => exact hK.elim
  | process => exact hK.elim
  | deliver => rfl
  | handler => rfl

theorem Cluster.Listens.congr {w : WorkerId} (h : s.Listens w) (hprocs : s'.procs = s.procs) :
    s'.Listens w := by
  unfold Cluster.Listens
  rwa [hprocs]

theorem Cluster.runs_congr (hprocs : s'.procs = s.procs) (c : RenderCall) :
    s'.runs c = s.runs c := by
  unfold Cluster.runs
  rw [hprocs]

/-- What a calm step of the scheduler leaves of a serving cluster. -/
theorem Cluster.Serving.step_sched (hS : s.Serving) (hK : Calm s.sched a)
    (hprocs : s'.procs = s.procs) (h : Step env s.sched a s'.sched)
    (hhandlers : ∀ j c, s'.calls.lookup j = some c → c.pc = .returned true ∨ s'.runs c = true) :
    s'.Serving where
  listens w hw := (hS.listens w (hw.of_step h hK hS.settled)).congr hprocs
  entries x hx p hp := by
    rw [hprocs] at hp
    rcases h.address_cases hx with ⟨y, hy, hid, haddr⟩ | ⟨t, info, rfl, hreg, -⟩
    · rw [← haddr]
      exact hS.entries y hy p (hid ▸ hp)
    · -- nobody registers
      obtain ⟨st, hanswered⟩ := hS.settled t _ hreg
      cases hanswered
  threads j d hd p hp := by
    rw [hprocs] at hp
    cases hold : s.sched.dispatchThreads.lookup j with
    | some d₀ =>
      have hthread := hS.threads j d₀ hold p
      rcases h.dispatch_next hold with hd' | ⟨pc, -, hd'⟩
      · obtain rfl := Option.some.inj (hd'.symm.trans hd)
        exact hthread hp
      · obtain rfl := Option.some.inj (hd'.symm.trans hd)
        exact hthread hp
    | none =>
      obtain ⟨x, hidle, hw, haddr⟩ := h.dispatched_new hold hd
      rw [haddr]
      exact hS.entries x (findIdleWorker_spec hidle).1 p (hw ▸ hp)
  handlers := hhandlers
  settled := hK.settled h hS.settled

/-- A handler that moves in a calm step runs on. -/
theorem Cluster.Serving.handlers_insert {j : JobId} {c : RenderCall} (hS : s.Serving)
    (hruns : s.runs c = true) : ∀ j' c', (s.calls.insert j c).lookup j' = some c' →
      c'.pc = .returned true ∨ s.runs c' = true :=
  Table.forall_insert hS.handlers (Or.inr hruns)

/-- **A calm step leaves a serving cluster serving.** -/
theorem Cluster.Serving.step (hS : s.Serving) (hR : s.Reporting) (hK : CalmCluster s l)
    (h : (cluster env).step s l = some s') : s'.Serving := by
  have hprocs := hK.procs (.of_step h)
  have hkeep (hsched : s'.sched = s.sched) (hhandlers : ∀ j c, s'.calls.lookup j = some c →
      c.pc = .returned true ∨ s'.runs c = true) : s'.Serving := by
    refine ⟨?_, ?_, ?_, hhandlers, ?_⟩
    · rw [hsched]
      exact fun w hw => (hS.listens w hw).congr hprocs
    · rw [hsched, hprocs]
      exact hS.entries
    · rw [hsched, hprocs]
      exact hS.threads
    · rw [hsched]
      exact hS.settled
  by_cases hl : ∃ a, l = .sched a
  · obtain ⟨a, rfl⟩ := hl
    obtain ⟨s₁, sched, hsends, hstep, rfl⟩ := Cluster.of_step_sched h
    refine hS.step_sched (hK.calm hR hsends) hprocs hstep fun j c' hc' => ?_
    rw [Cluster.runs_congr hprocs]
    rcases Cluster.calls_cases hsends hc' with hc | ⟨c, ok, hc, hpc, hsent⟩
    · exact hS.handlers j c' hc
    · -- the sender is a handler that runs
      have hruns := (hS.handlers j c hc).resolve_left (by rw [hpc]; nofun)
      rcases hsent with ⟨t, -, rfl⟩ | ⟨-, rfl⟩ <;> exact Or.inr hruns
  · cases ClusterStep.of_step h with
    | @sched a => exact absurd ⟨a, rfl⟩ hl
    | bootFirst | bootAgain => exact hK.elim
    | process => exact hK.elim
    | @deliver j w d p render hd hp hlistening hrender haddress hnew =>
      refine hkeep rfl (hS.handlers_insert ?_)
      have hrunning : p.pc.running = true := by
        generalize p.pc = pc at hlistening
        cases pc <;> first | rfl | cases hlistening
      unfold Cluster.runs
      simp only [hp, hrunning, decide_true, Bool.and_self]
    | handler hc hruns hstep =>
      obtain ⟨hw, hgen, -⟩ := RenderCall.step_spec hstep
      refine hkeep rfl (hS.handlers_insert ?_)
      unfold Cluster.runs at hruns ⊢
      rwa [hw, hgen]

end Calm

/-! ### What is left to do -/

/-- What a handler has left to do. -/
def HandlerPc.left : HandlerPc → ℕ
  | .generateScene => 7
  | .putObject => 6
  | .remove => 5
  | .updateJobStatus _ => 4
  | .jobCompleted _ => 3
  | .awaiting _ => 2
  | .reply _ => 1
  | .returned _ => 0

/-- An outstanding call has its return before it; before its report also the eight sections
of the `JobCompleted` handler, and before its request has arrived a `RenderJob` handler and
the arrival. -/
def Rates.deliveries : Rates := ⟨17, 1, by decide⟩

namespace Cluster

/-- What the call of the job is charged with. -/
def callWork (s : Cluster) (j : JobId) : ℕ :=
  if s.sched.received j then 1 else if j ∈ s.calls then 9 else 17

def handlersWork (m : Table JobId RenderCall) : ℕ := Table.total (fun _ c => c.pc.left) m

/-- **What is left to do**, by the scheduler and by the handlers. -/
def work (s : Cluster) : ℕ :=
  s.sched.workOf .deliveries s.sched.framesOf s.callWork + handlersWork s.calls

end Cluster

section Calm

variable {s s' s₁ : Cluster} {l : ClusterLabel} {a : Label} {sched : State}
  {tr : List ClusterLabel}

theorem Cluster.callWork_le (j : JobId) : s.callWork j ≤ Rates.deliveries.unreported := by
  show s.callWork j ≤ 17
  unfold Cluster.callWork
  split_ifs <;> decide

theorem Cluster.callWork_pos (j : JobId) : 1 ≤ s.callWork j := by
  unfold Cluster.callWork
  split_ifs <;> decide

/-- A call is charged with no more when more has arrived. -/
theorem Cluster.callWork_mono (hreceived : ∀ j, s.sched.received j = true →
    s'.sched.received j = true) (hcalls : ∀ j ∈ s.calls, j ∈ s'.calls) (j : JobId) :
    s'.callWork j ≤ s.callWork j := by
  unfold Cluster.callWork
  by_cases hj : s.sched.received j = true
  · rw [if_pos hj, if_pos (hreceived j hj)]
  · rw [if_neg hj]
    by_cases hin : j ∈ s.calls
    · rw [if_pos hin, if_pos (hcalls j hin)]
      split_ifs <;> decide
    · rw [if_neg hin]
      split_ifs <;> decide

/-- The scheduler's own steps say nothing to the workers. -/
theorem Cluster.sends_own (ha : a.own = true) (h : s.sends a = some s₁) : s₁ = s := by
  cases a with
  | establishConnection | disconnect | disconnectUnknown | jobCompleted | jobCompletedUnknown
  | renderJobReturned => cases ha
  | _ => exact (Option.some.inj h).symm

/-- The work of a scheduler step in the cluster. -/
theorem CalmCluster.work_sched (hI : s.sched.WF env) (hR : s.Reporting)
    (hK : CalmCluster s (.sched a)) (hsends : s.sends a = some s₁)
    (h : Step env s.sched a sched) : Cluster.work { s₁ with sched } < s.work := by
  have hmono : ∀ j, Cluster.callWork { s₁ with sched } j ≤ s.callWork j :=
    Cluster.callWork_mono (fun j => h.received) fun j => (Sends.of_sends hsends).mem_calls
  have hunreported := Cluster.callWork_le (s := { s₁ with sched })
  have hpos := Cluster.callWork_pos (s := s)
  have hreceived {j : JobId} (hj : sched.received j = true) :
      Cluster.callWork { s₁ with sched } j = 1 := if_pos hj
  show sched.workOf .deliveries sched.framesOf _ + Cluster.handlersWork s₁.calls <
    s.sched.workOf .deliveries s.sched.framesOf s.callWork + Cluster.handlersWork s.calls
  generalize hcall : Cluster.callWork { s₁ with sched } = call at *
  have hstep := h.workOf_le hI s.callWork hunreported
  have hcalls := dispatchWork_mono (k := .deliveries) (m := s.sched.dispatchThreads) hmono
  by_cases ha : a.own = true
  · obtain rfl := Cluster.sends_own ha hsends
    rw [Label.cost_of_own ha, ha, Bool.toNat_true] at hstep
    omega
  · have hcalm := hK.calm hR hsends
    cases a with
    | jobCompleted t w j =>
      obtain ⟨c, ok, hc, rfl, hpc, rfl⟩ := Cluster.of_sendJobCompleted hsends
      obtain ⟨⟨d, hd, -, hcalling⟩, hnew⟩ := hcalm
      -- the handler's move
      have hmove : Cluster.handlersWork (s.calls.insert j { c with pc := .awaiting ok }) +
          c.pc.left = Cluster.handlersWork s.calls + 2 := Table.total_insert_over hc
      rw [hpc] at hmove
      -- and the charge for the report
      have hafter : call j = 1 := by
        refine hreceived ?_
        cases h with
        | jobCompleted => exact State.received_iff.mpr ⟨t, _, AList.lookup_insert _, rfl⟩
      have hbefore : s.callWork j = 9 := by
        unfold Cluster.callWork
        rw [if_neg (by rw [hnew]; nofun), if_pos (Table.mem_of_lookup hc)]
      have hcharge := dispatchWork_add_le (k := .deliveries) (n := 8) hmono hd hcalling
        (by rw [hafter, hbefore])
      have hcost : Label.cost .deliveries (.jobCompleted t c.worker j) = 8 := rfl
      rw [hcost] at hstep
      simp only [HandlerPc.left] at hmove
      show _ + Cluster.handlersWork (s.calls.insert j { c with pc := .awaiting ok }) < _
      rw [show (Label.jobCompleted t c.worker j).own = false from rfl] at hstep
      omega
    | renderJobReturned j accepted =>
      cases accepted with
      | true =>
        have hsame : s₁ = s := by
          cases Sends.of_sends hsends with
          | disconnect ha => rcases ha with ⟨t, ha⟩ | ha <;> cases ha
          | jobCompleted ha => rcases ha with ⟨t, ha⟩ | ha <;> cases ha
          | _ => rfl
        subst hsame
        obtain ⟨hframes, hsame⟩ := h.renderJobReturned_same
        have hcharges : call = s₁.callWork := by
          rw [← hcall]
          unfold Cluster.callWork
          rw [hsame]
        have hreturned := h.workOf_returned (k := .deliveries) s₁.sched.framesOf s₁.callWork
        have hone := hpos j
        rw [hframes, hcharges]
        omega
      | false => cases hK
    | _ => exact absurd hK ha

/-- A step inside a handler that does not throw is one of its way to the end. -/
theorem RenderCall.left_lt {c c' : RenderCall} {e : HandlerEvent} (h : c.step e = some c')
    (he : e ≠ .throw) : c'.pc.left < c.pc.left := by
  cases e <;> simp only [RenderCall.step] at h
  case throw => exact absurd rfl he
  case generateScene | putObject | remove =>
    obtain ⟨hpc, h⟩ := Option.ite_none_right_eq_some.mp h
    obtain rfl := Option.some.inj h
    rw [hpc]
    exact Nat.lt_succ_self _
  all_goals
    split at h
    · next ok hpc =>
      obtain rfl := Option.some.inj h
      rw [hpc]
      simp only [HandlerPc.left]
      decide
    · cases h

/-- **A calm step takes work out of the cluster.** -/
theorem CalmCluster.work (hI : s.sched.WF env) (hR : s.Reporting) (hK : CalmCluster s l)
    (h : (cluster env).step s l = some s') : s'.work < s.work := by
  by_cases hl : ∃ a, l = .sched a
  · obtain ⟨a, rfl⟩ := hl
    obtain ⟨s₁, sched, hsends, hstep, rfl⟩ := Cluster.of_step_sched h
    exact hK.work_sched hI hR hsends hstep
  · cases ClusterStep.of_step h with
    | @sched a => exact absurd ⟨a, rfl⟩ hl
    | bootFirst | bootAgain => exact hK.elim
    | process => exact hK.elim
    | @deliver j w d p render hd hp hlistening hrender haddress hnew =>
      -- the handler's work is what the call was charged with for it
      obtain ⟨d', hd', -, hcalling⟩ := id hK
      generalize hc : RenderCall.mk w p.gen _ _ _ _ = c
      have hmono : ∀ j', Cluster.callWork { s with calls := s.calls.insert j c } j' ≤
          s.callWork j' :=
        Cluster.callWork_mono (fun _ => id) fun j' hj' => (AList.mem_insert _).mpr (Or.inr hj')
      have hbefore : s.callWork j = 17 := by
        unfold Cluster.callWork
        rw [if_neg fun hrec => hnew (hR.sent j hrec), if_neg hnew]
      have hafter : Cluster.callWork { s with calls := s.calls.insert j c } j = 9 := by
        unfold Cluster.callWork
        rw [if_neg fun hrec => hnew (hR.sent j hrec),
          if_pos ((AList.mem_insert _).mpr (Or.inl rfl))]
      have hcharge := dispatchWork_add_le (k := .deliveries) (n := 8) hmono hd' hcalling
        (by rw [hafter, hbefore])
      have hstarted : Cluster.handlersWork (s.calls.insert j c) ≤
          Cluster.handlersWork s.calls + 7 := by
        refine Table.total_insert_le.trans ?_
        rw [← hc]
        exact le_rfl
      have hcongr := s.sched.workOf_congr (k := .deliveries) s.sched.framesOf s.callWork
        (Cluster.callWork { s with calls := s.calls.insert j c })
      show s.sched.workOf .deliveries s.sched.framesOf _ +
        Cluster.handlersWork (s.calls.insert j c) < _
      unfold Cluster.work
      omega
    | @handler j e c c' hc hruns hstep =>
      have he : e ≠ .throw := by
        rintro rfl
        exact hK
      have hmove : Cluster.handlersWork (s.calls.insert j c') + c.pc.left =
          Cluster.handlersWork s.calls + c'.pc.left := Table.total_insert_over hc
      have hless := RenderCall.left_lt hstep he
      have hmono : ∀ j', Cluster.callWork { s with calls := s.calls.insert j c' } j' ≤
          s.callWork j' :=
        Cluster.callWork_mono (fun _ => id) fun j' hj' => (AList.mem_insert _).mpr (Or.inr hj')
      have hcalls := dispatchWork_mono (k := .deliveries) (m := s.sched.dispatchThreads) hmono
      have hcongr := s.sched.workOf_congr (k := .deliveries) s.sched.framesOf s.callWork
        (Cluster.callWork { s with calls := s.calls.insert j c' })
      show s.sched.workOf .deliveries s.sched.framesOf _ +
        Cluster.handlersWork (s.calls.insert j c') < _
      unfold Cluster.work
      omega

/-! ### Where no calm step is left -/

/-- **Nothing is left**: the scheduler has drained, and every handler has returned OK. -/
structure Cluster.Drained (env : Env) (s : Cluster) : Prop where
  sched : s.sched.Drained env
  handlers : ∀ j c, s.calls.lookup j = some c → c.pc = .returned true

/-! What has a sender and a receiver can happen. -/

theorem Cluster.step_sched (hsends : s.sends a = some s₁) (h : Step env s.sched a sched) :
    (cluster env).step s (.sched a) = some { s₁ with sched } := by
  show (s.sends a).bind _ = _
  rw [hsends]
  show (s.sched.step env a).bind _ = _
  rw [show s.sched.step env a = some sched from h.to_step]
  rfl

theorem Cluster.step_handler {j : JobId} {e : HandlerEvent} {c c' : RenderCall}
    (hc : s.calls.lookup j = some c) (hruns : s.runs c = true) (h : c.step e = some c') :
    (cluster env).step s (.handler j e) = some { s with calls := s.calls.insert j c' } := by
  show Cluster.step env s (.handler j e) = _
  simp only [Cluster.step, hc, hruns, if_true, h, Option.map_some]

theorem Cluster.step_deliver {j : JobId} {w : WorkerId} {d : DispatchThread} {p : Process}
    {render : RenderRequest} (hd : s.sched.dispatchThreads.lookup j = some d)
    (hp : s.procs.lookup w = some p) (hlistening : p.pc.listening = true)
    (hrender : s.sched.history.lookup d.frameJob.renderRequest = some render)
    (haddress : p.info.address = d.workerAddress) (hnew : j ∉ s.calls) :
    ∃ s', (cluster env).step s (.deliver j w) = some s' := by
  rw [← Option.ne_none_iff_exists']
  show Cluster.step env s (.deliver j w) ≠ none
  simp only [Cluster.step, hd, hp, hrender]
  rw [if_pos ⟨hnew, hlistening, haddress⟩]
  exact Option.some_ne_none _

theorem Cluster.sends_jobCompleted {t : ThreadId} {j : JobId} {c : RenderCall} {ok : Bool}
    (hc : s.calls.lookup j = some c) (hpc : c.pc = .jobCompleted ok) (hruns : s.runs c = true) :
    ∃ s₁, s.sends (.jobCompleted t c.worker j) = some s₁ := by
  rw [← Option.ne_none_iff_exists']
  simp only [Cluster.sends, Cluster.sendJobCompleted, hc, hpc]
  rw [if_pos ⟨trivial, hruns⟩]
  exact Option.some_ne_none _

theorem Cluster.sends_returned {j : JobId} {c : RenderCall} (hc : s.calls.lookup j = some c)
    (hpc : c.pc = .returned true) : s.sends (.renderJobReturned j true) = some s := by
  simp only [Cluster.sends, hc, hpc, if_true]

/-- The event is none of those that end the `JobCompleted` call or leave the try block. -/
def HandlerEvent.inside : HandlerEvent → Bool
  | .throw | .jobCompletedLost | .jobCompletedReturned => false
  | _ => true

/-- A handler on its path waits for the scheduler, has returned, or has a step to take. -/
theorem RenderCall.waits_or_step {c : RenderCall} (hpath : c.pc.onPath = true) :
    (∃ ok, c.pc = .jobCompleted ok) ∨ c.pc = .awaiting true ∨ c.pc = .returned true ∨
      ∃ e c', e.inside = true ∧ c.step e = some c' := by
  cases hpc : c.pc with
  | generateScene => exact Or.inr (Or.inr (Or.inr ⟨.generateScene, _, rfl, if_pos hpc⟩))
  | putObject => exact Or.inr (Or.inr (Or.inr ⟨.putObject true, _, rfl, if_pos hpc⟩))
  | remove => exact Or.inr (Or.inr (Or.inr ⟨.remove, _, rfl, if_pos hpc⟩))
  | updateJobStatus ok =>
    refine Or.inr (Or.inr (Or.inr ⟨.updateJobStatus,
      { c with pc := .jobCompleted ok, status := if ok then .completed else .error }, rfl, ?_⟩))
    simp only [RenderCall.step, hpc]
  | jobCompleted ok => exact Or.inl ⟨ok, rfl⟩
  | awaiting ok =>
    rw [hpc] at hpath
    obtain rfl : ok = true := hpath
    exact Or.inr (Or.inl rfl)
  | reply ok =>
    refine Or.inr (Or.inr (Or.inr ⟨.reply, { c with pc := .returned ok }, rfl, ?_⟩))
    simp only [RenderCall.step, hpc]
  | returned ok =>
    rw [hpc] at hpath
    obtain rfl : ok = true := hpath
    exact Or.inr (Or.inr (Or.inl rfl))

/-- Where no calm step is left, no call is outstanding: its request could arrive, or its
handler go on, or the call return. -/
theorem Cluster.Serving.no_call (hI : s.sched.WF env) (hF : s.sched.Faithful) (hS : s.Serving)
    (hR : s.Reporting) (hq : s.sched.Quiet env) (hstuck : (cluster env).Stuck CalmCluster s) :
    ∀ j d, s.sched.dispatchThreads.lookup j = some d → d.pc ≠ .calling := by
  have hno {l : ClusterLabel} {s' : Cluster} (hK : CalmCluster s l)
      (h : (cluster env).step s l = some s') : False := by
    rw [hstuck l hK] at h
    cases h
  rintro j ⟨w, addr, f, pc⟩ hd rfl
  have hruns : s.sched.Runs w j := ⟨_, hd, rfl, rfl⟩
  cases hc : s.calls.lookup j with
  | none =>
    -- the worker listens, under the address of the call
    obtain ⟨p, hp, hlistening⟩ := hS.listens _ (.called hruns)
    obtain ⟨render, hrender, -⟩ := hI.dispatch_known j _ hd
    have hnew : j ∉ s.calls := fun hin => by
      obtain ⟨c, hc'⟩ := Table.exists_lookup_of_mem hin
      cases hc.symm.trans hc'
    obtain ⟨s', h⟩ := Cluster.step_deliver hd hp hlistening hrender (hS.threads j _ hd p hp) hnew
    exact hno (l := .deliver j w) hruns h
  | some c =>
    have hreturn (hpc : c.pc = .returned true) : False :=
      hno (l := .sched (.renderJobReturned j true)) trivial
        (Cluster.step_sched (Cluster.sends_returned hc hpc) (.renderJobReturned hd))
    have hhandler : s.runs c = true := (hS.handlers j c hc).resolve_left hreturn
    rcases RenderCall.waits_or_step (hR.onPath j c hc) with
      ⟨ok, hpc⟩ | hpc | hpc | ⟨e, c', he, hstep⟩
    · -- the report
      obtain ⟨t, ht⟩ := exists_unused_thread s.sched
      obtain ⟨s₁, hsends⟩ := Cluster.sends_jobCompleted (t := t) hc hpc hhandler
      obtain ⟨d', hd', hw, -⟩ := (hR.outstanding j c hc).resolve_left hreturn
      obtain ⟨x, hx⟩ := Option.isSome_iff_exists.mp (hF.in_table j d' hd')
      exact hno (l := .sched (.jobCompleted t c.worker j)) trivial
        (Cluster.step_sched hsends (.jobCompleted ht (hw ▸ hx)))
    · -- the answer
      obtain ⟨t, th, hth, hid⟩ := State.received_iff.mp (hR.received j c true hc hpc)
      have hreply : c.step .jobCompletedReturned = some { c with pc := .reply true } := by
        simp only [RenderCall.step, hpc]
      exact hno (l := .handler j .jobCompletedReturned)
        ⟨t, th, hth, hid, hq.completions t th hth⟩ (Cluster.step_handler hc hhandler hreply)
    · exact hreturn hpc
    · refine hno (l := .handler j e) ?_ (Cluster.step_handler hc hhandler hstep)
      cases e <;> trivial

theorem Cluster.Drained.of_stuck (hrun : (cluster env).Run Reliable tr s) {w : WorkerId}
    (hw : s.sched.Ready w) (hS : s.Serving) (hstuck : (cluster env).Stuck CalmCluster s) :
    s.Drained env := by
  obtain ⟨hsched, hR⟩ := Reliable.faithful hrun
  have hF := State.Faithful.of_run hsched
  have hI := State.WF.of_run hsched
  have hq : s.sched.Quiet env := by
    intro a sched ha h
    have hsends : s.sends a = some s := by
      cases a with
      | establishConnection | disconnect | disconnectUnknown | jobCompleted
      | jobCompletedUnknown | renderJobReturned => cases ha
      | _ => rfl
    have hstep := hstuck (.sched a) (CalmCluster.of_own ha)
    rw [Cluster.step_sched hsends h] at hstep
    cases hstep
  have hnone := hS.no_call hI hF hR hq hstuck
  have hrest : s.sched.Resting := hq.resting hI hnone
  refine ⟨.of_resting hsched hw hrest, fun j c hc => ?_⟩
  refine (hR.outstanding j c hc).resolve_right ?_
  rintro ⟨d, hd, -, hcalling⟩
  exact hnone j d hd hcalling

end Calm

/-- A request has not arrived; the worker has gone down, has come back, and has begun with the
next call. -/
def backAndRendering : List ClusterLabel :=
  let info : WorkerInfo := ⟨"10.0.0.1", "w", 50051⟩
  (rendering 2).take 9 ++ [.sched (.renderJobReturned "j" false), .sched (.undoRegistration "j"),
    .sched (.requeueFrame "j"), .sched (.markDispatchOffline "j"), .process "w" .crash,
    .boot info, .sched (.establishConnection 1 info), .sched (.reconnectWorker 1 "w"),
    .process "w" .established, .process "w" .serve, .sched (.assignJob "k"), .deliver "k" "w",
    .handler "k" .generateScene]

end Pathological
