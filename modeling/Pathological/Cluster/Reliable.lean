import Pathological.Cluster.Draining

/-!
# Reliable clusters

What `FaithfulWorkers` asks of the workers is what `RenderServer::RenderJob` does, as long
as no handler throws and no message of a call is lost on the way (`Reliable`): the request
of a call arrives, if it does, at the worker that was picked and while the call is
outstanding, a `RenderJob` call fails only where its request has not arrived, and
`JobCompleted` returns to the handler when the scheduler has answered it.

So what has been shown of the scheduler with faithful workers holds of it in such a cluster.
-/

namespace Pathological

open Framework

/-- Renders have frames, handlers do not throw, and what is sent arrives. -/
def Reliable : System.Condition Cluster ClusterLabel := fun _ s l =>
  match l with
  | .sched (.createRenderRequest _ payload _) => payload.animationRuntime ≠ .ok 0
  | .sched (.renderJobReturned j false) => j ∉ s.calls
  | .deliver j w => s.sched.Runs w j
  | .handler _ .throw | .handler _ .jobCompletedLost => False
  | .handler j .jobCompletedReturned => s.sched.Answered j
  | _ => True

/-- The handler has its answer from the scheduler. -/
def HandlerPc.answered : HandlerPc → Bool
  | .reply _ | .returned _ => true
  | _ => false

/-- The handler is not on the path of the catch branch. -/
def HandlerPc.onPath : HandlerPc → Bool
  | .generateScene | .putObject | .remove => true
  | .updateJobStatus ok | .jobCompleted ok | .awaiting ok | .reply ok | .returned ok => ok

/-- The handler has its `JobCompleted` call still to make. -/
def HandlerPc.unsent : HandlerPc → Bool
  | .generateScene | .putObject | .remove | .updateJobStatus _ | .jobCompleted _ => true
  | .awaiting _ | .reply _ | .returned _ => false

/-- What the scheduler knows of the handlers of a reliable cluster. -/
structure Cluster.Reporting (s : Cluster) : Prop where
  /-- The call of a handler is outstanding, until the handler returns. -/
  outstanding : ∀ j c, s.calls.lookup j = some c → c.pc = .returned true ∨
    s.sched.Runs c.worker j
  onPath : ∀ j c, s.calls.lookup j = some c → c.pc.onPath = true
  unsent : ∀ j c, s.calls.lookup j = some c → c.pc.unsent = true → s.sched.received j = false
  received : ∀ j c ok, s.calls.lookup j = some c → c.pc = .awaiting ok →
    s.sched.received j = true
  answered : ∀ j c, s.calls.lookup j = some c → c.pc.answered = true → s.sched.Answered j
  /-- Reports come from handlers. -/
  sent : ∀ j, s.sched.received j = true → j ∈ s.calls

variable {env : Env} {s s' : Cluster} {l : ClusterLabel} {tr : List ClusterLabel}

/-- An answered handler takes no more steps. -/
theorem Step.answered_stays {s s' : State} {a : Label} {t : ThreadId} {c : CompletionThread}
    (h : Step env s a s') (hc : s.completions.lookup t = some c) (hpc : c.pc = .answered) :
    s'.completions.lookup t = some c := by
  by_cases ha : a.completionThread = some t
  · obtain ⟨c₀, hc₀, hnext⟩ := h.own ha
    obtain rfl := Option.some.inj (hc.symm.trans hc₀)
    rw [hpc] at hnext
    exact hnext.elim
  · exact h.other ha hc

theorem State.Answered.step {s s' : State} {a : Label} {j : JobId} (hj : s.Answered j)
    (h : Step env s a s') : s'.Answered j := by
  obtain ⟨t, c, hc, hid, hpc⟩ := hj
  exact ⟨t, c, h.answered_stays hc hpc, hid, hpc⟩

/-- A handler that returned, or whose step this is, had not returned before. -/
theorem RenderCall.not_returned {c c' : RenderCall} {e : HandlerEvent} (h : c.step e = some c') :
    c.pc ≠ .returned true := by
  intro hpc
  cases e <;> simp [RenderCall.step, hpc, HandlerPc.inTry] at h

/-- A handler has its answer after a step because it had it before, or because the
`JobCompleted` call has come to its end. -/
theorem RenderCall.answered_cases {c c' : RenderCall} {e : HandlerEvent} (h : c.step e = some c')
    (hpc : c'.pc.answered = true) :
    c.pc.answered = true ∨ e = .jobCompletedReturned ∨ e = .jobCompletedLost := by
  cases e <;> simp only [RenderCall.step] at h
  case jobCompletedLost => exact Or.inr (Or.inr rfl)
  case jobCompletedReturned => exact Or.inr (Or.inl rfl)
  case reply =>
    split at h
    · next ok hreply =>
      rw [hreply]
      exact Or.inl rfl
    · cases h
  all_goals
    split at h
    · obtain rfl := Option.some.inj h
      cases hpc
    · cases h

/-- A call stays outstanding until it returns. -/
theorem State.Runs.step {s s' : State} {a : Label} {w : WorkerId} {j : JobId} (hj : s.Runs w j)
    (h : Step env s a s') (ha : ∀ accepted, a ≠ .renderJobReturned j accepted) : s'.Runs w j := by
  obtain ⟨⟨w₀, addr, f, pc⟩, hd, hw, rfl⟩ := hj
  rcases h.dispatch_next hd with hd' | ⟨pc, hnext, hd'⟩
  · exact ⟨_, hd', hw, rfl⟩
  · cases hnext with
    | accepted => exact absurd rfl (ha true)
    | failed => exact absurd rfl (ha false)

/-! ### The scheduler's messages -/

/-- A scheduler step in the cluster is one of the scheduler, and of the message's sender. -/
theorem Cluster.of_step_sched {a : Label} (h : (cluster env).step s (.sched a) = some s') :
    ∃ s₁ sched, s.sends a = some s₁ ∧ Step env s.sched a sched ∧ s' = { s₁ with sched } := by
  obtain ⟨s₁, hsends, h⟩ := Option.bind_eq_some_iff.mp h
  obtain ⟨sched, hstep, h⟩ := Option.bind_eq_some_iff.mp h
  exact ⟨s₁, sched, hsends, .of_step hstep, (Option.some.inj h).symm⟩

/-- The sender of a `JobCompleted` call is its handler. -/
theorem Cluster.of_sendJobCompleted {s₁ : Cluster} {w : WorkerId} {j : JobId}
    {pc : Bool → HandlerPc} (h : s.sendJobCompleted w j pc = some s₁) :
    ∃ c ok, s.calls.lookup j = some c ∧ c.worker = w ∧ c.pc = .jobCompleted ok ∧
      s₁ = { s with calls := s.calls.insert j { c with pc := pc ok } } := by
  unfold Cluster.sendJobCompleted at h
  split at h
  · next c hc =>
    split at h
    · next ok hpc =>
      obtain ⟨⟨hw, -⟩, h⟩ := Option.ite_none_right_eq_some.mp h
      exact ⟨c, ok, hc, hw, hpc, (Option.some.inj h).symm⟩
    · cases h
  · cases h

/-- What a scheduler step does to a handler of the cluster: it takes its `JobCompleted`
message, and nothing else. -/
theorem Cluster.calls_cases {s₁ : Cluster} {a : Label} {j : JobId} {c' : RenderCall}
    (h : s.sends a = some s₁) (hc' : s₁.calls.lookup j = some c') :
    s.calls.lookup j = some c' ∨ ∃ c ok, s.calls.lookup j = some c ∧ c.pc = .jobCompleted ok ∧
      ((∃ t, a = .jobCompleted t c.worker j ∧ c' = { c with pc := .awaiting ok }) ∨
        (a = .jobCompletedUnknown c.worker j ∧ c' = { c with pc := .reply ok })) := by
  have hprocs {w : WorkerId} (h : s.sendDisconnect w = some s₁) :
      s.calls.lookup j = some c' := by
    unfold Cluster.sendDisconnect at h
    split at h
    · obtain ⟨-, h⟩ := Option.ite_none_right_eq_some.mp h
      obtain rfl := Option.some.inj h
      exact hc'
    · cases h
  cases a with
  | establishConnection t info =>
    simp only [Cluster.sends] at h
    split at h
    · obtain ⟨-, h⟩ := Option.ite_none_right_eq_some.mp h
      obtain rfl := Option.some.inj h
      exact Or.inl hc'
    · cases h
  | disconnect t w => exact Or.inl (hprocs h)
  | disconnectUnknown w => exact Or.inl (hprocs h)
  | jobCompleted t w j₀ =>
    obtain ⟨c, ok, hc, rfl, hpc, rfl⟩ := Cluster.of_sendJobCompleted h
    rcases Table.lookup_insert_cases hc' with ⟨rfl, rfl⟩ | ⟨-, hc'⟩
    · exact Or.inr ⟨c, ok, hc, hpc, Or.inl ⟨t, rfl, rfl⟩⟩
    · exact Or.inl hc'
  | jobCompletedUnknown w j₀ =>
    obtain ⟨c, ok, hc, rfl, hpc, rfl⟩ := Cluster.of_sendJobCompleted h
    rcases Table.lookup_insert_cases hc' with ⟨rfl, rfl⟩ | ⟨-, hc'⟩
    · exact Or.inr ⟨c, ok, hc, hpc, Or.inr ⟨rfl, rfl⟩⟩
    · exact Or.inl hc'
  | renderJobReturned j₀ accepted =>
    cases accepted with
    | false =>
      obtain rfl := Option.some.inj h
      exact Or.inl hc'
    | true =>
      simp only [Cluster.sends] at h
      split at h
      · obtain ⟨-, h⟩ := Option.ite_none_right_eq_some.mp h
        obtain rfl := Option.some.inj h
        exact Or.inl hc'
      · cases h
  | _ =>
    obtain rfl := Option.some.inj h
    exact Or.inl hc'

/-- No handler is forgotten. -/
theorem Sends.mem_calls {s₁ : Cluster} {a : Label} {j : JobId} (h : Sends s a s₁)
    (hj : j ∈ s.calls) : j ∈ s₁.calls := by
  cases h with
  | jobCompleted => exact (AList.mem_insert _).mpr (Or.inr hj)
  | _ => exact hj

/-- A call returns OK when its handler has. -/
theorem Cluster.returned_of_sends {s₁ : Cluster} {j : JobId}
    (h : s.sends (.renderJobReturned j true) = some s₁) :
    ∃ c, s.calls.lookup j = some c ∧ c.pc = .returned true := by
  simp only [Cluster.sends] at h
  split at h
  · next c hc => exact ⟨c, hc, (Option.ite_none_right_eq_some.mp h).1⟩
  · cases h

/-! ### The invariant -/

/-- A step of the scheduler in a reliable cluster is one that faithful workers leave it. -/
theorem Cluster.Reporting.faithful {s₁ : Cluster} {a : Label} {tr' : List Label}
    (hR : s.Reporting) (hC : Reliable tr s (.sched a)) (h : s.sends a = some s₁) :
    FaithfulWorkers tr' s.sched a := by
  cases a with
  | createRenderRequest => exact hC
  | jobCompleted t w j =>
    obtain ⟨c, ok, hc, rfl, hpc, -⟩ := Cluster.of_sendJobCompleted h
    refine (hR.outstanding j c hc).resolve_left fun hret => ?_
    cases hpc.symm.trans hret
  | renderJobReturned j accepted =>
    cases accepted with
    | true =>
      obtain ⟨c, hc, hpc⟩ := Cluster.returned_of_sends h
      exact hR.answered j c hc (by rw [hpc]; rfl)
    | false => exact Bool.eq_false_iff.mpr fun hrec => hC (hR.sent j hrec)
  | _ => trivial

/-- A step of the scheduler keeps the invariant. -/
theorem Cluster.Reporting.step_sched {s₁ : Cluster} {a : Label} {sched : State} (hR : s.Reporting)
    (hF : s.sched.Faithful) (hC : Reliable tr s (.sched a)) (hsends : s.sends a = some s₁)
    (h : Step env s.sched a sched) : Reporting { s₁ with sched } where
  outstanding j c' hc' := by
    -- the call of a handler that has not returned does not return either
    have hkeep {c : RenderCall} (hc : s.calls.lookup j = some c) (hne : c.pc ≠ .returned true) :
        sched.Runs c.worker j := by
      refine ((hR.outstanding j c hc).resolve_left hne).step h ?_
      rintro accepted rfl
      cases accepted with
      | true =>
        obtain ⟨c₀, hc₀, hpc⟩ := Cluster.returned_of_sends hsends
        obtain rfl := Option.some.inj (hc.symm.trans hc₀)
        exact hne hpc
      | false => exact hC (Table.mem_of_lookup hc)
    rcases Cluster.calls_cases hsends hc' with hc | ⟨c, ok, hc, hpc, hsent⟩
    · exact (Classical.em _).imp_right (hkeep hc)
    · have hruns := hkeep hc (by rw [hpc]; nofun)
      rcases hsent with ⟨t, -, rfl⟩ | ⟨-, rfl⟩ <;> exact Or.inr hruns
  onPath j c' hc' := by
    rcases Cluster.calls_cases hsends hc' with hc | ⟨c, ok, hc, hpc, hsent⟩
    · exact hR.onPath j c' hc
    · have hok := hR.onPath j c hc
      rw [hpc] at hok
      rcases hsent with ⟨t, -, rfl⟩ | ⟨-, rfl⟩ <;> exact hok
  unsent j c' hc' hpc' := by
    rcases Cluster.calls_cases hsends hc' with hc | ⟨c, ok, hc, hpc, hsent⟩
    · refine Bool.eq_false_iff.mpr fun hrec => ?_
      obtain ⟨t, th, hth, rfl⟩ := State.received_iff.mp hrec
      rcases h.completion_cases hth with ⟨rfl, -⟩ | ⟨th₀, hth₀, hid, -⟩
      · -- the handler that has just sent its report waits for the answer
        obtain ⟨c₀, ok, hc₀, -, -, rfl⟩ := Cluster.of_sendJobCompleted hsends
        obtain rfl := Option.some.inj ((AList.lookup_insert _).symm.trans hc')
        cases hpc'
      · have hold := State.received_iff.mpr ⟨t, th₀, hth₀, hid⟩
        rw [hR.unsent _ c' hc hpc'] at hold
        cases hold
    · rcases hsent with ⟨t, -, rfl⟩ | ⟨-, rfl⟩ <;> cases hpc'
  received j c' ok' hc' hpc' := by
    rcases Cluster.calls_cases hsends hc' with hc | ⟨c, ok, hc, hpc, hsent⟩
    · exact h.received (hR.received j c' ok' hc hpc')
    · rcases hsent with ⟨t, rfl, -⟩ | ⟨-, rfl⟩
      · cases h with
        | jobCompleted => exact State.received_iff.mpr ⟨t, _, AList.lookup_insert _, rfl⟩
      · cases hpc'
  answered j c' hc' hpc' := by
    rcases Cluster.calls_cases hsends hc' with hc | ⟨c, ok, hc, hpc, hsent⟩
    · exact (hR.answered j c' hc hpc').step h
    · rcases hsent with ⟨t, -, rfl⟩ | ⟨rfl, -⟩
      · cases hpc'
      · -- the scheduler knows every worker that it has given a job to
        obtain ⟨d, hd, hw, -⟩ := (hR.outstanding j c hc).resolve_left (by rw [hpc]; nofun)
        have hknown := hF.in_table j d hd
        cases h with
        | jobCompletedUnknown hfind =>
          rw [hw, hfind] at hknown
          cases hknown
  sent j hrec := by
    obtain ⟨t, c, hc, rfl⟩ := State.received_iff.mp hrec
    apply (Sends.of_sends hsends).mem_calls
    rcases h.completion_cases hc with ⟨rfl, -⟩ | ⟨c₀, hc₀, hid, -⟩
    · obtain ⟨c₀, ok, hc₀, -⟩ := Cluster.of_sendJobCompleted hsends
      exact Table.mem_of_lookup hc₀
    · exact hR.sent _ (State.received_iff.mpr ⟨t, c₀, hc₀, hid⟩)

/-- A handler that does not throw stays on its path. -/
theorem RenderCall.onPath_step {c c' : RenderCall} {e : HandlerEvent} (h : c.step e = some c')
    (he : e ≠ .throw) (hpc : c.pc.onPath = true) : c'.pc.onPath = true := by
  cases e <;> simp only [RenderCall.step] at h
  case throw => exact absurd rfl he
  case generateScene | putObject | remove =>
    obtain ⟨-, h⟩ := Option.ite_none_right_eq_some.mp h
    obtain rfl := Option.some.inj h
    rfl
  all_goals
    split at h
    · next ok hok =>
      obtain rfl := Option.some.inj h
      rw [hok] at hpc
      exact hpc
    · cases h

/-- A handler that does not throw and has its call still to make had it to make before. -/
theorem RenderCall.unsent_step {c c' : RenderCall} {e : HandlerEvent} (h : c.step e = some c')
    (he : e ≠ .throw) (hpc : c'.pc.unsent = true) : c.pc.unsent = true := by
  cases e <;> simp only [RenderCall.step] at h
  case throw => exact absurd rfl he
  case generateScene | putObject | remove =>
    obtain ⟨hold, -⟩ := Option.ite_none_right_eq_some.mp h
    rw [hold]
    rfl
  all_goals
    split at h
    · next ok hok =>
      obtain rfl := Option.some.inj h
      rw [hok]
      first
      | rfl
      | cases hpc
    · cases h

/-- Only the scheduler's step makes a handler wait for its answer. -/
theorem RenderCall.not_awaiting {c c' : RenderCall} {e : HandlerEvent} {ok : Bool}
    (h : c.step e = some c') : c'.pc ≠ .awaiting ok := by
  intro hpc
  cases e <;> simp only [RenderCall.step] at h
  all_goals
    split at h
    · obtain rfl := Option.some.inj h
      cases hpc
    · cases h

/-- And so does a step of the processes and the handlers. -/
theorem Cluster.Reporting.step_other (hR : s.Reporting) (hC : Reliable tr s l)
    (hl : ∀ a, l ≠ .sched a) (h : ClusterStep env s l s') : s'.Reporting := by
  cases h with
  | @sched a => exact absurd rfl (hl a)
  | @deliver j w d p render hd hp hlistening hrender haddress hnew =>
    -- a handler that starts
    refine ⟨?_, ?_, ?_, ?_, ?_, fun j' hrec => (AList.mem_insert _).mpr (Or.inr (hR.sent j' hrec))⟩
    · exact Table.forall_insert hR.outstanding (Or.inr hC)
    · exact Table.forall_insert hR.onPath rfl
    · exact Table.forall_insert hR.unsent fun _ =>
        Bool.eq_false_iff.mpr fun hrec => hnew (hR.sent j hrec)
    · intro j' c ok hc hpc
      rcases Table.lookup_insert_cases hc with ⟨-, rfl⟩ | ⟨-, hc⟩
      · cases hpc
      · exact hR.received j' c ok hc hpc
    · exact Table.forall_insert hR.answered nofun
  | @handler j e c c' hc hruns hstep =>
    obtain ⟨hw, -⟩ := RenderCall.step_spec hstep
    have he : e ≠ .throw := by
      rintro rfl
      exact hC
    refine ⟨?_, ?_, ?_, ?_, ?_, fun j' hrec => (AList.mem_insert _).mpr (Or.inr (hR.sent j' hrec))⟩
    · refine Table.forall_insert hR.outstanding ?_
      rw [hw]
      exact Or.inr ((hR.outstanding j c hc).resolve_left (RenderCall.not_returned hstep))
    · exact Table.forall_insert hR.onPath (RenderCall.onPath_step hstep he (hR.onPath j c hc))
    · exact Table.forall_insert hR.unsent fun hpc =>
        hR.unsent j c hc (RenderCall.unsent_step hstep he hpc)
    · intro j' c₁ ok hc₁ hpc
      rcases Table.lookup_insert_cases hc₁ with ⟨-, rfl⟩ | ⟨-, hc₁⟩
      · exact absurd hpc (RenderCall.not_awaiting hstep)
      · exact hR.received j' c₁ ok hc₁ hpc
    · refine Table.forall_insert hR.answered fun hpc => ?_
      rcases RenderCall.answered_cases hstep hpc with hold | rfl | rfl
      · exact hR.answered j c hc hold
      · exact hC
      · exact hC.elim
  | _ => exact ⟨hR.outstanding, hR.onPath, hR.unsent, hR.received, hR.answered, hR.sent⟩

/-- **The workers of a reliable cluster are faithful.** -/
theorem Reliable.faithful (hrun : (cluster env).Run Reliable tr s) :
    (scheduler env).Run FaithfulWorkers (schedTrace tr) s.sched ∧ s.Reporting := by
  induction hrun with
  | nil =>
    refine ⟨.nil, ?_, ?_, ?_, ?_, ?_, ?_⟩
    · intro j c hc
      cases hc
    · intro j c hc
      cases hc
    · intro j c hc
      cases hc
    · intro j c ok hc
      cases hc
    · intro j c hc
      cases hc
    · intro j hrec
      cases hrec
  | @snoc tr s s' l hrun hC hs ih =>
    obtain ⟨hsched, hR⟩ := ih
    rw [schedTrace_append]
    by_cases hl : ∃ a, l = .sched a
    · obtain ⟨a, rfl⟩ := hl
      obtain ⟨s₁, sched, hsends, hstep, rfl⟩ := Cluster.of_step_sched hs
      exact ⟨hsched.snoc (hR.faithful hC hsends) hstep.to_step,
        hR.step_sched (.of_run hsched) hC hsends hstep⟩
    · have hother : ∀ a, l ≠ .sched a := fun a ha => hl ⟨a, ha⟩
      have h := ClusterStep.of_step hs
      have hR' := hR.step_other hC hother h
      refine ⟨?_, hR'⟩
      -- the scheduler has not moved
      cases h with
      | sched => exact absurd rfl (hother _)
      | _ =>
        show (scheduler env).Run FaithfulWorkers (schedTrace tr ++ []) s.sched
        rwa [List.append_nil]

end Pathological
