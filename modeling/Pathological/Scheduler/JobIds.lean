import Pathological.Scheduler.WellFormed

/-!
# The life of a job id

A job id is registered when its frame is dispatched, and its registration ends
in one of two ways: the lookup of a `JobCompleted` handler takes it, or the
dispatch thread undoes it after its call has failed. `State.JobIds tr s` ties
the handlers of the state `s` to the labels `tr` that led to it:

* a dispatch thread on its failure path has seen its call fail;
* a `JobCompleted` handler was received, and one past its lookup has run it;
* until it is undone, the registration of a dispatch thread is in the map, or a
  `JobCompleted` handler for the id is past its lookup; once undone it is not
  in the map.

So a registration that is missing when a dispatch thread comes to undo it was
taken by a `JobCompleted` handler of the failed call (`UndoFindsJob.of_failed`).
-/

namespace Pathological

open Framework

/-- The call of the dispatch thread has failed. -/
def DispatchPc.failed : DispatchPc → Bool
  | .undo | .requeue | .offline | .ended false => true
  | .calling | .ended true => false

/-- The dispatch thread has undone its registration. -/
def DispatchPc.undone : DispatchPc → Bool
  | .requeue | .offline | .ended false => true
  | .calling | .undo | .ended true => false

/-- A `JobCompleted` handler for the job id is past its lookup. -/
def State.Reported (s : State) (j : JobId) : Prop :=
  ∃ t c, s.completions.lookup t = some c ∧ c.jobId = j ∧ c.pc ≠ .take

/-- The handlers of the state against the labels that led to it. -/
structure State.JobIds (tr : List Label) (s : State) : Prop where
  call_failed : ∀ j d, s.dispatchThreads.lookup j = some d → d.pc.failed = true →
    .renderJobReturned j false ∈ tr
  received : ∀ t c, s.completions.lookup t = some c →
    .jobCompleted t c.workerId c.jobId ∈ tr ∧ (c.pc ≠ .take → .takeJob t ∈ tr)
  registered : ∀ j d, s.dispatchThreads.lookup j = some d → d.pc.undone = false →
    j ∈ s.workerJobToRenderId ∨ s.Reported j
  unregistered : ∀ j d, s.dispatchThreads.lookup j = some d → d.pc.undone = true →
    j ∉ s.workerJobToRenderId

variable {env : Env} {s s' : State} {a : Label} {tr : List Label}

/-- A handler past its lookup stays past it. -/
theorem State.Reported.step {j : JobId} (hj : s.Reported j) (h : Step env s a s') :
    s'.Reported j := by
  obtain ⟨t, c, hc, hid, hpc⟩ := hj
  -- a handler that moves on, from whatever it was doing
  have hmove : ∀ {t₀ : ThreadId} {c₀ : CompletionThread} {pc : CompletionPc},
      s.completions.lookup t₀ = some c₀ → pc ≠ .take → ∃ t' c', (s.completions.insert t₀
        { c₀ with pc }).lookup t' = some c' ∧ c'.jobId = j ∧ c'.pc ≠ .take := by
    intro t₀ c₀ pc hc₀ hne
    exact ⟨t, Table.exists_insert_over hc₀ (fun hQ => ⟨hQ.1, hne⟩) ⟨c, hc, hid, hpc⟩⟩
  cases h with
  | jobCompleted hnew hfind => exact ⟨t, c, Table.lookup_insert_new hnew hc, hid, hpc⟩
  | takeJob hpc' hjob => exact hmove hpc' nofun
  | takeUnknown hpc' hjob => exact hmove hpc' nofun
  | buildLink hpc' => exact hmove hpc' nofun
  | buildLinkLost hpc' => exact hmove hpc' nofun
  | recordProgress hpc' => exact hmove hpc' nofun
  | recordLast hpc' => exact hmove hpc' nofun
  | recordFinalized hpc' => exact hmove hpc' nofun
  | publish hpc' => exact hmove hpc' nofun
  | markWorkerIdle hpc' => exact hmove hpc' nofun
  | _ => exact ⟨t, c, hc, hid, hpc⟩

/-- A dispatch thread stays, with the values it captured. -/
theorem Step.dispatched {j : JobId} {d : DispatchThread} (h : Step env s a s')
    (hd : s.dispatchThreads.lookup j = some d) :
    ∃ d', s'.dispatchThreads.lookup j = some d' ∧ d'.workerId = d.workerId ∧
      d'.frameJob = d.frameJob := by
  cases h with
  | assignJob hnew hqueue hidle => exact ⟨d, Table.lookup_insert_new hnew hd, rfl, rfl⟩
  | renderJobReturned hpc => exact Table.exists_insert_over hpc id ⟨d, hd, rfl, rfl⟩
  | undoRegistration hpc => exact Table.exists_insert_over hpc id ⟨d, hd, rfl, rfl⟩
  | requeueFrame hpc => exact Table.exists_insert_over hpc id ⟨d, hd, rfl, rfl⟩
  | markDispatchOffline hpc => exact Table.exists_insert_over hpc id ⟨d, hd, rfl, rfl⟩
  | _ => exact ⟨d, hd, rfl, rfl⟩

/-- A completion handler after a step has just been received, or was there
before for the same job id; past its lookup it was so before, or the id is not
in the map. -/
theorem Step.completion_cases {t : ThreadId} {c : CompletionThread} (h : Step env s a s')
    (hc : s'.completions.lookup t = some c) :
    (a = .jobCompleted t c.workerId c.jobId ∧ c.pc = .take) ∨
      ∃ c₀, s.completions.lookup t = some c₀ ∧ c₀.jobId = c.jobId ∧
        (c.pc ≠ .take → c₀.pc ≠ .take ∨ c.jobId ∉ s'.workerJobToRenderId) := by
  have hold : s.completions.lookup t = some c → ∃ c₀, s.completions.lookup t = some c₀ ∧
      c₀.jobId = c.jobId ∧ (c.pc ≠ .take → c₀.pc ≠ .take ∨ c.jobId ∉ s'.workerJobToRenderId) :=
    fun hc => ⟨c, hc, rfl, Or.inl⟩
  -- a handler that moves on, past its lookup or to just past it
  have hmove : ∀ {t₀ : ThreadId} {c₀ : CompletionThread} {pc : CompletionPc},
      s.completions.lookup t₀ = some c₀ →
      (s.completions.insert t₀ { c₀ with pc }).lookup t = some c →
      (c₀.pc ≠ .take ∨ c₀.jobId ∉ s'.workerJobToRenderId) →
      ∃ c₀, s.completions.lookup t = some c₀ ∧
        c₀.jobId = c.jobId ∧ (c.pc ≠ .take → c₀.pc ≠ .take ∨ c.jobId ∉ s'.workerJobToRenderId) := by
    intro t₀ c₀ pc hc₀ hc hpast
    refine Table.exists_of_insert_over hc hc₀ ?_ ⟨rfl, Or.inl⟩
    rintro rfl
    exact ⟨rfl, fun _ => hpast⟩
  cases h with
  | jobCompleted hnew hfind =>
    rcases Table.lookup_insert_cases hc with ⟨rfl, rfl⟩ | ⟨-, hc⟩
    · exact Or.inl ⟨rfl, rfl⟩
    · exact Or.inr (hold hc)
  | takeJob hpc hjob =>
    exact Or.inr (hmove hpc hc (Or.inr fun hin => (AList.mem_erase.mp hin).1 rfl))
  | takeUnknown hpc hjob =>
    exact Or.inr (hmove hpc hc (Or.inr (AList.lookup_eq_none.mp hjob)))
  | buildLink hpc => exact Or.inr (hmove hpc hc (Or.inl nofun))
  | buildLinkLost hpc => exact Or.inr (hmove hpc hc (Or.inl nofun))
  | recordProgress hpc => exact Or.inr (hmove hpc hc (Or.inl nofun))
  | recordLast hpc => exact Or.inr (hmove hpc hc (Or.inl nofun))
  | recordFinalized hpc => exact Or.inr (hmove hpc hc (Or.inl nofun))
  | publish hpc => exact Or.inr (hmove hpc hc (Or.inl nofun))
  | markWorkerIdle hpc => exact Or.inr (hmove hpc hc (Or.inl nofun))
  | _ => exact Or.inr (hold hc)

/-- A registered job id was registered before, or is new. -/
theorem Step.registered_cases {j : JobId} (h : Step env s a s')
    (hj : j ∈ s'.workerJobToRenderId) : j ∈ s.workerJobToRenderId ∨ j ∉ s.dispatchThreads := by
  cases h with
  | takeJob hpc hjob => exact Or.inl (AList.mem_erase.mp hj).2
  | assignJob hnew hqueue hidle =>
    rcases (AList.mem_insert _).mp hj with rfl | hj
    · exact Or.inr hnew
    · exact Or.inl hj
  | undoRegistration hpc => exact Or.inl (AList.mem_erase.mp hj).2
  | _ => exact Or.inl hj

/-! ### Preservation, clause by clause -/

namespace State.JobIds

variable (hJ : s.JobIds tr) (h : Step env s a s')

include hJ h

theorem call_failed_step : ∀ j d, s'.dispatchThreads.lookup j = some d → d.pc.failed = true →
    .renderJobReturned j false ∈ tr ++ [a] := by
  have hold : ∀ j d, s.dispatchThreads.lookup j = some d → d.pc.failed = true →
      .renderJobReturned j false ∈ tr ++ [a] :=
    fun j d hd hf => List.mem_append_left _ (hJ.call_failed j d hd hf)
  cases h with
  | assignJob hnew hqueue hidle => exact Table.forall_insert hold nofun
  | @renderJobReturned job accepted w addr f hpc =>
    refine Table.forall_insert hold fun hf => List.mem_append_right _ ?_
    cases accepted with
    | true => cases hf
    | false => exact List.mem_singleton_self _
  -- past the call, the thread has failed already
  | undoRegistration hpc => exact Table.forall_insert_over hold hpc fun hf _ => hf rfl
  | requeueFrame hpc => exact Table.forall_insert_over hold hpc fun hf _ => hf rfl
  | markDispatchOffline hpc => exact Table.forall_insert_over hold hpc fun hf _ => hf rfl
  | _ => exact hold

theorem received_step : ∀ t c, s'.completions.lookup t = some c →
    .jobCompleted t c.workerId c.jobId ∈ tr ++ [a] ∧ (c.pc ≠ .take → .takeJob t ∈ tr ++ [a]) := by
  have hold : ∀ t c, s.completions.lookup t = some c →
      .jobCompleted t c.workerId c.jobId ∈ tr ++ [a] ∧
        (c.pc ≠ .take → .takeJob t ∈ tr ++ [a]) := by
    intro t c hc
    obtain ⟨hrecv, htake⟩ := hJ.received t c hc
    exact ⟨List.mem_append_left _ hrecv, fun hpc => List.mem_append_left _ (htake hpc)⟩
  -- a handler that moves on, past its lookup
  have hmove : ∀ {t₀ : ThreadId} {c₀ : CompletionThread} {pc : CompletionPc},
      s.completions.lookup t₀ = some c₀ → .takeJob t₀ ∈ tr ++ [a] → ∀ t c,
      (s.completions.insert t₀ { c₀ with pc }).lookup t = some c →
      .jobCompleted t c.workerId c.jobId ∈ tr ++ [a] ∧
        (c.pc ≠ .take → .takeJob t ∈ tr ++ [a]) := by
    intro t₀ c₀ pc hc₀ htake
    exact Table.forall_insert hold ⟨(hold t₀ c₀ hc₀).1, fun _ => htake⟩
  have hlast : a ∈ tr ++ [a] := List.mem_append_right _ (List.mem_singleton_self _)
  cases h with
  | jobCompleted hnew hfind =>
    exact Table.forall_insert hold ⟨hlast, fun hpc => absurd rfl hpc⟩
  | takeJob hpc hjob => exact hmove hpc hlast
  | takeUnknown hpc hjob => exact hmove hpc hlast
  | buildLink hpc => exact hmove hpc ((hold _ _ hpc).2 nofun)
  | buildLinkLost hpc => exact hmove hpc ((hold _ _ hpc).2 nofun)
  | recordProgress hpc => exact hmove hpc ((hold _ _ hpc).2 nofun)
  | recordLast hpc => exact hmove hpc ((hold _ _ hpc).2 nofun)
  | recordFinalized hpc => exact hmove hpc ((hold _ _ hpc).2 nofun)
  | publish hpc => exact hmove hpc ((hold _ _ hpc).2 nofun)
  | markWorkerIdle hpc => exact hmove hpc ((hold _ _ hpc).2 nofun)
  | _ => exact hold

theorem registered_step : ∀ j d, s'.dispatchThreads.lookup j = some d → d.pc.undone = false →
    j ∈ s'.workerJobToRenderId ∨ s'.Reported j := by
  have hold : ∀ j d, s.dispatchThreads.lookup j = some d → d.pc.undone = false →
      j ∈ s.workerJobToRenderId ∨ s'.Reported j :=
    fun j d hd hu => (hJ.registered j d hd hu).imp id fun hr => hr.step h
  -- a dispatch thread that moves on without touching the map
  have hmove : ∀ {job : JobId} {d₀ : DispatchThread} {pc : DispatchPc},
      s.dispatchThreads.lookup job = some d₀ → (pc.undone = false → d₀.pc.undone = false) →
      ∀ j d, (s.dispatchThreads.insert job { d₀ with pc }).lookup j = some d →
      d.pc.undone = false → j ∈ s.workerJobToRenderId ∨ s'.Reported j := by
    intro job d₀ pc hd₀ hpc
    exact Table.forall_insert_over hold hd₀ fun hr hu => hr (hpc hu)
  cases h with
  | @takeJob t w j₀ ctx hpc hjob =>
    -- the id taken out of the map is reported from now on
    intro j d hd hu
    by_cases hj : j = j₀
    · exact Or.inr ⟨t, _, AList.lookup_insert _, hj.symm, nofun⟩
    · exact (hold j d hd hu).imp (fun hr => AList.mem_erase.mpr ⟨hj, hr⟩) id
  | assignJob hnew hqueue hidle =>
    intro j d hd hu
    rcases Table.lookup_insert_cases hd with ⟨rfl, -⟩ | ⟨-, hd⟩
    · exact Or.inl ((AList.mem_insert _).mpr (Or.inl rfl))
    · exact (hold j d hd hu).imp (fun hr => (AList.mem_insert _).mpr (Or.inr hr)) id
  | renderJobReturned hpc => exact hmove hpc fun _ => rfl
  | @undoRegistration job w addr f hpc =>
    -- the thread that erases its id has undone its registration
    intro j d hd hu
    rcases Table.lookup_insert_cases hd with ⟨-, rfl⟩ | ⟨hne, hd⟩
    · cases hu
    · exact (hold j d hd hu).imp (fun hr => AList.mem_erase.mpr ⟨hne, hr⟩) id
  | requeueFrame hpc => exact hmove hpc nofun
  | markDispatchOffline hpc => exact hmove hpc nofun
  | _ => exact hold

theorem unregistered_step : ∀ j d, s'.dispatchThreads.lookup j = some d → d.pc.undone = true →
    j ∉ s'.workerJobToRenderId := by
  have hmove : ∀ {job : JobId} {d₀ : DispatchThread} {pc : DispatchPc},
      s.dispatchThreads.lookup job = some d₀ → (pc.undone = true → d₀.pc.undone = true) →
      ∀ j d, (s.dispatchThreads.insert job { d₀ with pc }).lookup j = some d →
      d.pc.undone = true → j ∉ s.workerJobToRenderId := by
    intro job d₀ pc hd₀ hpc
    exact Table.forall_insert_over hJ.unregistered hd₀ fun hr hu => hr (hpc hu)
  cases h with
  | takeJob hpc hjob =>
    exact fun j d hd hu hin => hJ.unregistered j d hd hu (AList.mem_erase.mp hin).2
  | assignJob hnew hqueue hidle =>
    -- a minted id is none of an older thread
    intro j d hd hu hin
    rcases Table.lookup_insert_cases hd with ⟨-, rfl⟩ | ⟨hne, hd⟩
    · cases hu
    · exact hJ.unregistered j d hd hu (((AList.mem_insert _).mp hin).resolve_left hne)
  | @renderJobReturned job accepted w addr f hpc =>
    refine hmove hpc fun hu => ?_
    cases accepted <;> cases hu
  | undoRegistration hpc =>
    intro j d hd hu hin
    obtain ⟨hne, hin⟩ := AList.mem_erase.mp hin
    exact hJ.unregistered j d ((Table.lookup_insert_cases hd).resolve_left fun he => hne he.1).2
      hu hin
  | requeueFrame hpc => exact hmove hpc fun _ => rfl
  | markDispatchOffline hpc => exact hmove hpc fun _ => rfl
  | _ => exact hJ.unregistered

protected theorem step : s'.JobIds (tr ++ [a]) where
  call_failed := hJ.call_failed_step h
  received := hJ.received_step h
  registered := hJ.registered_step h
  unregistered := hJ.unregistered_step h

end State.JobIds

theorem State.JobIds.initial : State.initial.JobIds [] := by
  constructor <;> intros <;> simp_all [State.initial]

/-- **Every reachable state has its job ids in order.** -/
theorem State.JobIds.of_run {C : System.Condition State Label} (h : (scheduler env).Run C tr s) :
    s.JobIds tr :=
  h.invariant (fun tr s => s.JobIds tr) .initial fun _ hJ _ hs => hJ.step (.of_step hs)

/-! ### Failed calls -/

/-- What the comment in `assignJobs` assumes of the workers: of a job id whose
`RenderJob` call fails, no `JobCompleted` is ever processed. One may be
received, but its lookup never runs. -/
def FailedNeverCompleted (tr : List Label) : Prop :=
  ∀ j, .renderJobReturned j false ∈ tr → ∀ t w, .jobCompleted t w j ∈ tr → .takeJob t ∉ tr

theorem FailedNeverCompleted.of_append {tr' : List Label}
    (h : FailedNeverCompleted (tr ++ tr')) : FailedNeverCompleted tr :=
  fun j hj t w ht htake => h j (List.mem_append_left _ hj) t w (List.mem_append_left _ ht)
    (List.mem_append_left _ htake)

/-- The registration a dispatch thread undoes is still there. -/
def UndoFindsJob : System.Condition State Label := fun _ s a =>
  match a with
  | .undoRegistration job => job ∈ s.workerJobToRenderId
  | _ => True

/-- Where failed calls are never completed, undoing always finds its job id. -/
theorem UndoFindsJob.of_failed (h : (scheduler env).Reaches tr s)
    (hfail : FailedNeverCompleted tr) : (scheduler env).Run UndoFindsJob tr s := by
  induction h with
  | nil => exact .nil
  | @snoc tr s s' a hrun hcond hs ih =>
    refine (ih hfail.of_append).snoc ?_ hs
    have hJ := State.JobIds.of_run hrun
    cases Step.of_step hs with
    | @undoRegistration job w addr f hpc =>
      rcases hJ.registered job _ hpc rfl with hin | ⟨t, c, hc, rfl, hpast⟩
      · exact hin
      · -- a handler past its lookup is what the assumption rules out
        obtain ⟨hrecv, htake⟩ := hJ.received t c hc
        exact absurd (htake hpast)
          (hfail.of_append _ (hJ.call_failed _ _ hpc rfl) t _ hrecv)
    | _ => trivial

end Pathological
