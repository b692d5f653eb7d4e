import Pathological.Scheduler.Finality

/-!
# Who finishes a render

A render whose handler has answered 201 and whose status is not terminal is
attended (`State.Attended`) when somebody can still finish it: one of its
frames that is not recorded yet is queued, registered under a job id for which
something is still to come, or in the hands of a handler; or a handler is about
to write COMPLETED.

Three kinds of steps leave a render unattended, and `Attending` is the
condition that none of them is taken: the acceptance of a render without
frames, the failure of a call whose job id has been taken by a completion
already, and the return of OK from a call whose `JobCompleted` never came.
`no_orphans` says that nothing else does.
-/

namespace Pathological

open Framework

/-- Something is still to come for the job id: the outcome of its call, the undo
that follows a failed one, or the lookup of a `JobCompleted` handler. -/
def State.Live (s : State) (j : JobId) : Prop :=
  (∃ d, s.dispatchThreads.lookup j = some d ∧ (d.pc = .calling ∨ d.pc = .undo)) ∨
    ∃ t c, s.completions.lookup t = some c ∧ c.jobId = j ∧ c.pc = .take

/-- The frame is queued, registered under a live job id, or held by a completion
handler or a dispatch thread. -/
def State.Outstanding (s : State) (c : FrameJobContext) : Prop :=
  (∃ f ∈ s.pendingJobs, f.context = c) ∨
    (∃ j, s.workerJobToRenderId.lookup j = some c ∧ s.Live j) ∨
    (∃ t th, s.completions.lookup t = some th ∧ th.pc.frame = some c) ∨
    ∃ j d, s.dispatchThreads.lookup j = some d ∧ d.frame = some c

/-- Somebody can still finish the render. -/
def State.Attended (s : State) (r : RenderId) : Prop :=
  s.Finalizing r ∨ ∃ p i, s.renderProgress.lookup r = some p ∧
    p.frameLinks[i]? = some none ∧ s.Outstanding ⟨r, i⟩

/-- Every render that was answered with 201 and is not terminal is attended. -/
def NoOrphans (s : State) : Prop :=
  ∀ r render, s.history.lookup r = some render → s.submits.lookup r = some .returned →
    render.status = .inQueue ∨ render.status = .inProgress → s.Attended r

/-- A render without frames is accepted, and left in the queue for good. -/
def zeroFrames : List Label :=
  [.createRenderRequest "r" (samplePayload 0) "now", .addJobProgress "r"]

theorem not_noOrphans : (scheduler sampleEnv).Reaches zeroFrames
    ((scheduler sampleEnv).after zeroFrames) ∧
    ¬ NoOrphans ((scheduler sampleEnv).after zeroFrames) := by
  refine ⟨.after (by decide), fun hall => ?_⟩
  rcases hall "r" _ rfl rfl (Or.inl rfl) with ⟨t, c, todo, hc, -⟩ | ⟨p, i, hp, -⟩
  · cases hc
  · cases hp

/-- No step leaves a render unattended: accepted renders have frames, failed
calls find their registration, and a call that returns OK has been reported, or
its `JobCompleted` is about to be looked up. -/
def Attending : System.Condition State Label := fun _ s a =>
  match a with
  | .createRenderRequest _ payload _ => payload.animationRuntime ≠ .ok 0
  | .undoRegistration job => job ∈ s.workerJobToRenderId
  | .renderJobReturned job true => job ∈ s.workerJobToRenderId →
      ∃ t c, s.completions.lookup t = some c ∧ c.jobId = job ∧ c.pc = .take
  | _ => True

variable {env : Env} {s s' : State} {a : Label} {tr : List Label} {r : RenderId}

theorem Attending.undoFindsJob (h : (scheduler env).Run Attending tr s) :
    (scheduler env).Run UndoFindsJob tr s := by
  refine h.mono fun tr s a hc => ?_
  cases a with
  | undoRegistration job => exact hc
  | _ => trivial

/-- Every render of the history has frames. -/
def State.HasFrames (s : State) : Prop :=
  ∀ r render, s.history.lookup r = some render → 0 < render.totalFrames

theorem State.HasFrames.step (hF : s.HasFrames) (hC : Attending tr s a) (h : Step env s a s') :
    s'.HasFrames := by
  intro r render' hrender'
  rcases h.history_cases hrender' with hin | ⟨payload, timestamp, rfl, hpayload⟩
  · obtain ⟨render, hrender⟩ := Table.exists_lookup_of_mem hin
    obtain ⟨render₁, hrender₁, hsub⟩ := h.history hrender
    obtain rfl := Option.some.inj (hrender₁.symm.trans hrender')
    rw [RenderRequest.totalFrames_congr hsub]
    exact hF r render hrender
  · obtain ⟨_, _, _, frames, _, _, _, -, -, -, hframes, -, -, -, -, -, -, hnonneg, rfl⟩ :=
      RenderRequest.ofPayload_eq_ok hpayload
    have hne : frames ≠ 0 := by
      rintro rfl
      exact hC hframes
    unfold RenderRequest.totalFrames
    dsimp only
    omega

/-- Every registered job id is live. -/
def State.AllLive (s : State) : Prop := ∀ j, j ∈ s.workerJobToRenderId → s.Live j

theorem State.AllLive.step (hL : s.AllLive) (hJ : s.JobIds tr) (hC : Attending tr s a)
    (h : Step env s a s') : s'.AllLive := by
  -- a live id stays live while its dispatch thread and its handler stay as they are
  have hkeep : ∀ {j}, s.Live j → s'.dispatchThreads = s.dispatchThreads →
      s'.completions = s.completions → s'.Live j := by
    intro j hj hd hc
    unfold State.Live
    rwa [hd, hc]
  -- a handler other than those at their lookup moves
  have hmove : ∀ {t₀ : ThreadId} {c₀ : CompletionThread} {pc : CompletionPc} {j : JobId},
      s.Live j → (∀ c, s.completions.lookup t₀ = some c → c.jobId = j → c.pc ≠ .take) →
      s'.dispatchThreads = s.dispatchThreads →
      s'.completions = s.completions.insert t₀ { c₀ with pc } → s'.Live j := by
    intro t₀ c₀ pc j hj hne hd hc
    unfold State.Live
    rw [hd, hc]
    rcases hj with hj | ⟨t, c, hlook, hid, hpc⟩
    · exact Or.inl hj
    · -- the handler at its lookup is not the one that moves
      have ht : t ≠ t₀ := by
        rintro rfl
        exact hne c hlook hid hpc
      exact Or.inr ⟨t, c, (AList.lookup_insert_ne ht).trans hlook, hid, hpc⟩
  have hpast : ∀ {t₀ : ThreadId} {c₀ : CompletionThread} {j : JobId},
      s.completions.lookup t₀ = some c₀ → c₀.pc ≠ .take →
      ∀ c, s.completions.lookup t₀ = some c → c.jobId = j → c.pc ≠ .take := by
    intro t₀ c₀ j hc₀ hne c hc _
    rwa [Option.some.inj (hc.symm.trans hc₀)]
  -- a dispatch thread that is not registered, or stays live, moves
  have hdispatch : ∀ {job : JobId} {d₀ : DispatchThread} {pc : DispatchPc} {j : JobId},
      s.Live j → (j = job → pc = .calling ∨ pc = .undo) →
      s'.dispatchThreads = s.dispatchThreads.insert job { d₀ with pc } →
      s'.completions = s.completions → s'.Live j := by
    intro job d₀ pc j hj hlive hd hc
    unfold State.Live
    rw [hd, hc]
    rcases hj with ⟨d, hlook, hpc⟩ | hj
    · by_cases he : j = job
      · subst he
        exact Or.inl ⟨_, AList.lookup_insert _, hlive rfl⟩
      · exact Or.inl ⟨d, (AList.lookup_insert_ne he).trans hlook, hpc⟩
    · exact Or.inr hj
  intro j hj
  cases h with
  | jobCompleted hnew hfind =>
    refine hmove (hL j hj) (fun c hc => ?_) rfl rfl
    exact absurd (Table.mem_of_lookup hc) hnew
  | @takeJob t w j₀ ctx hpc hjob =>
    -- the id looked up is registered no more
    obtain ⟨hne, hj⟩ := AList.mem_erase.mp hj
    refine hmove (hL j hj) (fun c hc hid => ?_) rfl rfl
    obtain rfl := Option.some.inj (hpc.symm.trans hc)
    exact absurd hid.symm hne
  | @takeUnknown t w j₀ hpc hjob =>
    refine hmove (hL j hj) (fun c hc hid => ?_) rfl rfl
    obtain rfl := Option.some.inj (hpc.symm.trans hc)
    obtain rfl : j₀ = j := hid
    exact absurd hj (AList.lookup_eq_none.mp hjob)
  | buildLink hpc => exact hmove (hL j hj) (hpast hpc nofun) rfl rfl
  | buildLinkLost hpc => exact hmove (hL j hj) (hpast hpc nofun) rfl rfl
  | recordProgress hpc => exact hmove (hL j hj) (hpast hpc nofun) rfl rfl
  | recordLast hpc => exact hmove (hL j hj) (hpast hpc nofun) rfl rfl
  | recordFinalized hpc => exact hmove (hL j hj) (hpast hpc nofun) rfl rfl
  | publish hpc => exact hmove (hL j hj) (hpast hpc nofun) rfl rfl
  | markWorkerIdle hpc => exact hmove (hL j hj) (hpast hpc nofun) rfl rfl
  | @assignJob job f rest w hnew hqueue hidle =>
    by_cases he : j = job
    · -- its call has just gone out
      subst he
      exact Or.inl ⟨_, AList.lookup_insert _, Or.inl rfl⟩
    · have hold : j ∈ s.workerJobToRenderId := ((AList.mem_insert _).mp hj).resolve_left he
      exact @hdispatch job ⟨w.id, State.workerAddress w, f, .calling⟩ .calling j (hL j hold)
        (fun h => absurd h he) rfl rfl
  | @renderJobReturned job accepted w addr f hpc =>
    cases accepted with
    -- the undo of a failed call is still to come
    | false => exact hdispatch (hL j hj) (fun _ => Or.inr rfl) rfl rfl
    | true =>
      by_cases he : j = job
      · -- the call has been reported, or is about to be
        subst he
        exact Or.inr (hC hj)
      · exact hdispatch (hL j hj) (fun h => absurd h he) rfl rfl
  | @undoRegistration job w addr f hpc =>
    obtain ⟨hne, hj⟩ := AList.mem_erase.mp hj
    exact hdispatch (hL j hj) (fun he => absurd he hne) rfl rfl
  -- past its undo, the thread's id is not registered
  | requeueFrame hpc =>
    refine hdispatch (hL j hj) (fun he => ?_) rfl rfl
    exact absurd (he ▸ hj) (hJ.unregistered _ _ hpc rfl)
  | markDispatchOffline hpc =>
    refine hdispatch (hL j hj) (fun he => ?_) rfl rfl
    exact absurd (he ▸ hj) (hJ.unregistered _ _ hpc rfl)
  | _ => exact hkeep (hL j hj) rfl rfl

/-- In a run that leaves no render unattended, renders have frames and job ids
are live. -/
theorem State.AllLive.of_run (h : (scheduler env).Run Attending tr s) :
    s.HasFrames ∧ s.AllLive := by
  refine h.invariant (fun _ s => s.HasFrames ∧ s.AllLive) ⟨?_, ?_⟩ ?_
  · intro r render hrender
    cases hrender
  · intro j hj
    cases AList.lookup_isSome.mpr hj
  · intro tr s a s' hrun hinv hC hs
    have h := Step.of_step hs
    exact ⟨hinv.1.step hC h, hinv.2.step (.of_run hrun) hC h⟩

/-- A known frame that is not recorded is outstanding. -/
theorem State.AllLive.outstanding {c : FrameJobContext} (hL : s.AllLive)
    (hrun : (scheduler env).Run Attending tr s) (hk : s.Known c) (hrec : s.recorded c = false) :
    s.Outstanding c := by
  rcases hk.located hrun with hp | ⟨j, hj⟩ | hc | hd | htrue
  · exact Or.inl hp
  · exact Or.inr (Or.inl ⟨j, hj, hL j (Table.mem_of_lookup hj)⟩)
  · exact Or.inr (Or.inr (Or.inl hc))
  · exact Or.inr (Or.inr (Or.inr hd))
  · cases hrec.symm.trans htrue

/-- **No orphaned render.** In a run that meets `Attending`, every render that
was answered with 201 and is not terminal is attended. -/
theorem no_orphans (hrun : (scheduler env).Run Attending tr s) : NoOrphans s := by
  intro r render hrender hret hst
  have hI := State.WF.of_run hrun
  have hundo := Attending.undoFindsJob hrun
  obtain ⟨hF, hL⟩ := State.AllLive.of_run hrun
  have hn := hF r render hrender
  cases hentry : s.renderProgress.lookup r with
  | none =>
    -- finalized, and not COMPLETED yet: a handler is about to write it
    have hown : s.Owned ⟨r, 0⟩ := ⟨render, hrender, hn, Or.inr hret⟩
    rcases State.Finalized.terminal hundo ⟨hret, hentry⟩ hown with ⟨render', hrender', hcomp⟩ | hfin
    · obtain rfl := Option.some.inj (hrender.symm.trans hrender')
      rcases hst with hst | hst <;> cases hcomp.symm.trans hst
    · exact Or.inl hfin
  | some p =>
    -- an entry has an empty slot, and its frame is not recorded
    obtain ⟨render', hrender', hp, -⟩ := hI.progress_tracked r p hentry
    obtain rfl := Option.some.inj (hrender.symm.trans hrender')
    obtain ⟨i, hi, hempty⟩ := hp.exists_empty
    have hrec : s.recorded ⟨r, i⟩ = false := by
      refine Bool.eq_false_iff.mpr fun htrue => ?_
      obtain ⟨l, hl⟩ := (recordedIn_of_some hentry).mp htrue
      cases hempty.symm.trans hl
    have hk : s.Known ⟨r, i⟩ := ⟨render, hrender, hi, hret⟩
    exact Or.inr ⟨p, i, hentry, hempty, hL.outstanding hrun hk hrec⟩

/-- Two frames, one of them dispatched. -/
def halfDispatched : List Label :=
  [.establishConnection 0 ⟨"10.0.0.1", "w", 50051⟩, .registerWorker 0 "w",
    .createRenderRequest "r" (samplePayload 2) "now", .addJobProgress "r", .addJobQueue "r",
    .assignJob "j"]

theorem no_orphans_halfDispatched : NoOrphans ((scheduler sampleEnv).after halfDispatched) := by
  refine no_orphans (.after ?_ (by decide))
  simp [halfDispatched, Attending, samplePayload]

end Pathological
