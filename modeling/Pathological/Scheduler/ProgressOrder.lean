import Pathological.Framework.Before
import Pathological.Scheduler.Finality
import Pathological.Scheduler.CompletionHandler

/-!
# Reported progress

`markRenderCompleted` reads the render's counter under `progress_mutex_` and
calls `setFramesCompleted` with it after the lock is released. Two handlers of
one render can make these calls in the other order than they read the counter,
so the count a client sees goes down, and stays below the number of frames of a
render that is COMPLETED when the last handler to read is not the last to write
(`overtakingCompletion`).

`ProgressConsistent` holds in every run where the handlers of a render call
`setFramesCompleted` in the order of their progress sections
(`progress_consistent`). Two invariants carry it. `State.Publication`, of every
run, is about the counts that have been read and not written yet: they are
ordered as they were read, and at most what the entry counts.
`State.PublishedInOrder`, of those runs, is about the counts written: they are
ordered, and at most every count that is still to be written.
-/

namespace Pathological

open Framework

/-! ### Counts read and counts written -/

/-- The handler has read the count `n` of the render and is about to call
`setFramesCompleted` with it. -/
def State.Unpublished (s : State) (r : RenderId) (t : ThreadId) (n : ℕ) : Prop :=
  ∃ w j todo, s.completions.lookup t = some ⟨w, j, .publish ((r, .framesCompleted n) :: todo)⟩

/-- The value the step on a label writes to the render's `framesCompleted`. -/
def State.written (s : State) (r : RenderId) : Label → Option ℕ
  | .publish t =>
    match s.completions.lookup t with
    | some ⟨_, _, .publish ((id, .framesCompleted n) :: _)⟩ => if id = r then some n else none
    | _ => none
  | _ => none

/-- The values written to the render's `framesCompleted` by the steps on the
labels, from `s` on. -/
def State.writesFrom (env : Env) (r : RenderId) (s : State) : List Label → List ℕ
  | [] => []
  | a :: ls => (s.written r a).toList ++
      match (scheduler env).step s a with
      | some s' => s'.writesFrom env r ls
      | none => []

/-- The values written to the render's `framesCompleted` in a run. -/
def writes (env : Env) (r : RenderId) (tr : List Label) : List ℕ :=
  State.initial.writesFrom env r tr

/-- The label is the progress section of the handler. -/
def RecordedBy (t : ThreadId) (a : Label) : Prop := ∃ ctx, a = .recordFrame t ctx

/-- The handler `t'` ran its progress section before the handler `t` did. -/
def RecordedBefore (tr : List Label) (t' t : ThreadId) : Prop :=
  Before (RecordedBy t') (RecordedBy t) tr

/-- The progress a render shows is consistent: the counts written are in order,
and a COMPLETED render with no `JobCompleted` handler running shows all its
frames. -/
structure ProgressConsistent (env : Env) (tr : List Label) (s : State) : Prop where
  nondecreasing : ∀ r, (writes env r tr).Pairwise (· ≤ ·)
  all_frames : ∀ r render, s.history.lookup r = some render → render.status = .completed →
    (∀ t c, s.completions.lookup t = some c → c.pc = .answered) →
    render.framesCompleted = render.totalFrames

variable {env : Env} {s s' : State} {a : Label} {tr : List Label} {r : RenderId}
  {t t' : ThreadId} {n : ℕ}

theorem State.writesFrom_append {ls : List Label} (he : (scheduler env).exec s tr = some s') :
    s.writesFrom env r (tr ++ ls) = s.writesFrom env r tr ++ s'.writesFrom env r ls := by
  induction tr generalizing s with
  | nil =>
    obtain rfl := Option.some.inj he
    rfl
  | cons a tr ih =>
    obtain ⟨s₁, hs, he⟩ := Option.bind_eq_some_iff.mp he
    simp only [List.cons_append, State.writesFrom, hs, ih he, List.append_assoc]

/-- One more step writes at most one more value. -/
theorem writes_append (hrun : (scheduler env).Reaches tr s) (h : Step env s a s') :
    writes env r (tr ++ [a]) = writes env r tr ++ (s.written r a).toList := by
  have happend : writes env r (tr ++ [a]) = _ := State.writesFrom_append hrun.exec_eq
  simp only [State.writesFrom, h.to_step, List.append_nil] at happend
  exact happend

/-- A step writes the count its handler has read. -/
theorem State.written_eq_some :
    s.written r a = some n ↔ ∃ t, a = .publish t ∧ s.Unpublished r t n := by
  constructor
  · intro h
    unfold State.written at h
    split at h
    · split at h
      · next t _ w j id m todo hc =>
        split at h
        · next hid =>
          obtain rfl := Option.some.inj h
          exact ⟨t, rfl, w, j, todo, hid ▸ hc⟩
        · cases h
      · cases h
    · cases h
  · rintro ⟨t, rfl, w, j, todo, hc⟩
    simp [State.written, hc]

/-- A count written by now was written before, or its handler has just written it. -/
theorem mem_writes_step (hrun : (scheduler env).Reaches tr s) (h : Step env s a s')
    (hn : n ∈ writes env r (tr ++ [a])) :
    n ∈ writes env r tr ∨ ∃ t, a = .publish t ∧ s.Unpublished r t n := by
  rw [writes_append hrun h] at hn
  rcases List.mem_append.mp hn with hn | hn
  · exact Or.inl hn
  · exact Or.inr (State.written_eq_some.mp (Option.mem_toList.mp hn))

/-! ### What a step does to the counts -/

/-- Only the first of a handler's setter calls is a `setFramesCompleted`. -/
def State.OneCount (s : State) : Prop :=
  ∀ t w j x todo, s.completions.lookup t = some ⟨w, j, .publish (x :: todo)⟩ →
    ∀ y ∈ todo, ∀ n, y.2 ≠ .framesCompleted n

theorem RenderProgress.setters_oneCount {p : RenderProgress} {x : Setter} {xs : List Setter}
    (h : p.setters = x :: xs) : ∀ y ∈ xs, ∀ n, y ≠ .framesCompleted n := by
  obtain ⟨-, rfl⟩ := List.cons.inj h
  intro y hy n
  split at hy
  · rcases List.mem_append.mp hy with hy | hy
    · rcases List.mem_cons.mp hy with rfl | hy
      · nofun
      · obtain ⟨l, -, rfl⟩ := List.mem_map.mp hy
        nofun
    · obtain rfl := List.mem_singleton.mp hy
      nofun
  · cases hy

theorem State.OneCount.step (hO : s.OneCount) (h : Step env s a s') : s'.OneCount := by
  intro t w j x todo hc y hy n
  have htodo := h.todo hc rfl
  generalize hcons : x :: todo = xs at htodo
  cases htodo with
  | @kept c _ _ hc₀ hpc₀ =>
    obtain ⟨w₀, j₀, pc⟩ := c
    obtain rfl : pc = .publish (x :: todo) := hpc₀.trans (congrArg _ hcons.symm)
    exact hO t w₀ j₀ x todo hc₀ y hy n
  | nothing => cases hcons
  | @recorded w₀ j₀ ctx link p =>
    -- the setter calls that follow a progress section
    obtain ⟨x', xs, hxs, -, rfl⟩ := List.map_eq_cons_iff.mp hcons.symm
    obtain ⟨y', hy', rfl⟩ := List.mem_map.mp hy
    exact (p.record ctx.frameIndex link).setters_oneCount hxs y' hy' n
  | rest _ hpc₀ =>
    subst hcons
    exact hO t _ _ _ _ hpc₀ y (List.mem_cons_of_mem _ hy) n

/-- A count stays to be written until its handler publishes it. -/
theorem State.Unpublished.step (hu : s.Unpublished r t n) (h : Step env s a s')
    (ha : a ≠ .publish t) : s'.Unpublished r t n := by
  obtain ⟨w, j, todo, hc⟩ := hu
  have hother : a.completionThread ≠ some t := fun hown => ha (h.next hc hown)
  exact ⟨w, j, todo, h.other hother hc⟩

/-- A count to be written was so before, or its handler has just read it. -/
theorem State.Unpublished.cases (hO : s.OneCount) (h : Step env s a s')
    (hu : s'.Unpublished r t n) :
    (s.Unpublished r t n ∧ a ≠ .publish t) ∨
      ∃ w j ctx link p, a = .recordFrame t ctx ∧ ctx.renderId = r ∧
        s.completions.lookup t = some ⟨w, j, .record ctx link⟩ ∧
        s.renderProgress.lookup r = some p ∧
        n = (p.record ctx.frameIndex link).framesCompleted ∧
        ∀ p', s'.renderProgress.lookup r = some p' → p'.framesCompleted = n := by
  obtain ⟨w, j, todo, hc⟩ := hu
  have htodo := h.todo hc rfl
  generalize hcons : (r, Setter.framesCompleted n) :: todo = xs at htodo
  cases htodo with
  | @kept c _ hother hc₀ hpc₀ =>
    obtain ⟨w₀, j₀, pc⟩ := c
    obtain rfl : pc = .publish _ := hpc₀.trans (congrArg _ hcons.symm)
    refine Or.inl ⟨⟨w₀, j₀, todo, hc₀⟩, ?_⟩
    rintro rfl
    exact hother rfl
  | nothing => cases hcons
  | @recorded w₀ j₀ ctx link p ha hpc₀ hentry hentry' =>
    -- the handler has recorded a frame, with the count it has found
    obtain ⟨x, xs, hxs, hx, -⟩ := List.map_eq_cons_iff.mp hcons.symm
    obtain ⟨rfl, rfl⟩ := Prod.mk.inj hx
    have hn : n = (p.record ctx.frameIndex link).framesCompleted :=
      (Setter.framesCompleted.inj (List.cons.inj hxs).1).symm
    refine Or.inr ⟨w₀, j₀, ctx, link, p, ha, rfl, hpc₀, hentry, hn, ?_⟩
    intro p' hp'
    rw [hentry'] at hp'
    obtain ⟨-, hp'⟩ := Option.ite_none_left_eq_some.mp hp'
    obtain rfl := Option.some.inj hp'
    exact hn.symm
  | rest ha hpc₀ =>
    -- a handler that publishes one setter call has no count to write after it
    subst hcons
    exact absurd rfl (hO t _ _ _ _ hpc₀ _ List.mem_cons_self n)

theorem RenderProgress.le_record {p : RenderProgress} {i : ℕ} {link : Option String} :
    p.framesCompleted ≤ (p.record i link).framesCompleted := by
  unfold RenderProgress.record
  split
  · exact Nat.le_succ _
  · exact le_rfl

/-- An entry after a step was there before with a smaller or equal counter, or
`addJob` has just created it. -/
theorem Step.counter_cases {p' : RenderProgress} (hI : s.WF env) (h : Step env s a s')
    (hp : s'.renderProgress.lookup r = some p') :
    (∃ p, s.renderProgress.lookup r = some p ∧ p.framesCompleted ≤ p'.framesCompleted) ∨
      s.submits.lookup r = some .addJob := by
  cases h with
  | addJobProgress hpc hrender hframes =>
    rcases Table.lookup_insert_cases hp with ⟨rfl, -⟩ | ⟨-, hp⟩
    · exact Or.inr (by rw [hI.id_eq _ _ hrender, hpc])
    · exact Or.inl ⟨p', hp, le_rfl⟩
  | recordProgress hpc hentry hdone =>
    rcases Table.lookup_insert_cases hp with ⟨rfl, rfl⟩ | ⟨-, hp⟩
    · exact Or.inl ⟨_, hentry, RenderProgress.le_record⟩
    · exact Or.inl ⟨p', hp, le_rfl⟩
  | recordLast hpc hentry hdone =>
    exact Or.inl ⟨p', (Table.lookup_erase_cases hp).2, le_rfl⟩
  | _ => exact Or.inl ⟨p', hp, le_rfl⟩

/-- The `framesCompleted` a render shows after a step was shown before, or is the
value the step has written, or the render is new. -/
theorem Step.shown_cases {render' : RenderRequest} (h : Step env s a s')
    (hr : s'.history.lookup r = some render') :
    (∃ render, s.history.lookup r = some render ∧ render'.totalFrames = render.totalFrames ∧
      render'.framesCompleted = (s.written r a).elim render.framesCompleted Nat.cast) ∨
    (r ∉ s.history ∧ render'.framesCompleted = 0 ∧ s.written r a = none) := by
  have hold : s.history.lookup r = some render' → s.written r a = none →
      ∃ render, s.history.lookup r = some render ∧ render'.totalFrames = render.totalFrames ∧
        render'.framesCompleted = (s.written r a).elim render.framesCompleted Nat.cast :=
    fun hr hw => ⟨render', hr, rfl, by rw [hw]; rfl⟩
  cases h with
  | @createAccepted id payload timestamp render hnew hpayload =>
    rcases Table.lookup_insert_cases hr with ⟨rfl, rfl⟩ | ⟨-, hr⟩
    · refine Or.inr ⟨hnew, ?_, rfl⟩
      rw [← RenderRequest.submitted_of_ofPayload hpayload]
      rfl
    · exact Or.inl (hold hr rfl)
  | @publish t w j id x todo hpc =>
    have hlook : (s.history.modify id x.apply).lookup r = some render' := hr
    rw [Table.lookup_modify] at hlook
    split at hlook
    · next he =>
      subst he
      obtain ⟨render, hrender, rfl⟩ := Option.map_eq_some_iff.mp hlook
      refine Or.inl ⟨render, hrender, RenderRequest.totalFrames_congr (x.apply_submitted _), ?_⟩
      -- `setFramesCompleted` is the only one of the setters to write the field
      cases x <;> simp [State.written, hpc, Setter.apply, RenderRequest.setDownloadLinks,
        RenderRequest.setDownloadLink, RenderRequest.setStatus]
    · next hne =>
      refine Or.inl (hold hlook ?_)
      cases x <;> simp [State.written, hpc, Ne.symm hne]
  | @assignJob job f rest w hnew hqueue hidle =>
    have hlook : (s.history.modify f.renderRequest (Setter.status .inProgress).apply).lookup r =
        some render' := hr
    obtain ⟨render, hrender, rfl | rfl⟩ := Table.lookup_modify_cases hlook
    · exact Or.inl ⟨render', hrender, rfl, rfl⟩
    · exact Or.inl ⟨render, hrender, rfl, rfl⟩
  | _ => exact Or.inl (hold hr rfl)

/-! ### Counts in every run -/

/-- The handler is past its progress section, or past where it would be. -/
def CompletionPc.Past : CompletionPc → Prop
  | .publish _ | .answered => True
  | _ => False

/-- What holds of the counts in every run. -/
structure State.Publication (env : Env) (tr : List Label) (s : State) : Prop where
  one_count : s.OneCount
  /-- A handler runs its progress section once. -/
  past : ∀ t, (∃ a ∈ tr, RecordedBy t a) → ∃ c, s.completions.lookup t = some c ∧ c.pc.Past
  recorded : ∀ r t n, s.Unpublished r t n → ∃ a ∈ tr, RecordedBy t a
  started : ∀ r, (∃ t n, s.Unpublished r t n) ∨ writes env r tr ≠ [] →
    s.submits.lookup r = some .returned ∧ r ∈ s.history
  unpublished_le : ∀ r p t n, s.renderProgress.lookup r = some p → s.Unpublished r t n →
    n ≤ p.framesCompleted
  writes_le : ∀ r p, s.renderProgress.lookup r = some p → ∀ n ∈ writes env r tr,
    n ≤ p.framesCompleted
  /-- The counts that are still to be written are ordered as they were read. -/
  ordered : ∀ r t t' n n', s.Unpublished r t n → s.Unpublished r t' n' →
    RecordedBefore tr t' t → n' ≤ n
  bounded : ∀ r render, s.history.lookup r = some render → ∀ n ∈ writes env r tr,
    n ≤ render.totalFrames
  /-- A render shows the last count written. -/
  shown : ∀ r render, s.history.lookup r = some render →
    render.framesCompleted = ((writes env r tr).getLast?.getD 0 : ℕ)
  /-- The full count of a render that is, or is about to be, COMPLETED has been
  written, or is still to be. -/
  full : ∀ r render, s.history.lookup r = some render →
    s.HasStatus r .completed ∨ s.Finalizing r →
    render.totalFrames ∈ writes env r tr ∨ ∃ t, s.Unpublished r t render.totalFrames

/-- A handler that has run its progress section, or makes one of the calls after
it, is past it. -/
theorem Step.past (h : Step env s a s')
    (ha : RecordedBy t a ∨ a = .publish t ∨ a = .markWorkerIdle t) :
    ∃ c, s'.completions.lookup t = some c ∧ c.pc.Past := by
  rcases ha with ⟨ctx, rfl⟩ | rfl | rfl
  · cases h with
    | recordProgress => exact ⟨_, AList.lookup_insert _, trivial⟩
    | recordLast => exact ⟨_, AList.lookup_insert _, trivial⟩
    | recordFinalized => exact ⟨_, AList.lookup_insert _, trivial⟩
  · cases h with
    | publish => exact ⟨_, AList.lookup_insert _, trivial⟩
  · cases h with
    | markWorkerIdle => exact ⟨_, AList.lookup_insert _, trivial⟩

namespace State.Publication

variable (hrun : (scheduler env).Reaches tr s) (hP : s.Publication env tr) (h : Step env s a s')

include hP h

theorem past_step : ∀ t, (∃ b ∈ tr ++ [a], RecordedBy t b) →
    ∃ c, s'.completions.lookup t = some c ∧ c.pc.Past := by
  rintro t ⟨b, hb, hrec⟩
  rcases List.mem_append.mp hb with hb | hb
  · obtain ⟨c, hc, hpast⟩ := hP.past t ⟨b, hb, hrec⟩
    by_cases hown : a.completionThread = some t
    · -- past its progress section, a handler only publishes, and sets its worker to IDLE
      refine h.past (Or.inr ?_)
      have hnext := h.next hc hown
      obtain ⟨w, j, pc⟩ := c
      cases pc with
      | publish todo =>
        cases todo with
        | nil => exact Or.inr hnext
        | cons x todo => exact Or.inl hnext
      | answered => cases hnext
      | _ => cases hpast
    · exact ⟨c, h.other hown hc, hpast⟩
  · obtain rfl := List.mem_singleton.mp hb
    exact h.past (Or.inl hrec)

theorem recorded_step : ∀ r t n, s'.Unpublished r t n → ∃ b ∈ tr ++ [a], RecordedBy t b := by
  intro r t n hu
  rcases hu.cases hP.one_count h with ⟨hu, -⟩ | ⟨_, _, ctx, _, _, rfl, -⟩
  · obtain ⟨b, hb, hrec⟩ := hP.recorded r t n hu
    exact ⟨b, List.mem_append_left _ hb, hrec⟩
  · exact ⟨_, List.mem_append_right _ (List.mem_singleton_self _), ctx, rfl⟩

theorem ordered_step : ∀ r t t' n n', s'.Unpublished r t n → s'.Unpublished r t' n' →
    RecordedBefore (tr ++ [a]) t' t → n' ≤ n := by
  intro r t t' n n' hu hu' hbefore
  rcases hu'.cases hP.one_count h with ⟨hu', -⟩ | ⟨w, j, ctx, link, p, rfl, -, hc, -⟩
  · rcases hu.cases hP.one_count h with ⟨hu, -⟩ | ⟨w, j, ctx, link, p, rfl, -, hc, hp, rfl, -⟩
    · rcases Before.cases hbefore with hbefore | ⟨⟨ctx, rfl⟩, -⟩
      · exact hP.ordered r t t' n n' hu hu' hbefore
      · -- a handler with a count to publish is past its progress section
        obtain ⟨_, _, _, hc⟩ := hu
        cases h.next hc rfl
    · exact le_trans (hP.unpublished_le r p t' n' hp hu') RenderProgress.le_record
  · -- the handler that has just run its progress section had not run it before
    have hearlier : ∃ b ∈ tr, RecordedBy t' b :=
      (Before.cases hbefore).elim Before.exists_left And.right
    obtain ⟨c, hc', hpast⟩ := hP.past t' hearlier
    obtain rfl := Option.some.inj (hc.symm.trans hc')
    cases hpast

include hrun

theorem started_step : ∀ r, (∃ t n, s'.Unpublished r t n) ∨ writes env r (tr ++ [a]) ≠ [] →
    s'.submits.lookup r = some .returned ∧ r ∈ s'.history := by
  intro r hstarted
  have hkeep : s.submits.lookup r = some .returned ∧ r ∈ s.history →
      s'.submits.lookup r = some .returned ∧ r ∈ s'.history := by
    rintro ⟨hret, hr⟩
    obtain ⟨render, hrender⟩ := Table.exists_lookup_of_mem hr
    obtain ⟨render', hrender', -⟩ := h.history hrender
    exact ⟨h.returned hr hret, Table.mem_of_lookup hrender'⟩
  rcases hstarted with ⟨t, n, hu⟩ | hne
  · rcases hu.cases hP.one_count h with ⟨hu, -⟩ | ⟨w, j, ctx, link, p, -, rfl, hc, -⟩
    · exact hkeep (hP.started r (Or.inl ⟨t, n, hu⟩))
    · -- a handler only gets a frame of a render whose `addJob` has returned
      obtain ⟨render, hrender, -, hret⟩ := (State.WF.of_run hrun).completion_known t _ ctx hc rfl
      exact hkeep ⟨hret, Table.mem_of_lookup hrender⟩
  · obtain ⟨n, hn⟩ := List.exists_mem_of_ne_nil _ hne
    rcases mem_writes_step hrun h hn with hn | ⟨t, -, hu⟩
    · exact hkeep (hP.started r (Or.inr (List.ne_nil_of_mem hn)))
    · exact hkeep (hP.started r (Or.inl ⟨t, n, hu⟩))

theorem unpublished_le_step : ∀ r p t n, s'.renderProgress.lookup r = some p →
    s'.Unpublished r t n → n ≤ p.framesCompleted := by
  intro r p' t n hp' hu
  rcases hu.cases hP.one_count h with ⟨hu, -⟩ | ⟨_, _, _, _, _, -, -, -, -, -, hnew⟩
  · rcases h.counter_cases (State.WF.of_run hrun) hp' with ⟨p, hp, hle⟩ | hadd
    · exact le_trans (hP.unpublished_le r p t n hp hu) hle
    · cases hadd.symm.trans (hP.started r (Or.inl ⟨t, n, hu⟩)).1
  · exact le_of_eq (hnew p' hp').symm

theorem writes_le_step : ∀ r p, s'.renderProgress.lookup r = some p →
    ∀ n ∈ writes env r (tr ++ [a]), n ≤ p.framesCompleted := by
  intro r p' hp' n hn
  rcases h.counter_cases (State.WF.of_run hrun) hp' with ⟨p, hp, hle⟩ | hadd
  · rcases mem_writes_step hrun h hn with hn | ⟨t, -, hu⟩
    · exact le_trans (hP.writes_le r p hp n hn) hle
    · exact le_trans (hP.unpublished_le r p t n hp hu) hle
  · -- nothing is counted, read or written before `addJob` has returned
    rcases mem_writes_step hrun h hn with hn | ⟨t, -, hu⟩
    · cases hadd.symm.trans (hP.started r (Or.inr (List.ne_nil_of_mem hn))).1
    · cases hadd.symm.trans (hP.started r (Or.inl ⟨t, n, hu⟩)).1

theorem bounded_step : ∀ r render, s'.history.lookup r = some render →
    ∀ n ∈ writes env r (tr ++ [a]), n ≤ render.totalFrames := by
  intro r render' hrender' n hn
  rcases h.shown_cases hrender' with ⟨render, hrender, htotal, -⟩ | ⟨hnew, -⟩
  · rw [htotal]
    rcases mem_writes_step hrun h hn with hn | ⟨t, -, w, j, todo, hc⟩
    · exact hP.bounded r render hrender n hn
    · -- the count was valid when it was read, and the render is still the same
      have hA : s.Accounting env tr := .of_run hrun
      obtain ⟨render₀, hrender₀, hle⟩ := hA.todo_valid t _ _ r _ hc rfl List.mem_cons_self
      obtain rfl := Option.some.inj (hrender.symm.trans hrender₀)
      exact hle
  · rcases mem_writes_step hrun h hn with hn | ⟨t, -, hu⟩
    · exact absurd (hP.started r (Or.inr (List.ne_nil_of_mem hn))).2 hnew
    · exact absurd (hP.started r (Or.inl ⟨t, n, hu⟩)).2 hnew

theorem shown_step : ∀ r render, s'.history.lookup r = some render →
    render.framesCompleted = ((writes env r (tr ++ [a])).getLast?.getD 0 : ℕ) := by
  intro r render' hrender'
  rw [writes_append hrun h]
  rcases h.shown_cases hrender' with ⟨render, hrender, -, hshown⟩ | ⟨hnew, hzero, hnone⟩
  · rw [hshown]
    cases hw : s.written r a with
    | none => simp [hP.shown r render hrender]
    | some n => simp
  · have hnil : writes env r tr = [] := by
      by_contra hne
      exact hnew (hP.started r (Or.inr hne)).2
    rw [hzero, hnone, hnil]
    rfl

theorem full_step : ∀ r render, s'.history.lookup r = some render →
    s'.HasStatus r .completed ∨ s'.Finalizing r →
    render.totalFrames ∈ writes env r (tr ++ [a]) ∨ ∃ t, s'.Unpublished r t render.totalFrames := by
  intro r render' hrender' hlast
  have hI : s.WF env := .of_run hrun
  have hold : s.HasStatus r .completed ∨ s.Finalizing r →
      render'.totalFrames ∈ writes env r (tr ++ [a]) ∨
        ∃ t, s'.Unpublished r t render'.totalFrames := by
    intro hlast
    rcases h.shown_cases hrender' with ⟨render, hrender, htotal, -⟩ | ⟨hnew, -⟩
    · rw [htotal, writes_append hrun h]
      rcases hP.full r render hrender hlast with hin | ⟨t, hu⟩
      · exact Or.inl (List.mem_append_left _ hin)
      · by_cases ha : a = .publish t
        · have hw := State.written_eq_some.mpr ⟨t, ha, hu⟩
          exact Or.inl (List.mem_append_right _ (Option.mem_toList.mpr hw))
        · exact Or.inr ⟨t, hu.step h ha⟩
    · -- a render that is being completed is in the history
      have hS : s.Settled := .of_run hrun
      have hf : s.Finalized r := hlast.elim (hS.completed r) (hS.finalizing r)
      exact absurd (hI.submit_known r _ hf.1) hnew
  rcases hlast with hst | hf
  · exact hold (hst.completed_cases h)
  · rcases hf.cases h with hf | ⟨t, w, j, ctx, link, p, rfl, hpc, hp, hdone, -, hc⟩
    · exact hold (Or.inr hf)
    · -- the last frame has just been recorded: the counter is full
      obtain ⟨render, l, hrender, rfl, -, -, hacc⟩ := hI.record_full hpc hp
      obtain ⟨render₀, hrender₀, hsub⟩ := h.history hrender
      obtain rfl := Option.some.inj (hrender'.symm.trans hrender₀)
      have hfull := hacc.record (i := ctx.frameIndex) (l := l)
      rw [if_pos hdone] at hfull
      rw [RenderRequest.totalFrames_congr hsub, ← hfull.1]
      exact Or.inr ⟨t, w, j, _, hc⟩

protected theorem step : s'.Publication env (tr ++ [a]) where
  one_count := hP.one_count.step h
  past := past_step hP h
  recorded := recorded_step hP h
  started := started_step hrun hP h
  unpublished_le := unpublished_le_step hrun hP h
  writes_le := writes_le_step hrun hP h
  ordered := ordered_step hP h
  bounded := bounded_step hrun hP h
  shown := shown_step hrun hP h
  full := full_step hrun hP h

end State.Publication

theorem State.Publication.initial (env : Env) : State.initial.Publication env [] := by
  have hnone : ∀ r t n, ¬ State.initial.Unpublished r t n := by
    rintro r t n ⟨w, j, todo, hc⟩
    cases hc
  constructor
  · intro t w j x todo hc
    cases hc
  · rintro t ⟨b, hb, -⟩
    cases hb
  · exact fun r t n hu => absurd hu (hnone r t n)
  · rintro r (⟨t, n, hu⟩ | hne)
    · exact absurd hu (hnone r t n)
    · exact absurd rfl hne
  · intro r p t n hp
    cases hp
  · intro r p hp
    cases hp
  · exact fun r t t' n n' hu => absurd hu (hnone r t n)
  · intro r render hrender
    cases hrender
  · intro r render hrender
    cases hrender
  · intro r render hrender
    cases hrender

theorem State.Publication.of_run {C : System.Condition State Label}
    (h : (scheduler env).Run C tr s) : s.Publication env tr :=
  h.invariant (fun tr s => s.Publication env tr) (.initial env) fun hrun hP _ hs =>
    State.Publication.step hrun.reaches hP (.of_step hs)

/-! ### Counts written in order -/

/-- The handlers of a render call `setFramesCompleted` in the order of their
progress sections: none makes the call while one that was there before it has
not made its own. -/
def PublishInOrder : System.Condition State Label := fun tr s a =>
  match a with
  | .publish t => ∀ r t' n n', s.Unpublished r t n → s.Unpublished r t' n' →
      ¬ RecordedBefore tr t' t
  | _ => True

/-- The counts written are in order, and at most the counts still to be written. -/
structure State.PublishedInOrder (env : Env) (tr : List Label) (s : State) : Prop where
  sorted : ∀ r, (writes env r tr).Pairwise (· ≤ ·)
  le_unpublished : ∀ r t n, s.Unpublished r t n → ∀ m ∈ writes env r tr, m ≤ n

theorem State.PublishedInOrder.step (hO : s.PublishedInOrder env tr)
    (hrun : (scheduler env).Reaches tr s) (hC : PublishInOrder tr s a) (h : Step env s a s') :
    s'.PublishedInOrder env (tr ++ [a]) := by
  have hP : s.Publication env tr := .of_run hrun
  constructor
  · intro r
    rw [writes_append hrun h, List.pairwise_append]
    refine ⟨hO.sorted r, ?_, fun m hm n hn => ?_⟩
    · cases s.written r a <;> simp
    · obtain ⟨t, -, hu⟩ := State.written_eq_some.mp (Option.mem_toList.mp hn)
      exact hO.le_unpublished r t n hu m hm
  · intro r t n hu m hm
    rcases hu.cases hP.one_count h with ⟨hu, ha⟩ | ⟨w, j, ctx, link, p, rfl, -, hc, hp, rfl, -⟩
    · rcases mem_writes_step hrun h hm with hm | ⟨t', rfl, hu'⟩
      · exact hO.le_unpublished r t n hu m hm
      · -- whoever has just published read its count before `t` did
        have hne : t' ≠ t := fun heq => ha (congrArg Label.publish heq)
        obtain ⟨b', hb', hrec'⟩ := hP.recorded r t' m hu'
        obtain ⟨b, hb, hrec⟩ := hP.recorded r t n hu
        have hbb : b' ≠ b := by
          obtain ⟨ctx', rfl⟩ := hrec'
          obtain ⟨ctx, rfl⟩ := hrec
          exact fun heq => hne (Label.recordFrame.inj heq).1
        rcases Before.total hbb hb' hb hrec' hrec with hbefore | hbefore
        · exact hP.ordered r t t' n m hu hu' hbefore
        · exact absurd hbefore (hC r t m n hu' hu)
    · -- whoever has just read its count read the largest
      have hle : m ≤ p.framesCompleted := by
        rcases mem_writes_step hrun h hm with hm | ⟨t', heq, -⟩
        · exact hP.writes_le r p hp m hm
        · cases heq
      exact le_trans hle RenderProgress.le_record

theorem State.PublishedInOrder.of_run (hrun : (scheduler env).Run PublishInOrder tr s) :
    s.PublishedInOrder env tr := by
  refine hrun.invariant (fun tr s => s.PublishedInOrder env tr) ?_ ?_
  · constructor
    · exact fun r => List.Pairwise.nil
    · intro r t n _ m hm
      cases hm
  · exact fun hrun hO hC hs => hO.step hrun.reaches hC (.of_step hs)

theorem getLast?_of_sorted {l : List ℕ} {n : ℕ} (hsorted : l.Pairwise (· ≤ ·)) (hn : n ∈ l)
    (hle : ∀ m ∈ l, m ≤ n) : l.getLast? = some n := by
  obtain ⟨l', m, rfl⟩ := (List.eq_nil_or_concat l).resolve_left (List.ne_nil_of_mem hn)
  rw [List.concat_eq_append] at hsorted hn hle ⊢
  have hmn : m ≤ n := hle m (List.mem_append_right _ (List.mem_singleton_self _))
  have hnm : n ≤ m := by
    rcases List.mem_append.mp hn with hn | hn
    · exact (List.pairwise_append.mp hsorted).2.2 n hn m (List.mem_singleton_self _)
    · exact le_of_eq (List.mem_singleton.mp hn)
  rw [List.getLast?_append, List.getLast?_singleton, le_antisymm hmn hnm]
  rfl

/-- **Reported progress is consistent**, in a run where the handlers of a render
call `setFramesCompleted` in the order of their progress sections. -/
theorem progress_consistent (hrun : (scheduler env).Run PublishInOrder tr s) :
    ProgressConsistent env tr s := by
  have hO := State.PublishedInOrder.of_run hrun
  have hP : s.Publication env tr := .of_run hrun
  refine ⟨hO.sorted, fun r render hrender hst hdone => ?_⟩
  -- the full count has been written, since nobody has one left to write
  have hwritten : render.totalFrames ∈ writes env r tr := by
    refine (hP.full r render hrender (Or.inl ⟨render, hrender, hst⟩)).resolve_right ?_
    rintro ⟨t, w, j, todo, hc⟩
    cases hdone t _ hc
  have hlast := getLast?_of_sorted (hO.sorted r) hwritten (hP.bounded r render hrender)
  rw [hP.shown r render hrender, hlast]
  rfl

/-- Two workers have recorded the two frames of a render, `v` first, and neither
handler has published anything yet. -/
def twoRecorded : List Label :=
  [.establishConnection 0 ⟨"10.0.0.1", "v", 50051⟩, .registerWorker 0 "v",
    .establishConnection 1 ⟨"10.0.0.2", "w", 50051⟩, .registerWorker 1 "w",
    .createRenderRequest "r" (samplePayload 2) "now", .addJobProgress "r", .addJobQueue "r",
    .assignJob "j0", .assignJob "j1", .jobCompleted 2 "v" "j0", .jobCompleted 3 "w" "j1",
    .takeJob 2, .takeJob 3, .buildLink 2 0, .buildLink 3 0,
    .recordFrame 2 ⟨"r", 0⟩, .recordFrame 3 ⟨"r", 1⟩]

/-- The handlers publish in the order they recorded. -/
def inTurn : List Label :=
  twoRecorded ++ [.publish 2, .publish 3, .publish 3, .publish 3, .publish 3,
    .markWorkerIdle 2, .markWorkerIdle 3]

theorem progress_consistent_inTurn :
    ProgressConsistent sampleEnv inTurn ((scheduler sampleEnv).after inTurn) := by
  have hrecorded : (scheduler sampleEnv).Run PublishInOrder twoRecorded _ :=
    .after (by simp [twoRecorded, PublishInOrder]) (by decide)
  -- nobody recorded before the first handler
  have h₁ := hrecorded.after_snoc (.publish 2) (by
    intro r t' n n' _ _ hbefore
    simp [RecordedBefore, twoRecorded, before_cons, before_nil, RecordedBy] at hbefore)
    (by decide)
  -- a handler with no count to publish
  have hquiet : ∀ {tr : List Label} {s : State} {t : ThreadId},
      (∀ r n, ¬ s.Unpublished r t n) → PublishInOrder tr s (.publish t) :=
    fun hnone r _ n _ hu => absurd hu (hnone r n)
  have h₂ := h₁.after_snoc (.publish 3) (by
    intro r t' n n' _ hu' hbefore
    have ht' : 2 = t' := by
      simpa [RecordedBefore, twoRecorded, before_cons, before_nil, RecordedBy] using hbefore
    subst ht'
    obtain ⟨w, j, todo, hc⟩ := hu'
    cases hc) (by decide)
  have h₃ := h₂.after_snoc (.publish 3) (hquiet (by rintro r n ⟨w, j, todo, hc⟩; cases hc))
    (by decide)
  have h₄ := h₃.after_snoc (.publish 3) (hquiet (by rintro r n ⟨w, j, todo, hc⟩; cases hc))
    (by decide)
  have h₅ := h₄.after_snoc (.publish 3) (hquiet (by rintro r n ⟨w, j, todo, hc⟩; cases hc))
    (by decide)
  exact progress_consistent (h₅.after_append [.markWorkerIdle 2, .markWorkerIdle 3]
    (by simp [PublishInOrder]) (by decide))

/-- Every dispatched frame succeeds, and is reported once. -/
def EachFrameSucceedsOnce (tr : List Label) : Prop :=
  (∀ j, .renderJobReturned j false ∉ tr) ∧
    (tr.filterMap fun a => match a with
      | .jobCompleted _ _ j => some j
      | _ => none).Nodup

/-- The handler that recorded last publishes first. -/
def overtakingCompletion : List Label :=
  twoRecorded ++ [.publish 3, .publish 3, .publish 3, .publish 3, .markWorkerIdle 3,
    .publish 2, .markWorkerIdle 2]

theorem not_progressConsistent : (scheduler sampleEnv).Reaches overtakingCompletion
    ((scheduler sampleEnv).after overtakingCompletion) ∧
    EachFrameSucceedsOnce overtakingCompletion ∧
    ¬ ProgressConsistent sampleEnv overtakingCompletion
      ((scheduler sampleEnv).after overtakingCompletion) := by
  refine ⟨.after (by decide), ⟨?_, by decide⟩, fun hall => ?_⟩
  · simp [overtakingCompletion, twoRecorded]
  · have hwrites : writes sampleEnv "r" overtakingCompletion = [2, 1] := by decide
    have hsorted := hall.nondecreasing "r"
    rw [hwrites] at hsorted
    exact absurd hsorted (by decide)

end Pathological
