import Mathlib.Data.Set.Card
import Mathlib.Logic.Relation
import Pathological.Framework.DepthFirst

/-!
# Depth-first walks over any graph

A graph need not unfold to a forest, and a walk may fault at a node. The walk
comes to the nodes with nothing but finite parts of the unfolded graph before them
(`Comes`).

* It faults exactly when it comes to a node it faults at (`Visits.faults_iff`).
* It ends without a fault exactly when it comes to no such node and the graph
  unfolds to a forest (`Visits.ends_iff`).
* A graph with finitely many nodes unfolds to a forest exactly when the walk
  comes to no node that is missing and no reachable node is below itself
  (`exists_unfolds_iff`).
-/

namespace Framework

variable {α β σ ε : Type}

/-! ### Finite parts of a graph -/

section Graph

variable {children : α → Option (List α)} {roots as bs l : List α} {a b : α}

theorem exists_unfolds_cons : (∃ F, Unfolds children (a :: as) F) ↔
    (∃ l, children a = some l ∧ ∃ F, Unfolds children l F) ∧ ∃ F, Unfolds children as F := by
  constructor
  · rintro ⟨_, _ | ⟨hl, hc, hs⟩⟩
    exact ⟨⟨_, hl, _, hc⟩, _, hs⟩
  · rintro ⟨⟨l, hl, c, hc⟩, s, hs⟩
    exact ⟨_, .cons hl hc hs⟩

theorem exists_unfolds_append : (∃ F, Unfolds children (as ++ bs) F) ↔
    (∃ F, Unfolds children as F) ∧ ∃ F, Unfolds children bs F := by
  induction as with
  | nil => exact ⟨fun h => ⟨⟨_, .nil⟩, h⟩, And.right⟩
  | cons a as ih =>
    rw [List.cons_append, exists_unfolds_cons, exists_unfolds_cons, ih, and_assoc]

/-- A walk from `roots` comes to the node: what comes before it is finite. -/
inductive Comes (children : α → Option (List α)) (roots : List α) : α → Prop
  | root {a : α} (before after : List α) : roots = before ++ a :: after →
      (∃ F, Unfolds children before F) → Comes children roots a
  | child {a b : α} (before after : List α) : Comes children roots a →
      children a = some (before ++ b :: after) → (∃ F, Unfolds children before F) →
      Comes children roots b

theorem Comes.reachable (h : Comes children roots a) : ReachableFrom children roots a := by
  induction h with
  | root _ _ hroots _ => exact .root (hroots ▸ List.mem_append_right _ List.mem_cons_self)
  | child _ _ _ hl _ ih => exact .child ih hl (List.mem_append_right _ List.mem_cons_self)

theorem Comes.head : Comes children (a :: as) a := .root [] as rfl ⟨_, .nil⟩

theorem Comes.append (h : Comes children as b) (bs : List α) : Comes children (as ++ bs) b := by
  induction h with
  | root before after hroots hbefore =>
    exact .root before (after ++ bs) (by rw [hroots, List.append_assoc]; rfl) hbefore
  | child before after _ hl hbefore ih => exact .child before after ih hl hbefore

/-- What a walk comes to below the first of the roots. -/
theorem Comes.of_children (hl : children a = some l) (h : Comes children l b) :
    Comes children (a :: as) b := by
  induction h with
  | root before after hroots hbefore => exact .child before after .head (hroots ▸ hl) hbefore
  | child before after _ hl hbefore ih => exact .child before after ih hl hbefore

/-- What a walk comes to after the first of the roots. -/
theorem Comes.of_siblings (ha : ∃ F, Unfolds children [a] F) (h : Comes children as b) :
    Comes children (a :: as) b := by
  induction h with
  | root before after hroots hbefore =>
    refine .root (a :: before) after (by rw [hroots]; rfl) ?_
    exact exists_unfolds_append.mpr ⟨ha, hbefore⟩
  | child before after _ hl hbefore ih => exact .child before after ih hl hbefore

/-! ### Cycles -/

/-- `b` is a child of `a`. -/
def IsChild (children : α → Option (List α)) (a b : α) : Prop := ∃ l, children a = some l ∧ b ∈ l

theorem ReachableFrom.isChild (h : ReachableFrom children roots a)
    (hb : IsChild children a b) : ReachableFrom children roots b := by
  obtain ⟨l, hl, hb⟩ := hb
  exact .child h hl hb

/-- Nothing goes on for ever below the roots of a forest. -/
theorem Unfolds.acc {F : Forest α} (h : Unfolds children roots F) :
    ∀ a ∈ roots, Acc (fun b a => IsChild children a b) a := by
  induction h with
  | nil => exact fun a ha => nomatch ha
  | cons hl _ _ ihc ihs =>
    intro b hb
    rcases List.mem_cons.mp hb with rfl | hb
    · refine ⟨_, fun c hc => ?_⟩
      obtain ⟨l', hl', hc⟩ := hc
      obtain rfl := Option.some.inj (hl.symm.trans hl')
      exact ihc c hc
    · exact ihs b hb

theorem Unfolds.acc_of_reachable {F : Forest α} (h : Unfolds children roots F)
    (ha : ReachableFrom children roots a) : Acc (fun b a => IsChild children a b) a := by
  induction ha with
  | root hroot => exact h.acc _ hroot
  | child _ hl hb ih => exact ih.inv ⟨_, hl, hb⟩

/-- Where nothing goes on for ever, no node is below itself. -/
theorem not_transGen_of_acc (h : Acc (fun b a => IsChild children a b) a) :
    ¬ Relation.TransGen (IsChild children) a a := by
  rw [← Relation.transGen_swap]
  have hacc : Acc (Relation.TransGen fun b a => IsChild children a b) a := h.transGen
  induction hacc with
  | intro a _ ih => exact fun hcycle => ih a hcycle (h.inv_of_transGen hcycle) hcycle

/-- The nodes below `a`. -/
def descendants (children : α → Option (List α)) (a : α) : Set α :=
  {b | Relation.TransGen (IsChild children) a b ∧ children b ≠ none}

/-- Among finitely many nodes, nothing goes on for ever below one from which no node
is below itself: a child has fewer nodes below it. -/
theorem acc_of_acyclic (hfinite : {a | children a ≠ none}.Finite)
    (hacyclic : ∀ b, ReachableFrom children roots b →
      ¬ Relation.TransGen (IsChild children) b b) (ha : ReachableFrom children roots a) :
    Acc (fun b a => IsChild children a b) a := by
  generalize hn : (descendants children a).ncard = n
  induction n using Nat.strong_induction_on generalizing a with
  | _ n ih =>
    subst hn
    refine ⟨_, fun b hb => ?_⟩
    have hreach : ReachableFrom children roots b := ha.isChild hb
    by_cases hnone : children b = none
    · -- nothing is below a missing node
      refine ⟨_, fun c hc => ?_⟩
      obtain ⟨l, hl, -⟩ := hc
      rw [hnone] at hl
      cases hl
    · have hsubset : descendants children b ⊆ descendants children a :=
        fun c hc => ⟨.head hb hc.1, hc.2⟩
      have hstrict : descendants children b ⊂ descendants children a :=
        (Set.ssubset_iff_of_subset hsubset).mpr
          ⟨b, ⟨.single hb, hnone⟩, fun hcycle => hacyclic b hreach hcycle.1⟩
      exact ih _ (Set.ncard_lt_ncard hstrict (hfinite.subset fun c hc => hc.2)) hreach rfl

/-- The roots unfold to a forest, or the walk comes to a missing node, if this is so
root by root. -/
theorem exists_unfolds_or_comes (h : ∀ a ∈ as, (∃ F, Unfolds children [a] F) ∨
      ∃ b, Comes children [a] b ∧ children b = none) :
    (∃ F, Unfolds children as F) ∨ ∃ b, Comes children as b ∧ children b = none := by
  induction as with
  | nil => exact .inl ⟨_, .nil⟩
  | cons a as ih =>
    rcases h a List.mem_cons_self with ha | ⟨b, hb, hnone⟩
    · rcases ih fun b hb => h b (List.mem_cons_of_mem a hb) with has | ⟨b, hb, hnone⟩
      · exact .inl (exists_unfolds_append.mpr ⟨ha, has⟩)
      · exact .inr ⟨b, hb.of_siblings ha, hnone⟩
    · exact .inr ⟨b, hb.append as, hnone⟩

theorem exists_unfolds_or_comes_of_acc (h : Acc (fun b a => IsChild children a b) a) :
    (∃ F, Unfolds children [a] F) ∨ ∃ b, Comes children [a] b ∧ children b = none := by
  induction h with
  | intro a _ ih =>
    cases hl : children a with
    | none => exact .inr ⟨a, .head, hl⟩
    | some l =>
      rcases exists_unfolds_or_comes fun b hb => ih b ⟨l, hl, hb⟩ with hbelow | ⟨b, hb, hnone⟩
      · exact .inl (exists_unfolds_cons.mpr ⟨⟨l, hl, hbelow⟩, _, .nil⟩)
      · exact .inr ⟨b, hb.of_children hl, hnone⟩

/-- **A graph with finitely many nodes unfolds to a forest exactly when the walk comes
to no missing node, and no reachable node is below itself.** -/
theorem exists_unfolds_iff (hfinite : {a | children a ≠ none}.Finite) :
    (∃ F, Unfolds children roots F) ↔ (∀ a, Comes children roots a → children a ≠ none) ∧
      ∀ a, ReachableFrom children roots a → ¬ Relation.TransGen (IsChild children) a a := by
  constructor
  · rintro ⟨F, hF⟩
    refine ⟨fun a ha => ?_, fun a ha => ?_⟩
    · obtain ⟨l, hl⟩ := hF.children_eq (hF.mem_preorder_iff.mpr ha.reachable)
      rw [hl]
      exact Option.some_ne_none l
    · exact not_transGen_of_acc (hF.acc_of_reachable ha)
  · rintro ⟨hpresent, hacyclic⟩
    have hroots := exists_unfolds_or_comes fun a (ha : a ∈ roots) =>
      exists_unfolds_or_comes_of_acc (acc_of_acyclic hfinite hacyclic (.root ha))
    exact hroots.resolve_right fun ⟨b, hb, hnone⟩ => hpresent b hb hnone

end Graph

/-! ### Walks -/

/-- The walk from each of the roots. -/
def walkAll (tooDeep : ε) (visit : β → α → σ → Except ε (σ × β × List α)) (depth : ℕ) (x : β)
    (roots : List α) (s : σ) : Except ε σ :=
  roots.foldlM (fun s a => walk tooDeep visit depth x a s) s

theorem walkAll_cons (tooDeep : ε) (visit : β → α → σ → Except ε (σ × β × List α)) (depth : ℕ)
    (x : β) (a : α) (as : List α) (s : σ) :
    walkAll tooDeep visit (depth + 1) x (a :: as) s =
      (visit x a s >>= fun r => walkAll tooDeep visit depth r.2.1 r.2.2 r.1) >>= fun s' =>
        walkAll tooDeep visit (depth + 1) x as s' := rfl

theorem walkAll_of_visit {tooDeep : ε} {visit : β → α → σ → Except ε (σ × β × List α)} {x y : β}
    {a : α} {s s₁ : σ} {l : List α} (h : visit x a s = .ok (s₁, y, l)) (depth : ℕ)
    (as : List α) : walkAll tooDeep visit (depth + 1) x (a :: as) s =
      walkAll tooDeep visit depth y l s₁ >>= fun s' =>
        walkAll tooDeep visit (depth + 1) x as s' := by
  rw [walkAll_cons, h]
  rfl

theorem walkAll_append (tooDeep : ε) (visit : β → α → σ → Except ε (σ × β × List α)) (depth : ℕ)
    (x : β) (as bs : List α) (s : σ) :
    walkAll tooDeep visit depth x (as ++ bs) s =
      walkAll tooDeep visit depth x as s >>= fun s' => walkAll tooDeep visit depth x bs s' :=
  List.foldlM_append

/-- A visit goes on to the children of a good node, and faults at any other. `Inv` is
what it needs of the state and of what is handed down. -/
structure Visits (visit : β → α → σ → Except ε (σ × β × List α))
    (children : α → Option (List α)) (good : α → Prop) (fault : ε) (Inv : σ → β → Prop) :
    Prop where
  proceeds : ∀ {s x a}, Inv s x → good a → ∃ s' y l, visit x a s = .ok (s', y, l) ∧
    children a = some l ∧ Inv s' y ∧ ∀ x', Inv s x' → Inv s' x'
  faults : ∀ {s x a}, Inv s x → ¬ good a → visit x a s = .error fault

section Walk

variable {visit : β → α → σ → Except ε (σ × β × List α)} {children : α → Option (List α)}
  {good : α → Prop} {fault tooDeep : ε} {Inv : σ → β → Prop} {depth : ℕ} {x : β} {s : σ}
  {roots as bs l : List α} {a : α}

/-- How a walk ends: at the end of a forest of good nodes, at a node that is not good,
or too deep. -/
theorem Visits.walkAll_cases (hv : Visits visit children good fault Inv) (tooDeep : ε)
    (depth : ℕ) (roots : List α) (hs : Inv s x) :
    (∃ s', walkAll tooDeep visit depth x roots s = .ok s' ∧ (∀ x', Inv s x' → Inv s' x') ∧
      ∃ F, Unfolds children roots F ∧ ∀ a ∈ F.preorder, good a) ∨
    (walkAll tooDeep visit depth x roots s = .error fault ∧
      ∃ a, Comes children roots a ∧ ¬ good a) ∨
    walkAll tooDeep visit depth x roots s = .error tooDeep := by
  induction depth generalizing x s roots with
  | zero =>
    cases roots with
    | nil => exact .inl ⟨s, rfl, fun _ h => h, _, .nil, fun a ha => nomatch ha⟩
    | cons a as => exact .inr (.inr rfl)
  | succ depth ihd =>
    induction roots generalizing s with
    | nil => exact .inl ⟨s, rfl, fun _ h => h, _, .nil, fun a ha => nomatch ha⟩
    | cons a as ihs =>
      by_cases ha : good a
      · obtain ⟨s₁, y, l, hvisit, hl, hs₁, hkeep₁⟩ := hv.proceeds hs ha
        rw [walkAll_of_visit hvisit]
        rcases ihd l hs₁ with
          ⟨s₂, hbelow, hkeep₂, c, hc, hgood⟩ | ⟨hbelow, b, hb, hbad⟩ | hbelow
        · have hkeep : ∀ x', Inv s x' → Inv s₂ x' := fun x' hx' => hkeep₂ x' (hkeep₁ x' hx')
          rw [hbelow]
          rcases ihs (hkeep x hs) with
            ⟨s₃, hrest, hkeep₃, siblings, hsiblings, hgood'⟩ | ⟨hrest, b, hb, hbad⟩ | hrest
          · refine .inl ⟨s₃, hrest, fun x' hx' => hkeep₃ x' (hkeep x' hx'), _,
              .cons hl hc hsiblings, fun b hb => ?_⟩
            rcases List.mem_cons.mp hb with rfl | hb
            · exact ha
            · exact (List.mem_append.mp hb).elim (hgood b) (hgood' b)
          · exact .inr (.inl ⟨hrest, b, hb.of_siblings ⟨_, .cons hl hc .nil⟩, hbad⟩)
          · exact .inr (.inr hrest)
        · rw [hbelow]
          exact .inr (.inl ⟨rfl, b, hb.of_children hl, hbad⟩)
        · rw [hbelow]
          exact .inr (.inr rfl)
      · rw [walkAll_cons, hv.faults hs ha]
        exact .inr (.inl ⟨rfl, a, .head, ha⟩)

/-- A walk over a forest does not go too deep. -/
theorem Visits.walkAll_of_unfolds (hv : Visits visit children good fault Inv) (tooDeep : ε)
    {F : Forest α} (hF : Unfolds children roots F) (hdepth : F.size ≤ depth) (hs : Inv s x) :
    (∃ s', walkAll tooDeep visit depth x roots s = .ok s' ∧ ∀ x', Inv s x' → Inv s' x') ∨
      walkAll tooDeep visit depth x roots s = .error fault := by
  induction hF generalizing depth x s with
  | nil => exact .inl ⟨s, rfl, fun _ h => h⟩
  | @cons a l as c siblings hl _ _ ihc ihs =>
    rw [Forest.size] at hdepth
    obtain ⟨depth, rfl⟩ : ∃ d, depth = d + 1 := ⟨depth - 1, by omega⟩
    by_cases ha : good a
    · obtain ⟨s₁, y, l', hvisit, hl', hs₁, hkeep₁⟩ := hv.proceeds hs ha
      obtain rfl := Option.some.inj (hl.symm.trans hl')
      rw [walkAll_of_visit hvisit]
      rcases ihc (show c.size ≤ depth by omega) hs₁ with ⟨s₂, hbelow, hkeep₂⟩ | hbelow
      · have hkeep : ∀ x', Inv s x' → Inv s₂ x' := fun x' hx' => hkeep₂ x' (hkeep₁ x' hx')
        rw [hbelow]
        rcases ihs (show siblings.size ≤ depth + 1 by omega) (hkeep x hs) with
          ⟨s₃, hrest, hkeep₃⟩ | hrest
        · exact .inl ⟨s₃, hrest, fun x' hx' => hkeep₃ x' (hkeep x' hx')⟩
        · exact .inr hrest
      · rw [hbelow]
        exact .inr rfl
    · rw [walkAll_cons, hv.faults hs ha]
      exact .inr rfl

/-- From these roots every walk that is deep enough faults. -/
def FaultsFrom (visit : β → α → σ → Except ε (σ × β × List α)) (fault tooDeep : ε)
    (Inv : σ → β → Prop) (roots : List α) : Prop :=
  ∃ d, ∀ depth ≥ d, ∀ x s, Inv s x → walkAll tooDeep visit depth x roots s = .error fault

theorem FaultsFrom.append (h : FaultsFrom visit fault tooDeep Inv as) (bs : List α) :
    FaultsFrom visit fault tooDeep Inv (as ++ bs) := by
  obtain ⟨d, h⟩ := h
  refine ⟨d, fun depth hd x s hs => ?_⟩
  rw [walkAll_append, h depth hd x s hs]
  rfl

theorem Visits.faultsFrom_of_siblings (hv : Visits visit children good fault Inv) {F : Forest α}
    (hF : Unfolds children as F) (h : FaultsFrom visit fault tooDeep Inv bs) :
    FaultsFrom visit fault tooDeep Inv (as ++ bs) := by
  obtain ⟨d, h⟩ := h
  refine ⟨max d F.size, fun depth hd x s hs => ?_⟩
  rw [walkAll_append]
  rcases hv.walkAll_of_unfolds tooDeep hF (le_of_max_le_right hd) hs with
    ⟨s', hbefore, hkeep⟩ | hbefore
  · rw [hbefore]
    exact h depth (le_of_max_le_left hd) x s' (hkeep x hs)
  · rw [hbefore]
    rfl

theorem Visits.faultsFrom_of_children (hv : Visits visit children good fault Inv)
    (hl : children a = some l) (h : FaultsFrom visit fault tooDeep Inv l) :
    FaultsFrom visit fault tooDeep Inv [a] := by
  obtain ⟨d, h⟩ := h
  refine ⟨d + 1, fun depth hd x s hs => ?_⟩
  obtain ⟨depth, rfl⟩ : ∃ e, depth = e + 1 := ⟨depth - 1, by omega⟩
  by_cases ha : good a
  · obtain ⟨s₁, y, l', hvisit, hl', hs₁, -⟩ := hv.proceeds hs ha
    obtain rfl := Option.some.inj (hl.symm.trans hl')
    rw [walkAll_of_visit hvisit, h depth (by omega) y s₁ hs₁]
    rfl
  · rw [walkAll_cons, hv.faults hs ha]
    rfl

theorem Visits.faultsFrom_of_not_good (hv : Visits visit children good fault Inv) (tooDeep : ε)
    (ha : ¬ good a) : FaultsFrom visit fault tooDeep Inv [a] := by
  refine ⟨1, fun depth hd x s hs => ?_⟩
  obtain ⟨depth, rfl⟩ : ∃ e, depth = e + 1 := ⟨depth - 1, by omega⟩
  rw [walkAll_cons, hv.faults hs ha]
  rfl

theorem Visits.faultsFrom_of_comes (hv : Visits visit children good fault Inv)
    (hcomes : Comes children roots a) (h : FaultsFrom visit fault tooDeep Inv [a]) :
    FaultsFrom visit fault tooDeep Inv roots := by
  induction hcomes with
  | root before after hroots hbefore =>
    obtain ⟨F, hF⟩ := hbefore
    rw [hroots]
    exact hv.faultsFrom_of_siblings hF (h.append after)
  | child before after _ hl hbefore ih =>
    obtain ⟨F, hF⟩ := hbefore
    exact ih (hv.faultsFrom_of_children hl (hv.faultsFrom_of_siblings hF (h.append after)))

/-- **A walk faults exactly when it comes to a node it faults at.** -/
theorem Visits.faults_iff (hv : Visits visit children good fault Inv) (hne : fault ≠ tooDeep)
    (hs : Inv s x) : (∃ depth, walkAll tooDeep visit depth x roots s = .error fault) ↔
      ∃ a, Comes children roots a ∧ ¬ good a := by
  constructor
  · rintro ⟨depth, hfault⟩
    rcases hv.walkAll_cases tooDeep depth roots hs with
      ⟨s', hok, -⟩ | ⟨-, hcomes⟩ | hdeep
    · rw [hfault] at hok
      cases hok
    · exact hcomes
    · rw [hfault] at hdeep
      exact absurd (Except.error.inj hdeep) hne
  · rintro ⟨a, hcomes, ha⟩
    obtain ⟨d, hd⟩ := hv.faultsFrom_of_comes hcomes
      (hv.faultsFrom_of_not_good tooDeep ha)
    exact ⟨d, hd d (le_refl d) x s hs⟩

/-- **A walk ends without a fault exactly when it comes to no node it faults at, and
the graph unfolds to a forest.** -/
theorem Visits.ends_iff (hv : Visits visit children good fault Inv) (hne : fault ≠ tooDeep)
    (hs : Inv s x) : (∃ depth s', walkAll tooDeep visit depth x roots s = .ok s') ↔
      (∀ a, Comes children roots a → good a) ∧ ∃ F, Unfolds children roots F := by
  constructor
  · rintro ⟨depth, s', hok⟩
    rcases hv.walkAll_cases tooDeep depth roots hs with
      ⟨-, -, -, F, hF, hgood⟩ | ⟨hfault, -⟩ | hdeep
    · exact ⟨fun a ha => hgood a (hF.mem_preorder_iff.mpr ha.reachable), F, hF⟩
    · rw [hfault] at hok
      cases hok
    · rw [hdeep] at hok
      cases hok
  · rintro ⟨hgood, F, hF⟩
    rcases hv.walkAll_of_unfolds tooDeep hF (le_refl F.size) hs with
      ⟨s', hok, -⟩ | hfault
    · exact ⟨F.size, s', hok⟩
    · obtain ⟨a, hcomes, ha⟩ := (hv.faults_iff hne hs).mp ⟨F.size, hfault⟩
      exact absurd (hgood a hcomes) ha

end Walk

end Framework
