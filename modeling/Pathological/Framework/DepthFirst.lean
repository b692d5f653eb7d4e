import Mathlib.Algebra.BigOperators.Group.List.Basic
import Pathological.Framework.Fallible
import Pathological.Framework.Forest

/-!
# Depth-first walks

A graph of nodes with ordered lists of children, `children`, may unfold from some
roots to a finite forest (`Unfolds`); the nodes of the forest are then the nodes
reachable from the roots (`Unfolds.mem_preorder_iff`).

`walk` is a recursion over the graph with a state, something handed down from a
node to its children, and a bound on its depth. Where the graph unfolds to a
forest and the bound is not below the number of nodes, the walk is a structural
recursion over the forest (`Unfolds.foldlM_walk`, `Forest.foldM`), with two rules:

* `Forest.foldM_adopt`: a walk that appends every node it visits to a table, and
  enters it in the list of children of its parent, appends `Forest.number`;
* `Forest.foldM_inherit`: a walk that does not fail visits the nodes in preorder,
  each with what it inherits.

Over any graph, a walk keeps what each of its visits keeps (`walk_invariant`), and
visits the nodes in preorder (`walk_descend`).

The other way round, a table that holds `Forest.number` unfolds to the forest of
the numbers (`Forest.number_unfolds`).
-/

namespace Framework

variable {α β σ ε : Type}

/-! ### Graphs that unfold to a forest -/

/-- The nodes reachable from `roots`. -/
inductive ReachableFrom (children : α → Option (List α)) (roots : List α) : α → Prop
  | root {a : α} : a ∈ roots → ReachableFrom children roots a
  | child {a b : α} {l : List α} : ReachableFrom children roots a → children a = some l →
      b ∈ l → ReachableFrom children roots b

/-- From `roots` on, the graph is the forest. -/
inductive Unfolds (children : α → Option (List α)) : List α → Forest α → Prop
  | nil : Unfolds children [] .nil
  | cons {a : α} {l as : List α} {c s : Forest α} : children a = some l → Unfolds children l c →
      Unfolds children as s → Unfolds children (a :: as) (.cons a c s)

section Unfolds

variable {children : α → Option (List α)} {roots : List α} {F : Forest α}

theorem ReachableFrom.of_roots {roots' : List α} {a : α}
    (h : ∀ r ∈ roots, ReachableFrom children roots' r) (ha : ReachableFrom children roots a) :
    ReachableFrom children roots' a := by
  induction ha with
  | root hroot => exact h _ hroot
  | child _ hl hb ih => exact .child ih hl hb

theorem Unfolds.roots_eq (h : Unfolds children roots F) : F.roots = roots := by
  induction h with
  | nil => rfl
  | cons _ _ _ _ ihs => rw [Forest.roots, ihs]

theorem Unfolds.children_eq (h : Unfolds children roots F) {a : α} (ha : a ∈ F.preorder) :
    ∃ l, children a = some l := by
  induction h with
  | nil => cases ha
  | cons hl _ _ ihc ihs =>
    rcases List.mem_cons.mp ha with rfl | hrest
    · exact ⟨_, hl⟩
    · exact (List.mem_append.mp hrest).elim ihc ihs

theorem Unfolds.mem_of_root (h : Unfolds children roots F) {a : α} (ha : a ∈ roots) :
    a ∈ F.preorder := by
  induction h with
  | nil => cases ha
  | cons _ _ _ _ ihs =>
    rcases List.mem_cons.mp ha with rfl | hrest
    · exact List.mem_cons_self
    · exact List.mem_cons_of_mem _ (List.mem_append_right _ (ihs hrest))

theorem Unfolds.mem_of_child (h : Unfolds children roots F) {a b : α} {l : List α}
    (ha : a ∈ F.preorder) (hl : children a = some l) (hb : b ∈ l) : b ∈ F.preorder := by
  induction h with
  | nil => cases ha
  | cons hl' hc _ ihc ihs =>
    refine List.mem_cons_of_mem _ (List.mem_append.mpr ?_)
    rcases List.mem_cons.mp ha with rfl | hrest
    · rw [hl'] at hl
      exact .inl (hc.mem_of_root (Option.some.inj hl ▸ hb))
    · exact (List.mem_append.mp hrest).imp ihc ihs

/-- The forest has the reachable nodes. -/
theorem Unfolds.mem_preorder_iff (h : Unfolds children roots F) {a : α} :
    a ∈ F.preorder ↔ ReachableFrom children roots a := by
  refine ⟨fun ha => ?_, fun ha => ?_⟩
  · induction h with
    | nil => cases ha
    | cons hl _ _ ihc ihs =>
      rcases List.mem_cons.mp ha with rfl | hrest
      · exact .root List.mem_cons_self
      · rcases List.mem_append.mp hrest with hc | hs
        · exact (ihc hc).of_roots fun r hr => .child (.root List.mem_cons_self) hl hr
        · exact (ihs hs).of_roots fun r hr => .root (List.mem_cons_of_mem _ hr)
  · induction ha with
    | root hroot => exact h.mem_of_root hroot
    | child _ hl hb ih => exact h.mem_of_child ih hl hb

/-! ### Leaving out children -/

/-- The graph without the children of the nodes where `stop` holds. -/
def stopAt (stop : α → Bool) (children : α → Option (List α)) (a : α) : Option (List α) :=
  if stop a then (children a).map fun _ => [] else children a

theorem Unfolds.prune (h : Unfolds children roots F) (stop : α → Bool) :
    Unfolds (stopAt stop children) roots (F.prune stop) := by
  induction h with
  | nil => exact .nil
  | @cons a l as c s hl _ _ ihc ihs =>
    rw [Forest.prune]
    split
    · rename_i hstop
      exact .cons (by rw [stopAt, if_pos hstop, hl]; rfl) .nil ihs
    · rename_i hstop
      exact .cons (by rw [stopAt, if_neg hstop, hl]) ihc ihs

/-- Nothing is left out when no node with children stops the walk. -/
theorem Unfolds.prune_eq_self (h : Unfolds children roots F) {stop : α → Bool}
    (hstop : ∀ a ∈ F.preorder, stop a = true → children a = some []) : F.prune stop = F := by
  induction h with
  | nil => rfl
  | @cons a l as c s hl hc _ ihc ihs =>
    have hsiblings : s.prune stop = s := ihs fun b hb =>
      hstop b (List.mem_cons_of_mem _ (List.mem_append_right _ hb))
    rw [Forest.prune, hsiblings]
    split
    · rename_i ha
      rw [hstop a List.mem_cons_self ha] at hl
      cases Option.some.inj hl
      cases hc
      rfl
    · rw [ihc fun b hb => hstop b (List.mem_cons_of_mem _ (List.mem_append_left _ hb))]

/-- When no node is lost, no node with children stops the walk. -/
theorem Unfolds.childless_of_size (h : Unfolds children roots F) {stop : α → Bool}
    (hsize : (F.prune stop).size = F.size) :
    ∀ a ∈ F.preorder, stop a = true → children a = some [] := by
  induction h with
  | nil => exact fun a ha => nomatch ha
  | @cons a l as c s hl hc _ ihc ihs =>
    have hcle := Forest.size_prune_le stop c
    have hsle := Forest.size_prune_le stop s
    rw [Forest.prune, Forest.size, Forest.size] at hsize
    intro b hb hstop
    split at hsize
    · -- the node stops the walk, so that its subtree must be empty
      rw [Forest.size] at hsize
      have hnil : c = .nil := by
        cases c with
        | nil => rfl
        | cons => rw [Forest.size] at hsize; omega
      subst hnil
      cases hc
      rcases List.mem_cons.mp hb with rfl | hrest
      · exact hl
      · exact ihs (by omega) b hrest hstop
    · rename_i hgo
      rcases List.mem_cons.mp hb with rfl | hrest
      · exact absurd hstop hgo
      · rcases List.mem_append.mp hrest with hbc | hbs
        · exact ihc (by omega) b hbc hstop
        · exact ihs (by omega) b hbs hstop

end Unfolds

/-! ### Walks -/

/-- A recursion over the graph. `visit` has what the parent hands down, and says
what the node hands down and which nodes come below it. -/
def walk (tooDeep : ε) (visit : β → α → σ → Except ε (σ × β × List α)) :
    ℕ → β → α → σ → Except ε σ
  | 0, _, _, _ => .error tooDeep
  | depth + 1, x, a, s => do
    let (s, y, below) ← visit x a s
    below.foldlM (fun s b => walk tooDeep visit depth y b s) s

/-- What each visit keeps, a walk keeps. -/
theorem walk_invariant {tooDeep : ε} {visit : β → α → σ → Except ε (σ × β × List α)}
    {P : σ → Prop} (hvisit : ∀ x a s r, P s → visit x a s = .ok r → P r.1) {depth : ℕ} {x : β}
    {a : α} {s s' : σ} (hs : P s) (h : walk tooDeep visit depth x a s = .ok s') : P s' := by
  induction depth generalizing x a s s' with
  | zero => cases h
  | succ depth ih =>
    obtain ⟨r, hr, hbelow⟩ := except_bind_eq_ok.mp h
    exact foldlM_invariant (fun b _ s₁ s₂ hs₁ hstep => ih hs₁ hstep) (hvisit x a s r hs hr) hbelow

/-- The nodes below a node and itself, in preorder, as deep as the bound allows. -/
def descend (children : α → List α) : ℕ → α → List α
  | 0, _ => []
  | depth + 1, a => a :: (children a).flatMap (descend children depth)

/-- A walk visits the nodes in preorder. -/
theorem walk_descend {tooDeep : ε} {visit : β → α → σ → Except ε (σ × β × List α)}
    {children : α → List α} {visited : σ → List α}
    (hvisit : ∀ x a s r, visit x a s = .ok r →
      visited r.1 = visited s ++ [a] ∧ r.2.2 = children a) {depth : ℕ} {x : β} {a : α} {s s' : σ}
    (h : walk tooDeep visit depth x a s = .ok s') :
    visited s' = visited s ++ descend children depth a := by
  induction depth generalizing x a s s' with
  | zero => cases h
  | succ depth ih =>
    obtain ⟨r, hr, hbelow⟩ := except_bind_eq_ok.mp h
    obtain ⟨hvisited, hchildren⟩ := hvisit x a s r hr
    rw [foldlM_appends visited (fun b _ s₁ s₂ hstep => ih hstep) hbelow, hvisited, hchildren,
      descend, List.append_assoc, List.singleton_append]

/-- The recursion over a forest. -/
def Forest.foldM (step : β → α → σ → Except ε (σ × β)) : β → Forest α → σ → Except ε σ
  | _, nil, s => .ok s
  | x, cons a c siblings, s => do
    let (s, y) ← step x a s
    let s ← foldM step y c s
    foldM step x siblings s

/-- Over a graph that unfolds to a forest, a walk is the recursion over the forest. -/
theorem Unfolds.foldlM_walk {children : α → Option (List α)} {roots : List α} {F : Forest α}
    (h : Unfolds children roots F) {visit : β → α → σ → Except ε (σ × β × List α)}
    (hvisit : ∀ x a s r, visit x a s = .ok r → children a = some r.2.2) (tooDeep : ε)
    {depth : ℕ} (hdepth : F.size ≤ depth) (x : β) (s : σ) :
    roots.foldlM (fun s a => walk tooDeep visit depth x a s) s =
      F.foldM (fun x a s => (visit x a s).map fun r => (r.1, r.2.1)) x s := by
  induction h generalizing depth x s with
  | nil => rfl
  | @cons a l as c siblings hl _ _ ihc ihs =>
    rw [Forest.size] at hdepth
    obtain ⟨depth, rfl⟩ : ∃ d, depth = d + 1 := ⟨depth - 1, by omega⟩
    rw [List.foldlM_cons, walk, Forest.foldM]
    cases hv : visit x a s with
    | error e => rfl
    | ok r =>
      have hbelow : r.2.2 = l := Option.some.inj ((hvisit x a s r hv).symm.trans hl)
      show (r.2.2.foldlM (fun s b => walk tooDeep visit depth r.2.1 b s) r.1 >>= _) =
        (c.foldM _ r.2.1 r.1 >>= _)
      rw [hbelow, ihc (by omega)]
      exact bind_congr fun s' => ihs (by omega) x s'

/-- A walk that does not fail visits the nodes in preorder, each with what it
inherits. -/
theorem Forest.foldM_inherit {step : β → α → σ → Except ε (σ × β)} {down : β → α → β}
    {f : σ → β × α → σ} {F : Forest α}
    (hstep : ∀ a ∈ F.preorder, ∀ x s, step x a s = .ok (f s (down x a, a), down x a))
    (x : β) (s : σ) : F.foldM step x s = .ok ((inherit down x F).foldl f s) := by
  induction F generalizing x s with
  | nil => rfl
  | cons a c siblings ihc ihs =>
    rw [foldM, hstep a List.mem_cons_self]
    show (c.foldM step (down x a) (f s (down x a, a)) >>= _) = _
    rw [ihc fun b hb => hstep b (List.mem_cons_of_mem _ (List.mem_append_left _ hb))]
    show siblings.foldM step x _ = _
    rw [ihs fun b hb => hstep b (List.mem_cons_of_mem _ (List.mem_append_right _ hb)), inherit,
      List.foldl_cons, List.foldl_append]

/-- What each visit appends, a fold over the visits appends. -/
theorem foldl_eq_flatMap {γ : Type} {f : σ → α → σ} {out : σ → List γ} {emit : α → List γ}
    (h : ∀ s a, out (f s a) = out s ++ emit a) (l : List α) (s : σ) :
    out (l.foldl f s) = out s ++ l.flatMap emit := by
  induction l generalizing s with
  | nil => exact (List.append_nil _).symm
  | cons a l ih => rw [List.foldl_cons, ih, h, List.flatMap_cons, List.append_assoc]

/-- A walk that appends each node it visits to a table, and enters it in the list
of children of its parent, appends the forest's entries. `Inv` is what else the
visits need and keep. -/
theorem Forest.foldM_adopt {step : Option ℕ → α → σ → Except ε (σ × Option ℕ)}
    {table : σ → List (Entry β)} {Inv : σ → Prop} {label : α → β} {F : Forest α}
    (hstep : ∀ a ∈ F.preorder, ∀ parent s, Inv s → (∀ p ∈ parent, p < (table s).length) →
      ∃ s', step parent a s = .ok (s', some (table s).length) ∧ Inv s' ∧
        table s' = adopt parent [(table s).length] (table s) ++ [⟨label a, parent, []⟩])
    {parent : Option ℕ} {s : σ} (hs : Inv s) (hparent : ∀ p ∈ parent, p < (table s).length) :
    ∃ s', F.foldM step parent s = .ok s' ∧ Inv s' ∧
      table s' = adopt parent (F.rootIds (table s).length) (table s) ++
        (F.map label).number parent (table s).length := by
  induction F generalizing parent s with
  | nil =>
    refine ⟨s, rfl, hs, ?_⟩
    rw [rootIds, adopt_nil, map, number, List.append_nil]
  | cons a c siblings ihc ihs =>
    obtain ⟨s₁, hs₁, hinv₁, ht₁⟩ := hstep a List.mem_cons_self parent s hs hparent
    have hlen₁ : (table s₁).length = (table s).length + 1 := by
      rw [ht₁, List.length_append, length_adopt]
      rfl
    -- the subtree of the node, which is the last of the table
    obtain ⟨s₂, hs₂, hinv₂, ht₂⟩ := ihc
      (fun b hb => hstep b (List.mem_cons_of_mem _ (List.mem_append_left _ hb))) hinv₁
      (fun p (hp : p ∈ some (table s).length) => by cases hp; omega)
    have hlast : adopt (some (table s).length) (c.rootIds ((table s).length + 1)) (table s₁) =
        adopt parent [(table s).length] (table s) ++
          [⟨label a, parent, c.rootIds ((table s).length + 1)⟩] := by
      have hadopt := adopt_last (c.rootIds ((table s).length + 1))
        (adopt parent [(table s).length] (table s)) (label a) parent
      rw [length_adopt] at hadopt
      rw [ht₁, hadopt]
    rw [hlen₁, hlast] at ht₂
    have hlen₂ : (table s₂).length = (table s).length + 1 + c.size := by
      rw [ht₂, List.length_append, List.length_append, length_adopt, length_number, size_map]
      rfl
    -- its later siblings, behind them
    obtain ⟨s₃, hs₃, hinv₃, ht₃⟩ := ihs
      (fun b hb => hstep b (List.mem_cons_of_mem _ (List.mem_append_right _ hb))) hinv₂
      (fun p (hp : p ∈ parent) => Nat.lt_trans (hparent p hp) (by omega))
    refine ⟨s₃, ?_, hinv₃, ?_⟩
    · rw [foldM, hs₁]
      show (c.foldM step (some (table s).length) s₁ >>= _) = _
      rw [hs₂]
      exact hs₃
    · have hadopt (t : List (Entry β)) :
          adopt parent (siblings.rootIds ((table s).length + 1 + c.size))
            (adopt parent [(table s).length] (table s) ++ t) =
          adopt parent ((cons a c siblings).rootIds (table s).length) (table s) ++ t := by
        rw [adopt_append _ _ fun p hp => by rw [length_adopt]; exact hparent p hp, adopt_adopt]
        rfl
      rw [ht₃, hlen₂, ht₂, List.append_assoc, hadopt, List.append_assoc, map, number, size_map,
        rootIds_map]
      rfl

/-! ### Tables -/

/-- A table that holds the entries of a forest unfolds to the forest of the
numbers. -/
theorem Forest.number_unfolds {F : Forest α} {parent : Option ℕ} {n : ℕ} {t : List (Entry α)}
    (h : F.number parent n <+: t.drop n) :
    Unfolds (fun i => t[i]?.map Entry.children) (F.rootIds n) (F.indexed n) := by
  induction F generalizing parent n with
  | nil => exact .nil
  | cons a c s ihc ihs =>
    obtain ⟨hhead, hchildren, hsiblings⟩ := number_split h
    exact .cons (by rw [hhead]; rfl) (ihc hchildren) (ihs hsiblings)

/-- The numbers of the roots are those of the entries without a parent. -/
theorem Forest.filter_root {F : Forest α} {parent : Option ℕ} {n : ℕ} {t : List (Entry α)}
    (h : F.number parent n <+: t.drop n) {isRoot : ℕ → Bool}
    (hroot : ∀ i e, t[i]? = some e → isRoot i = e.parent.isNone) :
    (List.range' n F.size).filter isRoot = if parent.isNone then F.rootIds n else [] := by
  induction F generalizing parent n with
  | nil => rw [rootIds, ite_self]; rfl
  | cons a c s ihc ihs =>
    obtain ⟨hhead, hchildren, hsiblings⟩ := number_split h
    have hn : isRoot n = parent.isNone := hroot n _ hhead
    have hc : (List.range' (n + 1) c.size).filter isRoot = [] := by
      rw [ihc hchildren]
      rfl
    rw [size, Nat.add_assoc 1, Nat.add_comm 1, List.range'_succ, ← List.range'_append_1,
      List.filter_cons, hn, List.filter_append, hc, ihs hsiblings]
    cases parent with
    | none => rfl
    | some p => rfl

section Links

variable {children : α → Option (List α)} {roots : List α} {F : Forest α} {num : α → ℕ}
  {parent : Option ℕ} {n : ℕ} {t : List (Entry α)}

/-- The entries of the roots are those of the table's roots. -/
theorem Unfolds.root_entry (h : Unfolds children roots F) (hnum : F.map num = F.indexed n)
    (ht : F.number parent n <+: t.drop n) {a : α} (ha : a ∈ roots) :
    ∃ e, t[num a]? = some e ∧ e.parent = parent := by
  induction h generalizing n with
  | nil => cases ha
  | @cons b l as c s _ _ _ _ ihs =>
    obtain ⟨hhead, -, hsiblings⟩ := Forest.number_split ht
    obtain ⟨hb, -, hs⟩ := Forest.cons.inj hnum
    rcases List.mem_cons.mp ha with rfl | hrest
    · exact ⟨_, hb ▸ hhead, rfl⟩
    · exact ihs hs hsiblings hrest

/-- The entry of a node links it to its children, and theirs link them to it. -/
theorem Unfolds.entry (h : Unfolds children roots F) (hnum : F.map num = F.indexed n)
    (ht : F.number parent n <+: t.drop n) {a : α} (ha : a ∈ F.preorder) :
    ∃ e l, t[num a]? = some e ∧ e.label = a ∧ children a = some l ∧ e.children = l.map num ∧
      ∀ b ∈ l, ∃ e', t[num b]? = some e' ∧ e'.parent = some (num a) := by
  induction h generalizing n parent with
  | nil => cases ha
  | @cons b l as c s hl hc _ ihc ihs =>
    obtain ⟨hhead, hchildren, hsiblings⟩ := Forest.number_split ht
    obtain ⟨hb, hcnum, hsnum⟩ := Forest.cons.inj hnum
    rcases List.mem_cons.mp ha with rfl | hrest
    · subst hb
      refine ⟨_, l, hhead, rfl, hl, ?_, fun d hd => hc.root_entry hcnum hchildren hd⟩
      show c.rootIds (num a + 1) = _
      rw [← Forest.roots_indexed, ← hcnum, Forest.roots_map, hc.roots_eq]
    · rcases List.mem_append.mp hrest with hac | has
      · exact ihc hcnum hchildren hac
      · exact ihs hsnum hsiblings has

end Links

/-! ### Paths -/

/-- The nodes from a root down to `i`, `i` the last of them. -/
inductive RootPath (parent : ℕ → Option (Option ℕ)) : ℕ → List ℕ → Prop
  | root {i : ℕ} : parent i = some none → RootPath parent i [i]
  | child {i p : ℕ} {l : List ℕ} : parent i = some (some p) → RootPath parent p l →
      RootPath parent i (l ++ [i])

/-- What the children of `i` have from it: the product along its path. A root has
the empty product. -/
def PathProduct [Monoid β] (parent : ℕ → Option (Option ℕ)) (factor : ℕ → β) :
    Option ℕ → β → Prop
  | none, x => x = 1
  | some i, x => ∃ l, RootPath parent i l ∧ x = (l.map factor).prod

/-- Where the nodes inherit products, each inherits the product along its path. -/
theorem Forest.inherit_prod [Monoid β] {F : Forest α} {parent : Option ℕ} {n : ℕ}
    {t : List (Entry α)} {factor : ℕ → β} {x : β} (h : F.number parent n <+: t.drop n)
    (hx : PathProduct (fun i => t[i]?.map Entry.parent) factor parent x) :
    ∀ e ∈ inherit (fun y i => y * factor i) x (F.indexed n),
      PathProduct (fun i => t[i]?.map Entry.parent) factor (some e.2) e.1 := by
  induction F generalizing parent n x with
  | nil => exact fun e he => nomatch he
  | cons a c s ihc ihs =>
    obtain ⟨hhead, hchildren, hsiblings⟩ := number_split h
    have hself : PathProduct (fun i => t[i]?.map Entry.parent) factor (some n)
        (x * factor n) := by
      cases parent with
      | none =>
        refine ⟨[n], .root (by rw [hhead]; rfl), ?_⟩
        rw [show x = 1 from hx, List.map_singleton, List.prod_singleton, one_mul]
      | some p =>
        obtain ⟨l, hl, hprod⟩ := hx
        refine ⟨l ++ [n], .child (by rw [hhead]; rfl) hl, ?_⟩
        rw [hprod, List.map_append, List.prod_append, List.map_singleton, List.prod_singleton]
    intro e he
    rcases List.mem_cons.mp he with rfl | hrest
    · exact hself
    · rcases List.mem_append.mp hrest with hec | hes
      · exact ihc hchildren hself e hec
      · exact ihs hsiblings hx e hes

end Framework
