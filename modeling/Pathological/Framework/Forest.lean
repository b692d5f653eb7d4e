import Mathlib.Data.List.Basic

/-!
# Forests and their node tables

A finite ordered forest, in first-child and next-sibling form, so that a loop
over the children of a node and the recursion into each of them are one
structural induction.

A program that builds a forest depth first, each node appended to a table when
it is met, numbers the nodes in preorder. `Forest.number` is the table it ends
up with: each entry has its label, the number of its parent and the numbers of
its children. The rules are

* `adopt_append`, `adopt_last`: how the table changes when a node is entered in
  its parent's list of children as it is created;
* `Forest.number_split`: where the entries of a subtree stand in the table;
* `Forest.inherit_indexed`: what each node inherits from its ancestors, read off
  the table;
* `Forest.size_prune_le`: leaving out the children of some nodes loses nodes.
-/

namespace Framework

/-- A finite ordered forest. -/
inductive Forest (α : Type) where
  | nil
  | cons (label : α) (children siblings : Forest α)
  deriving DecidableEq, Repr

/-- An entry of a node table. -/
structure Entry (α : Type) where
  label : α
  parent : Option ℕ
  children : List ℕ
  deriving DecidableEq, Repr

namespace Forest

variable {α β : Type}

/-- The number of nodes. -/
def size : Forest α → ℕ
  | nil => 0
  | cons _ c s => 1 + c.size + s.size

/-- The labels, in preorder. -/
def preorder : Forest α → List α
  | nil => []
  | cons a c s => a :: (c.preorder ++ s.preorder)

/-- The labels of the roots. -/
def roots : Forest α → List α
  | nil => []
  | cons a _ s => a :: s.roots

def map (f : α → β) : Forest α → Forest β
  | nil => nil
  | cons a c s => cons (f a) (c.map f) (s.map f)

/-- The numbers of the roots, when the nodes are numbered in preorder from `n` on. -/
def rootIds : Forest α → ℕ → List ℕ
  | nil, _ => []
  | cons _ c s, n => n :: s.rootIds (n + 1 + c.size)

/-- The node table of the forest, numbered in preorder from `n` on, its roots
under `parent`. -/
def number : Forest α → Option ℕ → ℕ → List (Entry α)
  | nil, _, _ => []
  | cons a c s, parent, n =>
    ⟨a, parent, c.rootIds (n + 1)⟩ ::
      (c.number (some n) (n + 1) ++ s.number parent (n + 1 + c.size))

/-- Relabel the nodes, which are numbered in preorder from `n` on, by their numbers. -/
def relabel (f : ℕ → α → β) : Forest α → ℕ → Forest β
  | nil, _ => nil
  | cons a c s, n => cons (f n a) (c.relabel f (n + 1)) (s.relabel f (n + 1 + c.size))

/-- The forest of the numbers themselves. -/
def indexed : Forest α → ℕ → Forest ℕ
  | nil, _ => nil
  | cons _ c s, n => cons n (c.indexed (n + 1)) (s.indexed (n + 1 + c.size))

/-- Leave out the children of the nodes where `stop` holds. -/
def prune (stop : α → Bool) : Forest α → Forest α
  | nil => nil
  | cons a c s => cons a (if stop a then nil else c.prune stop) (s.prune stop)

/-- What each node inherits, in preorder: `down` makes what a node passes on out
of what it has from its parent. -/
def inherit (down : β → α → β) : β → Forest α → List (β × α)
  | _, nil => []
  | x, cons a c s => (down x a, a) :: (inherit down (down x a) c ++ inherit down x s)

section Equations

variable {a : α} {c s : Forest α}

theorem size_nil : (nil : Forest α).size = 0 := rfl

theorem size_cons : (cons a c s).size = 1 + c.size + s.size := rfl

theorem preorder_cons : (cons a c s).preorder = a :: (c.preorder ++ s.preorder) := rfl

theorem roots_cons : (cons a c s).roots = a :: s.roots := rfl

theorem map_cons (f : α → β) : (cons a c s).map f = cons (f a) (c.map f) (s.map f) := rfl

theorem rootIds_cons (n : ℕ) : (cons a c s).rootIds n = n :: s.rootIds (n + 1 + c.size) := rfl

theorem number_cons (parent : Option ℕ) (n : ℕ) : (cons a c s).number parent n =
    ⟨a, parent, c.rootIds (n + 1)⟩ ::
      (c.number (some n) (n + 1) ++ s.number parent (n + 1 + c.size)) := rfl

theorem relabel_cons (f : ℕ → α → β) (n : ℕ) : (cons a c s).relabel f n =
    cons (f n a) (c.relabel f (n + 1)) (s.relabel f (n + 1 + c.size)) := rfl

theorem indexed_cons (n : ℕ) : (cons a c s).indexed n =
    cons n (c.indexed (n + 1)) (s.indexed (n + 1 + c.size)) := rfl

theorem prune_cons (stop : α → Bool) : (cons a c s).prune stop =
    cons a (if stop a then nil else c.prune stop) (s.prune stop) := rfl

theorem inherit_cons (down : β → α → β) (x : β) : inherit down x (cons a c s) =
    (down x a, a) :: (inherit down (down x a) c ++ inherit down x s) := rfl

end Equations

@[simp] theorem length_preorder (F : Forest α) : F.preorder.length = F.size := by
  induction F with
  | nil => rfl
  | cons a c s ihc ihs =>
    rw [preorder_cons, size_cons, List.length_cons, List.length_append, ihc, ihs]
    omega

@[simp] theorem length_number (F : Forest α) (parent : Option ℕ) (n : ℕ) :
    (F.number parent n).length = F.size := by
  induction F generalizing parent n with
  | nil => rfl
  | cons a c s ihc ihs =>
    rw [number_cons, size_cons, List.length_cons, List.length_append, ihc, ihs]
    omega

theorem size_map (f : α → β) (F : Forest α) : (F.map f).size = F.size := by
  induction F with
  | nil => rfl
  | cons a c s ihc ihs => rw [map_cons, size_cons, size_cons, ihc, ihs]

theorem rootIds_map (f : α → β) (F : Forest α) (n : ℕ) : (F.map f).rootIds n = F.rootIds n := by
  induction F generalizing n with
  | nil => rfl
  | cons a c s _ ihs => rw [map_cons, rootIds_cons, rootIds_cons, ihs, size_map]

theorem roots_map (f : α → β) (F : Forest α) : (F.map f).roots = F.roots.map f := by
  induction F with
  | nil => rfl
  | cons a c s _ ihs => rw [map_cons, roots_cons, roots_cons, ihs, List.map_cons]

/-- Relabelling commutes with numbering. -/
theorem number_map (f : α → β) (F : Forest α) (parent : Option ℕ) (n : ℕ) :
    (F.map f).number parent n =
      (F.number parent n).map fun e => ⟨f e.label, e.parent, e.children⟩ := by
  induction F generalizing parent n with
  | nil => rfl
  | cons a c s ihc ihs =>
    rw [map_cons, number_cons, number_cons, List.map_cons, List.map_append, ihc, ihs, rootIds_map,
      size_map]

theorem size_relabel (f : ℕ → α → β) (F : Forest α) (n : ℕ) : (F.relabel f n).size = F.size := by
  induction F generalizing n with
  | nil => rfl
  | cons a c s ihc ihs => rw [relabel_cons, size_cons, size_cons, ihc, ihs]

theorem rootIds_relabel (f : ℕ → α → β) (F : Forest α) (m n : ℕ) :
    (F.relabel f m).rootIds n = F.rootIds n := by
  induction F generalizing m n with
  | nil => rfl
  | cons a c s _ ihs => rw [relabel_cons, rootIds_cons, rootIds_cons, ihs, size_relabel]

/-- Relabelling by the numbers changes the label of each entry by its place. -/
theorem number_relabel (f : ℕ → α → β) (F : Forest α) (parent : Option ℕ) (n : ℕ) :
    (F.relabel f n).number parent n =
      (F.number parent n).mapIdx fun i e => ⟨f (n + i) e.label, e.parent, e.children⟩ := by
  induction F generalizing parent n with
  | nil => rfl
  | cons a c s ihc ihs =>
    rw [relabel_cons, number_cons, number_cons, List.mapIdx_cons, List.mapIdx_append, ihc,
      size_relabel, ihs, rootIds_relabel, length_number]
    -- behind the node come its subtree's entries, then its siblings'
    congr 2
    · simp only [Nat.add_assoc, Nat.add_comm 1]
    · simp only [Nat.add_assoc, Nat.add_comm, Nat.add_left_comm]

/-- The second components of what is inherited are the labels in preorder. -/
theorem map_snd_inherit (down : β → α → β) (x : β) (F : Forest α) :
    (inherit down x F).map Prod.snd = F.preorder := by
  induction F generalizing x with
  | nil => rfl
  | cons a c s ihc ihs => rw [inherit_cons, preorder_cons, List.map_cons, List.map_append, ihc, ihs]

/-! ### The forest of the numbers -/

@[simp] theorem size_indexed (F : Forest α) (n : ℕ) : (F.indexed n).size = F.size := by
  induction F generalizing n with
  | nil => rfl
  | cons a c s ihc ihs => rw [indexed_cons, size_cons, size_cons, ihc, ihs]

theorem roots_indexed (F : Forest α) (n : ℕ) : (F.indexed n).roots = F.rootIds n := by
  induction F generalizing n with
  | nil => rfl
  | cons a c s _ ihs => rw [indexed_cons, roots_cons, rootIds_cons, ihs]

/-- The nodes are numbered in preorder, without gaps. -/
theorem preorder_indexed (F : Forest α) (n : ℕ) :
    (F.indexed n).preorder = List.range' n F.size := by
  induction F generalizing n with
  | nil => rfl
  | cons a c s ihc ihs =>
    rw [indexed_cons, preorder_cons, ihc, ihs, size_cons, Nat.add_assoc 1, Nat.add_comm 1,
      List.range'_succ, ← List.range'_append_1]

/-- Labels that are numbered in preorder. -/
theorem map_eq_indexed {num : α → ℕ} {F : Forest α} {n : ℕ}
    (h : F.preorder.map num = List.range' n F.size) : F.map num = F.indexed n := by
  induction F generalizing n with
  | nil => rfl
  | cons a c s ihc ihs =>
    rw [preorder_cons, size_cons, Nat.add_assoc 1, Nat.add_comm 1, List.range'_succ,
      ← List.range'_append_1, List.map_cons, List.map_append] at h
    obtain ⟨ha, hrest⟩ := List.cons.inj h
    -- the numbers of the children come before those of the siblings
    obtain ⟨hc, hs⟩ := List.append_inj hrest (by simp)
    rw [map_cons, indexed_cons, ha, ihc hc, ihs hs]

/-- Where no label occurs twice, the number of a node is the place of its label. -/
theorem map_idxOf [DecidableEq α] {F : Forest α} (h : F.preorder.Nodup) :
    F.map (fun a => F.preorder.idxOf a) = F.indexed 0 := by
  refine map_eq_indexed (List.ext_getElem (by simp) fun i hi hi' => ?_)
  rw [List.length_map] at hi
  rw [List.getElem_map, List.getElem_range', h.idxOf_getElem i hi]
  omega

/-! ### Where the entries of a subtree stand -/

/-- The entries of a node, of its subtree and of its later siblings stand one
after the other in a table that the forest's entries stand in. -/
theorem number_split {a : α} {c s : Forest α} {parent : Option ℕ} {n : ℕ} {t : List (Entry α)}
    (h : (cons a c s).number parent n <+: t.drop n) :
    t[n]? = some ⟨a, parent, c.rootIds (n + 1)⟩ ∧
      c.number (some n) (n + 1) <+: t.drop (n + 1) ∧
      s.number parent (n + 1 + c.size) <+: t.drop (n + 1 + c.size) := by
  obtain ⟨rest, hrest⟩ := h
  rw [number_cons, List.cons_append, List.append_assoc] at hrest
  have hhead : t[n]? = some ⟨a, parent, c.rootIds (n + 1)⟩ := by
    rw [← Nat.add_zero n, ← List.getElem?_drop, ← hrest]
    rfl
  -- behind the node's own entry come its subtree's, then its siblings'
  have htail : t.drop (n + 1) = c.number (some n) (n + 1) ++
      (s.number parent (n + 1 + c.size) ++ rest) := by
    rw [← List.drop_drop, ← hrest]
    rfl
  refine ⟨hhead, ⟨_, htail.symm⟩, ⟨rest, ?_⟩⟩
  rw [← List.drop_drop, htail, List.drop_left' (length_number c _ _)]

/-- What the nodes inherit can be read off the table, which has a node's label
under its number. -/
theorem inherit_indexed {down : β → α → β} {label : ℕ → α} {x : β} {F : Forest α}
    {parent : Option ℕ} {n : ℕ} {t : List (Entry α)} (h : F.number parent n <+: t.drop n)
    (hlabel : ∀ i e, t[i]? = some e → label i = e.label) :
    (inherit (fun y i => down y (label i)) x (F.indexed n)).map (fun e => (e.1, label e.2)) =
      inherit down x F := by
  induction F generalizing x parent n with
  | nil => rfl
  | cons a c s ihc ihs =>
    obtain ⟨hhead, hchildren, hsiblings⟩ := number_split h
    have ha : label n = a := hlabel n _ hhead
    rw [indexed_cons, inherit_cons, inherit_cons, List.map_cons, List.map_append, ihc hchildren,
      ihs hsiblings, ha]

/-! ### Leaving out children -/

theorem size_prune_le (stop : α → Bool) (F : Forest α) : (F.prune stop).size ≤ F.size := by
  induction F with
  | nil => exact Nat.le_refl _
  | cons a c s ihc ihs =>
    rw [prune_cons, size_cons, size_cons]
    split
    · rw [size_nil]
      omega
    · omega

theorem mem_of_mem_prune {stop : α → Bool} {F : Forest α} {a : α}
    (h : a ∈ (F.prune stop).preorder) : a ∈ F.preorder := by
  induction F with
  | nil => exact h
  | cons b c s ihc ihs =>
    rw [prune_cons] at h
    rcases List.mem_cons.mp h with rfl | hrest
    · exact List.mem_cons_self
    · refine List.mem_cons_of_mem _ (List.mem_append.mpr ?_)
      refine (List.mem_append.mp hrest).imp (fun hc => ?_) ihs
      split at hc
      · cases hc
      · exact ihc hc

end Forest

/-! ### Entering a node in its parent's list of children -/

section Adopt

variable {α : Type}

/-- Enter `ids` at the end of the list of children of `parent`. -/
def adopt (parent : Option ℕ) (ids : List ℕ) (t : List (Entry α)) : List (Entry α) :=
  match parent with
  | none => t
  | some p => t.modify p fun e => { e with children := e.children ++ ids }

@[simp] theorem length_adopt (parent : Option ℕ) (ids : List ℕ) (t : List (Entry α)) :
    (adopt parent ids t).length = t.length := by
  cases parent with
  | none => rfl
  | some p => exact List.length_modify _ _ _

theorem adopt_some (p : ℕ) (ids : List ℕ) (t : List (Entry α)) : adopt (some p) ids t =
    t.modify p fun e => { e with children := e.children ++ ids } := rfl

theorem adopt_nil (parent : Option ℕ) (t : List (Entry α)) : adopt parent [] t = t := by
  cases parent with
  | none => rfl
  | some p =>
    rw [adopt_some]
    convert List.modify_id p t using 2
    funext e
    rw [List.append_nil]
    rfl

theorem adopt_adopt (parent : Option ℕ) (ids ids' : List ℕ) (t : List (Entry α)) :
    adopt parent ids' (adopt parent ids t) = adopt parent (ids ++ ids') t := by
  cases parent with
  | none => rfl
  | some p =>
    rw [adopt_some, adopt_some, adopt_some, List.modify_modify_eq]
    congr 1
    funext e
    exact congrArg (Entry.mk e.label e.parent) (List.append_assoc _ _ _)

theorem modify_append_left {f : α → α} {p : ℕ} {t : List α} (t' : List α) (h : p < t.length) :
    (t ++ t').modify p f = t.modify p f ++ t' := by
  induction t generalizing p with
  | nil => exact absurd h (Nat.not_lt_zero p)
  | cons e t ih =>
    cases p with
    | zero => rfl
    | succ p => exact congrArg (e :: ·) (ih (Nat.lt_of_succ_lt_succ h))

theorem modify_last (f : α → α) (t : List α) (e : α) :
    (t ++ [e]).modify t.length f = t ++ [f e] := by
  induction t with
  | nil => rfl
  | cons e' t ih => exact congrArg (e' :: ·) ih

/-- Entries behind the parent's do not matter. -/
theorem adopt_append {parent : Option ℕ} {t : List (Entry α)} (ids : List ℕ)
    (t' : List (Entry α)) (h : ∀ p ∈ parent, p < t.length) :
    adopt parent ids (t ++ t') = adopt parent ids t ++ t' := by
  cases parent with
  | none => rfl
  | some p => exact modify_append_left t' (h p rfl)

/-- The parent is the last entry. -/
theorem adopt_last (ids : List ℕ) (t : List (Entry α)) (a : α) (parent : Option ℕ) :
    adopt (some t.length) ids (t ++ [⟨a, parent, []⟩]) = t ++ [⟨a, parent, ids⟩] := by
  rw [adopt_some, modify_last]
  rfl

end Adopt

end Framework
