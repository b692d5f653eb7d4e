import Mathlib.Data.List.Basic

/-!
# One event before another

`Before P Q l` says that the list `l`, read as a sequence of events, has an
event that satisfies `P` and after it one that satisfies `Q`. The rules are
those of a sequence that grows at its end: what becomes true with the last event
is about that event (`Before.cases`), and of two events one comes first
(`Before.total`).
-/

namespace Framework

variable {α : Type} {P Q : α → Prop} {l : List α} {a x y : α}

/-- An event that satisfies `P`, and one that satisfies `Q` after it. -/
def Before (P Q : α → Prop) (l : List α) : Prop :=
  ∃ l₁ x l₂, l = l₁ ++ x :: l₂ ∧ P x ∧ ∃ y ∈ l₂, Q y

theorem before_nil : ¬ Before P Q [] := by
  rintro ⟨l₁, x, l₂, heq, -⟩
  exact absurd heq.symm (List.append_ne_nil_of_right_ne_nil _ (List.cons_ne_nil _ _))

/-- From the front: the first event is the earlier one, or both come later. -/
theorem before_cons : Before P Q (a :: l) ↔ (P a ∧ ∃ y ∈ l, Q y) ∨ Before P Q l := by
  constructor
  · rintro ⟨l₁, x, l₂, heq, hx, hy⟩
    cases l₁ with
    | nil =>
      obtain ⟨rfl, rfl⟩ := List.cons.inj heq
      exact Or.inl ⟨hx, hy⟩
    | cons b l₁ =>
      obtain ⟨rfl, rfl⟩ := List.cons.inj heq
      exact Or.inr ⟨l₁, x, l₂, rfl, hx, hy⟩
  · rintro (⟨ha, hy⟩ | ⟨l₁, x, l₂, rfl, hx, hy⟩)
    · exact ⟨[], a, l, rfl, ha, hy⟩
    · exact ⟨a :: l₁, x, l₂, rfl, hx, hy⟩

/-- Two events in one part of a concatenation. -/
theorem Before.flatMap {β : Type} {f : β → List α} {bs : List β} {b : β} (hb : b ∈ bs)
    (h : Before P Q (f b)) : Before P Q (bs.flatMap f) := by
  obtain ⟨before, after, rfl⟩ := List.append_of_mem hb
  obtain ⟨l₁, x, l₂, heq, hx, y, hy, hQ⟩ := h
  refine ⟨before.flatMap f ++ l₁, x, l₂ ++ after.flatMap f, ?_, hx, y,
    List.mem_append_left _ hy, hQ⟩
  rw [List.flatMap_append, List.flatMap_cons, heq, List.append_assoc, List.append_assoc]
  rfl

theorem Before.exists_left (h : Before P Q l) : ∃ x ∈ l, P x := by
  obtain ⟨l₁, x, l₂, rfl, hx, -⟩ := h
  exact ⟨x, List.mem_append_right _ List.mem_cons_self, hx⟩

/-- With one more event, the later of the two is that one or both were there. -/
theorem Before.cases (h : Before P Q (l ++ [a])) : Before P Q l ∨ (Q a ∧ ∃ x ∈ l, P x) := by
  obtain ⟨l₁, x, l₂, heq, hx, y, hy, hQ⟩ := h
  rcases List.eq_nil_or_concat l₂ with rfl | ⟨l₃, b, rfl⟩
  · exact absurd hy List.not_mem_nil
  · rw [List.concat_eq_append] at heq hy
    rw [← List.cons_append, ← List.append_assoc] at heq
    obtain ⟨rfl, hab⟩ := List.append_inj' heq rfl
    obtain rfl := List.singleton_inj.mp hab
    rcases List.mem_append.mp hy with hy | hy
    · exact Or.inl ⟨l₁, x, l₃, rfl, hx, y, hy, hQ⟩
    · obtain rfl := List.mem_singleton.mp hy
      exact Or.inr ⟨hQ, x, List.mem_append_right _ List.mem_cons_self, hx⟩

/-- The last event comes after all others. -/
theorem Before.snoc (hx : x ∈ l) (hP : P x) (hQ : Q a) : Before P Q (l ++ [a]) := by
  obtain ⟨l₁, l₂, rfl⟩ := List.append_of_mem hx
  refine ⟨l₁, x, l₂ ++ [a], ?_, hP, a, List.mem_append_right _ List.mem_cons_self, hQ⟩
  rw [List.append_assoc, List.cons_append]

/-- What came before goes on to be before. -/
theorem Before.append (h : Before P Q l) (l' : List α) : Before P Q (l ++ l') := by
  obtain ⟨l₁, x, l₂, rfl, hx, y, hy, hQ⟩ := h
  refine ⟨l₁, x, l₂ ++ l', ?_, hx, y, List.mem_append_left _ hy, hQ⟩
  rw [List.append_assoc, List.cons_append]

/-- Of two different events, one comes before the other. -/
theorem Before.total (hne : x ≠ y) (hx : x ∈ l) (hy : y ∈ l) (hP : P x) (hQ : Q y) :
    Before P Q l ∨ Before Q P l := by
  obtain ⟨l₁, l₂, rfl⟩ := List.append_of_mem hx
  rcases List.mem_append.mp hy with hy | hy
  · -- `y` stands in the part before `x`
    obtain ⟨l₃, l₄, rfl⟩ := List.append_of_mem hy
    refine Or.inr ⟨l₃, y, l₄ ++ x :: l₂, ?_, hQ, x, ?_, hP⟩
    · rw [List.append_assoc, List.cons_append]
    · exact List.mem_append_right _ List.mem_cons_self
  · rcases List.mem_cons.mp hy with rfl | hy
    · exact absurd rfl hne
    · exact Or.inl ⟨l₁, x, l₂, rfl, hP, y, hy, hQ⟩

end Framework
