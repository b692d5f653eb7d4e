import Mathlib.Data.List.DropRight

/-!
# Lists with a separator

A name is often a list of symbols in two parts, and a separator between them that
the second part does not contain: a directory and a file, a stem and a number. Such a
list is read from the end (`List.rtakeWhile`), and has one pair of parts only
(`append_cons_inj`), whatever separators the first part contains.
-/

namespace Framework

variable {α : Type} {sep : α} {xs xs' ys ys' : List α}

/-- The parts before and after the last separator are determined. -/
theorem append_cons_inj (h : sep ∉ ys) (h' : sep ∉ ys') :
    xs ++ sep :: ys = xs' ++ sep :: ys' ↔ xs = xs' ∧ ys = ys' := by
  refine ⟨fun heq => ?_, fun ⟨hxs, hys⟩ => by rw [hxs, hys]⟩
  rcases List.append_eq_append_iff.mp heq with ⟨zs, rfl, hzs⟩ | ⟨zs, rfl, hzs⟩
  · cases zs with
    | nil => exact ⟨(List.append_nil xs).symm, (List.cons.inj hzs).2⟩
    | cons z zs =>
      -- the other separator would be in the part after this one
      have hmem : sep ∈ ys := by
        rw [(List.cons.inj hzs).2]
        exact List.mem_append_right zs List.mem_cons_self
      exact absurd hmem h
  · cases zs with
    | nil => exact ⟨List.append_nil xs', (List.cons.inj hzs).2.symm⟩
    | cons z zs =>
      have hmem : sep ∈ ys' := by
        rw [(List.cons.inj hzs).2]
        exact List.mem_append_right zs List.mem_cons_self
      exact absurd hmem h'

variable [DecidableEq α]

/-- A list without a separator is its own last part. -/
theorem rtakeWhile_ne_eq_self (h : sep ∉ ys) : ys.rtakeWhile (· ≠ sep) = ys := by
  rw [List.rtakeWhile_eq_self_iff]
  intro y hy
  rw [decide_eq_true_eq]
  rintro rfl
  exact h hy

/-- Before the last separator nothing matters. -/
theorem rtakeWhile_ne_append_cons (xs ys : List α) :
    (xs ++ sep :: ys).rtakeWhile (· ≠ sep) = ys.rtakeWhile (· ≠ sep) := by
  induction ys using List.reverseRecOn with
  | nil =>
    apply List.rtakeWhile_concat_neg
    simp
  | append_singleton ys y ih =>
    have hsnoc : xs ++ sep :: (ys ++ [y]) = (xs ++ sep :: ys) ++ [y] := by simp
    rw [hsnoc, List.rtakeWhile_concat, List.rtakeWhile_concat, ih]

/-- After it everything is kept. -/
theorem rtakeWhile_ne_append (xs : List α) (h : sep ∉ ys) :
    (xs ++ ys).rtakeWhile (· ≠ sep) = xs.rtakeWhile (· ≠ sep) ++ ys := by
  induction ys using List.reverseRecOn with
  | nil => rw [List.append_nil, List.append_nil]
  | append_singleton ys y ih =>
    rw [List.mem_append, not_or, List.mem_singleton] at h
    have hy : decide (y ≠ sep) = true := decide_eq_true fun heq => h.2 heq.symm
    rw [← List.append_assoc, List.rtakeWhile_concat, if_pos hy, ih h.1, List.append_assoc]

/-- The last part contains no separator. -/
theorem notMem_rtakeWhile_ne : sep ∉ xs.rtakeWhile (· ≠ sep) := by
  intro h
  have hne := List.mem_rtakeWhile_imp h
  simp at hne

end Framework
