import Mathlib.Data.List.Basic
import Mathlib.Logic.Function.Iterate

/-!
# Writing through the first match

A search loop that returns a pointer to the first matching element of a
vector, followed by a write through that pointer, is `updateFirst p f`: `f` at
the first element that satisfies `p`, and nothing when there is none. The
search itself is `List.find?`.

Where the write makes the element match no more, writing `n` times is writing to
the first `n` matches (`getElem?_iterate_updateFirst`).
-/

namespace Framework

variable {α β : Type}

/-- Apply `f` to the first element that satisfies `p`. -/
def updateFirst (p : α → Bool) (f : α → α) : List α → List α
  | [] => []
  | x :: xs => if p x then f x :: xs else x :: updateFirst p f xs

variable {p q : α → Bool} {f : α → α} {l : List α} {x y : α}

theorem updateFirst_cons_of_pos (h : p x = true) : updateFirst p f (x :: l) = f x :: l :=
  if_pos h

theorem updateFirst_cons_of_neg (h : ¬ p x = true) :
    updateFirst p f (x :: l) = x :: updateFirst p f l :=
  if_neg h

/-- What the updated vector holds: the old elements, and the image of the
first match. -/
theorem mem_updateFirst (h : x ∈ updateFirst p f l) :
    x ∈ l ∨ ∃ y, l.find? p = some y ∧ x = f y := by
  induction l with
  | nil => exact absurd h List.not_mem_nil
  | cons a l ih =>
    by_cases hp : p a = true
    · rw [updateFirst_cons_of_pos hp] at h
      rcases List.mem_cons.mp h with rfl | hx
      · exact Or.inr ⟨a, List.find?_cons_of_pos hp, rfl⟩
      · exact Or.inl (List.mem_cons_of_mem _ hx)
    · rw [updateFirst_cons_of_neg hp] at h
      rcases List.mem_cons.mp h with rfl | hx
      · exact Or.inl List.mem_cons_self
      · rcases ih hx with hl | ⟨y, hy, rfl⟩
        · exact Or.inl (List.mem_cons_of_mem _ hl)
        · exact Or.inr ⟨y, by rw [List.find?_cons_of_neg hp]; exact hy, rfl⟩

/-- The image of the first match is in the updated vector. -/
theorem mem_updateFirst_self (h : l.find? p = some y) : f y ∈ updateFirst p f l := by
  induction l with
  | nil => exact absurd h (by simp)
  | cons a l ih =>
    by_cases hp : p a = true
    · rw [List.find?_cons_of_pos hp] at h
      obtain rfl := Option.some.inj h
      rw [updateFirst_cons_of_pos hp]
      exact List.mem_cons_self
    · rw [List.find?_cons_of_neg hp] at h
      rw [updateFirst_cons_of_neg hp]
      exact List.mem_cons_of_mem _ (ih h)

/-- A field that `f` keeps is kept position by position. -/
theorem map_updateFirst {g : α → β} (hg : ∀ x, g (f x) = g x) :
    (updateFirst p f l).map g = l.map g := by
  induction l with
  | nil => rfl
  | cons a l ih =>
    by_cases ha : p a = true
    · rw [updateFirst_cons_of_pos ha, List.map_cons, List.map_cons, hg]
    · rw [updateFirst_cons_of_neg ha, List.map_cons, List.map_cons, ih]

/-- The match itself, after the write. -/
theorem find?_updateFirst_self (hp : ∀ x, p (f x) = p x) :
    (updateFirst p f l).find? p = (l.find? p).map f := by
  induction l with
  | nil => rfl
  | cons a l ih =>
    by_cases ha : p a = true
    · rw [updateFirst_cons_of_pos ha, List.find?_cons_of_pos (by rw [hp, ha]),
        List.find?_cons_of_pos ha]
      rfl
    · rw [updateFirst_cons_of_neg ha, List.find?_cons_of_neg ha, List.find?_cons_of_neg ha, ih]

/-- The write changes nothing exactly when it leaves the match as it is. -/
theorem updateFirst_eq_self : updateFirst p f l = l ↔ ∀ y, l.find? p = some y → f y = y := by
  induction l with
  | nil => exact iff_of_true rfl nofun
  | cons a l ih =>
    by_cases ha : p a = true
    · rw [updateFirst_cons_of_pos ha, List.find?_cons_of_pos ha]
      simp
    · rw [updateFirst_cons_of_neg ha, List.find?_cons_of_neg ha, List.cons_inj_right]
      exact ih

/-- Another search, whose predicate `f` keeps, finds the same element, or its
image when that element is the first match. -/
theorem find?_updateFirst_first (hq : ∀ x, q (f x) = q x) (h : l.find? q = some y) :
    ∃ y', (updateFirst p f l).find? q = some y' ∧
      (y' = y ∨ (l.find? p = some y ∧ y' = f y)) := by
  induction l with
  | nil => exact absurd h (by simp)
  | cons a l ih =>
    by_cases hpa : p a = true
    · rw [updateFirst_cons_of_pos hpa, List.find?_cons_of_pos (p := p) hpa]
      by_cases hqa : q a = true
      · rw [List.find?_cons_of_pos hqa] at h
        obtain rfl := Option.some.inj h
        exact ⟨f a, List.find?_cons_of_pos (by rw [hq, hqa]), Or.inr ⟨rfl, rfl⟩⟩
      · rw [List.find?_cons_of_neg hqa] at h
        rw [List.find?_cons_of_neg (by rw [hq]; exact hqa)]
        exact ⟨y, h, Or.inl rfl⟩
    · rw [updateFirst_cons_of_neg hpa, List.find?_cons_of_neg (p := p) hpa]
      by_cases hqa : q a = true
      · rw [List.find?_cons_of_pos hqa] at h ⊢
        exact ⟨y, h, Or.inl rfl⟩
      · rw [List.find?_cons_of_neg hqa] at h ⊢
        exact ih h

/-- The image is of an element that matches. -/
theorem find?_updateFirst (hq : ∀ x, q (f x) = q x) (h : l.find? q = some y) :
    ∃ y', (updateFirst p f l).find? q = some y' ∧ (y' = y ∨ (p y = true ∧ y' = f y)) := by
  obtain ⟨y', hy', hcases⟩ := find?_updateFirst_first (p := p) hq h
  exact ⟨y', hy', hcases.imp_right fun ⟨hfirst, himage⟩ => ⟨List.find?_some hfirst, himage⟩⟩

/-- With unique keys, writing to the first element under a key writes to every
element under it. -/
theorem eq_of_mem_updateFirst_key [DecidableEq β] {key : α → β} {k : β}
    (hnodup : (l.map key).Nodup)
    (h : x ∈ updateFirst (fun y => decide (key y = k)) f l) (hx : key x = k) :
    ∃ y ∈ l, x = f y := by
  induction l with
  | nil => exact absurd h List.not_mem_nil
  | cons a l ih =>
    rw [List.map_cons, List.nodup_cons] at hnodup
    by_cases ha : key a = k
    · rw [updateFirst_cons_of_pos (by simpa using ha)] at h
      rcases List.mem_cons.mp h with rfl | hl
      · exact ⟨a, List.mem_cons_self, rfl⟩
      · -- a second element under the key contradicts uniqueness
        refine absurd (List.mem_map.mpr ⟨x, hl, ?_⟩) hnodup.1
        rw [hx, ha]
    · rw [updateFirst_cons_of_neg (by simpa using ha)] at h
      rcases List.mem_cons.mp h with rfl | hl
      · exact absurd hx ha
      · obtain ⟨y, hy, rfl⟩ := ih hnodup.2 hl
        exact ⟨y, List.mem_cons_of_mem _ hy, rfl⟩

/-! ### Writing through one match after the other -/

section Repeated

variable {i j : ℕ} (hf : ∀ x, p (f x) = false)

/-- `x` is the `j`-th match, counted from 0, and stands at position `i`. -/
def NthMatch (p : α → Bool) (l : List α) (j i : ℕ) (x : α) : Prop :=
  l[i]? = some x ∧ p x = true ∧ (l.take i).countP p = j

/-- The matches in order, with their positions. -/
theorem exists_nthMatch (h : (l.filter p)[j]? = some x) : ∃ i, NthMatch p l j i x := by
  induction l generalizing j with
  | nil => cases h
  | cons a l ih =>
    by_cases ha : p a = true
    · rw [List.filter_cons_of_pos ha] at h
      cases j with
      | zero =>
        obtain rfl := Option.some.inj h
        exact ⟨0, rfl, ha, rfl⟩
      | succ j =>
        obtain ⟨i, hi, hx, hcount⟩ := ih h
        refine ⟨i + 1, hi, hx, ?_⟩
        rw [List.take_succ_cons, List.countP_cons_of_pos ha, hcount]
    · rw [List.filter_cons_of_neg ha] at h
      obtain ⟨i, hi, hx, hcount⟩ := ih h
      refine ⟨i + 1, hi, hx, ?_⟩
      rw [List.take_succ_cons, List.countP_cons_of_neg ha, hcount]

theorem length_updateFirst : (updateFirst p f l).length = l.length := by
  induction l with
  | nil => rfl
  | cons a l ih =>
    by_cases ha : p a = true
    · rw [updateFirst_cons_of_pos ha, List.length_cons, List.length_cons]
    · rw [updateFirst_cons_of_neg ha, List.length_cons, List.length_cons, ih]

theorem length_iterate_updateFirst (n : ℕ) : ((updateFirst p f)^[n] l).length = l.length := by
  induction n generalizing l with
  | zero => rfl
  | succ n ih => rw [Function.iterate_succ_apply, ih, length_updateFirst]

include hf

/-- A write after which the first match is none takes it out of the matches. -/
theorem filter_updateFirst : (updateFirst p f l).filter p = (l.filter p).tail := by
  induction l with
  | nil => rfl
  | cons a l ih =>
    by_cases ha : p a = true
    · rw [updateFirst_cons_of_pos ha, List.filter_cons_of_pos ha,
        List.filter_cons_of_neg (by rw [hf]; decide)]
      rfl
    · rw [updateFirst_cons_of_neg ha, List.filter_cons_of_neg ha, List.filter_cons_of_neg ha, ih]

theorem countP_take_updateFirst :
    ((updateFirst p f l).take i).countP p = (l.take i).countP p - 1 := by
  induction l generalizing i with
  | nil =>
    rw [List.take_nil, List.countP_nil]
    exact congrArg _ List.take_nil
  | cons a l ih =>
    cases i with
    | zero => rw [List.take_zero, List.take_zero, List.countP_nil]
    | succ i =>
      by_cases ha : p a = true
      · rw [updateFirst_cons_of_pos ha, List.take_succ_cons, List.take_succ_cons,
          List.countP_cons_of_pos ha, List.countP_cons_of_neg (by rw [hf]; decide),
          Nat.add_sub_cancel]
      · rw [updateFirst_cons_of_neg ha, List.take_succ_cons, List.take_succ_cons,
          List.countP_cons_of_neg ha, List.countP_cons_of_neg ha, ih]

omit hf in
/-- The write is to the element that matches, with no match before it. -/
theorem getElem?_updateFirst : (updateFirst p f l)[i]? =
    l[i]?.map fun x => if p x = true ∧ (l.take i).countP p = 0 then f x else x := by
  induction l generalizing i with
  | nil => rfl
  | cons a l ih =>
    cases i with
    | zero =>
      by_cases ha : p a = true
      · rw [updateFirst_cons_of_pos ha]
        exact congrArg some (if_pos ⟨ha, rfl⟩).symm
      · rw [updateFirst_cons_of_neg ha]
        exact congrArg some (if_neg fun h => ha h.1).symm
    | succ i =>
      by_cases ha : p a = true
      · rw [updateFirst_cons_of_pos ha, List.getElem?_cons_succ, List.getElem?_cons_succ,
          List.take_succ_cons, List.countP_cons_of_pos ha]
        simp
      · rw [updateFirst_cons_of_neg ha, List.getElem?_cons_succ, List.getElem?_cons_succ,
          List.take_succ_cons, List.countP_cons_of_neg ha, ih]

/-- `n` writes are to the first `n` matches. -/
theorem getElem?_iterate_updateFirst (n : ℕ) : ((updateFirst p f)^[n] l)[i]? =
    l[i]?.map fun x => if p x = true ∧ (l.take i).countP p < n then f x else x := by
  induction n generalizing l with
  | zero => simp
  | succ n ih =>
    rw [Function.iterate_succ_apply, ih, getElem?_updateFirst, countP_take_updateFirst hf,
      Option.map_map]
    refine congrFun (congrArg Option.map (funext fun x => ?_)) _
    by_cases hx : p x = true
    · by_cases hzero : (l.take i).countP p = 0
      · have hfirst : (if p x = true ∧ (l.take i).countP p = 0 then f x else x) = f x :=
          if_pos ⟨hx, hzero⟩
        rw [Function.comp_apply, hfirst, hf, if_neg fun h => nomatch h.1]
        exact (if_pos ⟨hx, by omega⟩).symm
      · have hlater : (if p x = true ∧ (l.take i).countP p = 0 then f x else x) = x :=
          if_neg fun h => hzero h.2
        rw [Function.comp_apply, hlater]
        exact if_congr (and_congr_right fun _ => by omega) rfl rfl
    · have hnone : (if p x = true ∧ (l.take i).countP p = 0 then f x else x) = x :=
        if_neg fun h => hx h.1
      rw [Function.comp_apply, hnone, if_neg fun h => hx h.1, if_neg fun h => hx h.1]

/-- After `n` writes the `j`-th match is written to, `j < n`. -/
theorem NthMatch.getElem?_iterate {n : ℕ} (h : NthMatch p l j i x) (hj : j < n) :
    ((updateFirst p f)^[n] l)[i]? = some (f x) := by
  obtain ⟨hi, hx, hcount⟩ := h
  rw [getElem?_iterate_updateFirst hf, hi, Option.map_some, if_pos ⟨hx, hcount ▸ hj⟩]

/-- What is not among the first `n` matches is as it was. -/
theorem getElem?_iterate_of_not_match {n : ℕ}
    (h : ∀ j < n, ∀ x, ¬ NthMatch p l j i x) : ((updateFirst p f)^[n] l)[i]? = l[i]? := by
  rw [getElem?_iterate_updateFirst hf]
  cases hi : l[i]? with
  | none => rfl
  | some x =>
    refine congrArg some (if_neg fun ⟨hx, hlt⟩ => h _ hlt x ⟨hi, hx, rfl⟩)

end Repeated

end Framework
