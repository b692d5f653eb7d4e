import Mathlib.Data.List.Count
import Mathlib.Logic.Function.Basic
import Mathlib.Tactic.Ring

/-!
# Subdividing a rectangle, and scattered writes

A rectangle of grid points is subdivided by cutting it into quadrants, as often
as a predicate on the pieces asks for (`Subdivides`). Whatever the predicate, the
pieces tile the rectangle (`Subdivides.isTiling`): every point of it is in
exactly one piece, and no other point is in any.

`scatter` performs a list of writes to a function. When the value written to a
key depends on the key only, the order of the writes and their number do not
matter, only which keys are written to (`scatter_congr`).
-/

namespace Framework

/-! ### Intervals -/

/-- `i` is one of the `n` numbers from `a` on. -/
def inRange (a n i : ℕ) : Bool := decide (a ≤ i ∧ i < a + n)

/-- Cutting an interval puts each of its numbers on one side. -/
theorem inRange_cut {a k n i : ℕ} (hk : k ≤ n) :
    (inRange a k i).toNat + (inRange (a + k) (n - k) i).toNat = (inRange a n i).toNat := by
  unfold inRange
  by_cases hin : a ≤ i ∧ i < a + n
  · by_cases hleft : i < a + k
    · rw [decide_eq_true hin, decide_eq_true (show a ≤ i ∧ i < a + k from ⟨hin.1, hleft⟩),
        decide_eq_false (by omega)]
      rfl
    · rw [decide_eq_true hin, decide_eq_false (by omega), decide_eq_true (by omega)]
      rfl
  · rw [decide_eq_false hin, decide_eq_false (by omega), decide_eq_false (by omega)]
    rfl

/-! ### Rectangles -/

/-- A rectangle of grid points: its least point and its extent. -/
structure Rect where
  x : ℕ
  y : ℕ
  width : ℕ
  height : ℕ
  deriving DecidableEq, Repr

namespace Rect

/-- The point lies in the rectangle. -/
def contains (r : Rect) (p : ℕ × ℕ) : Bool :=
  inRange r.x r.width p.1 && inRange r.y r.height p.2

/-! The quadrants, cut at the floor halves. -/

def upperLeft (r : Rect) : Rect := ⟨r.x, r.y, r.width / 2, r.height / 2⟩

def upperRight (r : Rect) : Rect :=
  ⟨r.x + r.width / 2, r.y, r.width - r.width / 2, r.height / 2⟩

def lowerLeft (r : Rect) : Rect :=
  ⟨r.x, r.y + r.height / 2, r.width / 2, r.height - r.height / 2⟩

def lowerRight (r : Rect) : Rect :=
  ⟨r.x + r.width / 2, r.y + r.height / 2, r.width - r.width / 2, r.height - r.height / 2⟩

theorem contains_iff {r : Rect} {p : ℕ × ℕ} : r.contains p = true ↔
    (r.x ≤ p.1 ∧ p.1 < r.x + r.width) ∧ (r.y ≤ p.2 ∧ p.2 < r.y + r.height) := by
  unfold contains
  rw [Bool.and_eq_true, inRange, inRange, decide_eq_true_iff, decide_eq_true_iff]

theorem contains_toNat (r : Rect) (p : ℕ × ℕ) : (r.contains p).toNat =
    (inRange r.x r.width p.1).toNat * (inRange r.y r.height p.2).toNat := by
  unfold contains
  cases inRange r.x r.width p.1 with
  | true => rw [Bool.true_and, Bool.toNat_true, Nat.one_mul]
  | false => rw [Bool.false_and, Bool.toNat_false, Nat.zero_mul]

/-- Each point of a rectangle is in one of its quadrants. -/
theorem contains_quadrants (r : Rect) (p : ℕ × ℕ) :
    (r.upperLeft.contains p).toNat + ((r.upperRight.contains p).toNat +
      ((r.lowerLeft.contains p).toNat + (r.lowerRight.contains p).toNat)) =
      (r.contains p).toNat := by
  have hx := inRange_cut (a := r.x) (i := p.1) (Nat.div_le_self r.width 2)
  have hy := inRange_cut (a := r.y) (i := p.2) (Nat.div_le_self r.height 2)
  rw [contains_toNat r, ← hx, ← hy]
  simp only [contains_toNat, upperLeft, upperRight, lowerLeft, lowerRight]
  ring

end Rect

/-! ### Subdivision -/

/-- The pieces tile the rectangle: each of its points is in exactly one of them,
and no other point is in any. -/
def IsTiling (ts : List Rect) (r : Rect) : Prop :=
  ∀ p, ts.countP (fun t => t.contains p) = (r.contains p).toNat

/-- Cutting `r` into quadrants, as far as `split` asks for, leaves the pieces. -/
inductive Subdivides (split : Rect → Prop) : Rect → List Rect → Prop where
  | leaf {r} (h : ¬ split r) : Subdivides split r [r]
  | node {r ts₁ ts₂ ts₃ ts₄} (h : split r) (h₁ : Subdivides split r.upperLeft ts₁)
      (h₂ : Subdivides split r.upperRight ts₂) (h₃ : Subdivides split r.lowerLeft ts₃)
      (h₄ : Subdivides split r.lowerRight ts₄) :
      Subdivides split r (ts₁ ++ (ts₂ ++ (ts₃ ++ ts₄)))

/-- **A subdivision tiles its rectangle.** -/
theorem Subdivides.isTiling {split : Rect → Prop} {r : Rect} {ts : List Rect}
    (h : Subdivides split r ts) : IsTiling ts r := by
  induction h with
  | leaf h =>
    intro p
    rw [List.countP_singleton]
    cases Rect.contains _ p <;> rfl
  | @node r ts₁ ts₂ ts₃ ts₄ h _ _ _ _ ih₁ ih₂ ih₃ ih₄ =>
    intro p
    rw [List.countP_append, List.countP_append, List.countP_append, ih₁ p, ih₂ p, ih₃ p, ih₄ p]
    exact r.contains_quadrants p

/-- When each piece contributes a key once if it contains a point, and not at
all otherwise, the pieces contribute it as often as they contain the point. -/
theorem count_flatMap_pieces {α κ : Type} [DecidableEq κ] {ts : List α} {f : α → List κ} {k : κ}
    {q : α → Bool} (h : ∀ t ∈ ts, (f t).count k = (q t).toNat) :
    (ts.flatMap f).count k = ts.countP q := by
  induction ts with
  | nil => rfl
  | cons t ts ih =>
    rw [List.flatMap_cons, List.count_append, h t List.mem_cons_self,
      ih fun t ht => h t (List.mem_cons_of_mem _ ht), List.countP_cons, Nat.add_comm]
    cases q t <;> rfl

/-! ### Scattered writes -/

section Scatter

variable {κ ν : Type} [DecidableEq κ] {m : κ → ν} {ws ws' : List (κ × ν)} {f : κ → ν} {k : κ}

/-- The writes, in order. -/
def scatter (m : κ → ν) (ws : List (κ × ν)) : κ → ν :=
  ws.foldl (fun m w => Function.update m w.1 w.2) m

theorem scatter_of_notMem (hk : k ∉ ws.map Prod.fst) : scatter m ws k = m k := by
  induction ws generalizing m with
  | nil => rfl
  | cons w ws ih =>
    rw [List.map_cons, List.mem_cons, not_or] at hk
    calc scatter (Function.update m w.1 w.2) ws k
        = Function.update m w.1 w.2 k := ih hk.2
      _ = m k := Function.update_of_ne hk.1 _ _

/-- A key that is written to ends up with its value. -/
theorem scatter_of_mem (hf : ∀ w ∈ ws, w.2 = f w.1) (hk : k ∈ ws.map Prod.fst) :
    scatter m ws k = f k := by
  induction ws generalizing m with
  | nil => exact absurd hk List.not_mem_nil
  | cons w ws ih =>
    show scatter (Function.update m w.1 w.2) ws k = f k
    by_cases hlater : k ∈ ws.map Prod.fst
    · exact ih (fun w hw => hf w (List.mem_cons_of_mem _ hw)) hlater
    · -- this is the last write to the key
      have hkw : k = w.1 := (List.mem_cons.mp hk).resolve_right hlater
      subst hkw
      rw [scatter_of_notMem hlater, Function.update_self]
      exact hf w List.mem_cons_self

/-- **Scattering is a matter of which keys are written to**, when each key has
its own value. -/
theorem scatter_congr (hf : ∀ w ∈ ws, w.2 = f w.1) (hf' : ∀ w ∈ ws', w.2 = f w.1)
    (hkeys : ∀ k, k ∈ ws.map Prod.fst ↔ k ∈ ws'.map Prod.fst) : scatter m ws = scatter m ws' := by
  funext k
  by_cases hk : k ∈ ws.map Prod.fst
  · rw [scatter_of_mem hf hk, scatter_of_mem hf' ((hkeys k).mp hk)]
  · rw [scatter_of_notMem hk, scatter_of_notMem fun hk' => hk ((hkeys k).mpr hk')]

end Scatter

end Framework
