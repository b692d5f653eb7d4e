import Mathlib.Data.Nat.Log
import Mathlib.Logic.Function.Iterate
import Pathological.Framework.Tiling

/-!
# The sizes of the pieces of a subdivision

Cutting a number into halves `d` times, whichever half is kept each time, leaves
its quotient by `2 ^ d`, rounded down or up (`IsHalved`). So each piece of a
subdivision has, for some `d`, the sides of the rectangle halved `d` times
(`Subdivides.isHalved`), and it is not one that asks to be cut
(`Subdivides.not_split`).

Where the cuts go on in one corner, the rectangle they end with is among the
pieces (`Subdivides.upperRight_mem`, `Subdivides.lowerLeft_mem`). One of its sides
has been rounded up each time, and the other down.
-/

namespace Framework

/-! ### Halving a number -/

/-- `a` is left of `n` after `d` cuts into halves. -/
structure IsHalved (n d a : ℕ) : Prop where
  floor : n / 2 ^ d ≤ a
  ceil : a * 2 ^ d < n + 2 ^ d

namespace IsHalved

variable {n d a : ℕ}

theorem zero (n : ℕ) : IsHalved n 0 n where
  floor := (Nat.div_one n).le
  ceil := by
    rw [pow_zero, Nat.mul_one]
    exact Nat.lt_succ_self n

/-- Keeping the lower half. -/
theorem half (h : IsHalved n d a) : IsHalved n (d + 1) (a / 2) where
  floor := by
    rw [pow_succ, ← Nat.div_div_eq_div_mul]
    exact Nat.div_le_div_right h.floor
  ceil := by
    calc a / 2 * 2 ^ (d + 1)
        = a / 2 * 2 * 2 ^ d := by rw [pow_succ', Nat.mul_assoc]
      _ ≤ a * 2 ^ d := Nat.mul_le_mul_right _ (Nat.div_mul_le_self a 2)
      _ < n + 2 ^ d := h.ceil
      _ ≤ n + 2 ^ (d + 1) := Nat.add_le_add_left (Nat.pow_le_pow_right two_pos d.le_succ) n

/-- Keeping the upper half. -/
theorem rest (h : IsHalved n d a) : IsHalved n (d + 1) (a - a / 2) where
  floor := h.half.floor.trans (by omega)
  ceil := by
    calc (a - a / 2) * 2 ^ (d + 1)
        = (a - a / 2) * 2 * 2 ^ d := by rw [pow_succ', Nat.mul_assoc]
      _ ≤ (a + 1) * 2 ^ d := Nat.mul_le_mul_right _ (by omega)
      _ = a * 2 ^ d + 2 ^ d := by rw [Nat.add_mul, Nat.one_mul]
      _ < n + 2 ^ d + 2 ^ d := Nat.add_lt_add_right h.ceil _
      _ = n + 2 ^ (d + 1) := by rw [pow_succ, Nat.mul_two, Nat.add_assoc]

end IsHalved

/-- How often `n` can be halved, rounding down, before it falls below `2 * m`. -/
def halvings (m n : ℕ) : ℕ := Nat.log 2 (n / m)

/-- Up to there the halves are at least `2 * m`, -/
theorem le_of_lt_halvings {m n d : ℕ} (hm : 0 < m) (h : d < halvings m n) :
    2 * m ≤ n / 2 ^ d := by
  have hpow : 2 ^ (d + 1) ≤ n / m := by
    refine Nat.pow_le_of_le_log (fun hzero => ?_) h
    unfold halvings at h
    rw [hzero, Nat.log_zero_right] at h
    exact Nat.not_lt_zero d h
  rw [Nat.le_div_iff_mul_le (Nat.two_pow_pos d)]
  rw [Nat.le_div_iff_mul_le hm] at hpow
  calc 2 * m * 2 ^ d = 2 ^ (d + 1) * m := by rw [pow_succ']; ring
    _ ≤ n := hpow

/-- and then they are below. -/
theorem lt_of_halvings_le {m n d : ℕ} (hm : 0 < m) (h : halvings m n ≤ d) :
    n / 2 ^ d < 2 * m := by
  have hpow : n / m < 2 ^ (d + 1) :=
    Nat.lt_pow_of_log_lt one_lt_two (Nat.lt_succ_of_le h)
  rw [Nat.div_lt_iff_lt_mul (Nat.two_pow_pos d)]
  rw [Nat.div_lt_iff_lt_mul hm] at hpow
  calc n < 2 ^ (d + 1) * m := hpow
    _ = 2 * m * 2 ^ d := by rw [pow_succ']; ring

/-! ### Pieces -/

namespace Subdivides

variable {split : Rect → Prop} {r : Rect} {ts : List Rect}

/-- No piece asks to be cut. -/
theorem not_split (h : Subdivides split r ts) : ∀ t ∈ ts, ¬ split t := by
  induction h with
  | leaf h =>
    intro t ht
    rwa [List.mem_singleton.mp ht]
  | node h _ _ _ _ ih₁ ih₂ ih₃ ih₄ =>
    intro t ht
    simp only [List.mem_append] at ht
    rcases ht with ht | ht | ht | ht
    · exact ih₁ t ht
    · exact ih₂ t ht
    · exact ih₃ t ht
    · exact ih₄ t ht

/-- **A piece has the sides of the rectangle, halved equally often.** -/
theorem isHalved {w h d : ℕ} (hs : Subdivides split r ts) (hw : IsHalved w d r.width)
    (hh : IsHalved h d r.height) :
    ∀ t ∈ ts, ∃ d, IsHalved w d t.width ∧ IsHalved h d t.height := by
  induction hs generalizing d with
  | leaf =>
    intro t ht
    rw [List.mem_singleton.mp ht]
    exact ⟨d, hw, hh⟩
  | node _ _ _ _ _ ih₁ ih₂ ih₃ ih₄ =>
    intro t ht
    simp only [List.mem_append] at ht
    rcases ht with ht | ht | ht | ht
    · exact ih₁ hw.half hh.half t ht
    · exact ih₂ hw.rest hh.half t ht
    · exact ih₃ hw.half hh.rest t ht
    · exact ih₄ hw.rest hh.rest t ht

/-- The quadrants of a rectangle that is cut are subdivided. -/
theorem quadrants (h : Subdivides split r ts) (hr : split r) :
    (∃ ts', Subdivides split r.upperRight ts' ∧ ts' ⊆ ts) ∧
      ∃ ts', Subdivides split r.lowerLeft ts' ∧ ts' ⊆ ts := by
  cases h with
  | leaf hnot => exact absurd hr hnot
  | @node _ ts₁ ts₂ ts₃ ts₄ _ h₁ h₂ h₃ h₄ =>
    refine ⟨⟨ts₂, h₂, fun t ht => ?_⟩, ⟨ts₃, h₃, fun t ht => ?_⟩⟩
    · simp only [List.mem_append]
      exact Or.inr (Or.inl ht)
    · simp only [List.mem_append]
      exact Or.inr (Or.inr (Or.inl ht))

/-- Going on into one quadrant, as long as there is a cut, leads to a piece. -/
theorem iterate_mem {quadrant : Rect → Rect} {d : ℕ}
    (hquadrant : ∀ {r ts}, Subdivides split r ts → split r →
      ∃ ts', Subdivides split (quadrant r) ts' ∧ ts' ⊆ ts)
    (h : Subdivides split r ts) (hcut : ∀ e < d, split (quadrant^[e] r))
    (hleaf : ¬ split (quadrant^[d] r)) : quadrant^[d] r ∈ ts := by
  induction d generalizing r ts with
  | zero =>
    cases h with
    | leaf => exact List.mem_singleton_self r
    | node hs => exact absurd hs hleaf
  | succ d ih =>
    obtain ⟨ts', hsub, hmem⟩ := hquadrant h (hcut 0 d.succ_pos)
    exact hmem (ih hsub (fun e he => hcut (e + 1) (Nat.succ_lt_succ he)) hleaf)

theorem upperRight_mem {d : ℕ} (h : Subdivides split r ts)
    (hcut : ∀ e < d, split (Rect.upperRight^[e] r)) (hleaf : ¬ split (Rect.upperRight^[d] r)) :
    Rect.upperRight^[d] r ∈ ts :=
  iterate_mem (fun h hr => (h.quadrants hr).1) h hcut hleaf

theorem lowerLeft_mem {d : ℕ} (h : Subdivides split r ts)
    (hcut : ∀ e < d, split (Rect.lowerLeft^[e] r)) (hleaf : ¬ split (Rect.lowerLeft^[d] r)) :
    Rect.lowerLeft^[d] r ∈ ts :=
  iterate_mem (fun h hr => (h.quadrants hr).2) h hcut hleaf

end Subdivides

/-! ### Corners -/

namespace Rect

/-- A number whose lower half is kept each time is rounded down, -/
theorem iterate_floor {size : Rect → ℕ} {quadrant : Rect → Rect}
    (h : ∀ r, size (quadrant r) = size r / 2) (r : Rect) (d : ℕ) :
    size (quadrant^[d] r) = size r / 2 ^ d := by
  induction d generalizing r with
  | zero => exact (Nat.div_one _).symm
  | succ d ih =>
    rw [Function.iterate_succ_apply, ih, h, Nat.div_div_eq_div_mul, pow_succ']

/-- and one whose upper half is kept each time is rounded up. -/
theorem le_iterate_ceil {size : Rect → ℕ} {quadrant : Rect → Rect}
    (h : ∀ r, size (quadrant r) = size r - size r / 2) (r : Rect) (d : ℕ) :
    size r ≤ size (quadrant^[d] r) * 2 ^ d := by
  induction d generalizing r with
  | zero => exact (Nat.mul_one _).ge
  | succ d ih =>
    have hhalf : size r ≤ size (quadrant r) * 2 := by
      rw [h]
      omega
    calc size r ≤ size (quadrant r) * 2 := hhalf
      _ ≤ size (quadrant^[d] (quadrant r)) * 2 ^ d * 2 := Nat.mul_le_mul_right 2 (ih _)
      _ = size (quadrant^[d + 1] r) * 2 ^ (d + 1) := by
        rw [Function.iterate_succ_apply, pow_succ, Nat.mul_assoc]

end Rect

end Framework
