import Mathlib.LinearAlgebra.CrossProduct

/-!
# Frames

Three unit vectors of space that are perpendicular to each other (`IsFrame`). Two of them
make the third, their cross product (`IsFrame.of_cross`), and in coordinates of a frame the
dot product is that of the coordinates (`IsFrame.dot_comb`).
-/

namespace Framework

open Matrix

variable {R : Type} [CommRing R] {u v w : Fin 3 → R}

/-- An orthonormal basis. -/
structure IsFrame (u v w : Fin 3 → R) : Prop where
  uu : u ⬝ᵥ u = 1
  vv : v ⬝ᵥ v = 1
  ww : w ⬝ᵥ w = 1
  uv : u ⬝ᵥ v = 0
  uw : u ⬝ᵥ w = 0
  vw : v ⬝ᵥ w = 0

namespace IsFrame

/-- The third vector of a frame. -/
theorem of_cross (hu : u ⬝ᵥ u = 1) (hw : w ⬝ᵥ w = 1) (huw : u ⬝ᵥ w = 0) :
    IsFrame u (w ⨯₃ u) w where
  uu := hu
  ww := hw
  uw := huw
  uv := dot_cross_self w u
  vw := by rw [dotProduct_comm, dot_self_cross]
  vv := by rw [cross_dot_cross, hu, hw, huw, dotProduct_comm w u, huw, mul_zero, sub_zero, mul_one]

/-- **The dot product, in coordinates.** -/
theorem dot_comb (h : IsFrame u v w) (a b c a' b' c' : R) :
    (a • u + b • v + c • w) ⬝ᵥ (a' • u + b' • v + c' • w) = a * a' + b * b' + c * c' := by
  have hvu : v ⬝ᵥ u = 0 := (dotProduct_comm v u).trans h.uv
  have hwu : w ⬝ᵥ u = 0 := (dotProduct_comm w u).trans h.uw
  have hwv : w ⬝ᵥ v = 0 := (dotProduct_comm w v).trans h.vw
  simp only [add_dotProduct, dotProduct_add, smul_dotProduct, dotProduct_smul, smul_eq_mul, h.uu,
    h.vv, h.ww, h.uv, h.uw, h.vw, hvu, hwu, hwv, mul_one, mul_zero, add_zero, zero_add]
  ring

/-- The component along the last vector. -/
theorem dot_last (h : IsFrame u v w) (a b c : R) : (a • u + b • v + c • w) ⬝ᵥ w = c := by
  have hcomb := h.dot_comb a b c 0 0 1
  rwa [zero_smul, zero_smul, one_smul, zero_add, zero_add, mul_zero, mul_zero, zero_add, zero_add,
    mul_one] at hcomb

/-- The square of the length. -/
theorem dot_self (h : IsFrame u v w) (a b c : R) :
    (a • u + b • v + c • w) ⬝ᵥ (a • u + b • v + c • w) = a ^ 2 + b ^ 2 + c ^ 2 := by
  rw [h.dot_comb, sq, sq, sq]

end IsFrame

end Framework
