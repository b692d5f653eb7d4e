import Mathlib.Analysis.SpecialFunctions.Pow.Real
import Mathlib.Analysis.SpecialFunctions.Trigonometric.Bounds
import Pathological.Framework.Frame
import Pathological.RenderWorker.PathTracer

/-!
# The shaders in exact arithmetic

GLSL's functions over the real numbers: what the shaders mean when nothing is rounded. A
`vec3` is then a vector of space (`Vec3.toFun`), and its operations are those of space.

Angles are those of the source, which writes `3.14159265359` where it means π.
-/

namespace Pathological.RenderWorker

open Framework Matrix

/-- `dot`, `cross` and `normalize` as the GLSL specification has them, without rounding. -/
noncomputable instance : Glsl ℝ where
  ofUInt n := n.toNat
  abs x := |x|
  sqrt := Real.sqrt
  sin := Real.sin
  cos := Real.cos
  tan := Real.tan
  pow x y := x ^ y
  clamp x low high := min (max x low) high
  lt x y := decide (x < y)
  dot u v := u.x * v.x + u.y * v.y + u.z * v.z
  cross u v := ⟨u.y * v.z - u.z * v.y, u.z * v.x - u.x * v.z, u.x * v.y - u.y * v.x⟩
  normalize v :=
    let length := Real.sqrt (v.x * v.x + v.y * v.y + v.z * v.z)
    ⟨v.x / length, v.y / length, v.z / length⟩
  unorm8 x := UInt8.ofNat ⌊x * 255 + 1 / 2⌋₊

/-- The same functions of glm. -/
noncomputable instance : Glm ℝ where
  radians x := x * 0.01745329251994329576923690768489
  sub u v := ⟨u.x - v.x, u.y - v.y, u.z - v.z⟩
  cross u v := ⟨u.y * v.z - v.y * u.z, u.z * v.x - v.z * u.x, u.x * v.y - v.x * u.y⟩
  normalize v :=
    let length := Real.sqrt (v.x * v.x + v.y * v.y + v.z * v.z)
    ⟨v.x / length, v.y / length, v.z / length⟩

namespace Vec3

/-- The vector of space. -/
def toFun (v : Vec3 ℝ) : Fin 3 → ℝ := ![v.x, v.y, v.z]

variable {u v : Vec3 ℝ}

theorem ext_toFun (h : u.toFun = v.toFun) : u = v := by
  have hx : u.x = v.x := congrFun h 0
  have hy : u.y = v.y := congrFun h 1
  have hz : u.z = v.z := congrFun h 2
  cases u
  cases v
  rw [Vec3.mk.injEq]
  exact ⟨hx, hy, hz⟩

theorem toFun_add : (u + v).toFun = u.toFun + v.toFun := by
  ext i
  fin_cases i <;> rfl

theorem toFun_sub : (u - v).toFun = u.toFun - v.toFun := by
  ext i
  fin_cases i <;> rfl

theorem toFun_neg : (-u).toFun = -u.toFun := by
  ext i
  fin_cases i <;> rfl

theorem toFun_mul (a : ℝ) : (u * a).toFun = a • u.toFun := by
  ext i
  fin_cases i <;> exact mul_comm _ _

theorem dot_eq : Glsl.dot u v = u.toFun ⬝ᵥ v.toFun := by
  rw [vec3_dotProduct]
  rfl

theorem toFun_cross : (Glsl.cross u v).toFun = u.toFun ⨯₃ v.toFun := by
  rw [cross_apply]
  rfl

theorem toFun_normalize : (Glsl.normalize u).toFun =
    (Real.sqrt (Glsl.dot u u))⁻¹ • u.toFun := by
  ext i
  fin_cases i <;> exact div_eq_inv_mul _ _

/-- A vector of length 1. -/
def IsUnit (v : Vec3 ℝ) : Prop := Glsl.dot v v = 1

theorem isUnit_iff : v.IsUnit ↔ v.toFun ⬝ᵥ v.toFun = 1 := by
  rw [IsUnit, dot_eq]

/-- A unit vector is normal. -/
theorem IsUnit.normalize_eq (h : v.IsUnit) : Glsl.normalize v = v := by
  refine ext_toFun ?_
  rw [toFun_normalize, show Glsl.dot v v = 1 from h, Real.sqrt_one, inv_one, one_smul]

/-- What is normalized is a unit vector, where there is a direction. -/
theorem isUnit_normalize (h : 0 < Glsl.dot v v) : (Glsl.normalize v).IsUnit := by
  rw [isUnit_iff, toFun_normalize, smul_dotProduct, dotProduct_smul, ← dot_eq, smul_eq_mul,
    smul_eq_mul, ← mul_assoc, ← mul_inv, Real.mul_self_sqrt h.le, inv_mul_cancel₀ h.ne']

theorem IsUnit.neg (h : v.IsUnit) : (-v).IsUnit := by
  rw [isUnit_iff] at h ⊢
  rw [toFun_neg, neg_dotProduct, dotProduct_neg, neg_neg, h]

end Vec3

/-! ### Random numbers -/

/-- `randomFloat` is in the unit interval, both ends included. -/
theorem randomFloat_mem (seed : UInt32) : (randomFloat (F := ℝ) seed).1 ∈ Set.Icc 0 1 := by
  have hword : ((pcg seed).1.toNat : ℝ) ≤ ((0xFFFFFFFF : UInt32).toNat : ℝ) := by
    rw [Nat.cast_le, show (0xFFFFFFFF : UInt32).toNat = 2 ^ 32 - 1 from rfl]
    exact Nat.le_sub_one_of_lt (pcg seed).1.toNat_lt
  show ((pcg seed).1.toNat : ℝ) / ((0xFFFFFFFF : UInt32).toNat : ℝ) ∈ Set.Icc 0 1
  exact ⟨div_nonneg (Nat.cast_nonneg _) (Nat.cast_nonneg _),
    div_le_one_of_le₀ hword (Nat.cast_nonneg _)⟩

end Pathological.RenderWorker
