import Mathlib.Algebra.Group.Units.Basic
import Mathlib.Data.BitVec
import Mathlib.Data.Fintype.EquivFin
import Mathlib.Data.Nat.Prime.Basic

/-!
# Bijections of words

What pseudorandom generators are put together from, on the words of `w` bits: the
affine maps with an odd factor (`affine_bijective`), and the xorshifts by an amount
that the word itself gives, as long as it is read off the bits that are shifted out
of the way (`xorShift_bijective`). And mixed-radix digits are packed into a number
(`packed_inj`).
-/

namespace Framework

open Function

variable {w : ℕ}

/-- There are finitely many words. -/
instance instFiniteBitVec : Finite (BitVec w) :=
  Finite.of_injective BitVec.toFin BitVec.toFin_injective

/-! ### Affine maps -/

/-- An odd word is invertible. -/
theorem isUnit_ofNat_of_odd {a : ℕ} (ha : Odd a) : IsUnit (BitVec.ofNat w a) := by
  cases w with
  | zero => exact isUnit_of_subsingleton _
  | succ w =>
    have hcoprime : a.Coprime (2 ^ (w + 1)) := ha.coprime_two_right.pow_right (w + 1)
    have hone : 1 < 2 ^ (w + 1) := Nat.one_lt_two_pow (Nat.succ_ne_zero w)
    obtain ⟨b, -, hb⟩ := Nat.exists_mul_mod_eq_one_of_coprime hcoprime hone
    apply IsUnit.of_mul_eq_one (BitVec.ofNat (w + 1) b)
    apply BitVec.eq_of_toNat_eq
    calc (BitVec.ofNat (w + 1) a * BitVec.ofNat (w + 1) b).toNat
        = a * b % 2 ^ (w + 1) := by
          rw [BitVec.toNat_mul, BitVec.toNat_ofNat, BitVec.toNat_ofNat, ← Nat.mul_mod]
      _ = 1 := hb
      _ = (1 : BitVec (w + 1)).toNat := (Nat.mod_eq_of_lt hone).symm

/-- **Multiplying by an odd word and adding another is a bijection.** -/
theorem affine_bijective {a : ℕ} (ha : Odd a) (c : BitVec w) :
    Bijective fun x : BitVec w => x * BitVec.ofNat w a + c := by
  rw [← Finite.injective_iff_bijective]
  intro x y h
  exact (isUnit_ofNat_of_odd ha).mul_left_injective (add_right_cancel h)

/-! ### Xorshifts -/

/-- A word xored with itself, shifted to the right by an amount that it gives. -/
def xorShift (shift : BitVec w → ℕ) (x : BitVec w) : BitVec w :=
  x ^^^ (x >>> shift x)

/-- The amount is at least `k`, and is read off the `k` highest bits. -/
structure ReadsHighBits (k : ℕ) (shift : BitVec w → ℕ) : Prop where
  pos : 0 < k
  le : ∀ x, k ≤ shift x
  congr : ∀ x y : BitVec w, (∀ i, w ≤ i + k → x.getLsbD i = y.getLsbD i) → shift x = shift y

/-- An amount that is the same for all words. -/
theorem readsHighBits_const {k : ℕ} (hk : 0 < k) :
    ReadsHighBits k fun _ : BitVec w => k :=
  ⟨hk, fun _ => le_rfl, fun _ _ _ => rfl⟩

section XorShift

variable {k : ℕ} {shift : BitVec w → ℕ} {x y : BitVec w}

theorem getLsbD_xorShift (shift : BitVec w → ℕ) (x : BitVec w) (i : ℕ) :
    (xorShift shift x).getLsbD i = (x.getLsbD i ^^ x.getLsbD (shift x + i)) := by
  unfold xorShift
  rw [BitVec.getLsbD_xor, BitVec.getLsbD_ushiftRight]

/-- The `k` highest bits stay as they are. -/
theorem ReadsHighBits.getLsbD (h : ReadsHighBits k shift) (x : BitVec w) {i : ℕ}
    (hi : w ≤ i + k) : (xorShift shift x).getLsbD i = x.getLsbD i := by
  have hle := h.le x
  rw [getLsbD_xorShift, BitVec.getLsbD_of_ge x (shift x + i) (by omega), Bool.xor_false]

/-- **A xorshift is a bijection**, if the highest bits tell how far it shifts. -/
theorem xorShift_bijective (h : ReadsHighBits k shift) : Bijective (xorShift shift) := by
  rw [← Finite.injective_iff_bijective]
  intro x y hxy
  have hshift : shift x = shift y := by
    apply h.congr
    intro i hi
    rw [← h.getLsbD x hi, hxy, h.getLsbD y hi]
  -- from the highest bit down, a bit is given by the one `shift x` above it
  have hbits (n i : ℕ) (hi : w ≤ i + n) : x.getLsbD i = y.getLsbD i := by
    induction n generalizing i with
    | zero => rw [BitVec.getLsbD_of_ge x i hi, BitVec.getLsbD_of_ge y i hi]
    | succ n ih =>
      have hpos := h.pos.trans_le (h.le y)
      have hbit := congrArg (fun z => z.getLsbD i) hxy
      simp only [getLsbD_xorShift] at hbit
      rw [hshift, ih (shift y + i) (by omega)] at hbit
      exact Bool.xor_left_inj.mp hbit
  apply BitVec.eq_of_getLsbD_eq
  intro i _
  exact hbits w i (Nat.le_add_left w i)

end XorShift

/-! ### Packing -/

theorem packed_lt {radix n i j : ℕ} (hi : i < radix) (hj : j < n) : i + j * radix < n * radix := by
  calc i + j * radix < radix + j * radix := Nat.add_lt_add_right hi _
    _ = (j + 1) * radix := by rw [Nat.succ_mul, Nat.add_comm]
    _ ≤ n * radix := Nat.mul_le_mul_right radix hj

/-- A number tells its digits apart. -/
theorem packed_inj {radix i i' j j' : ℕ} (hi : i < radix) (hi' : i' < radix) :
    i + j * radix = i' + j' * radix ↔ i = i' ∧ j = j' := by
  constructor
  · intro h
    have hmod := congrArg (· % radix) h
    have hdiv := congrArg (· / radix) h
    have hpos : 0 < radix := Nat.zero_lt_of_lt hi
    simp only [Nat.add_mul_mod_self_right, Nat.mod_eq_of_lt hi, Nat.mod_eq_of_lt hi'] at hmod
    simp only [Nat.add_mul_div_right _ _ hpos, Nat.div_eq_of_lt hi, Nat.div_eq_of_lt hi',
      Nat.zero_add] at hdiv
    exact ⟨hmod, hdiv⟩
  · rintro ⟨rfl, rfl⟩
    rfl

end Framework
