import Mathlib.Logic.Function.Iterate
import Pathological.Framework.Words
import Pathological.RenderWorker.Shader

/-!
# Random words

Each invocation of `raygen.rgen` draws its random words from a seed of its own: the
index of its pixel in the sequence of all pixels of all frames. As long as that fits 32
bits, no two pixels have the same seed, nor do they ever have the same state of `pcg` or
the same word after equally many draws (`words_never_shared`), since the step of the
state and the permutation of its bits are bijections.
-/

namespace Pathological.RenderWorker

open Framework Function

/-! ### `pcg` -/

/-- What `pcg` does to the state. -/
def pcgStep (state : UInt32) : UInt32 := (pcg state).2

/-- The word `pcg` returns when it has left the state `prev`. -/
def pcgOutput (prev : UInt32) : UInt32 :=
  let word := ((prev >>> ((prev >>> 28) + 4)) ^^^ prev) * 277803737
  (word >>> 22) ^^^ word

/-- The word of draw `k`, counted from 0. -/
def pcgWord (seed : UInt32) (k : ℕ) : UInt32 := (pcg (pcgStep^[k] seed)).1

theorem pcg_eq (state : UInt32) : pcg state = (pcgOutput (pcgStep state), pcgStep state) := rfl

theorem pcgWord_eq (seed : UInt32) (k : ℕ) : pcgWord seed k = pcgOutput (pcgStep^[k + 1] seed) := by
  rw [Function.iterate_succ_apply']
  exact congrArg Prod.fst (pcg_eq _)

/-- A function on the words is a bijection if it is one on their bits. -/
theorem bijective_of_toBitVec {f : UInt32 → UInt32} {g : BitVec 32 → BitVec 32}
    (hfg : ∀ x, (f x).toBitVec = g x.toBitVec) (hg : Bijective g) : Bijective f := by
  constructor
  · intro x y h
    apply UInt32.toBitVec_inj.mp
    apply hg.injective
    rw [← hfg, ← hfg, h]
  · intro y
    obtain ⟨b, hb⟩ := hg.surjective y.toBitVec
    refine ⟨UInt32.ofBitVec b, UInt32.toBitVec_inj.mp ?_⟩
    rw [hfg, ← hb]

/-- The state steps along an affine map. -/
theorem bijective_pcgStep : Bijective pcgStep := by
  have hodd : Odd 747796405 := by decide
  apply bijective_of_toBitVec (fun x => ?_) (affine_bijective hodd 2891336453)
  rfl

/-- How far the first xorshift of `pcg` shifts is in the four highest bits. -/
theorem readsHighBits_pcg : ReadsHighBits 4 fun x : BitVec 32 => ((x >>> 28 + 4) % 32).toNat where
  pos := by decide
  le x := by
    have hhigh : x.toNat / 2 ^ 28 < 16 := Nat.div_lt_of_lt_mul x.isLt
    calc 4 ≤ (x.toNat / 2 ^ 28 + 4) % 2 ^ 32 % 32 := by omega
      _ = ((x >>> 28 + 4) % 32).toNat := by
        rw [← Nat.shiftRight_eq_div_pow]
        rfl
  congr x y h := by
    have hhigh : x >>> 28 = y >>> 28 := by
      apply BitVec.eq_of_getLsbD_eq
      intro i _
      rw [BitVec.getLsbD_ushiftRight, BitVec.getLsbD_ushiftRight]
      exact h (28 + i) (by omega)
    rw [hhigh]

theorem bijective_xorShift_high : Bijective fun x : UInt32 => (x >>> ((x >>> 28) + 4)) ^^^ x := by
  apply bijective_of_toBitVec (fun x => ?_) (xorShift_bijective readsHighBits_pcg)
  rw [UInt32.toBitVec_xor, UInt32.toBitVec_shiftRight, BitVec.xor_comm]
  rfl

theorem bijective_xorShift_22 : Bijective fun x : UInt32 => (x >>> 22) ^^^ x := by
  apply bijective_of_toBitVec (fun x => ?_)
    (xorShift_bijective (readsHighBits_const (show 0 < 22 by decide)))
  rw [UInt32.toBitVec_xor, UInt32.toBitVec_shiftRight, BitVec.xor_comm]
  rfl

theorem bijective_pcgOutput : Bijective pcgOutput := by
  have hodd : Odd 277803737 := by decide
  have hmul : Bijective fun x : UInt32 => x * 277803737 := by
    apply bijective_of_toBitVec (fun x => ?_) (affine_bijective hodd 0)
    exact (add_zero (x.toBitVec * BitVec.ofNat 32 277803737)).symm
  exact bijective_xorShift_22.comp (hmul.comp bijective_xorShift_high)

/-! ### The seeds -/

section Seeds

variable {F : Type}

/-- The pixel is in the image, and the pixels of all frames up to this one are numbered
with 32 bits. -/
structure PushConstants.InBounds (pc : PushConstants F) (pixelCoord : UVec2) : Prop where
  x : pixelCoord.x.toNat < pc.imageSize.x.toNat
  y : pixelCoord.y.toNat < pc.imageSize.y.toNat
  frame : (pc.frameIndex.toNat + 1) * pc.imageSize.x.toNat * pc.imageSize.y.toNat ≤ 2 ^ 32

/-- The seed is the index of the pixel: its digits are the column, the row and the frame. -/
theorem toNat_raygenSeed {pc : PushConstants F} {p : UVec2} (h : pc.InBounds p) :
    (raygenSeed pc p).toNat = p.x.toNat +
      (p.y.toNat + pc.frameIndex.toNat * pc.imageSize.y.toNat) * pc.imageSize.x.toNat := by
  have hrow := packed_lt h.y (Nat.lt_succ_self pc.frameIndex.toNat)
  have hvalue : p.x.toNat + (p.y.toNat + pc.frameIndex.toNat * pc.imageSize.y.toNat) *
      pc.imageSize.x.toNat < 2 ^ 32 :=
    calc _ < (pc.frameIndex.toNat + 1) * pc.imageSize.y.toNat * pc.imageSize.x.toNat :=
          packed_lt h.x hrow
      _ = (pc.frameIndex.toNat + 1) * pc.imageSize.x.toNat * pc.imageSize.y.toNat :=
          Nat.mul_right_comm _ _ _
      _ ≤ 2 ^ 32 := h.frame
  have hseed : raygenSeed pc p = UInt32.ofNat (p.x.toNat +
      (p.y.toNat + pc.frameIndex.toNat * pc.imageSize.y.toNat) * pc.imageSize.x.toNat) := by
    rw [Nat.add_mul, ← Nat.add_assoc, Nat.mul_right_comm]
    simp only [UInt32.ofNat_add, UInt32.ofNat_mul, UInt32.ofNat_toNat]
    rfl
  rw [hseed, UInt32.toNat_ofNat_of_lt' hvalue]

/-- Different pixels, or the same in different frames, have different seeds. -/
theorem raygenSeed_inj {pc pc' : PushConstants F} {p p' : UVec2} (h : pc.InBounds p)
    (h' : pc'.InBounds p') (hsize : pc.imageSize = pc'.imageSize) :
    raygenSeed pc p = raygenSeed pc' p' ↔ p = p' ∧ pc.frameIndex = pc'.frameIndex := by
  have hx := h'.x
  have hy := h'.y
  rw [← hsize] at hx hy
  have hpixel : p = p' ↔ p.x = p'.x ∧ p.y = p'.y := by
    cases p
    cases p'
    exact UVec2.mk.injEq _ _ _ _ ▸ Iff.rfl
  rw [← UInt32.toNat_inj, toNat_raygenSeed h, toNat_raygenSeed h', ← hsize, packed_inj h.x hx,
    packed_inj h.y hy, UInt32.toNat_inj, UInt32.toNat_inj, UInt32.toNat_inj, hpixel, and_assoc]

/-- Two pixels of images of one size that differ in where they are, or in the frame. -/
structure DifferentPixels (pc pc' : PushConstants F) (p p' : UVec2) : Prop where
  left : pc.InBounds p
  right : pc'.InBounds p'
  imageSize : pc.imageSize = pc'.imageSize
  ne : (p, pc.frameIndex) ≠ (p', pc'.frameIndex)

/-- What is drawn for different pixels is never the same. -/
structure WordsNeverShared (F : Type) : Prop where
  seed : ∀ {pc pc' : PushConstants F} {p p' : UVec2}, DifferentPixels pc pc' p p' →
    raygenSeed pc p ≠ raygenSeed pc' p'
  state : ∀ {pc pc' : PushConstants F} {p p' : UVec2}, DifferentPixels pc pc' p p' →
    ∀ k, pcgStep^[k] (raygenSeed pc p) ≠ pcgStep^[k] (raygenSeed pc' p')
  word : ∀ {pc pc' : PushConstants F} {p p' : UVec2}, DifferentPixels pc pc' p p' →
    ∀ k, pcgWord (raygenSeed pc p) k ≠ pcgWord (raygenSeed pc' p') k
  step : Bijective pcgStep
  output : Bijective pcgOutput

theorem DifferentPixels.seed_ne {pc pc' : PushConstants F} {p p' : UVec2}
    (h : DifferentPixels pc pc' p p') : raygenSeed pc p ≠ raygenSeed pc' p' := by
  intro heq
  obtain ⟨hp, hframe⟩ := (raygenSeed_inj h.left h.right h.imageSize).mp heq
  exact h.ne (Prod.ext hp hframe)

/-- **Pixels never share random words.** -/
theorem words_never_shared (F : Type) : WordsNeverShared F := by
  have hstate (k : ℕ) : Injective pcgStep^[k] := bijective_pcgStep.injective.iterate k
  refine ⟨DifferentPixels.seed_ne, ?_, ?_, bijective_pcgStep, bijective_pcgOutput⟩
  · intro pc pc' p p' h k
    exact (hstate k).ne h.seed_ne
  · intro pc pc' p p' h k
    rw [pcgWord_eq, pcgWord_eq]
    exact bijective_pcgOutput.injective.ne ((hstate (k + 1)).ne h.seed_ne)

end Seeds

/-! ### The draws of an invocation -/

section Draws

variable {F : Type} [Glsl F]

/-- The shaders change the seed by drawing from it. -/
def Draws (seed seed' : UInt32) : Prop := ∃ k, seed' = pcgStep^[k] seed

theorem Draws.refl (seed : UInt32) : Draws seed seed := ⟨0, rfl⟩

theorem Draws.trans {a b c : UInt32} (h : Draws a b) (h' : Draws b c) : Draws a c := by
  obtain ⟨k, rfl⟩ := h
  obtain ⟨k', rfl⟩ := h'
  exact ⟨k' + k, (Function.iterate_add_apply pcgStep k' k a).symm⟩

theorem draws_randomFloat (seed : UInt32) : Draws seed (randomFloat (F := F) seed).2 :=
  ⟨1, rfl⟩

theorem draws_traceRay (scene : Scene F) (payload : RayPayload F) :
    Draws payload.seed (traceRay scene payload).seed := by
  unfold traceRay
  cases scene.traverse payload.origin payload.direction with
  | none => exact .refl _
  | some hit =>
    dsimp only [closestHit]
    split
    · exact .refl _
    · -- `randomInHemisphere` draws two numbers
      exact (draws_randomFloat (F := F) _).trans (draws_randomFloat (F := F) _)

theorem draws_bounces (scene : Scene F) (n : ℕ) (payload : RayPayload F)
    (throughput color : Vec3 F) :
    Draws payload.seed (bounces scene n payload payload.seed throughput color).2 := by
  induction n generalizing payload throughput color with
  | zero => exact .refl _
  | succ n ih =>
    unfold bounces
    dsimp only
    split
    · exact draws_traceRay scene payload
    · exact (draws_traceRay scene payload).trans (ih _ _ _)

/-- A sample leaves a state that draws lead to from the one it started with. -/
theorem draws_sample (scene : Scene F) (pc : PushConstants F) (p : UVec2) (seed : UInt32) :
    Draws seed (sample scene pc p seed).2 := by
  have hjitter := (draws_randomFloat (F := F) seed).trans (draws_randomFloat (F := F) _)
  unfold sample
  exact hjitter.trans (draws_bounces scene _ (RayPayload.mk _ _ _ _ _) _ _)

/-- So what an invocation draws from its seed are the words of that seed. -/
theorem draws_samples (scene : Scene F) (pc : PushConstants F) (p : UVec2) (n : ℕ) :
    Draws (raygenSeed pc p) ((fun seed => (sample scene pc p seed).2)^[n] (raygenSeed pc p)) := by
  induction n with
  | zero => exact .refl _
  | succ n ih =>
    rw [Function.iterate_succ_apply']
    exact ih.trans (draws_sample scene pc p _)

end Draws

end Pathological.RenderWorker
