import Mathlib.Algebra.Order.Ring.Rat
import Mathlib.Analysis.Convex.Basic
import Pathological.Framework.Keyframes
import Pathological.RenderWorker.Animation

/-!
# Sampling a channel

`sampleVec3Channel` and `sampleQuatChannel` take the keyframes that `select`
takes (`sampleChannel_eq_value`), here over an ordered field. So they are safe
with any key times (`keyframes_selected`), and with increasing ones
`sampleVec3Channel` is the piecewise linear interpolant of the values
(`samples_interpolant`).
-/

namespace Pathological.RenderWorker

open Framework

/-- Exact arithmetic: the comparison and the division of the field, and
`glm::mix(x, y, a)` is `x * (1 - a) + y * a`. -/
class ExactGlm (K : Type) [Field K] [LinearOrder K] [GlmScene K] : Prop where
  le_iff (x y : K) : GlmScene.le x y = true ↔ x ≤ y
  div_eq (x y : K) : GlmScene.div x y = x / y
  mix_eq (u v : Vec3 K) (a : K) : GlmScene.mix u v a =
    ⟨u.x * (1 - a) + v.x * a, u.y * (1 - a) + v.y * a, u.z * (1 - a) + v.z * a⟩

instance : ExactGlm ℚ where
  le_iff _ _ := decide_eq_true_iff
  div_eq _ _ := rfl
  mix_eq _ _ _ := rfl

section Keyframes

variable {K V : Type} [GlmScene K]

/-- The sampler has `n` keyframes, at the times `ts`, with the values `vs`. -/
def HasKeyframes (model : Gltf.Model) (anim : Gltf.Animation) (samplerIdx : ℕ)
    (valueAt : List UInt8 → ℕ → Except Fault V) (n : ℕ) (ts : ℕ → K) (vs : ℕ → V) : Prop :=
  ∃ sampler input times output values, anim.samplers[samplerIdx]? = some sampler ∧
    model.accessors[sampler.input]? = some input ∧ model.pointer input = .ok times ∧
    model.accessors[sampler.output]? = some output ∧ model.pointer output = .ok values ∧
    input.count = n ∧ (∀ k < n, floatAt times k = .ok (ts k)) ∧
    ∀ k < n, valueAt values k = .ok (vs k)

/-- A sampler in range has keyframes. -/
theorem Gltf.Model.HoldsKeyframes.exists_hasKeyframes {model : Gltf.Model} {anim : Gltf.Animation}
    {samplerIdx width : ℕ} {sampler : Gltf.AnimationSampler} [Inhabited V]
    {valueAt : List UInt8 → ℕ → Except Fault V} (h : model.HoldsKeyframes sampler width)
    (hsampler : anim.samplers[samplerIdx]? = some sampler)
    (hvalue : ∀ p k n, k < n → n * width ≤ p.length → ∃ v, valueAt p k = .ok v) :
    ∃ n, ∃ ts : ℕ → K, ∃ vs, HasKeyframes model anim samplerIdx valueAt n ts vs := by
  obtain ⟨input, times, output, values, hinput, htimes, htimesLen, houtput, hvalues, hvaluesLen⟩ :=
    h
  have hget {W : Type} {x : Except Fault W} {w : W} (hx : ∃ w, x = .ok w) :
      x = .ok (x.toOption.getD w) := by
    obtain ⟨_, rfl⟩ := hx
    rfl
  exact ⟨input.count, fun k => (floatAt times k).toOption.getD (GlmScene.ofRat 0),
    fun k => (valueAt values k).toOption.getD default, sampler, input, times, output, values,
    hsampler, hinput, htimes, houtput, hvalues, rfl, fun k hk => hget (exists_floatAt hk htimesLen),
    fun k hk => hget (hvalue values k _ hk hvaluesLen)⟩

end Keyframes

section Sampling

variable {K V : Type} [Field K] [LinearOrder K] [GlmScene K] [ExactGlm K]
  {model : Gltf.Model} {anim : Gltf.Animation} {samplerIdx n : ℕ}
  {valueAt : List UInt8 → ℕ → Except Fault V} {ts : ℕ → K} {vs : ℕ → V} {time : K}

/-- The loop is the search over the segments. -/
theorem sampleBetween_eq_value {times : List UInt8} {value : ℕ → Except Fault V}
    (interpolate : V → V → K → V) (default : V) (htimes : ∀ k < n, floatAt times k = .ok (ts k))
    (hvalue : ∀ k < n, value k = .ok (vs k)) {is : List ℕ} (his : ∀ i ∈ is, i + 1 < n) :
    sampleBetween times value interpolate default time is =
      .ok (((selectSegment ts time is).map (Selection.value interpolate n vs)).getD default) := by
  induction is with
  | nil => rfl
  | cons i is ih =>
    have hi : i + 1 < n := his i List.mem_cons_self
    have hi' : i < n := Nat.lt_of_succ_lt hi
    rw [sampleBetween, htimes i hi', htimes (i + 1) hi]
    show (if (GlmScene.le (ts i) time && GlmScene.le time (ts (i + 1))) = true then _ else _) = _
    by_cases hin : ts i ≤ time ∧ time ≤ ts (i + 1)
    · rw [if_pos (by rw [Bool.and_eq_true, ExactGlm.le_iff, ExactGlm.le_iff]; exact hin),
        hvalue i hi', hvalue (i + 1) hi, selectSegment_cons_of_mem hin, ExactGlm.div_eq]
      rfl
    · rw [if_neg (by rw [Bool.and_eq_true, ExactGlm.le_iff, ExactGlm.le_iff]; exact hin),
        ih fun i' hi' => his i' (List.mem_cons_of_mem _ hi'), selectSegment_cons_of_notMem hin]

/-- Sampling takes the keyframes that the search selects. -/
theorem sampleChannel_eq_value (interpolate : V → V → K → V) (default : V) {s : Selection K}
    (hkeys : HasKeyframes model anim samplerIdx valueAt n ts vs) (hn : 0 < n)
    (hs : select n ts time = some s) :
    sampleChannel model anim samplerIdx valueAt interpolate default time =
      .ok (s.value interpolate n vs) := by
  obtain ⟨sampler, input, times, output, values, hsampler, hinput, htimes, houtput, hvalues, hcount,
    hts, hvs⟩ := hkeys
  have hlast : n - 1 < n := Nat.sub_one_lt hn.ne'
  rw [sampleChannel, elem_eq_ok.mpr hsampler]
  show (elem model.accessors sampler.input >>= _) = _
  rw [elem_eq_ok.mpr hinput]
  show (model.pointer input >>= _) = _
  rw [htimes]
  show (elem model.accessors sampler.output >>= _) = _
  rw [elem_eq_ok.mpr houtput]
  show (model.pointer output >>= _) = _
  rw [hvalues]
  show (if input.count = 0 then _ else _) = _
  rw [hcount, if_neg hn.ne', hts 0 hn]
  show (if GlmScene.le time (ts 0) = true then _ else _) = _
  unfold select at hs
  split at hs
  · rename_i hle
    obtain rfl := Option.some.inj hs
    rw [if_pos ((ExactGlm.le_iff _ _).mpr hle), hvs 0 hn]
    rfl
  rename_i hfirst
  rw [if_neg (mt (ExactGlm.le_iff _ _).mp hfirst), hts _ hlast]
  show (if GlmScene.le (ts (n - 1)) time = true then _ else _) = _
  split at hs
  · rename_i hle
    obtain rfl := Option.some.inj hs
    rw [if_pos ((ExactGlm.le_iff _ _).mpr hle), hvs _ hlast]
    rfl
  · rename_i hle
    rw [if_neg (mt (ExactGlm.le_iff _ _).mp hle),
      sampleBetween_eq_value interpolate default hts hvs fun i hi => by
        have hlt := List.mem_range.mp hi
        omega, hs]
    rfl

/-! ### Any key times -/

/-- The components are between those of `u` and `v`. -/
structure Vec3.IsBetween (u v w : Vec3 K) : Prop where
  x : w.x ∈ Set.uIcc u.x v.x
  y : w.y ∈ Set.uIcc u.y v.y
  z : w.z ∈ Set.uIcc u.z v.z

/-- The selection is right for the time, without a division by zero, and no value
index is out of range. -/
structure SafeSelection (n : ℕ) (ts : ℕ → K) (time : K) (s : Selection K) : Prop where
  at_time : s.At n ts time
  divisor : ∀ i alpha, s = .between i alpha → ts (i + 1) - ts i ≠ 0
  alpha : ∀ i alpha, s = .between i alpha → 0 < alpha ∧ alpha ≤ 1
  value_index : ∀ k, k = s.lower n ∨ k = s.upper n → ∀ c < 3, k * 3 + c < 3 * n

variable [IsStrictOrderedRing K]

omit [GlmScene K] [ExactGlm K] in
theorem safeSelection_of_at (hn : 0 < n) {s : Selection K} (hs : s.At n ts time) :
    SafeSelection n ts time s where
  at_time := hs
  divisor := by
    rintro i alpha rfl
    exact hs.divisor_pos.ne'
  alpha := by
    rintro i alpha rfl
    exact ⟨hs.alpha_pos, hs.alpha_le_one⟩
  value_index := by
    have hlower : s.lower n < n := hs.lower_lt hn
    have hupper : s.upper n < n := hs.upper_lt hn
    rintro k (rfl | rfl) c hc <;> omega

omit [GlmScene K] [ExactGlm K] in
/-- What is mixed of two numbers is between them. -/
theorem mix_mem_uIcc {a b alpha : K} (hpos : 0 < alpha) (hle : alpha ≤ 1) :
    a * (1 - alpha) + b * alpha ∈ Set.uIcc a b := by
  have hconvex : Convex K (Set.uIcc a b) := convex_uIcc a b
  have hmem := hconvex Set.left_mem_uIcc Set.right_mem_uIcc (sub_nonneg.mpr hle) hpos.le
    (sub_add_cancel 1 alpha)
  rwa [smul_eq_mul, smul_eq_mul, mul_comm _ a, mul_comm _ b] at hmem

theorem isBetween_value (vs : ℕ → Vec3 K) {s : Selection K} (hs : s.At n ts time) :
    Vec3.IsBetween (vs (s.lower n)) (vs (s.upper n)) (s.value GlmScene.mix n vs) := by
  cases s with
  | first => exact ⟨Set.left_mem_uIcc, Set.left_mem_uIcc, Set.left_mem_uIcc⟩
  | last => exact ⟨Set.left_mem_uIcc, Set.left_mem_uIcc, Set.left_mem_uIcc⟩
  | between i alpha =>
    rw [Selection.value, ExactGlm.mix_eq]
    exact ⟨mix_mem_uIcc hs.alpha_pos hs.alpha_le_one, mix_mem_uIcc hs.alpha_pos hs.alpha_le_one,
      mix_mem_uIcc hs.alpha_pos hs.alpha_le_one⟩

/-- **With any key times, one selection is right for the time, and both functions
take the keyframes it names**: the loop is not left without a value, and the value
of a `Vec3` channel is between those of the keyframes. -/
theorem keyframes_selected (hn : 1 ≤ n) (ts : ℕ → K) (time : K) :
    ∃ s : Selection K, SafeSelection n ts time s ∧
      (∀ model anim samplerIdx vs, HasKeyframes model anim samplerIdx vec3At n ts vs →
        sampleVec3Channel model anim samplerIdx time = .ok (s.value GlmScene.mix n vs) ∧
        -- the vector after the loop does not matter
        (∀ default, sampleChannel model anim samplerIdx vec3At GlmScene.mix default time =
          sampleVec3Channel model anim samplerIdx time) ∧
        Vec3.IsBetween (vs (s.lower n)) (vs (s.upper n)) (s.value GlmScene.mix n vs)) ∧
      ∀ model anim samplerIdx qs, HasKeyframes model anim samplerIdx quatAt n ts qs →
        sampleQuatChannel model anim samplerIdx time = .ok (s.value GlmScene.slerp n qs) ∧
        ∀ default, sampleChannel model anim samplerIdx quatAt GlmScene.slerp default time =
          sampleQuatChannel model anim samplerIdx time := by
  obtain ⟨s, hselect, hs⟩ := exists_select n ts time
  refine ⟨s, safeSelection_of_at hn hs, fun model anim samplerIdx vs hkeys => ?_,
    fun model anim samplerIdx qs hkeys => ?_⟩
  · have hsample (default : Vec3 K) := sampleChannel_eq_value GlmScene.mix default hkeys hn hselect
    exact ⟨hsample _, fun default => (hsample default).trans (hsample _).symm,
      isBetween_value vs hs⟩
  · have hsample (default : Quat K) :=
      sampleChannel_eq_value GlmScene.slerp default hkeys hn hselect
    exact ⟨hsample _, fun default => (hsample default).trans (hsample _).symm⟩

end Sampling

/-- Key times, and for each a translation along the x axis, as the bytes of
floats. -/
def keyedModel (times xs : List (List UInt8)) : Gltf.Model where
  accessors := [{ bufferView := some 0, componentType := .float, count := times.length },
    { bufferView := some 1, componentType := .float, count := xs.length }]
  bufferViews := [{ buffer := 0 }, { buffer := 1 }]
  buffers := [⟨times.flatten⟩, ⟨xs.flatMap fun x => x ++ List.replicate 8 0⟩]

theorem hasKeyframes_keyedModel {times xs : List (List UInt8)} {n : ℕ} {ts : ℕ → ℚ}
    {vs : ℕ → Vec3 ℚ} (hn : times.length = n) (htimes : times.flatten ≠ [])
    (hxs : (xs.flatMap fun x => x ++ List.replicate 8 0) ≠ [])
    (hts : ∀ k < n, floatAt times.flatten k = .ok (ts k))
    (hvs : ∀ k < n,
      vec3At (xs.flatMap fun x => x ++ List.replicate 8 0) k = .ok (vs k)) :
    HasKeyframes (keyedModel times xs) moveFirst 0 vec3At n ts vs :=
  ⟨⟨0, 1⟩, _, _, _, _, rfl, rfl, addressOf_zero htimes, rfl, addressOf_zero hxs, hn, hts, hvs⟩

/-- The times 1, 1, 3, 2 and the translations 0, 1, 2, 3. -/
def unsortedKeys : Gltf.Model :=
  keyedModel [[0, 0, 0x80, 0x3F], [0, 0, 0x80, 0x3F], [0, 0, 0x40, 0x40], [0, 0, 0, 0x40]]
    [[0, 0, 0, 0], [0, 0, 0x80, 0x3F], [0, 0, 0, 0x40], [0, 0, 0x40, 0x40]]

theorem unsortedKeys_hasKeyframes : HasKeyframes unsortedKeys moveFirst 0 vec3At 4
    (fun k => [(1 : ℚ), 1, 3, 2].getD k 0) fun k => ⟨(k : ℚ), 0, 0⟩ :=
  hasKeyframes_keyedModel rfl (by decide) (by decide) (by decide +kernel) (by decide +kernel)

theorem keyframes_selected_unsorted : ∃ s : Selection ℚ,
    SafeSelection 4 (fun k => [1, 1, 3, 2].getD k 0) (3 / 2) s ∧
      sampleVec3Channel unsortedKeys moveFirst 0 (3 / 2) =
        .ok (s.value GlmScene.mix 4 fun k => ⟨(k : ℚ), 0, 0⟩) := by
  obtain ⟨s, hsafe, hvec3, -⟩ :=
    keyframes_selected (show 1 ≤ 4 by decide) (fun k => [1, 1, 3, 2].getD k 0) (3 / 2 : ℚ)
  exact ⟨s, hsafe, (hvec3 _ _ _ _ unsortedKeys_hasKeyframes).1⟩

/-! ### Increasing key times -/

section Increasing

variable {K : Type} [Field K] [LinearOrder K] [GlmScene K] [ExactGlm K]
  {model : Gltf.Model} {anim : Gltf.Animation} {samplerIdx n : ℕ} {ts : ℕ → K}

/-- `a` of the way from `u` to `v`. -/
def Vec3.along (u v : Vec3 K) (a : K) : Vec3 K :=
  ⟨u.x + a * (v.x - u.x), u.y + a * (v.y - u.y), u.z + a * (v.z - u.z)⟩

theorem mix_eq_along (u v : Vec3 K) (a : K) : GlmScene.mix u v a = u.along v a := by
  rw [ExactGlm.mix_eq, Vec3.along, Vec3.mk.injEq]
  exact ⟨by ring, by ring, by ring⟩

/-- **With increasing key times, a `Vec3` channel is sampled as the interpolant of
its values, which is unique and has each value at its key time.** -/
theorem samples_interpolant [IsStrictOrderedRing K] (hn : 1 ≤ n) {vs : ℕ → Vec3 K}
    (hmono : StrictMonoOn ts (Set.Iio n))
    (hkeys : HasKeyframes model anim samplerIdx vec3At n ts vs) :
    ∃ f : K → Vec3 K, (∀ t, sampleVec3Channel model anim samplerIdx t = .ok (f t)) ∧
      IsInterpolant Vec3.along n ts vs f ∧
      (∀ g, IsInterpolant Vec3.along n ts vs g → g = f) ∧
      ∀ i < n, f (ts i) = vs i := by
  have hzero (u v : Vec3 K) : u.along v 0 = u := by simp [Vec3.along]
  have hone (u v : Vec3 K) : u.along v 1 = v := by simp [Vec3.along]
  have hmix : (GlmScene.mix : Vec3 K → Vec3 K → K → Vec3 K) = Vec3.along := by
    funext u v a
    exact mix_eq_along u v a
  choose s hselect hs using exists_select n ts
  have hinterpolant : IsInterpolant Vec3.along n ts vs fun t => (s t).value Vec3.along n vs :=
    isInterpolant_of_at hmono hzero hone hn fun t => ⟨s t, hs t, rfl⟩
  refine ⟨_, fun t => ?_, hinterpolant, fun g hg => hg.unique hinterpolant,
    fun i hi => (hs (ts i)).value_keyTime hmono hone hi⟩
  rw [← hmix]
  exact sampleChannel_eq_value GlmScene.mix _ hkeys hn (hselect t)

end Increasing

/-- The times 1, 2, 3 and the translations 2, 0, 1. -/
def increasingKeys : Gltf.Model :=
  keyedModel [[0, 0, 0x80, 0x3F], [0, 0, 0, 0x40], [0, 0, 0x40, 0x40]]
    [[0, 0, 0, 0x40], [0, 0, 0, 0], [0, 0, 0x80, 0x3F]]

theorem increasingKeys_hasKeyframes : HasKeyframes increasingKeys moveFirst 0 vec3At 3
    (fun k => (k + 1 : ℚ)) fun k => ⟨[(2 : ℚ), 0, 1].getD k 0, 0, 0⟩ :=
  hasKeyframes_keyedModel rfl (by decide) (by decide) (by decide +kernel) (by decide +kernel)

theorem samples_interpolant_increasing : ∃ f : ℚ → Vec3 ℚ,
    (∀ t, sampleVec3Channel increasingKeys moveFirst 0 t = .ok (f t)) ∧
      IsInterpolant Vec3.along 3 (fun k => (k + 1 : ℚ))
        (fun k => ⟨[2, 0, 1].getD k 0, 0, 0⟩) f := by
  have hmono : StrictMonoOn (fun k : ℕ => (k + 1 : ℚ)) (Set.Iio 3) := fun i _ j _ hij => by
    simpa using hij
  obtain ⟨f, hf, hinterpolant, -⟩ :=
    samples_interpolant (show 1 ≤ 3 by decide) hmono increasingKeys_hasKeyframes
  exact ⟨f, hf, hinterpolant⟩

end Pathological.RenderWorker
