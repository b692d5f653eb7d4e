import Pathological.RenderWorker.ExactGlsl

/-!
# The rays of a path

`randomInHemisphere` builds a frame around the normal and takes a direction of length 1 on
the normal's side (`randomInHemisphere_spec`); the axis it starts from is never along the
normal. The camera's vectors are a frame too, so the direction through a pixel is of length 1
whatever the jitter. So every ray that a path asks the hardware for is, and the distances
0.001 and 10000 between which `traceRayEXT` looks are lengths: what it would answer on another
ray is never seen (`raygenColor_unit_rays`).

A hit is of a triangle that has an area (`HitsArea`): no ray hits one that has none.
-/

namespace Pathological.RenderWorker

open Framework Matrix

/-! ### Directions around a normal -/

section Hemisphere

/-- The axis that the frame is built from. -/
def startAxis {F : Type} [Glsl F] (w : Vec3 F) : Vec3 F :=
  if Glsl.lt 0.9 (Glsl.abs w.x) then ⟨0.0, 1.0, 0.0⟩ else ⟨1.0, 0.0, 0.0⟩

/-- The first vector of the frame. -/
def tangent {F : Type} [Glsl F] (w : Vec3 F) : Vec3 F :=
  Glsl.normalize (Glsl.cross (startAxis w) w)

variable {w : Vec3 ℝ}

/-- It is a unit vector, and not along the normal. -/
theorem startAxis_spec (h : w.IsUnit) :
    (startAxis w).IsUnit ∧ Glsl.dot (startAxis w) w ^ 2 < 1 := by
  have hdot (u v : Vec3 ℝ) : Glsl.dot u v = u.x * v.x + u.y * v.y + u.z * v.z := rfl
  have hw : w.x * w.x + w.y * w.y + w.z * w.z = 1 := h
  have hlt : Glsl.lt (0.9 : ℝ) (Glsl.abs w.x) = true ↔ (0.9 : ℝ) < |w.x| := decide_eq_true_iff
  unfold Vec3.IsUnit startAxis
  rw [hdot, hdot]
  split
  · next hx =>
    rw [hlt] at hx
    have hsq : (0.9 : ℝ) ^ 2 < w.x ^ 2 := by
      rw [← sq_abs w.x]
      gcongr
    refine ⟨by norm_num, ?_⟩
    calc (0.0 * w.x + 1.0 * w.y + 0.0 * w.z) ^ 2 = w.y ^ 2 := by norm_num
      _ ≤ 1 - w.x ^ 2 := by linarith [sq_nonneg w.z]
      _ < 1 := by linarith [sq_nonneg (0.9 : ℝ)]
  · next hx =>
    rw [hlt, not_lt] at hx
    refine ⟨by norm_num, ?_⟩
    calc (1.0 * w.x + 0.0 * w.y + 0.0 * w.z) ^ 2 = |w.x| ^ 2 := by norm_num
      _ ≤ (0.9 : ℝ) ^ 2 := by gcongr
      _ < 1 := by norm_num

theorem tangent_frame (h : w.IsUnit) :
    IsFrame (tangent w).toFun (Glsl.cross w (tangent w)).toFun w.toFun := by
  have hw := Vec3.isUnit_iff.mp h
  obtain ⟨haxis, hsmall⟩ := startAxis_spec h
  rw [Vec3.isUnit_iff] at haxis
  have hpos : 0 < Glsl.dot (Glsl.cross (startAxis w) w) (Glsl.cross (startAxis w) w) := by
    rw [Vec3.dot_eq] at hsmall
    rw [Vec3.dot_eq, Vec3.toFun_cross, cross_dot_cross, haxis, hw, dotProduct_comm w.toFun]
    linarith
  have hperp : (tangent w).toFun ⬝ᵥ w.toFun = 0 := by
    rw [tangent, Vec3.toFun_normalize, smul_dotProduct, Vec3.toFun_cross, dotProduct_comm,
      dot_cross_self, smul_zero]
  have hframe := IsFrame.of_cross (Vec3.isUnit_iff.mp (Vec3.isUnit_normalize hpos)) hw hperp
  rwa [Vec3.toFun_cross]

/-- The direction at the angle `phi` in the frame, before it is normalized. -/
noncomputable def frameDirection (w : Vec3 ℝ) (phi r2 : ℝ) : Vec3 ℝ :=
  tangent w * Real.cos phi * Real.sqrt (1.0 - r2) +
    Glsl.cross w (tangent w) * Real.sin phi * Real.sqrt (1.0 - r2) + w * Real.sqrt r2

theorem toFun_frameDirection (w : Vec3 ℝ) (phi r2 : ℝ) : (frameDirection w phi r2).toFun =
    (Real.sqrt (1.0 - r2) * Real.cos phi) • (tangent w).toFun +
      (Real.sqrt (1.0 - r2) * Real.sin phi) • (Glsl.cross w (tangent w)).toFun +
      Real.sqrt r2 • w.toFun := by
  simp only [frameDirection, Vec3.toFun_add, Vec3.toFun_mul, smul_smul]

/-- It is of length 1 already. -/
theorem isUnit_frameDirection (h : w.IsUnit) (phi : ℝ) {r2 : ℝ} (hr2 : r2 ∈ Set.Icc 0 1) :
    (frameDirection w phi r2).IsUnit := by
  have hone : (0 : ℝ) ≤ 1.0 - r2 := by
    norm_num
    exact hr2.2
  rw [Vec3.isUnit_iff, toFun_frameDirection, (tangent_frame h).dot_self, mul_pow, mul_pow,
    Real.sq_sqrt hr2.1, Real.sq_sqrt hone, ← mul_add, Real.cos_sq_add_sin_sq]
  norm_num

/-- So it is the one that is sampled. -/
theorem randomInHemisphere_eq (h : w.IsUnit) (seed : UInt32) :
    (randomInHemisphere w seed).1 = frameDirection w (2.0 * 3.14159265359 * (randomFloat seed).1)
      (randomFloat (randomFloat (F := ℝ) seed).2).1 := by
  rw [← (isUnit_frameDirection h _ (randomFloat_mem _)).normalize_eq]
  rfl

theorem isUnit_randomInHemisphere (h : w.IsUnit) (seed : UInt32) :
    (randomInHemisphere w seed).1.IsUnit := by
  rw [randomInHemisphere_eq h]
  exact isUnit_frameDirection h _ (randomFloat_mem _)

theorem dot_randomInHemisphere (h : w.IsUnit) (seed : UInt32) :
    Glsl.dot (randomInHemisphere w seed).1 w =
      Real.sqrt (randomFloat (F := ℝ) (randomFloat (F := ℝ) seed).2).1 := by
  rw [randomInHemisphere_eq h, Vec3.dot_eq, toFun_frameDirection, (tangent_frame h).dot_last]

/-- **The direction is of length 1, on the side of the normal**: the cosine of the angle
between them is the root of the second random number. -/
theorem randomInHemisphere_spec (h : w.IsUnit) (seed : UInt32) :
    (randomInHemisphere w seed).1.IsUnit ∧
      Glsl.dot (randomInHemisphere w seed).1 w =
        Real.sqrt (randomFloat (F := ℝ) (randomFloat (F := ℝ) seed).2).1 :=
  ⟨isUnit_randomInHemisphere h seed, dot_randomInHemisphere h seed⟩

theorem randomInHemisphere_spec_up :
    (randomInHemisphere (⟨0, 0, 1⟩ : Vec3 ℝ) 7).1.IsUnit ∧
      Glsl.dot (randomInHemisphere (⟨0, 0, 1⟩ : Vec3 ℝ) 7).1 ⟨0, 0, 1⟩ =
        Real.sqrt (randomFloat (F := ℝ) (randomFloat (F := ℝ) 7).2).1 := by
  have hup : (⟨0, 0, 1⟩ : Vec3 ℝ).IsUnit := by
    show (0 : ℝ) * 0 + 0 * 0 + 1 * 1 = 1
    norm_num
  exact randomInHemisphere_spec hup 7

end Hemisphere

/-! ### At a hit -/

section Surface

variable {F : Type} [Glsl F]

/-- A corner of the triangle that is hit. -/
def Scene.corner (scene : Scene F) (hit : Hit F) (c : UInt32) : Vec3 F :=
  scene.vertices (scene.indices (hit.primitiveID * 3 + c))

/-- The cross product of two of its edges, whose length is twice its area. -/
def Scene.edgeCross (scene : Scene F) (hit : Hit F) : Vec3 F :=
  Glsl.cross (scene.corner hit 1 - scene.corner hit 0) (scene.corner hit 2 - scene.corner hit 0)

/-- The point that is hit. -/
def Scene.hitPos (scene : Scene F) (hit : Hit F) : Vec3 F :=
  scene.corner hit 0 * (1.0 - hit.attribs.1 - hit.attribs.2) + scene.corner hit 1 * hit.attribs.1 +
    scene.corner hit 2 * hit.attribs.2

/-- The normal of the triangle, on the side that the ray comes from. -/
def Scene.facingNormal (scene : Scene F) (hit : Hit F) (direction : Vec3 F) : Vec3 F :=
  let normal := Glsl.normalize (scene.edgeCross hit)
  if Glsl.lt 0.0 (Glsl.dot normal direction) then -normal else normal

/-- The material of the triangle. -/
def Scene.material (scene : Scene F) (hit : Hit F) : Material F :=
  scene.materials (scene.materialIndices hit.primitiveID)

/-- It gives off light. -/
def Material.isLight (mat : Material F) : Bool :=
  Glsl.lt 0.0 mat.emission.x || Glsl.lt 0.0 mat.emission.y || Glsl.lt 0.0 mat.emission.z

variable (scene : Scene F) (hit : Hit F) (direction : Vec3 F) (payload : RayPayload F)

/-- The path ends at a light, and goes on from any other surface. -/
theorem closestHit_light (h : (scene.material hit).isLight = true) :
    closestHit scene hit direction payload =
      { payload with color := (scene.material hit).emission, done := true } :=
  if_pos h

theorem closestHit_surface (h : (scene.material hit).isLight = false) :
    closestHit scene hit direction payload =
      { color := (scene.material hit).albedo
        origin := scene.hitPos hit + scene.facingNormal hit direction * (0.001 : F)
        direction := (randomInHemisphere (scene.facingNormal hit direction) payload.seed).1
        seed := (randomInHemisphere (scene.facingNormal hit direction) payload.seed).2
        done := false } :=
  if_neg (Bool.eq_false_iff.mp h)

/-- The closest-hit shader does not look at the acceleration structure. -/
theorem closestHit_traverse (traverse : Vec3 F → Vec3 F → Option (Hit F)) :
    closestHit { scene with traverse } hit direction payload =
      closestHit scene hit direction payload := rfl

end Surface

section Hit

variable {scene : Scene ℝ} {hit : Hit ℝ} {direction : Vec3 ℝ} {payload : RayPayload ℝ}

/-- What is hit has an area. -/
def HitsArea (scene : Scene ℝ) : Prop :=
  ∀ origin direction hit, scene.traverse origin direction = some hit →
    0 < Glsl.dot (scene.edgeCross hit) (scene.edgeCross hit)

theorem isUnit_facingNormal (h : 0 < Glsl.dot (scene.edgeCross hit) (scene.edgeCross hit)) :
    (scene.facingNormal hit direction).IsUnit := by
  have hunit := Vec3.isUnit_normalize h
  unfold Scene.facingNormal
  dsimp only
  split
  · exact hunit.neg
  · exact hunit

/-- The ray comes from its side. -/
theorem facingNormal_dot_le : Glsl.dot (scene.facingNormal hit direction) direction ≤ 0 := by
  have hlt {x : ℝ} : Glsl.lt (0.0 : ℝ) x = true ↔ (0.0 : ℝ) < x := decide_eq_true_iff
  unfold Scene.facingNormal
  dsimp only
  split
  · next h =>
    rw [hlt] at h
    norm_num at h
    rw [Vec3.dot_eq] at h ⊢
    rw [Vec3.toFun_neg, neg_dotProduct]
    exact neg_nonpos.mpr h.le
  · next h =>
    rw [hlt, not_lt] at h
    norm_num at h
    exact h

/-- **A path stays on the side of the surface that it comes from**: it arrives against the
facing normal, and leaves with it, from a point 0.001 over the one that is hit. -/
theorem closestHit_side (h : 0 < Glsl.dot (scene.edgeCross hit) (scene.edgeCross hit))
    (hlight : (scene.material hit).isLight = false) :
    Glsl.dot (scene.facingNormal hit direction) direction ≤ 0 ∧
      (closestHit scene hit direction payload).direction.IsUnit ∧
      0 ≤ Glsl.dot (closestHit scene hit direction payload).direction
        (scene.facingNormal hit direction) ∧
      Glsl.dot ((closestHit scene hit direction payload).origin - scene.hitPos hit)
        (scene.facingNormal hit direction) = 1 / 1000 := by
  have hunit : (scene.facingNormal hit direction).IsUnit := isUnit_facingNormal h
  rw [closestHit_surface scene hit direction payload hlight]
  refine ⟨facingNormal_dot_le, isUnit_randomInHemisphere hunit payload.seed, ?_, ?_⟩
  · rw [dot_randomInHemisphere hunit]
    exact Real.sqrt_nonneg _
  · rw [Vec3.isUnit_iff] at hunit
    rw [Vec3.dot_eq, Vec3.toFun_sub, Vec3.toFun_add, Vec3.toFun_mul, add_sub_cancel_left,
      smul_dotProduct, hunit]
    norm_num

/-- A direction of length 1 leads to directions of length 1. -/
theorem isUnit_closestHit (h : 0 < Glsl.dot (scene.edgeCross hit) (scene.edgeCross hit))
    (hpayload : payload.direction.IsUnit) :
    (closestHit scene hit direction payload).direction.IsUnit := by
  cases hlight : (scene.material hit).isLight with
  | true =>
    rw [closestHit_light scene hit direction payload hlight]
    exact hpayload
  | false =>
    rw [closestHit_surface scene hit direction payload hlight]
    exact isUnit_randomInHemisphere (isUnit_facingNormal h) _

/-- A triangle on the ground, gray, that rays from above hit. -/
noncomputable def ground : Scene ℝ where
  vertices i := if i = 0 then ⟨0, 0, 0⟩ else if i = 1 then ⟨1, 0, 0⟩ else ⟨0, 1, 0⟩
  indices i := i % 3
  materials _ := ⟨⟨0.5, 0.5, 0.5⟩, ⟨0, 0, 0⟩⟩
  materialIndices _ := 0
  traverse _ direction := if direction.z < 0 then some ⟨0, (0.25, 0.25)⟩ else none

theorem ground_edgeCross (attribs : ℝ × ℝ) :
    0 < Glsl.dot (ground.edgeCross ⟨0, attribs⟩) (ground.edgeCross ⟨0, attribs⟩) := by
  have h0 : ground.corner ⟨0, attribs⟩ 0 = ⟨0, 0, 0⟩ := by simp [Scene.corner, ground]
  have h1 : ground.corner ⟨0, attribs⟩ 1 = ⟨1, 0, 0⟩ := by simp [Scene.corner, ground]
  have h2 : ground.corner ⟨0, attribs⟩ 2 = ⟨0, 1, 0⟩ := by simp [Scene.corner, ground]
  have hcross : (ground.edgeCross ⟨0, attribs⟩).toFun = ![0, 0, 1] := by
    rw [Scene.edgeCross, h0, h1, h2, Vec3.toFun_cross, Vec3.toFun_sub, Vec3.toFun_sub, cross_apply]
    simp [Vec3.toFun]
  rw [Vec3.dot_eq, hcross, vec3_dotProduct]
  simp

theorem ground_hitsArea : HitsArea ground := by
  intro origin direction hit hhit
  obtain ⟨-, hhit⟩ := Option.ite_none_right_eq_some.mp hhit
  obtain rfl := Option.some.inj hhit
  exact ground_edgeCross _

theorem ground_notLight (hit : Hit ℝ) : (ground.material hit).isLight = false := by
  have hdark : Glsl.lt (0.0 : ℝ) 0 = false := decide_eq_false (by norm_num)
  show (Glsl.lt (0.0 : ℝ) 0 || Glsl.lt (0.0 : ℝ) 0 || Glsl.lt (0.0 : ℝ) 0) = false
  rw [hdark]
  rfl

/-- A ray that looks down from over the triangle. -/
noncomputable def fromAbove : RayPayload ℝ where
  color := ⟨1, 1, 1⟩
  origin := ⟨0.25, 0.25, 1⟩
  direction := ⟨0, 0, -1⟩
  seed := 7
  done := false

theorem closestHit_side_fromAbove :
    0 ≤ Glsl.dot (closestHit ground ⟨0, (0.25, 0.25)⟩ ⟨0, 0, -1⟩ fromAbove).direction
      (ground.facingNormal ⟨0, (0.25, 0.25)⟩ ⟨0, 0, -1⟩) :=
  (closestHit_side (ground_edgeCross _) (ground_notLight _)).2.2.1

end Hit

/-! ### Over a path -/

section Path

variable {scene : Scene ℝ} {traverse : Vec3 ℝ → Vec3 ℝ → Option (Hit ℝ)} {pc : PushConstants ℝ}

/-- Hardware that answers the same on directions of length 1. -/
def AgreeOnUnit (scene : Scene ℝ) (traverse : Vec3 ℝ → Vec3 ℝ → Option (Hit ℝ)) : Prop :=
  ∀ origin direction, direction.IsUnit → traverse origin direction = scene.traverse origin direction

theorem traceRay_unit (hagree : AgreeOnUnit scene traverse) {payload : RayPayload ℝ}
    (hpayload : payload.direction.IsUnit) :
    traceRay { scene with traverse } payload = traceRay scene payload := by
  unfold traceRay
  simp only [hagree _ _ hpayload, closestHit_traverse]

theorem isUnit_traceRay (harea : HitsArea scene) {payload : RayPayload ℝ}
    (hpayload : payload.direction.IsUnit) : (traceRay scene payload).direction.IsUnit := by
  unfold traceRay
  cases hhit : scene.traverse payload.origin payload.direction with
  | none => exact hpayload
  | some hit => exact isUnit_closestHit (harea _ _ _ hhit) hpayload

theorem bounces_unit (harea : HitsArea scene) (hagree : AgreeOnUnit scene traverse) (n : ℕ) :
    ∀ payload seed throughput color, payload.direction.IsUnit →
      bounces { scene with traverse } n payload seed throughput color =
        bounces scene n payload seed throughput color := by
  induction n with
  | zero => exact fun _ _ _ _ _ => rfl
  | succ n ih =>
    intro payload seed throughput color hpayload
    rw [bounces, bounces, traceRay_unit hagree hpayload]
    simp only [ih _ _ _ _ (isUnit_traceRay harea hpayload)]

/-- The vectors of the camera are a frame. -/
def PushConstants.HasFrame (pc : PushConstants ℝ) : Prop :=
  IsFrame pc.cameraForward.toFun pc.cameraUp.toFun pc.cameraRight.toFun

theorem isUnit_rayDirection (hpc : pc.HasFrame) (p : UVec2) (jitterX jitterY : ℝ) :
    (rayDirection pc p jitterX jitterY).IsUnit := by
  have hunit (x y z s t : ℝ) : (Glsl.normalize (pc.cameraForward + pc.cameraRight * x * y * z +
      pc.cameraUp * s * t)).IsUnit := by
    refine Vec3.isUnit_normalize ?_
    have hcoords : (pc.cameraForward + pc.cameraRight * x * y * z + pc.cameraUp * s * t).toFun =
        (1 : ℝ) • pc.cameraForward.toFun + (t * s) • pc.cameraUp.toFun +
          (z * (y * x)) • pc.cameraRight.toFun := by
      simp only [Vec3.toFun_add, Vec3.toFun_mul, smul_smul, one_smul]
      exact add_right_comm _ _ _
    rw [Vec3.dot_eq, hcoords, IsFrame.dot_self hpc]
    positivity
  exact hunit _ _ _ _ _

theorem samples_unit (harea : HitsArea scene) (hagree : AgreeOnUnit scene traverse)
    (hpc : pc.HasFrame) (p : UVec2) (n : ℕ) : ∀ seed color,
    samples { scene with traverse } pc p n seed color = samples scene pc p n seed color := by
  induction n with
  | zero => exact fun _ _ => rfl
  | succ n ih =>
    intro seed color
    have hsample : sample { scene with traverse } pc p seed = sample scene pc p seed :=
      bounces_unit harea hagree _ _ _ _ _ (isUnit_rayDirection hpc p _ _)
    rw [samples, samples, hsample]
    exact ih _ _

/-! The camera of `renderTileRegion`. -/

theorem glm_cross_eq (u v : Vec3 ℝ) : Glm.cross u v = Glsl.cross u v := by
  show (⟨_, _, _⟩ : Vec3 ℝ) = ⟨_, _, _⟩
  rw [Vec3.mk.injEq]
  exact ⟨by ring, by ring, by ring⟩

theorem camera_hasFrame (tracer : PathTracer) (samplesPerPixel offsetX offsetY : UInt32) :
    (pushConstants tracer samplesPerPixel offsetX offsetY : PushConstants ℝ).HasFrame := by
  obtain ⟨forward, hforward⟩ : ∃ forward : Vec3 ℝ, forward =
    Glm.normalize (Glm.sub ⟨0.0, 0.0, 0.0⟩ ⟨0.0, 0.0, 3.5⟩) := ⟨_, rfl⟩
  obtain ⟨right, hright⟩ : ∃ right : Vec3 ℝ, right =
    Glm.normalize (Glm.cross forward ⟨0.0, 1.0, 0.0⟩) := ⟨_, rfl⟩
  have hdot (u v : Vec3 ℝ) : Glsl.dot u v = u.x * v.x + u.y * v.y + u.z * v.z := rfl
  have hfar : 0 < Glsl.dot (Glm.sub ⟨0.0, 0.0, 0.0⟩ ⟨0.0, 0.0, 3.5⟩ : Vec3 ℝ)
      (Glm.sub ⟨0.0, 0.0, 0.0⟩ ⟨0.0, 0.0, 3.5⟩) := by
    show (0 : ℝ) < (0.0 - 0.0) * (0.0 - 0.0) + (0.0 - 0.0) * (0.0 - 0.0) + (0.0 - 3.5) * (0.0 - 3.5)
    norm_num
  have hunit : forward.IsUnit := hforward ▸ Vec3.isUnit_normalize hfar
  -- the camera looks along z, so the y axis is not in the way
  have hy : forward.y = 0 := by
    rw [hforward]
    show (0.0 - 0.0) / _ = (0 : ℝ)
    norm_num
  have hwide : 0 < Glsl.dot (Glsl.cross forward ⟨0.0, 1.0, 0.0⟩)
      (Glsl.cross forward ⟨0.0, 1.0, 0.0⟩) := by
    have hone : (⟨0.0, 1.0, 0.0⟩ : Vec3 ℝ).toFun ⬝ᵥ (⟨0.0, 1.0, 0.0⟩ : Vec3 ℝ).toFun = 1 := by
      rw [← Vec3.dot_eq, hdot]
      norm_num
    have hzero : forward.toFun ⬝ᵥ (⟨0.0, 1.0, 0.0⟩ : Vec3 ℝ).toFun = 0 := by
      rw [← Vec3.dot_eq, hdot, hy]
      norm_num
    rw [Vec3.dot_eq, Vec3.toFun_cross, cross_dot_cross, hone, hzero, Vec3.isUnit_iff.mp hunit]
    norm_num
  have hperp : forward.toFun ⬝ᵥ right.toFun = 0 := by
    have hnormalize (v : Vec3 ℝ) : Glm.normalize v = Glsl.normalize v := rfl
    rw [hright, glm_cross_eq, hnormalize, Vec3.toFun_normalize, Vec3.toFun_cross, dotProduct_smul,
      dot_self_cross, smul_zero]
  have hrunit : right.IsUnit := by
    rw [hright, glm_cross_eq]
    exact Vec3.isUnit_normalize hwide
  have hframe := IsFrame.of_cross (Vec3.isUnit_iff.mp hunit) (Vec3.isUnit_iff.mp hrunit) hperp
  rw [← Vec3.toFun_cross, ← glm_cross_eq] at hframe
  subst hright hforward
  exact hframe

/-- **A texel is a matter of rays of length 1**: what the hardware answers on other
directions is never asked for. -/
theorem raygenColor_unit_rays (harea : HitsArea scene) (hagree : AgreeOnUnit scene traverse)
    (tracer : PathTracer) (samplesPerPixel : UInt32) (p : UVec2) :
    raygenColor { scene with traverse } (pushConstants tracer samplesPerPixel 0 0) p =
      raygenColor scene (pushConstants tracer samplesPerPixel 0 0) p := by
  unfold raygenColor
  rw [samples_unit harea hagree (camera_hasFrame tracer samplesPerPixel 0 0)]

theorem raygenColor_unit_rays_ground :
    raygenColor { ground with
        traverse := fun origin direction =>
          if Glsl.dot direction direction = 1 then ground.traverse origin direction else none }
      (pushConstants ⟨2, 2⟩ 1 0 0) ⟨1, 1⟩ =
    raygenColor ground (pushConstants ⟨2, 2⟩ 1 0 0) ⟨1, 1⟩ :=
  raygenColor_unit_rays ground_hitsArea (fun _ _ h => if_pos h) _ _ _

end Path

end Pathological.RenderWorker
