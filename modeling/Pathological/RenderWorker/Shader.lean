import Mathlib.Data.Nat.Notation

/-!
# The shaders

`raygen.rgen`, `closesthit.rchit`, `miss.rmiss` and what they share
(`common.glsl`), as functions. The unsigned integers are exact; the floats are a
parameter, GLSL's type `F` with its operations (`Glsl`), of which nothing is
assumed beyond that they are functions. What the ray tracing hardware adds is
one function more: `Scene.traverse`, which triangle a ray hits first.

An invocation of `raygen.rgen` is `raygen`, the texel it stores. The texel is a
function of the pixel and of the push constants other than the tile offset
(`raygenColor_tileOffset`).
-/

namespace Pathological.RenderWorker

/-! ### Vectors -/

/-- `uvec2`. -/
structure UVec2 where
  x : UInt32
  y : UInt32
  deriving DecidableEq, Repr

/-- `ivec2`. -/
structure IVec2 where
  x : Int32
  y : Int32
  deriving DecidableEq

/-- The conversion `ivec2(p)`, which keeps the bits. -/
def UVec2.toIVec2 (p : UVec2) : IVec2 := ⟨p.x.toInt32, p.y.toInt32⟩

/-- The conversion back. -/
def IVec2.toUVec2 (p : IVec2) : UVec2 := ⟨p.x.toUInt32, p.y.toUInt32⟩

@[simp] theorem IVec2.toIVec2_toUVec2 (p : IVec2) : p.toUVec2.toIVec2 = p := rfl

@[simp] theorem UVec2.toUVec2_toIVec2 (p : UVec2) : p.toIVec2.toUVec2 = p := rfl

instance : Add UVec2 := ⟨fun p q => ⟨p.x + q.x, p.y + q.y⟩⟩

/-- `vec3`. -/
structure Vec3 (F : Type) where
  x : F
  y : F
  z : F
  deriving DecidableEq, Repr

/-- GLSL's `float`, with the built-in functions the shaders call. -/
class Glsl (F : Type) extends Add F, Sub F, Mul F, Div F, Neg F, OfScientific F where
  ofUInt : UInt32 → F
  abs : F → F
  sqrt : F → F
  sin : F → F
  cos : F → F
  tan : F → F
  pow : F → F → F
  clamp : F → F → F → F
  lt : F → F → Bool
  dot : Vec3 F → Vec3 F → F
  cross : Vec3 F → Vec3 F → Vec3 F
  normalize : Vec3 F → Vec3 F
  /-- The conversion of `imageStore` to a channel of `rgba8`. -/
  unorm8 : F → UInt8

/-- The functions of glm that `renderTileRegion` calls, on the CPU. -/
class Glm (F : Type) where
  radians : F → F
  sub : Vec3 F → Vec3 F → Vec3 F
  cross : Vec3 F → Vec3 F → Vec3 F
  normalize : Vec3 F → Vec3 F

section Vectors

variable {F : Type} [Glsl F]

instance : Add (Vec3 F) := ⟨fun u v => ⟨u.x + v.x, u.y + v.y, u.z + v.z⟩⟩

instance : Sub (Vec3 F) := ⟨fun u v => ⟨u.x - v.x, u.y - v.y, u.z - v.z⟩⟩

instance : Mul (Vec3 F) := ⟨fun u v => ⟨u.x * v.x, u.y * v.y, u.z * v.z⟩⟩

instance : Neg (Vec3 F) := ⟨fun u => ⟨-u.x, -u.y, -u.z⟩⟩

instance : HMul (Vec3 F) F (Vec3 F) := ⟨fun u a => ⟨u.x * a, u.y * a, u.z * a⟩⟩

instance : HDiv (Vec3 F) F (Vec3 F) := ⟨fun u a => ⟨u.x / a, u.y / a, u.z / a⟩⟩

end Vectors

/-! ### `common.glsl` -/

/-- `RayPayload`. -/
structure RayPayload (F : Type) where
  color : Vec3 F
  origin : Vec3 F
  direction : Vec3 F
  seed : UInt32
  done : Bool

/-- `Material`, without its padding. -/
structure Material (F : Type) where
  albedo : Vec3 F
  emission : Vec3 F

/-- `pcg`: the random word and the new state. -/
def pcg (state : UInt32) : UInt32 × UInt32 :=
  let prev := state * 747796405 + 2891336453
  let word := ((prev >>> ((prev >>> 28) + 4)) ^^^ prev) * 277803737
  ((word >>> 22) ^^^ word, prev)

section Shaders

variable {F : Type} [Glsl F]

/-- `randomFloat`: the number and the new seed. -/
def randomFloat (seed : UInt32) : F × UInt32 :=
  let (word, seed) := pcg seed
  (Glsl.ofUInt word / Glsl.ofUInt 0xFFFFFFFF, seed)

/-- `randomInHemisphere`: the direction and the new seed. -/
def randomInHemisphere (normal : Vec3 F) (seed : UInt32) : Vec3 F × UInt32 :=
  let (r1, seed) := randomFloat (F := F) seed
  let (r2, seed) := randomFloat (F := F) seed
  let phi : F := 2.0 * 3.14159265359 * r1
  let cosTheta : F := Glsl.sqrt r2
  let sinTheta : F := Glsl.sqrt (1.0 - r2)
  let w := normal
  let a : Vec3 F := if Glsl.lt 0.9 (Glsl.abs w.x) then ⟨0.0, 1.0, 0.0⟩ else ⟨1.0, 0.0, 0.0⟩
  let u := Glsl.normalize (Glsl.cross a w)
  let v := Glsl.cross w u
  (Glsl.normalize (u * Glsl.cos phi * sinTheta + v * Glsl.sin phi * sinTheta + w * cosTheta), seed)

/-! ### The scene -/

/-- What the hardware reports of the triangle a ray hits. -/
structure Hit (F : Type) where
  primitiveID : UInt32
  attribs : F × F

/-- What the shaders read of the scene, and the traversal of its acceleration
structure: the first triangle on a ray, between the distances 0.001 and 10000. -/
structure Scene (F : Type) where
  vertices : UInt32 → Vec3 F
  indices : UInt32 → UInt32
  materials : UInt32 → Material F
  materialIndices : UInt32 → UInt32
  traverse : Vec3 F → Vec3 F → Option (Hit F)

/-- `main` of `closesthit.rchit`. -/
def closestHit (scene : Scene F) (hit : Hit F) (worldRayDirection : Vec3 F)
    (payload : RayPayload F) : RayPayload F :=
  let primId := hit.primitiveID
  let v0 := scene.vertices (scene.indices (primId * 3 + 0))
  let v1 := scene.vertices (scene.indices (primId * 3 + 1))
  let v2 := scene.vertices (scene.indices (primId * 3 + 2))
  let barycentrics : Vec3 F := ⟨1.0 - hit.attribs.1 - hit.attribs.2, hit.attribs.1, hit.attribs.2⟩
  let hitPos := v0 * barycentrics.x + v1 * barycentrics.y + v2 * barycentrics.z
  let normal := Glsl.normalize (Glsl.cross (v1 - v0) (v2 - v0))
  let normal := if Glsl.lt 0.0 (Glsl.dot normal worldRayDirection) then -normal else normal
  let mat := scene.materials (scene.materialIndices primId)
  if Glsl.lt 0.0 mat.emission.x || Glsl.lt 0.0 mat.emission.y || Glsl.lt 0.0 mat.emission.z then
    { payload with color := mat.emission, done := true }
  else
    let (newDir, seed) := randomInHemisphere normal payload.seed
    { color := mat.albedo, origin := hitPos + normal * (0.001 : F), direction := newDir
      seed := seed, done := false }

/-- `main` of `miss.rmiss`. -/
def miss (payload : RayPayload F) : RayPayload F :=
  { payload with color := ⟨0.01, 0.01, 0.012⟩, done := true }

/-- The call `traceRayEXT` of `raygen.rgen`. -/
def traceRay (scene : Scene F) (payload : RayPayload F) : RayPayload F :=
  match scene.traverse payload.origin payload.direction with
  | some hit => closestHit scene hit payload.direction payload
  | none => miss payload

/-! ### `raygen.rgen` -/

/-- The push constants. -/
structure PushConstants (F : Type) where
  cameraPosition : Vec3 F
  fov : F
  cameraForward : Vec3 F
  samplesPerPixel : UInt32
  cameraRight : Vec3 F
  frameIndex : UInt32
  cameraUp : Vec3 F
  maxBounces : UInt32
  tileOffset : UVec2
  imageSize : UVec2

/-- A texel of the `rgba8` image. -/
structure Texel where
  r : UInt8
  g : UInt8
  b : UInt8
  a : UInt8
  deriving DecidableEq, Repr

/-- The seed a pixel starts from. -/
def raygenSeed (pc : PushConstants F) (pixelCoord : UVec2) : UInt32 :=
  pixelCoord.x + pixelCoord.y * pc.imageSize.x + pc.frameIndex * pc.imageSize.x * pc.imageSize.y

/-- The loop over the bounces, with `n` of them left: the color of the sample and
the seed it leaves. -/
def bounces (scene : Scene F) : ℕ → RayPayload F → UInt32 → Vec3 F → Vec3 F → Vec3 F × UInt32
  | 0, _, seed, _, color => (color, seed)
  | n + 1, payload, _, throughput, color =>
    let payload := traceRay scene payload
    if payload.done then (color + throughput * payload.color, payload.seed)
    else bounces scene n payload payload.seed (throughput * payload.color) color

/-- The direction of a jittered ray through the pixel. -/
def rayDirection (pc : PushConstants F) (pixelCoord : UVec2) (jitterX jitterY : F) : Vec3 F :=
  let uvx : F := (Glsl.ofUInt pixelCoord.x + 0.5 + jitterX) / Glsl.ofUInt pc.imageSize.x
  let uvy : F := (Glsl.ofUInt pixelCoord.y + 0.5 + jitterY) / Glsl.ofUInt pc.imageSize.y
  let uvx : F := uvx * 2.0 - 1.0
  let uvy : F := -(uvy * 2.0 - 1.0)
  let aspect : F := Glsl.ofUInt pc.imageSize.x / Glsl.ofUInt pc.imageSize.y
  let tanHalfFov : F := Glsl.tan (pc.fov * 0.5)
  Glsl.normalize (pc.cameraForward + pc.cameraRight * uvx * tanHalfFov * aspect +
    pc.cameraUp * uvy * tanHalfFov)

/-- One sample of a pixel: its color and the seed it leaves. -/
def sample (scene : Scene F) (pc : PushConstants F) (pixelCoord : UVec2) (seed : UInt32) :
    Vec3 F × UInt32 :=
  let (x, seed) := randomFloat (F := F) seed
  let (y, seed) := randomFloat (F := F) seed
  let payload : RayPayload F :=
    { origin := pc.cameraPosition, direction := rayDirection pc pixelCoord (x - 0.5) (y - 0.5)
      color := ⟨0.0, 0.0, 0.0⟩, seed := seed, done := false }
  bounces scene pc.maxBounces.toNat payload seed ⟨1.0, 1.0, 1.0⟩ ⟨0.0, 0.0, 0.0⟩

/-- The loop over the samples, with `n` of them left. -/
def samples (scene : Scene F) (pc : PushConstants F) (pixelCoord : UVec2) :
    ℕ → UInt32 → Vec3 F → Vec3 F
  | 0, _, accumulatedColor => accumulatedColor
  | n + 1, seed, accumulatedColor =>
    let (color, seed) := sample scene pc pixelCoord seed
    samples scene pc pixelCoord n seed (accumulatedColor + color)

/-- Gamma correction, clamping, and the conversion to the image's format. -/
def finalChannel (c : F) : UInt8 :=
  Glsl.unorm8 (Glsl.clamp (Glsl.pow c (1.0 / 2.2)) 0.0 1.0)

/-- The texel `raygen.rgen` computes for a pixel. -/
def raygenColor (scene : Scene F) (pc : PushConstants F) (pixelCoord : UVec2) : Texel :=
  let accumulatedColor := samples scene pc pixelCoord pc.samplesPerPixel.toNat
    (raygenSeed pc pixelCoord) ⟨0.0, 0.0, 0.0⟩
  let finalColor := accumulatedColor / (Glsl.ofUInt pc.samplesPerPixel : F)
  ⟨finalChannel finalColor.x, finalChannel finalColor.y, finalChannel finalColor.z,
    Glsl.unorm8 (1.0 : F)⟩

/-- `main` of `raygen.rgen`: where an invocation stores, and what. -/
def raygen (scene : Scene F) (pc : PushConstants F) (localCoord : UVec2) : IVec2 × Texel :=
  let pixelCoord := localCoord + pc.tileOffset
  (pixelCoord.toIVec2, raygenColor scene pc pixelCoord)

theorem samples_tileOffset (scene : Scene F) (pc : PushConstants F) (offset p : UVec2) (n : ℕ) :
    ∀ seed color, samples scene { pc with tileOffset := offset } p n seed color =
      samples scene pc p n seed color := by
  induction n with
  | zero => exact fun _ _ => rfl
  | succ n ih => exact fun seed color => ih _ _

/-- The texel of a pixel does not depend on the tile it is rendered with. -/
theorem raygenColor_tileOffset (scene : Scene F) (pc : PushConstants F) (offset p : UVec2) :
    raygenColor scene { pc with tileOffset := offset } p = raygenColor scene pc p := by
  unfold raygenColor
  rw [samples_tileOffset]
  rfl

end Shaders

end Pathological.RenderWorker
