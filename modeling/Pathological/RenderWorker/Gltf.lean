import Mathlib.Data.Rat.Defs
import Mathlib.LinearAlgebra.Matrix.Notation
import Pathological.Framework.Fallible
import Pathological.RenderWorker.Shader

/-!
# glTF models

The glTF model as tinygltf parses it, as far as the renderer reads it, and how
the bytes behind its accessors are read.

An index is a natural number; where the format lets an index be left out, and
tinygltf keeps -1, it is an `Option`. Any other negative index is the `size_t` it
converts to, which is out of range, and stands for -1 where the code asks whether
it is negative. Offsets and counts are natural numbers too: their sums do not
overflow, and the vectors of that many elements fit the memory. Numbers in the
file are rationals. The floats are a type `K` of which glm's functions are a
parameter (`GlmScene`).

A read outside of a vector is undefined behaviour, and a fault here. No read the
renderer makes of a primitive or of a sampler faults when the accessors hold the
data they announce (`Model.Holds`).
-/

namespace Pathological.RenderWorker

/-! ### The model -/

namespace Gltf

structure Buffer where
  data : List UInt8
  deriving DecidableEq, Repr

/-- A stride of 0 is that of tightly packed elements. The renderer does not read it. -/
structure BufferView where
  buffer : ℕ
  byteOffset : ℕ := 0
  byteStride : ℕ := 0
  deriving DecidableEq, Repr

inductive ComponentType
  | byte
  | unsignedByte
  | short
  | unsignedShort
  | int
  | unsignedInt
  | float
  deriving DecidableEq, Repr

/-- The bytes of an index. Only three types are read as indices. -/
def ComponentType.indexSize : ComponentType → Option ℕ
  | .unsignedByte => some 1
  | .unsignedShort => some 2
  | .unsignedInt => some 4
  | _ => none

structure Accessor where
  bufferView : Option ℕ
  byteOffset : ℕ := 0
  componentType : ComponentType
  count : ℕ
  deriving DecidableEq, Repr

inductive Mode
  | points
  | line
  | lineLoop
  | lineStrip
  | triangles
  | triangleStrip
  | triangleFan
  deriving DecidableEq, Repr

structure Primitive where
  attributes : List (String × ℕ)
  indices : Option ℕ := none
  material : Option ℕ := none
  mode : Mode := .triangles
  deriving DecidableEq, Repr

structure Mesh where
  primitives : List Primitive
  deriving DecidableEq, Repr

/-- A material, with the `baseColorFactor` of its `pbrMetallicRoughness`. -/
structure Material where
  baseColorFactor : List ℚ
  emissiveFactor : List ℚ
  deriving DecidableEq, Repr

structure Node where
  name : String
  mesh : Option ℕ := none
  children : List ℕ := []
  matrix : List ℚ := []
  translation : List ℚ := []
  rotation : List ℚ := []
  scale : List ℚ := []
  deriving DecidableEq, Repr

structure Scene where
  nodes : List ℕ
  deriving DecidableEq, Repr

structure AnimationSampler where
  input : ℕ
  output : ℕ
  deriving DecidableEq, Repr

structure AnimationChannel where
  sampler : ℕ
  targetNode : Option ℕ
  targetPath : String
  deriving DecidableEq, Repr

structure Animation where
  channels : List AnimationChannel
  samplers : List AnimationSampler
  deriving DecidableEq, Repr

structure Model where
  accessors : List Accessor := []
  animations : List Animation := []
  buffers : List Buffer := []
  bufferViews : List BufferView := []
  materials : List Material := []
  meshes : List Mesh := []
  nodes : List Node := []
  scenes : List Scene := []
  defaultScene : Option ℕ := none
  deriving DecidableEq, Repr

end Gltf

/-! ### Floats -/

/-- `glm::quat`. -/
structure Quat (K : Type) where
  w : K
  x : K
  y : K
  z : K
  deriving DecidableEq, Repr

/-- `glm::mat4`. -/
abbrev Mat4 (K : Type) := Matrix (Fin 4) (Fin 4) K

/-- The conversions to `float`, and the functions of glm, that the loader and the
animation use besides the operations of a ring. -/
class GlmScene (K : Type) where
  /-- The float for a number. -/
  ofRat : ℚ → K
  /-- The float with these bits. -/
  ofBits : UInt32 → K
  le : K → K → Bool
  div : K → K → K
  /-- `glm::translate(glm::mat4(1.0f), v)`. -/
  translate : Vec3 K → Mat4 K
  /-- `glm::mat4_cast`. -/
  mat4Cast : Quat K → Mat4 K
  /-- `glm::scale(glm::mat4(1.0f), v)`. -/
  scale : Vec3 K → Mat4 K
  mix : Vec3 K → Vec3 K → K → Vec3 K
  slerp : Quat K → Quat K → K → Quat K

/-- The number a finite float with these bits stands for. -/
def floatOfBits (bits : UInt32) : ℚ :=
  let sign : ℚ := if bits >>> 31 = 0 then 1 else -1
  let exponent := ((bits >>> 23) &&& 0xFF).toNat
  let mantissa := (bits &&& 0x7FFFFF).toNat
  if exponent = 0 then sign * mantissa / 2 ^ 149
  else sign * (2 ^ 23 + mantissa) * 2 ^ exponent / 2 ^ 150

/-- Exact arithmetic. The interpolation of quaternions is the linear one, which
`glm::slerp` falls back to when they are close. -/
instance : GlmScene ℚ where
  ofRat := id
  ofBits := floatOfBits
  le x y := decide (x ≤ y)
  div x y := x / y
  translate v := !![1, 0, 0, v.x; 0, 1, 0, v.y; 0, 0, 1, v.z; 0, 0, 0, 1]
  mat4Cast q := !![
    1 - 2 * (q.y * q.y + q.z * q.z), 2 * (q.x * q.y - q.w * q.z), 2 * (q.x * q.z + q.w * q.y), 0;
    2 * (q.x * q.y + q.w * q.z), 1 - 2 * (q.x * q.x + q.z * q.z), 2 * (q.y * q.z - q.w * q.x), 0;
    2 * (q.x * q.z - q.w * q.y), 2 * (q.y * q.z + q.w * q.x), 1 - 2 * (q.x * q.x + q.y * q.y), 0;
    0, 0, 0, 1]
  scale v := !![v.x, 0, 0, 0; 0, v.y, 0, 0; 0, 0, v.z, 0; 0, 0, 0, 1]
  mix u v a := ⟨u.x * (1 - a) + v.x * a, u.y * (1 - a) + v.y * a, u.z * (1 - a) + v.z * a⟩
  slerp p q a := ⟨p.w * (1 - a) + q.w * a, p.x * (1 - a) + q.x * a, p.y * (1 - a) + q.y * a,
    p.z * (1 - a) + q.z * a⟩

/-! ### Faults and reads -/

/-- How a function of the renderer fails. -/
inductive Fault
  | runtimeError (what : String)
  | undefinedBehaviour
  | tooDeep
  deriving DecidableEq, Repr

/-- `l[i]` on a vector. -/
def elem {α : Type} (l : List α) (i : ℕ) : Except Fault α :=
  match l[i]? with
  | some a => .ok a
  | none => .error .undefinedBehaviour

theorem elem_eq_ok {α : Type} {l : List α} {i : ℕ} {a : α} :
    elem l i = .ok a ↔ l[i]? = some a := by
  unfold elem
  cases l[i]? with
  | none => exact ⟨nofun, nofun⟩
  | some b =>
    exact ⟨fun h => congrArg some (Except.ok.inj h), fun h => congrArg _ (Option.some.inj h)⟩

/-- `l[i]` where the index may be -1. -/
def elemOpt {α : Type} (l : List α) : Option ℕ → Except Fault α
  | some i => elem l i
  | none => .error .undefinedBehaviour

/-- The number with these bytes, the lowest first. -/
def littleEndian : List UInt8 → UInt32
  | [] => 0
  | b :: bytes => b.toUInt32 + 256 * littleEndian bytes

/-- `p[k]` for a pointer `p` to unsigned integers of `size` bytes. -/
def uintAt (size : ℕ) (p : List UInt8) (k : ℕ) : Except Fault UInt32 :=
  if (k + 1) * size ≤ p.length then .ok (littleEndian ((p.drop (k * size)).take size))
  else .error .undefinedBehaviour

/-- `&v[i]` on a vector of bytes, as the bytes from there on. -/
def addressOf (v : List UInt8) (i : ℕ) : Except Fault (List UInt8) :=
  if i < v.length then .ok (v.drop i) else .error .undefinedBehaviour

theorem addressOf_zero {v : List UInt8} (h : v ≠ []) : addressOf v 0 = .ok v :=
  if_pos (List.length_pos_of_ne_nil h)

/-- The buffer view of an accessor, with its buffer. -/
def Gltf.Model.bufferOf (model : Gltf.Model) (accessor : Gltf.Accessor) :
    Except Fault (Gltf.BufferView × Gltf.Buffer) := do
  let bufferView ← elemOpt model.bufferViews accessor.bufferView
  let buffer ← elem model.buffers bufferView.buffer
  pure (bufferView, buffer)

/-- What is behind an accessor, from its first byte on. -/
def Gltf.Model.pointer (model : Gltf.Model) (accessor : Gltf.Accessor) :
    Except Fault (List UInt8) := do
  let (bufferView, buffer) ← model.bufferOf accessor
  addressOf buffer.data (bufferView.byteOffset + accessor.byteOffset)

/-- There are `size` bytes for each element of the accessor. -/
def Gltf.Model.Holds (model : Gltf.Model) (a : ℕ) (size : Gltf.Accessor → ℕ) : Prop :=
  ∃ accessor p, model.accessors[a]? = some accessor ∧ model.pointer accessor = .ok p ∧
    accessor.count * size accessor ≤ p.length

theorem exists_uintAt {size k n : ℕ} {p : List UInt8} (hk : k < n) (hp : n * size ≤ p.length) :
    ∃ u, uintAt size p k = .ok u := by
  refine ⟨_, if_pos ?_⟩
  calc
    (k + 1) * size ≤ n * size := Nat.mul_le_mul_right size hk
    _ ≤ p.length := hp

section Reads

variable {K : Type} [GlmScene K]

/-- `p[k]` for a pointer `p` to floats. -/
def floatAt (p : List UInt8) (k : ℕ) : Except Fault K :=
  (uintAt 4 p k).map GlmScene.ofBits

/-- `glm::vec3(p[3 * k], p[3 * k + 1], p[3 * k + 2])`. -/
def vec3At (p : List UInt8) (k : ℕ) : Except Fault (Vec3 K) := do
  let x ← floatAt p (k * 3 + 0)
  let y ← floatAt p (k * 3 + 1)
  let z ← floatAt p (k * 3 + 2)
  pure ⟨x, y, z⟩

/-- The quaternion at `4 * k`, stored with its real part last. -/
def quatAt (p : List UInt8) (k : ℕ) : Except Fault (Quat K) := do
  let w ← floatAt p (k * 4 + 3)
  let x ← floatAt p (k * 4 + 0)
  let y ← floatAt p (k * 4 + 1)
  let z ← floatAt p (k * 4 + 2)
  pure ⟨w, x, y, z⟩

theorem exists_floatAt {k n : ℕ} {p : List UInt8} (hk : k < n) (hp : n * 4 ≤ p.length) :
    ∃ x : K, floatAt p k = .ok x := by
  obtain ⟨u, hu⟩ := exists_uintAt hk hp
  exact ⟨_, by rw [floatAt, hu]; rfl⟩

theorem exists_vec3At {k n : ℕ} {p : List UInt8} (hk : k < n) (hp : n * 12 ≤ p.length) :
    ∃ v : Vec3 K, vec3At p k = .ok v := by
  have hfloat (i : ℕ) (hi : i < 3) : ∃ x : K, floatAt p (k * 3 + i) = .ok x :=
    exists_floatAt (show k * 3 + i < n * 3 by omega) (by omega)
  obtain ⟨x, hx⟩ := hfloat 0 (by omega)
  obtain ⟨y, hy⟩ := hfloat 1 (by omega)
  obtain ⟨z, hz⟩ := hfloat 2 (by omega)
  exact ⟨⟨x, y, z⟩, by rw [vec3At, hx, hy, hz]; rfl⟩

theorem exists_quatAt {k n : ℕ} {p : List UInt8} (hk : k < n) (hp : n * 16 ≤ p.length) :
    ∃ q : Quat K, quatAt p k = .ok q := by
  have hfloat (i : ℕ) (hi : i < 4) : ∃ x : K, floatAt p (k * 4 + i) = .ok x :=
    exists_floatAt (show k * 4 + i < n * 4 by omega) (by omega)
  obtain ⟨w, hw⟩ := hfloat 3 (by omega)
  obtain ⟨x, hx⟩ := hfloat 0 (by omega)
  obtain ⟨y, hy⟩ := hfloat 1 (by omega)
  obtain ⟨z, hz⟩ := hfloat 2 (by omega)
  exact ⟨⟨w, x, y, z⟩, by rw [quatAt, hw, hx, hy, hz]; rfl⟩

end Reads

end Pathological.RenderWorker
