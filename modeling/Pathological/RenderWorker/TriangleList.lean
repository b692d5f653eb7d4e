import Mathlib.Data.Nat.Digits.Defs
import Pathological.RenderWorker.Flatten

/-!
# Triangle primitives

What a primitive in TRIANGLES mode means, read off the bytes of the file
(`Gltf.Model.triangleList`), and what the mesh means that the loader makes of it
(`MeshData.triangles`). The decoding of positions and of indices of the three
types is right; but a primitive without indices gets an empty index list, so that
the meanings agree exactly when there are indices or no whole triangle
(`primitive_decoded`).
-/

namespace Pathological.RenderWorker

open Framework SceneBuilder

/-! ### The meaning of a primitive -/

/-- The number with these bytes, the lowest first. -/
def bytesValue (bytes : List UInt8) : ℕ := Nat.ofDigits 256 (bytes.map UInt8.toNat)

namespace Gltf

/-- The distance between elements of `size` bytes. -/
def BufferView.stride (view : BufferView) (size : ℕ) : ℕ :=
  if view.byteStride = 0 then size else view.byteStride

namespace Model

variable (model : Model)

/-- The view of an accessor. -/
def viewOf (accessor : Accessor) : Option BufferView :=
  accessor.bufferView.bind fun v => model.bufferViews[v]?

/-- The number that `size` bytes are from byte `start` on of the view's buffer. -/
def valueAt (view : BufferView) (start size : ℕ) : Option ℕ :=
  (model.buffers[view.buffer]?).bind fun buffer =>
    if start + size ≤ buffer.data.length then
      some (bytesValue ((buffer.data.drop start).take size))
    else none

/-- The `i`-th index. Indices are never interleaved. -/
def indexAt (accessor : Accessor) (i : ℕ) : Option ℕ := do
  let view ← model.viewOf accessor
  let size ← accessor.componentType.indexSize
  model.valueAt view (view.byteOffset + accessor.byteOffset + i * size) size

/-- The `i`-th position. -/
def positionAt {K : Type} [GlmScene K] (accessor : Accessor) (i : ℕ) : Option (Vec3 K) := do
  let view ← model.viewOf accessor
  let start := view.byteOffset + accessor.byteOffset + i * view.stride 12
  let x ← model.valueAt view start 4
  let y ← model.valueAt view (start + 4) 4
  let z ← model.valueAt view (start + 8) 4
  pure ⟨GlmScene.ofBits (.ofNat x), GlmScene.ofBits (.ofNat y), GlmScene.ofBits (.ofNat z)⟩

/-- The accessor of the primitive's positions. -/
def positions (primitive : Primitive) : Option Accessor :=
  (primitive.attributes.lookup "POSITION").bind fun a => model.accessors[a]?

/-- The number of vertices. -/
def vertexCount (primitive : Primitive) : ℕ := (model.positions primitive).elim 0 Accessor.count

/-- The position of a vertex. -/
def vertex {K : Type} [GlmScene K] (primitive : Primitive) (i : ℕ) : Option (Vec3 K) := do
  let accessor ← model.positions primitive
  if i < accessor.count then model.positionAt accessor i else none

/-- The number of corners: of the indices, or where there are none, of the vertices. -/
def cornerCount (primitive : Primitive) : ℕ :=
  match primitive.indices with
  | some a => (model.accessors[a]?).elim 0 Accessor.count
  | none => model.vertexCount primitive

/-- The vertex at a corner. -/
def cornerIndex (primitive : Primitive) (k : ℕ) : Option ℕ :=
  match primitive.indices with
  | some a => (model.accessors[a]?).bind fun accessor => model.indexAt accessor k
  | none => some k

/-- The triangles of the primitive: each three corners are one. -/
def triangleList {K : Type} [GlmScene K] (primitive : Primitive) :
    List (Option (Vec3 K) × Option (Vec3 K) × Option (Vec3 K)) :=
  let corner k := (model.cornerIndex primitive k).bind (model.vertex primitive)
  (List.range (model.cornerCount primitive / 3)).map fun k =>
    (corner (3 * k), corner (3 * k + 1), corner (3 * k + 2))

end Model

end Gltf

variable {K : Type}

/-- The triangles of a mesh. -/
def MeshData.triangles (mesh : MeshData K) :
    List (Option (Vec3 K) × Option (Vec3 K) × Option (Vec3 K)) :=
  let corner := cornerAt mesh.vertices mesh.indices
  (List.range (mesh.indices.length / 3)).map fun k =>
    (corner (3 * k), corner (3 * k + 1), corner (3 * k + 2))

/-! ### Decoding -/

theorem bytesValue_lt (bytes : List UInt8) : bytesValue bytes < 256 ^ bytes.length := by
  unfold bytesValue
  have hlt := Nat.ofDigits_lt_base_pow_length (b := 256) (l := bytes.map UInt8.toNat) (by decide)
    fun d hd => by
      obtain ⟨byte, -, rfl⟩ := List.mem_map.mp hd
      exact byte.toNat_lt
  rwa [List.length_map] at hlt

/-- Reading four bytes or fewer does not overflow. -/
theorem toNat_littleEndian {bytes : List UInt8} (h : bytes.length ≤ 4) :
    (littleEndian bytes).toNat = bytesValue bytes := by
  induction bytes with
  | nil => rfl
  | cons byte bytes ih =>
    have hvalue : bytesValue (byte :: bytes) = byte.toNat + 256 * bytesValue bytes := rfl
    have hlength : (byte :: bytes).length = bytes.length + 1 := rfl
    have hlt : bytesValue (byte :: bytes) < 2 ^ 32 := by
      calc
        bytesValue (byte :: bytes) < 256 ^ (byte :: bytes).length := bytesValue_lt _
        _ ≤ 256 ^ 4 := Nat.pow_le_pow_right (by decide) h
    have hbyte := byte.toNat_lt
    rw [littleEndian, UInt32.toNat_add, UInt32.toNat_mul, ih (by omega), UInt8.toNat_toUInt32]
    show (byte.toNat + 256 * bytesValue bytes % 2 ^ 32) % 2 ^ 32 = _
    omega

section Reads

variable {model : Gltf.Model} {accessor : Gltf.Accessor} {view : Gltf.BufferView}
  {buffer : Gltf.Buffer} {p : List UInt8}

theorem bufferOf_eq_ok : model.bufferOf accessor = .ok (view, buffer) ↔
    model.viewOf accessor = some view ∧ model.buffers[view.buffer]? = some buffer := by
  unfold Gltf.Model.bufferOf Gltf.Model.viewOf
  cases accessor.bufferView with
  | none => exact ⟨nofun, nofun⟩
  | some v =>
    simp only [elemOpt, except_bind_eq_ok, elem_eq_ok, Option.bind_some]
    constructor
    · rintro ⟨view', hview, buffer', hbuffer, hret⟩
      obtain ⟨rfl, rfl⟩ := Prod.mk.inj (Except.ok.inj hret)
      exact ⟨hview, hbuffer⟩
    · rintro ⟨hview, hbuffer⟩
      exact ⟨view, hview, buffer, hbuffer, rfl⟩

theorem pointer_eq_ok : model.pointer accessor = .ok p ↔ ∃ view buffer,
    model.viewOf accessor = some view ∧ model.buffers[view.buffer]? = some buffer ∧
      view.byteOffset + accessor.byteOffset < buffer.data.length ∧
      p = buffer.data.drop (view.byteOffset + accessor.byteOffset) := by
  unfold Gltf.Model.pointer addressOf
  rw [except_bind_eq_ok]
  constructor
  · rintro ⟨⟨view, buffer⟩, hbuffer, h⟩
    obtain ⟨hview, hbuffer⟩ := bufferOf_eq_ok.mp hbuffer
    dsimp only at h
    split at h
    · rename_i hlt
      exact ⟨view, buffer, hview, hbuffer, hlt, (Except.ok.inj h).symm⟩
    · cases h
  · rintro ⟨view, buffer, hview, hbuffer, hlt, rfl⟩
    exact ⟨(view, buffer), bufferOf_eq_ok.mpr ⟨hview, hbuffer⟩, if_pos hlt⟩

/-- A read through the pointer is a read of the buffer. -/
theorem valueAt_of_uintAt {start size k : ℕ} {u : UInt32}
    (hbuffer : model.buffers[view.buffer]? = some buffer) (hpos : 0 < size) (hsize : size ≤ 4)
    (h : uintAt size (buffer.data.drop start) k = .ok u) :
    model.valueAt view (start + k * size) size = some u.toNat := by
  unfold uintAt at h
  split at h
  · rename_i hlen
    rw [List.length_drop, Nat.succ_mul] at hlen
    rw [← Except.ok.inj h, toNat_littleEndian ((List.length_take_le _ _).trans hsize),
      Gltf.Model.valueAt, hbuffer, Option.bind_some, if_pos (by omega), List.drop_drop]
  · cases h

/-- A position that is where it is in tightly packed ones is read right. -/
theorem positionAt_of_vec3At [GlmScene K] {i : ℕ} {v : Vec3 K}
    (hview : model.viewOf accessor = some view)
    (hbuffer : model.buffers[view.buffer]? = some buffer) (hstride : i * view.stride 12 = i * 12)
    (h : vec3At (buffer.data.drop (view.byteOffset + accessor.byteOffset)) i = .ok v) :
    model.positionAt accessor i = some v := by
  have hfloat {c d : ℕ} (hd : d = 4 * c) {x : K} (hx : floatAt (buffer.data.drop
      (view.byteOffset + accessor.byteOffset)) (i * 3 + c) = .ok x) : ∃ u : UInt32,
      model.valueAt view (view.byteOffset + accessor.byteOffset + i * 12 + d) 4 =
        some u.toNat ∧ GlmScene.ofBits u = x := by
    unfold floatAt at hx
    cases hu : uintAt 4 (buffer.data.drop (view.byteOffset + accessor.byteOffset)) (i * 3 + c) with
    | error e =>
      rw [hu] at hx
      cases hx
    | ok u =>
      rw [hu] at hx
      refine ⟨u, ?_, Except.ok.inj hx⟩
      rw [← valueAt_of_uintAt hbuffer (by decide) (le_refl 4) hu]
      congr 1
      omega
  obtain ⟨x, hx, h⟩ := except_bind_eq_ok.mp h
  obtain ⟨y, hy, h⟩ := except_bind_eq_ok.mp h
  obtain ⟨z, hz, h⟩ := except_bind_eq_ok.mp h
  obtain ⟨ux, hux, rfl⟩ := hfloat (show 0 = 4 * 0 from rfl) hx
  obtain ⟨uy, huy, rfl⟩ := hfloat (show 4 = 4 * 1 from rfl) hy
  obtain ⟨uz, huz, rfl⟩ := hfloat (show 8 = 4 * 2 from rfl) hz
  rw [Nat.add_zero] at hux
  rw [← Except.ok.inj h, Gltf.Model.positionAt, hview]
  simp only [Option.bind_eq_bind, Option.bind_some, hstride, hux, huy, huz, UInt32.ofNat_toNat]
  rfl

end Reads

section Primitive

variable {model : Gltf.Model} {primitive : Gltf.Primitive}

/-- The positions of the primitive are tightly packed. -/
def Gltf.Model.TightPositions (model : Gltf.Model) (primitive : Gltf.Primitive) : Prop :=
  ∀ accessor view, model.positions primitive = some accessor →
    model.viewOf accessor = some view → view.byteStride = 0 ∨ view.byteStride = 12

/-- Any indices of the primitive are of a type that is read. -/
def Gltf.Model.IndexTypes (model : Gltf.Model) (primitive : Gltf.Primitive) : Prop :=
  ∀ a accessor, primitive.indices = some a → model.accessors[a]? = some accessor →
    accessor.componentType.indexSize ≠ none

/-- In tightly packed positions, each is where it is read. -/
theorem Gltf.Model.TightPositions.stride (h : model.TightPositions primitive)
    {accessor : Gltf.Accessor} {view : Gltf.BufferView}
    (haccessor : model.positions primitive = some accessor)
    (hview : model.viewOf accessor = some view) (i : ℕ) : i * view.stride 12 = i * 12 := by
  unfold Gltf.BufferView.stride
  rcases h accessor view haccessor hview with hzero | htwelve
  · rw [if_pos hzero]
  · rw [htwelve]
    rfl

/-- The vertices that are extracted are those of the file. -/
theorem extractVertices_spec [GlmScene K] {vertices : List (Vertex K)}
    (hstride : ∀ accessor view, model.positions primitive = some accessor →
      model.viewOf accessor = some view → ∀ i < accessor.count, i * view.stride 12 = i * 12)
    (h : extractVertices model primitive = .ok vertices) :
    vertices.length = model.vertexCount primitive ∧
      ∀ i, (vertices[i]?).map Vertex.position = model.vertex primitive i := by
  unfold extractVertices at h
  unfold Gltf.Model.vertexCount Gltf.Model.vertex
  cases hlookup : primitive.attributes.lookup "POSITION" with
  | none =>
    rw [hlookup] at h
    obtain rfl := Except.ok.inj h
    have hnone : model.positions primitive = none := by rw [Gltf.Model.positions, hlookup]; rfl
    rw [hnone]
    exact ⟨rfl, fun i => rfl⟩
  | some a =>
    rw [hlookup] at h
    obtain ⟨accessor, haccessor, h⟩ := except_bind_eq_ok.mp h
    obtain ⟨p, hp, h⟩ := except_bind_eq_ok.mp h
    have hsome : model.positions primitive = some accessor := by
      rw [Gltf.Model.positions, hlookup, Option.bind_some, elem_eq_ok.mp haccessor]
    obtain ⟨view, buffer, hview, hbuffer, -, rfl⟩ := pointer_eq_ok.mp hp
    have hlength := length_of_mapM h
    rw [List.length_range] at hlength
    refine ⟨hsome ▸ hlength, fun i => ?_⟩
    rw [hsome]
    show _ = if i < accessor.count then model.positionAt accessor i else none
    by_cases hi : i < accessor.count
    · obtain ⟨vertex, hvertex, hv⟩ := getElem?_of_mapM h (List.getElem?_range hi)
      rw [if_pos hi, hvertex]
      cases hvec : vec3At (K := K)
          (buffer.data.drop (view.byteOffset + accessor.byteOffset)) i with
      | error e =>
        rw [hvec] at hv
        cases hv
      | ok v =>
        rw [hvec] at hv
        rw [← Except.ok.inj hv, positionAt_of_vec3At hview hbuffer
          (hstride accessor view hsome hview i hi) hvec]
        rfl
    · rw [if_neg hi, List.getElem?_eq_none (by omega)]
      rfl

/-- The indices that are extracted are those of the file. -/
theorem extractIndices_spec {indices : List UInt32} (htypes : model.IndexTypes primitive) {a : ℕ}
    (ha : primitive.indices = some a) (h : extractIndices model primitive = .ok indices) :
    indices.length = model.cornerCount primitive ∧
      ∀ k < indices.length, (indices[k]?).map UInt32.toNat = model.cornerIndex primitive k := by
  unfold extractIndices at h
  unfold Gltf.Model.cornerCount Gltf.Model.cornerIndex
  rw [ha] at h ⊢
  obtain ⟨accessor, haccessor, h⟩ := except_bind_eq_ok.mp h
  rw [elem_eq_ok] at haccessor
  cases hsize : accessor.componentType.indexSize with
  | none => exact absurd hsize (htypes a accessor ha haccessor)
  | some size =>
    rw [hsize] at h
    obtain ⟨p, hp, h⟩ := except_bind_eq_ok.mp h
    obtain ⟨view, buffer, hview, hbuffer, -, rfl⟩ := pointer_eq_ok.mp hp
    have hlength := length_of_mapM h
    rw [List.length_range] at hlength
    have hbound : 0 < size ∧ size ≤ 4 := by
      unfold Gltf.ComponentType.indexSize at hsize
      split at hsize <;> simp at hsize <;> omega
    refine ⟨?_, fun k hk => ?_⟩
    · show _ = (model.accessors[a]?).elim 0 Gltf.Accessor.count
      rw [haccessor]
      exact hlength
    obtain ⟨u, hu, hread⟩ := getElem?_of_mapM h (List.getElem?_range (hlength ▸ hk))
    rw [hu]
    show _ = (model.accessors[a]?).bind fun accessor => model.indexAt accessor k
    rw [haccessor, Option.bind_some, Gltf.Model.indexAt, hview, Option.map_some]
    simp only [Option.bind_eq_bind, Option.bind_some, hsize]
    exact (valueAt_of_uintAt hbuffer hbound.1 hbound.2 hread).symm

/-- With indices, the mesh has the triangles of the primitive. -/
theorem triangles_of_indices [GlmScene K] {vertices : List (Vertex K)} {indices : List UInt32}
    (htight : model.TightPositions primitive) (htypes : model.IndexTypes primitive) {a : ℕ}
    (ha : primitive.indices = some a) (hvertices : extractVertices model primitive = .ok vertices)
    (hindices : extractIndices model primitive = .ok indices) (material : ℕ) :
    (MeshData.mk vertices indices material).triangles = model.triangleList primitive := by
  obtain ⟨hlength, hindex⟩ := extractIndices_spec htypes ha hindices
  obtain ⟨-, hvertex⟩ := extractVertices_spec
    (fun accessor view haccessor hview i _ => htight.stride haccessor hview i) hvertices
  have hcorner (k : ℕ) (hk : k < indices.length) : cornerAt vertices indices k =
      (model.cornerIndex primitive k).bind (model.vertex primitive) := by
    rw [cornerAt, ← hindex k hk, Option.bind_map]
    exact congrArg _ (funext fun i => hvertex i.toNat)
  rw [MeshData.triangles, Gltf.Model.triangleList, ← hlength]
  refine List.map_congr_left fun k hk => ?_
  have hlt : k < indices.length / 3 := List.mem_range.mp hk
  show (cornerAt vertices indices (3 * k), cornerAt vertices indices (3 * k + 1),
    cornerAt vertices indices (3 * k + 2)) = _
  rw [hcorner _ (by omega), hcorner _ (by omega), hcorner _ (by omega)]

/-- Without indices, the mesh has no triangles. -/
theorem triangles_of_no_indices [GlmScene K] {vertices : List (Vertex K)} {indices : List UInt32}
    (hnone : primitive.indices = none) (hindices : extractIndices model primitive = .ok indices)
    (material : ℕ) : (MeshData.mk vertices indices material).triangles =
      model.triangleList primitive ↔ model.vertexCount primitive < 3 := by
  unfold extractIndices at hindices
  rw [hnone] at hindices
  obtain rfl := Except.ok.inj hindices
  have hcount : model.cornerCount primitive = model.vertexCount primitive := by
    rw [Gltf.Model.cornerCount, hnone]
  rw [MeshData.triangles, Gltf.Model.triangleList, hcount, List.length_nil, Nat.zero_div,
    List.range_zero, List.map_nil, eq_comm, List.map_eq_nil_iff, List.range_eq_nil]
  omega

end Primitive

/-! ### The mesh the loader makes -/

section Loading

variable [Ring K] [GlmScene K] {model : Gltf.Model} {gltfNode : Gltf.Node} {b : SceneBuilder K}

theorem meshes_of_addGltfNode {parent : Option ℕ} {r : ℕ × SceneBuilder K}
    (h : b.addGltfNode gltfNode parent = .ok r) : r.2.meshes = b.meshes := by
  have hP : NodeInvariant fun b' : SceneBuilder K => b'.meshes = b.meshes :=
    ⟨fun _ _ h => h, fun _ _ _ _ h => h⟩
  exact hP.addGltfNode rfl h

omit [GlmScene K] in
/-- Meshes are only appended. -/
theorem meshes_invariant (ms : List (MeshData K)) :
    LoaderInvariant fun b : SceneBuilder K => ms <+: b.meshes where
  createNode _ _ h := h
  modify _ _ _ _ h := h
  createMaterial _ _ h := h
  createMesh _ _ _ _ h := h.trans (List.prefix_append _ _)

/-- A triangle list is appended to the meshes. -/
theorem meshes_of_loadGltfPrimitive {primitive : Gltf.Primitive} {nodeId : ℕ}
    {b' : SceneBuilder K} (h : loadGltfPrimitive model primitive nodeId b = .ok (some b')) :
    ∃ vertices indices, extractVertices model primitive = .ok vertices ∧
      extractIndices model primitive = .ok indices ∧
      b'.meshes = b.meshes ++ [⟨vertices, indices, b.materials.length⟩] := by
  unfold loadGltfPrimitive at h
  split at h
  · cases h
  · obtain ⟨vertices, hvertices, h⟩ := except_bind_eq_ok.mp h
    obtain ⟨indices, hindices, h⟩ := except_bind_eq_ok.mp h
    obtain ⟨mat, -, h⟩ := except_bind_eq_ok.mp h
    obtain ⟨b₁, hset, h⟩ := except_bind_eq_ok.mp h
    obtain rfl := Option.some.inj (Except.ok.inj h)
    obtain ⟨-, rfl⟩ := setNode_eq_ok.mp hset
    exact ⟨vertices, indices, hvertices, hindices, rfl⟩

theorem loadGltfMesh_of_firstPrimitive {primitive : Gltf.Primitive}
    (h : gltfNode.firstPrimitive model = some primitive) (nodeId : ℕ) :
    loadGltfMesh model gltfNode nodeId b = loadGltfPrimitive model primitive nodeId b := by
  obtain ⟨gltfMesh, hlook, hhead⟩ := Option.bind_eq_some_iff.mp h
  obtain ⟨m, hm, hmesh⟩ := Option.bind_eq_some_iff.mp hlook
  obtain ⟨rest, hprimitives⟩ := List.head?_eq_some_iff.mp hhead
  rw [loadGltfMesh, hm]
  show (elem model.meshes m >>= _) = _
  rw [elem_eq_ok.mpr hmesh]
  simp only [bind, Except.bind, hprimitives]

/-- The mesh made of a triangle primitive: what is extracted of it. -/
theorem mesh_of_loadGltfNode {depth : ℕ} {parent : Option ℕ} {nodeIdx : ℕ} {b' : SceneBuilder K}
    {primitive : Gltf.Primitive} (hload : loadGltfNode model depth parent nodeIdx b = .ok b')
    (hnode : model.nodes[nodeIdx]? = some gltfNode)
    (hfirst : gltfNode.firstPrimitive model = some primitive)
    (hmode : primitive.mode = .triangles) :
    ∃ mesh, b'.meshes[b.meshes.length]? = some mesh ∧
      extractVertices model primitive = .ok mesh.vertices ∧
      extractIndices model primitive = .ok mesh.indices := by
  cases depth with
  | zero => cases hload
  | succ depth =>
    obtain ⟨gltfNode', hnode', h⟩ := except_bind_eq_ok.mp hload
    obtain rfl := Option.some.inj (hnode.symm.trans (elem_eq_ok.mp hnode'))
    obtain ⟨⟨nodeId, b₁⟩, hadd, h⟩ := except_bind_eq_ok.mp h
    obtain ⟨o, hmesh, h⟩ := except_bind_eq_ok.mp h
    have hmeshes : b₁.meshes = b.meshes := meshes_of_addGltfNode hadd
    rw [loadGltfMesh_of_firstPrimitive hfirst] at hmesh
    cases o with
    | none =>
      have hnone := isNone_of_loadGltfPrimitive hmesh
      rw [hmode] at hnone
      cases hnone
    | some b₂ =>
      obtain ⟨vertices, indices, hvertices, hindices, hcreated⟩ := meshes_of_loadGltfPrimitive hmesh
      -- the children append other meshes
      have hprefix : b₂.meshes <+: b'.meshes :=
        foldlM_invariant (P := fun b₃ => b₂.meshes <+: b₃.meshes)
          (fun child _ b₃ b₄ hb₃ hstep => (meshes_invariant b₂.meshes).loadGltfNode hb₃ hstep)
          (List.prefix_refl _) h
      refine ⟨⟨vertices, indices, b₁.materials.length⟩, ?_, hvertices, hindices⟩
      obtain ⟨rest, hrest⟩ := hprefix
      rw [← hrest, hcreated, hmeshes, List.append_assoc, List.getElem?_append_right (le_refl _),
        Nat.sub_self]
      rfl

/-- **The mesh made of a triangle primitive has its triangles exactly when it has
indices, or fewer than three vertices.** -/
theorem primitive_decoded {depth : ℕ} {parent : Option ℕ} {nodeIdx : ℕ} {b' : SceneBuilder K}
    {primitive : Gltf.Primitive} (hload : loadGltfNode model depth parent nodeIdx b = .ok b')
    (hnode : model.nodes[nodeIdx]? = some gltfNode)
    (hfirst : gltfNode.firstPrimitive model = some primitive)
    (hmode : primitive.mode = .triangles) (htight : model.TightPositions primitive)
    (htypes : model.IndexTypes primitive) :
    ∃ mesh, b'.meshes[b.meshes.length]? = some mesh ∧
      (mesh.triangles = model.triangleList primitive ↔
        primitive.indices ≠ none ∨ model.vertexCount primitive < 3) := by
  obtain ⟨⟨vertices, indices, material⟩, hmesh, hvertices, hindices⟩ :=
    mesh_of_loadGltfNode hload hnode hfirst hmode
  refine ⟨_, hmesh, ?_⟩
  cases hidx : primitive.indices with
  | none =>
    rw [triangles_of_no_indices hidx hindices]
    exact ⟨.inr, fun h => h.resolve_left (· rfl)⟩
  | some a =>
    exact iff_of_true (triangles_of_indices htight htypes hidx hvertices hindices _)
      (.inl nofun)

end Loading

/-- A primitive of three vertices, with or without indices. The bytes of the indices
are 0, 1 and 2, after those of the positions. -/
def oneTriangle (indices : Option ℕ) : Gltf.Model where
  nodes := [{ name := "triangle", mesh := some 0 }]
  meshes := [⟨[{ attributes := [("POSITION", 0)], indices := indices }]⟩]
  accessors := [{ bufferView := some 0, componentType := .float, count := 3 },
    { bufferView := some 0, byteOffset := 36, componentType := .unsignedByte, count := 3 }]
  bufferViews := [{ buffer := 0 }]
  buffers := [⟨List.replicate 36 0 ++ [0, 1, 2]⟩]

/-- Its primitive. -/
def triangleOfThree (indices : Option ℕ) : Gltf.Primitive :=
  { attributes := [("POSITION", 0)], indices := indices }

theorem oneTriangle_tightPositions (indices : Option ℕ) :
    (oneTriangle indices).TightPositions (triangleOfThree indices) := by
  intro accessor view haccessor hview
  obtain rfl := Option.some.inj haccessor
  obtain rfl := Option.some.inj hview
  exact .inl rfl

theorem primitive_decoded_indexed : ∃ b' : SceneBuilder ℚ,
    loadGltfNode (oneTriangle (some 1)) 1 none 0 {} = .ok b' ∧ ∃ mesh, b'.meshes[0]? = some mesh ∧
      mesh.triangles = (oneTriangle (some 1)).triangleList (triangleOfThree (some 1)) := by
  obtain ⟨b', hload⟩ : ∃ b' : SceneBuilder ℚ,
      loadGltfNode (oneTriangle (some 1)) 1 none 0 {} = .ok b' := ⟨_, rfl⟩
  obtain ⟨mesh, hmesh, hiff⟩ := primitive_decoded hload rfl rfl rfl
    (oneTriangle_tightPositions (some 1)) fun a accessor ha haccessor => by
      obtain rfl := Option.some.inj ha
      obtain rfl := Option.some.inj haccessor
      exact nofun
  exact ⟨b', hload, mesh, hmesh, hiff.mpr (.inl nofun)⟩

/-- Without indices, there are three vertices and no triangle. -/
theorem not_primitiveDecoded : (oneTriangle none).TightPositions (triangleOfThree none) ∧
    (oneTriangle none).IndexTypes (triangleOfThree none) ∧ ∃ b' : SceneBuilder ℚ,
      loadGltfNode (oneTriangle none) 1 none 0 {} = .ok b' ∧ ∃ mesh, b'.meshes = [mesh] ∧
        mesh.vertices.length = 3 ∧ mesh.triangles = [] ∧
        (oneTriangle none).triangleList (triangleOfThree none) =
          [(some (⟨0, 0, 0⟩ : Vec3 ℚ), some ⟨0, 0, 0⟩, some ⟨0, 0, 0⟩)] :=
  ⟨oneTriangle_tightPositions none, nofun, _, rfl, _, rfl, rfl, rfl, by decide +kernel⟩

end Pathological.RenderWorker
