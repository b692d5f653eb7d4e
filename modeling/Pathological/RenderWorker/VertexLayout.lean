import Pathological.RenderWorker.TriangleList

/-!
# Interleaved positions

A file may lay its positions out at a stride, between other attributes of the
vertices. The loader steps through them as through an array of three floats each
and does not look at the stride. So of the layouts the format permits, the
positions it extracts follow those with a stride of 12, given or left out, and
those of one position (`positions_follow_layout`).
-/

namespace Pathological.RenderWorker

open Framework SceneBuilder

variable {K : Type} [GlmScene K]

/-! ### Layouts -/

namespace Gltf

/-- The layouts of float positions that the format permits, at any offsets. -/
structure PositionLayout (accessor : Accessor) (view : BufferView) : Prop where
  bufferView : accessor.bufferView.isSome
  componentType : accessor.componentType = .float
  count : 0 < accessor.count
  stride : view.byteStride = 0 ∨
    4 ∣ view.byteStride ∧ 12 ≤ view.byteStride ∧ view.byteStride ≤ 252

/-- The positions of the primitive are laid out so, in a buffer of these data, which
has them all. -/
structure Model.LaysOut (model : Model) (primitive : Primitive) (accessor : Accessor)
    (view : BufferView) (data : List UInt8) : Prop where
  positions_eq : model.positions primitive = some accessor
  view_eq : model.viewOf accessor = some view
  buffer_eq : model.buffers[view.buffer]? = some ⟨data⟩
  fits : ∀ i < accessor.count,
    view.byteOffset + accessor.byteOffset + i * view.stride 12 + 12 ≤ data.length

end Gltf

/-- Whatever the model and the data of the buffer, the vertices that are extracted
are the positions that are laid out. -/
def FollowsLayout (K : Type) [GlmScene K] (accessor : Gltf.Accessor) (view : Gltf.BufferView) :
    Prop :=
  ∀ model primitive data, Gltf.Model.LaysOut model primitive accessor view data →
    ∃ vertices : List (Vertex K), extractVertices model primitive = .ok vertices ∧
      vertices.length = accessor.count ∧ ∀ i < accessor.count,
        ∃ v, model.positionAt accessor i = some v ∧ vertices[i]? = some ⟨v⟩

section Layout

variable {model : Gltf.Model} {primitive : Gltf.Primitive} {accessor : Gltf.Accessor}
  {view : Gltf.BufferView} {data : List UInt8}

omit [GlmScene K] in
theorem Gltf.PositionLayout.le_stride (h : Gltf.PositionLayout accessor view) :
    12 ≤ view.stride 12 := by
  unfold Gltf.BufferView.stride
  rcases h.stride with hzero | ⟨-, hle, -⟩
  · rw [if_pos hzero]
  · split
    · exact le_refl 12
    · exact hle

/-- The vertices are read without a fault: at a stride of 12 they take no more bytes
than at the stride of the layout. -/
theorem Gltf.Model.LaysOut.exists_extractVertices
    (h : model.LaysOut primitive accessor view data) (hlayout : PositionLayout accessor view) :
    ∃ vertices : List (Vertex K), extractVertices model primitive = .ok vertices := by
  refine extractVertices_eq_ok fun a ha => ?_
  have haccessor : model.accessors[a]? = some accessor := by
    have hpositions := h.positions_eq
    rwa [Gltf.Model.positions, ha, Option.bind_some] at hpositions
  have hcount := hlayout.count
  have hlast := h.fits (accessor.count - 1) (by omega)
  have hstride : (accessor.count - 1) * 12 ≤ (accessor.count - 1) * view.stride 12 :=
    Nat.mul_le_mul_left _ hlayout.le_stride
  refine ⟨accessor, _, haccessor,
    pointer_eq_ok.mpr ⟨view, ⟨data⟩, h.view_eq, h.buffer_eq, ?_, rfl⟩, ?_⟩
  · show view.byteOffset + accessor.byteOffset < data.length
    omega
  · show accessor.count * 12 ≤ (data.drop _).length
    rw [List.length_drop]
    omega

/-- What is extracted where each position is where it is read. -/
theorem Gltf.Model.LaysOut.vertices_eq (h : model.LaysOut primitive accessor view data)
    (hstride : ∀ i < accessor.count, i * view.stride 12 = i * 12) {vertices : List (Vertex K)}
    (hvertices : extractVertices model primitive = .ok vertices) :
    vertices.length = accessor.count ∧ ∀ i < accessor.count,
      ∃ v, model.positionAt accessor i = some v ∧ vertices[i]? = some ⟨v⟩ := by
  obtain ⟨hlength, hvertex⟩ := extractVertices_spec (fun accessor' view' haccessor hview => by
    obtain rfl := Option.some.inj (h.positions_eq.symm.trans haccessor)
    obtain rfl := Option.some.inj (h.view_eq.symm.trans hview)
    exact hstride) hvertices
  rw [Gltf.Model.vertexCount, h.positions_eq] at hlength
  refine ⟨hlength, fun i hi => ?_⟩
  have hlt : i < vertices.length := hlength.symm ▸ hi
  have hposition := hvertex i
  rw [Gltf.Model.vertex, h.positions_eq, List.getElem?_eq_getElem hlt] at hposition
  have hposition : some vertices[i].position = model.positionAt accessor i :=
    hposition.trans (if_pos hi)
  exact ⟨vertices[i].position, hposition.symm, List.getElem?_eq_getElem hlt⟩

/-- The first coordinate of a position. -/
theorem x_of_positionAt {i : ℕ} {v : Vec3 K} (hview : model.viewOf accessor = some view)
    (h : model.positionAt accessor i = some v) :
    ∃ x, model.valueAt view (view.byteOffset + accessor.byteOffset + i * view.stride 12) 4 =
      some x ∧ v.x = GlmScene.ofBits (.ofNat x) := by
  rw [Gltf.Model.positionAt, hview] at h
  simp only [Option.bind_eq_bind, Option.bind_some] at h
  obtain ⟨x, hx, h⟩ := Option.bind_eq_some_iff.mp h
  obtain ⟨y, -, h⟩ := Option.bind_eq_some_iff.mp h
  obtain ⟨z, -, h⟩ := Option.bind_eq_some_iff.mp h
  exact ⟨x, hx, congrArg Vec3.x (Option.some.inj h).symm⟩

/-- The first coordinate of a vertex that is extracted. -/
theorem x_of_extractVertices (h : model.LaysOut primitive accessor view data)
    {vertices : List (Vertex K)} (hvertices : extractVertices model primitive = .ok vertices)
    {i : ℕ} {v : Vec3 K} (hv : vertices[i]? = some ⟨v⟩) :
    v.x = GlmScene.ofBits (littleEndian ((data.drop
      (view.byteOffset + accessor.byteOffset + i * 12)).take 4)) := by
  obtain ⟨a, ha, haccessor⟩ := Option.bind_eq_some_iff.mp h.positions_eq
  unfold extractVertices at hvertices
  rw [ha] at hvertices
  obtain ⟨accessor', haccessor', hvertices⟩ := except_bind_eq_ok.mp hvertices
  obtain rfl := Option.some.inj (haccessor.symm.trans (elem_eq_ok.mp haccessor'))
  obtain ⟨p, hp, hvertices⟩ := except_bind_eq_ok.mp hvertices
  obtain ⟨view', buffer, hview, hbuffer, -, rfl⟩ := pointer_eq_ok.mp hp
  obtain rfl := Option.some.inj (h.view_eq.symm.trans hview)
  obtain rfl := Option.some.inj (h.buffer_eq.symm.trans hbuffer)
  have hi : i < accessor.count := by
    have hlt := (List.getElem?_eq_some_iff.mp hv).1
    rwa [length_of_mapM hvertices, List.length_range] at hlt
  obtain ⟨vertex, hvertex, hread⟩ := getElem?_of_mapM hvertices (List.getElem?_range hi)
  obtain rfl := Option.some.inj (hv.symm.trans hvertex)
  obtain ⟨v', hvec, hv'⟩ := except_map_eq_ok.mp hread
  obtain rfl : v' = v := Vertex.mk.inj hv'
  obtain ⟨x, hx, hvec⟩ := except_bind_eq_ok.mp hvec
  obtain ⟨y, -, hvec⟩ := except_bind_eq_ok.mp hvec
  obtain ⟨z, -, hvec⟩ := except_bind_eq_ok.mp hvec
  obtain rfl := Except.ok.inj hvec
  obtain ⟨u, hu, rfl⟩ := except_map_eq_ok.mp hx
  unfold uintAt at hu
  split at hu
  · have hat : view.byteOffset + accessor.byteOffset + (i * 3 + 0) * 4 =
        view.byteOffset + accessor.byteOffset + i * 12 := by omega
    rw [← Except.ok.inj hu, List.drop_drop, hat]
  · cases hu

end Layout

/-! ### A layout that is not followed -/

/-- Zeros, with a one among them. -/
def bytesWithOne (n k : ℕ) : List UInt8 := (List.replicate n 0).set k 1

/-- Four of them. -/
theorem take_drop_bytesWithOne {n k start : ℕ} (h : start + 4 ≤ n) :
    ((bytesWithOne n k).drop start).take 4 =
      if k < start then [0, 0, 0, 0] else [0, 0, 0, 0].set (k - start) 1 := by
  have hzeros : ((List.replicate n (0 : UInt8)).drop start).take 4 = [0, 0, 0, 0] := by
    rw [List.drop_replicate, List.take_replicate, Nat.min_eq_left (by omega)]
    rfl
  unfold bytesWithOne
  rw [List.drop_set]
  split
  · exact hzeros
  · rw [List.take_set, hzeros]

/-- Positions in this layout, and nothing else. -/
def positionsModel (accessor : Gltf.Accessor) (view : Gltf.BufferView) (data : List UInt8) :
    Gltf.Model where
  accessors := [accessor]
  bufferViews := List.replicate (accessor.bufferView.getD 0 + 1) view
  buffers := List.replicate (view.buffer + 1) ⟨data⟩

/-- Their primitive. -/
def positionsPrimitive : Gltf.Primitive := { attributes := [("POSITION", 0)] }

section Witness

variable {accessor : Gltf.Accessor} {view : Gltf.BufferView}

omit [GlmScene K] in
theorem positionsModel_laysOut (hview : accessor.bufferView.isSome) {data : List UInt8}
    (hfits : ∀ i < accessor.count,
      view.byteOffset + accessor.byteOffset + i * view.stride 12 + 12 ≤ data.length) :
    (positionsModel accessor view data).LaysOut positionsPrimitive accessor view data where
  positions_eq := rfl
  view_eq := by
    obtain ⟨v, hv⟩ := Option.isSome_iff_exists.mp hview
    rw [Gltf.Model.viewOf, hv, Option.bind_some, positionsModel, hv]
    exact List.getElem?_replicate_of_lt (Nat.lt_succ_self v)
  buffer_eq := List.getElem?_replicate_of_lt (Nat.lt_succ_self view.buffer)
  fits := hfits

/-- At another stride, the second of the positions is not read from where it is: a
one just behind the first is its first coordinate. -/
theorem not_followsLayout (hbits : (GlmScene.ofBits 0 : K) ≠ GlmScene.ofBits 1)
    (hlayout : Gltf.PositionLayout accessor view) (hzero : view.byteStride ≠ 0)
    (htwelve : view.byteStride ≠ 12) (hcount : accessor.count ≠ 1) :
    ¬ FollowsLayout K accessor view := by
  intro hfollows
  have hstride : view.stride 12 = view.byteStride := if_neg hzero
  have hpos := hlayout.count
  obtain ⟨hdvd, hle, -⟩ := hlayout.stride.resolve_left hzero
  generalize hbase : view.byteOffset + accessor.byteOffset = base
  generalize hsize : base + accessor.count * view.byteStride = n
  have hfits : ∀ i < accessor.count, base + i * view.stride 12 + 12 ≤ n := by
    intro i hi
    have hmul : (i + 1) * view.byteStride ≤ accessor.count * view.byteStride :=
      Nat.mul_le_mul_right _ hi
    rw [Nat.succ_mul] at hmul
    rw [hstride]
    omega
  have hlays : (positionsModel accessor view (bytesWithOne n (base + 12))).LaysOut
      positionsPrimitive accessor view (bytesWithOne n (base + 12)) := by
    refine positionsModel_laysOut hlayout.bufferView fun i hi => ?_
    rw [hbase, bytesWithOne, List.length_set, List.length_replicate]
    exact hfits i hi
  obtain ⟨vertices, hvertices, hlength, hfollows⟩ := hfollows _ _ _ hlays
  obtain ⟨v, hposition, hvertex⟩ := hfollows 1 (by omega)
  have hsecond := hfits 1 (by omega)
  rw [hstride] at hsecond
  have hx : v.x = GlmScene.ofBits 0 := by
    have hvalue : (positionsModel accessor view (bytesWithOne n (base + 12))).valueAt view
        (view.byteOffset + accessor.byteOffset + 1 * view.stride 12) 4 = some 0 := by
      rw [Gltf.Model.valueAt, hlays.buffer_eq, Option.bind_some, if_pos, hbase, hstride,
        take_drop_bytesWithOne (by omega), if_pos (by omega)]
      · rfl
      · show _ ≤ (bytesWithOne n (base + 12)).length
        rw [bytesWithOne, List.length_set, List.length_replicate, hbase, hstride]
        omega
    obtain ⟨x, hx, hv⟩ := x_of_positionAt hlays.view_eq hposition
    obtain rfl := Option.some.inj (hvalue.symm.trans hx)
    exact hv
  have hx' : v.x = GlmScene.ofBits 1 := by
    rw [x_of_extractVertices hlays hvertices hvertex, hbase, take_drop_bytesWithOne (by omega),
      if_neg (by omega), Nat.one_mul, Nat.sub_self]
    rfl
  exact hbits (hx.symm.trans hx')

/-- **The positions that are extracted follow the layout exactly when the stride is
12, or left out, or there is one position**; and those of the mesh that is loaded
are the ones extracted. -/
theorem positions_follow_layout [Ring K] (hbits : (GlmScene.ofBits 0 : K) ≠ GlmScene.ofBits 1)
    (hlayout : Gltf.PositionLayout accessor view) :
    (FollowsLayout K accessor view ↔
      view.byteStride = 0 ∨ view.byteStride = 12 ∨ accessor.count = 1) ∧
    ∀ {model : Gltf.Model} {gltfNode : Gltf.Node} {primitive : Gltf.Primitive} {depth nodeIdx : ℕ}
      {parent : Option ℕ} {b b' : SceneBuilder K}, model.nodes[nodeIdx]? = some gltfNode →
      gltfNode.firstPrimitive model = some primitive → primitive.mode = .triangles →
      loadGltfNode model depth parent nodeIdx b = .ok b' →
      ∃ mesh, b'.meshes[b.meshes.length]? = some mesh ∧
        extractVertices model primitive = .ok mesh.vertices := by
  refine ⟨⟨fun hfollows => ?_, fun h model primitive data hlays => ?_⟩,
    fun hnode hfirst hmode hload => ?_⟩
  · by_contra hnot
    rw [not_or, not_or] at hnot
    exact not_followsLayout hbits hlayout hnot.1 hnot.2.1 hnot.2.2 hfollows
  · obtain ⟨vertices, hvertices⟩ := hlays.exists_extractVertices (K := K) hlayout
    have hstride : ∀ i < accessor.count, i * view.stride 12 = i * 12 := by
      intro i hi
      unfold Gltf.BufferView.stride
      rcases h with hzero | htwelve | hone
      · rw [if_pos hzero]
      · rw [htwelve]
        rfl
      -- the first position is at the start
      · obtain rfl : i = 0 := by omega
        rw [Nat.zero_mul, Nat.zero_mul]
    exact ⟨vertices, hvertices, hlays.vertices_eq hstride hvertices⟩
  · obtain ⟨mesh, hmesh, hvertices, -⟩ := mesh_of_loadGltfNode hload hnode hfirst hmode
    exact ⟨mesh, hmesh, hvertices⟩

end Witness

theorem positions_follow_layout_atOffset :
    FollowsLayout ℚ { bufferView := some 0, byteOffset := 8, componentType := .float, count := 3 }
      { buffer := 0, byteOffset := 4, byteStride := 12 } :=
  (positions_follow_layout (by decide +kernel)
    ⟨rfl, rfl, by decide, .inr ⟨by decide, by decide, by decide⟩⟩).1.mpr (.inr (.inl rfl))

/-- The positions (0, 0, 0) and (1, 0, 0), each with the normal (0, 0, 1) behind it. -/
def withNormals : Gltf.Model where
  nodes := [{ name := "line", mesh := some 0 }]
  meshes := [⟨[{ attributes := [("POSITION", 0), ("NORMAL", 1)] }]⟩]
  accessors := [{ bufferView := some 0, componentType := .float, count := 2 },
    { bufferView := some 0, byteOffset := 12, componentType := .float, count := 2 }]
  bufferViews := [{ buffer := 0, byteStride := 24 }]
  buffers := [⟨List.replicate 20 0 ++ [0, 0, 0x80, 0x3F] ++ [0, 0, 0x80, 0x3F] ++
    List.replicate 16 0 ++ [0, 0, 0x80, 0x3F]⟩]

/-- The second vertex is the first normal. -/
theorem not_positionsFollowLayout : ∃ b' : SceneBuilder ℚ,
    loadGltfNode withNormals 1 none 0 {} = .ok b' ∧ ∃ mesh, b'.meshes = [mesh] ∧
      mesh.vertices = [⟨⟨0, 0, 0⟩⟩, ⟨⟨0, 0, 1⟩⟩] ∧
      withNormals.positionAt { bufferView := some 0, componentType := .float, count := 2 } 1 =
        some (⟨1, 0, 0⟩ : Vec3 ℚ) ∧
      ¬ FollowsLayout ℚ { bufferView := some 0, componentType := .float, count := 2 }
        { buffer := 0, byteStride := 24 } :=
  ⟨_, rfl, _, rfl, by decide +kernel, by decide +kernel,
    not_followsLayout (by decide +kernel)
      ⟨rfl, rfl, by decide, .inr ⟨by decide, by decide, by decide⟩⟩
      (by decide) (by decide) (by decide)⟩

end Pathological.RenderWorker
