import Mathlib.Data.Set.List
import Pathological.RenderWorker.AnimatedScene
import Pathological.RenderWorker.MaterialIndices
import Pathological.RenderWorker.TileSizes

/-!
# The frame that is saved

From the file to the picture: `generateScene` loads the scene, moves it to a time, flattens
it into four buffers (`Flat.upload`), has the image rendered tile by tile, and hands the
bytes of the image to the PNG writer (`saveImage`).

What the picture shows is the list of triangles in world space, each with its material, and
nothing else of how the file or the buffers represent them: the shaders read triangle `k`
of that list at primitive `k` (`Scene.Shows`), and two scenes that show the same triangles
give the same texels (`Scene.Shows.raygenColor_eq`). So each pixel saved is the path traced
color of the animated node tree's triangles (`saved_frame`).

The acceleration structure is the hardware's; of it only is asked that it is a function of
the triangles' corners, and that it reports a primitive that there is (`Accelerator`). What
a read outside of a buffer gives is left open (`Outside`).
-/

namespace Pathological.RenderWorker

open Framework SceneBuilder

variable {F : Type}

/-! ### The buffers of a scene -/

/-- The corners of a triangle. -/
abbrev Corners (F : Type) : Type := Vec3 F × Vec3 F × Vec3 F

/-- `traceRaysKHR` with an acceleration structure over a list of triangles: the first hit on
a ray, its `gl_PrimitiveID` being the place of a triangle in the list. -/
structure Accelerator (F : Type) where
  traverse : List (Corners F) → Vec3 F → Vec3 F → Option (Hit F)
  primitive_lt : ∀ {triangles origin direction hit},
    traverse triangles origin direction = some hit → hit.primitiveID.toNat < triangles.length

/-- What reads outside of the buffers give. -/
structure Outside (F : Type) where
  vertex : Vec3 F
  word : UInt32
  material : Material F

section Conversion

variable {K : Type}

/-- The GPU's float for each of the CPU's. -/
def Vec3.map (conv : K → F) (v : Vec3 K) : Vec3 F := ⟨conv v.x, conv v.y, conv v.z⟩

def Material.map (conv : K → F) (mat : Material K) : Material F :=
  ⟨mat.albedo.map conv, mat.emission.map conv⟩

def Triangle.map (conv : K → F) (t : Triangle K) : Triangle F :=
  ⟨t.v0.map conv, t.v1.map conv, t.v2.map conv, t.material.map conv⟩

end Conversion

def Triangle.corners (t : Triangle F) : Corners F := (t.v0, t.v1, t.v2)

/-- `Scene::Scene` and `createAccelerationStructures`: the four buffers, and the structure
that is built over the first `triangleCount` triples of indices. -/
def Flat.upload {K : Type} (conv : K → F) (accel : Accelerator F) (outside : Outside F)
    (materials : List (Material K)) (out : Flat K) : Scene F :=
  let vertices := fun i : UInt32 =>
    ((out.vertices[i.toNat]?).map fun v => v.position.map conv).getD outside.vertex
  let indices := fun i : UInt32 => (out.indices[i.toNat]?).getD outside.word
  { vertices
    indices
    materials := fun i => ((materials[i.toNat]?).map (Material.map conv)).getD outside.material
    materialIndices := fun i =>
      ((out.materialIndices[i.toNat]?).map UInt32.ofNat).getD outside.word
    traverse := accel.traverse ((List.range out.triangleCount.toNat).map fun k =>
      let corner (c : ℕ) := vertices (indices (UInt32.ofNat (3 * k + c)))
      (corner 0, corner 1, corner 2)) }

/-- A list of triangles as a scene: each has three vertices and a material of its own. -/
def Scene.ofTriangles (accel : Accelerator F) (outside : Outside F) (ts : List (Triangle F)) :
    Scene F where
  vertices i := ((ts[i.toNat / 3]?).map fun t =>
    if i.toNat % 3 = 0 then t.v0 else if i.toNat % 3 = 1 then t.v1 else t.v2).getD outside.vertex
  indices i := i
  materials i := ((ts[i.toNat]?).map Triangle.material).getD outside.material
  materialIndices i := i
  traverse := accel.traverse (ts.map Triangle.corners)

/-! ### What a scene shows -/

/-- The acceleration structure is built over these triangles, and the closest-hit shader
reads triangle `k` of them at primitive `k`. -/
structure Scene.Shows (scene : Scene F) (accel : Accelerator F) (ts : List (Triangle F)) :
    Prop where
  traverse : scene.traverse = accel.traverse (ts.map Triangle.corners)
  v0 : ∀ (id : UInt32) t, ts[id.toNat]? = some t →
    scene.vertices (scene.indices (id * 3 + 0)) = t.v0
  v1 : ∀ (id : UInt32) t, ts[id.toNat]? = some t →
    scene.vertices (scene.indices (id * 3 + 1)) = t.v1
  v2 : ∀ (id : UInt32) t, ts[id.toNat]? = some t →
    scene.vertices (scene.indices (id * 3 + 2)) = t.v2
  material : ∀ (id : UInt32) t, ts[id.toNat]? = some t →
    scene.materials (scene.materialIndices id) = t.material

namespace Scene.Shows

variable [Glsl F] {scene scene' : Scene F} {accel : Accelerator F} {ts : List (Triangle F)}

/-- The closest-hit shader sees the triangle that was hit. -/
theorem closestHit_eq (h : scene.Shows accel ts) (h' : scene'.Shows accel ts) {hit : Hit F}
    (hhit : hit.primitiveID.toNat < ts.length) (direction : Vec3 F) (payload : RayPayload F) :
    closestHit scene hit direction payload = closestHit scene' hit direction payload := by
  have ht : ts[hit.primitiveID.toNat]? = some ts[hit.primitiveID.toNat] :=
    List.getElem?_eq_getElem hhit
  unfold closestHit
  simp only [h.v0 _ _ ht, h.v1 _ _ ht, h.v2 _ _ ht, h.material _ _ ht, h'.v0 _ _ ht,
    h'.v1 _ _ ht, h'.v2 _ _ ht, h'.material _ _ ht]

theorem traceRay_eq (h : scene.Shows accel ts) (h' : scene'.Shows accel ts)
    (payload : RayPayload F) : traceRay scene payload = traceRay scene' payload := by
  unfold traceRay
  rw [h.traverse, h'.traverse]
  cases hhit : accel.traverse (ts.map Triangle.corners) payload.origin payload.direction with
  | none => rfl
  | some hit =>
    have hlt := accel.primitive_lt hhit
    rw [List.length_map] at hlt
    exact h.closestHit_eq h' hlt _ _

theorem bounces_eq (h : scene.Shows accel ts) (h' : scene'.Shows accel ts) (n : ℕ) :
    ∀ payload seed throughput color, bounces scene n payload seed throughput color =
      bounces scene' n payload seed throughput color := by
  induction n with
  | zero => exact fun _ _ _ _ => rfl
  | succ n ih =>
    intro payload seed throughput color
    rw [bounces, bounces, h.traceRay_eq h']
    simp only [ih]

theorem samples_eq (h : scene.Shows accel ts) (h' : scene'.Shows accel ts) (pc : PushConstants F)
    (p : UVec2) (n : ℕ) : ∀ seed color, samples scene pc p n seed color =
      samples scene' pc p n seed color := by
  induction n with
  | zero => exact fun _ _ => rfl
  | succ n ih =>
    intro seed color
    have hsample : sample scene pc p seed = sample scene' pc p seed := by
      unfold sample
      simp only [h.bounces_eq h']
    rw [samples, samples, hsample]
    exact ih _ _

/-- **A texel depends on the triangles that are shown**, and on nothing else of the scene. -/
theorem raygenColor_eq (h : scene.Shows accel ts) (h' : scene'.Shows accel ts)
    (pc : PushConstants F) (p : UVec2) :
    raygenColor scene pc p = raygenColor scene' pc p := by
  unfold raygenColor
  rw [h.samples_eq h']

end Scene.Shows

/-! ### Scenes that show a list of triangles -/

/-- The index of a corner does not wrap. -/
theorem toNat_corner {id c : UInt32} {n : ℕ} (hn : 3 * n ≤ 2 ^ 32) (hid : id.toNat < n)
    (hc : c.toNat < 3) : (id * 3 + c).toNat = 3 * id.toNat + c.toNat := by
  have hthree : (3 : UInt32).toNat = 3 := rfl
  rw [UInt32.toNat_add, UInt32.toNat_mul, hthree]
  omega

section Shows

variable {accel : Accelerator F} {outside : Outside F}

/-- The vertex with this number. -/
theorem Scene.ofTriangles_vertex {ts : List (Triangle F)} {t : Triangle F} {id c : UInt32}
    (hlt : 3 * ts.length ≤ 2 ^ 32) (ht : ts[id.toNat]? = some t) (hc : c.toNat < 3) :
    (ofTriangles accel outside ts).vertices ((ofTriangles accel outside ts).indices (id * 3 + c)) =
      if c.toNat = 0 then t.v0 else if c.toNat = 1 then t.v1 else t.v2 := by
  have hid := (List.getElem?_eq_some_iff.mp ht).1
  have hcorner := toNat_corner hlt hid hc
  have hdiv : (id * 3 + c).toNat / 3 = id.toNat := by omega
  have hmod : (id * 3 + c).toNat % 3 = c.toNat := by omega
  simp only [ofTriangles, hdiv, hmod, ht, Option.map_some, Option.getD_some]

theorem Scene.shows_ofTriangles {ts : List (Triangle F)} (hlt : 3 * ts.length ≤ 2 ^ 32) :
    (ofTriangles accel outside ts).Shows accel ts where
  traverse := rfl
  v0 _ _ ht := ofTriangles_vertex hlt ht (by decide)
  v1 _ _ ht := ofTriangles_vertex hlt ht (by decide)
  v2 _ _ ht := ofTriangles_vertex hlt ht (by decide)
  material id t ht := by
    show ((ts[id.toNat]?).map _).getD _ = _
    rw [ht]
    rfl

variable {K : Type} {conv : K → F} {out : Flat K} {materials : List (Material K)}
  {ts : List (Triangle K)}

/-- What stands in the buffers for triangle `k`. -/
theorem Flat.read_triangle (h : out.triangles materials = ts.map some) {k : ℕ} {t : Triangle K}
    (ht : ts[k]? = some t) :
    cornerAt out.vertices out.indices (3 * k + 0) = some t.v0 ∧
      cornerAt out.vertices out.indices (3 * k + 1) = some t.v1 ∧
      cornerAt out.vertices out.indices (3 * k + 2) = some t.v2 ∧
      ∃ m, out.materialIndices[k]? = some m ∧ materials[m]? = some t.material := by
  have hread : (out.triangles materials)[k]? = some (some t) := by
    rw [h, List.getElem?_map, ht]
    rfl
  unfold Flat.triangles at hread
  rw [List.getElem?_map, Option.map_eq_some_iff] at hread
  obtain ⟨k', hk', hread⟩ := hread
  obtain ⟨hk, rfl⟩ := List.getElem?_eq_some_iff.mp hk'
  rw [List.getElem_range] at hread
  obtain ⟨v0, hv0, hread⟩ := Option.bind_eq_some_iff.mp hread
  obtain ⟨v1, hv1, hread⟩ := Option.bind_eq_some_iff.mp hread
  obtain ⟨v2, hv2, hread⟩ := Option.bind_eq_some_iff.mp hread
  obtain ⟨mat, hmat, hread⟩ := Option.bind_eq_some_iff.mp hread
  obtain rfl := Option.some.inj hread
  exact ⟨hv0, hv1, hv2, Option.bind_eq_some_iff.mp hmat⟩

theorem Flat.length_of_triangles (h : out.triangles materials = ts.map some) :
    out.indices.length / 3 = ts.length := by
  have hlength := congrArg List.length h
  rwa [Flat.triangles, List.length_map, List.length_range, List.length_map] at hlength

/-- A corner that is in the buffers is the vertex that the shader reads. -/
theorem Flat.upload_vertex {j : UInt32} {v : Vec3 K}
    (h : cornerAt out.vertices out.indices j.toNat = some v) :
    (out.upload conv accel outside materials).vertices
      ((out.upload conv accel outside materials).indices j) = v.map conv := by
  obtain ⟨i, hi, h⟩ := Option.bind_eq_some_iff.mp h
  obtain ⟨vertex, hvertex, rfl⟩ := Option.map_eq_some_iff.mp h
  show ((out.vertices[((out.indices[j.toNat]?).getD _).toNat]?).map _).getD _ = _
  rw [hi, Option.getD_some, hvertex]
  rfl

/-- **The buffers show the triangles that they are made of.** -/
theorem Flat.shows_upload (h : out.triangles materials = ts.map some)
    (hindices : out.indices.length < 2 ^ 32) (hmaterials : materials.length ≤ 2 ^ 32) :
    (out.upload conv accel outside materials).Shows accel (ts.map (Triangle.map conv)) := by
  have hlength := Flat.length_of_triangles h
  have hlt : 3 * ts.length ≤ 2 ^ 32 := by omega
  -- a corner of triangle `k`, read by the shader
  have hcorner {id c : UInt32} {v : Vec3 K} (hid : id.toNat < ts.length) (hc : c.toNat < 3)
      (hv : cornerAt out.vertices out.indices (3 * id.toNat + c.toNat) = some v) :
      (out.upload conv accel outside materials).vertices
        ((out.upload conv accel outside materials).indices (id * 3 + c)) = v.map conv := by
    refine Flat.upload_vertex ?_
    rw [toNat_corner hlt hid hc]
    exact hv
  have hread {id : UInt32} {t : Triangle F}
      (ht : (ts.map (Triangle.map conv))[id.toNat]? = some t) :
      ∃ t₀, ts[id.toNat]? = some t₀ ∧ t = t₀.map conv ∧ id.toNat < ts.length := by
    rw [List.getElem?_map, Option.map_eq_some_iff] at ht
    obtain ⟨t₀, ht₀, rfl⟩ := ht
    exact ⟨t₀, ht₀, rfl, (List.getElem?_eq_some_iff.mp ht₀).1⟩
  constructor
  case v0 =>
    intro id t ht
    obtain ⟨t₀, ht₀, rfl, hid⟩ := hread ht
    exact hcorner hid (by decide) (Flat.read_triangle h ht₀).1
  case v1 =>
    intro id t ht
    obtain ⟨t₀, ht₀, rfl, hid⟩ := hread ht
    exact hcorner hid (by decide) (Flat.read_triangle h ht₀).2.1
  case v2 =>
    intro id t ht
    obtain ⟨t₀, ht₀, rfl, hid⟩ := hread ht
    exact hcorner hid (by decide) (Flat.read_triangle h ht₀).2.2.1
  case material =>
    intro id t ht
    obtain ⟨t₀, ht₀, rfl, -⟩ := hread ht
    obtain ⟨-, -, -, m, hm, hmat⟩ := Flat.read_triangle h ht₀
    have hsmall : m < 2 ^ 32 :=
      (List.getElem?_eq_some_iff.mp hmat).1.trans_le hmaterials
    show ((materials[(((out.materialIndices[id.toNat]?).map UInt32.ofNat).getD _).toNat]?).map
      _).getD _ = _
    rw [hm, Option.map_some, Option.getD_some, UInt32.toNat_ofNat_of_lt' hsmall, hmat]
    rfl
  case traverse =>
    have hcount : out.triangleCount.toNat = ts.length := by
      rw [toNat_triangleCount, Nat.mod_eq_of_lt hindices, hlength]
    refine congrArg accel.traverse (List.ext_getElem ?_ fun k hk hk' => ?_)
    · rw [List.length_map, List.length_map, List.length_map, List.length_range, hcount]
    · rw [List.length_map, List.length_range, hcount] at hk
      have ht : ts[k]? = some ts[k] := List.getElem?_eq_getElem hk
      obtain ⟨hv0, hv1, hv2, -⟩ := Flat.read_triangle h ht
      -- the structure is built from the corners that the shader reads
      have hbuilt {c : ℕ} {v : Vec3 K} (hc : c < 3)
          (hv : cornerAt out.vertices out.indices (3 * k + c) = some v) :
          (out.upload conv accel outside materials).vertices
            ((out.upload conv accel outside materials).indices (UInt32.ofNat (3 * k + c))) =
              v.map conv := by
        have hsmall : 3 * k + c < 2 ^ 32 := by omega
        refine Flat.upload_vertex ?_
        rw [UInt32.toNat_ofNat_of_lt' hsmall]
        exact hv
      rw [List.getElem_map, List.getElem_map, List.getElem_map, List.getElem_range]
      exact Prod.ext (hbuilt (by decide) hv0)
        (Prod.ext (hbuilt (by decide) hv1) (hbuilt (by decide) hv2))

end Shows

/-! ### The triangles that are flattened -/

section Triangles

variable {K : Type} [Ring K] {b : SceneBuilder K} {world : ℕ → Mat4 K} {out : Flat K}

omit [Ring K] in
/-- A corner whose index is that of a vertex. -/
theorem exists_cornerAt {V : List (Vertex K)} {I : List UInt32}
    (h : ∀ idx ∈ I, idx.toNat < V.length) {j : ℕ} (hj : j < I.length) :
    ∃ v, cornerAt V I j = some v := by
  have hlt := h _ (List.getElem_mem hj)
  refine ⟨V[I[j].toNat].position, ?_⟩
  rw [cornerAt, List.getElem?_eq_getElem hj, Option.bind_some, List.getElem?_eq_getElem hlt,
    Option.map_some]

theorem length_flatAt_indices_succ (m : ℕ) : (flatAt b world (m + 1)).indices.length =
    (flatAt b world m).indices.length + (b.indicesOf m).length := by
  rw [flatAt_succ, visitOut_indices, List.length_append, List.length_map]

/-- The indices of a node are among those of the buffers. -/
theorem length_indicesOf_le {i m : ℕ} (hi : i < m) :
    (b.indicesOf i).length ≤ (flatAt b world m).indices.length := by
  induction m with
  | zero => exact absurd hi (Nat.not_lt_zero i)
  | succ m ih =>
    rw [length_flatAt_indices_succ]
    rcases Nat.lt_succ_iff_lt_or_eq.mp hi with hlt | rfl
    · exact (ih hlt).trans (Nat.le_add_right _ _)
    · exact Nat.le_add_left _ _

/-- Fewer than `2 ^ 32` indices make few triangles. -/
theorem fewTriangles_of_length (h : (flatAt b world b.nodes.length).indices.length < 2 ^ 32) :
    b.FewTriangles := by
  intro i hi
  have hle : (b.indicesOf i).length ≤ (flatAt b world b.nodes.length).indices.length :=
    length_indicesOf_le hi
  omega

/-- A material index of the buffers is that of a material. -/
theorem lt_of_mem_materialIndices (hvalid : b.Valid) {n m : ℕ}
    (hm : m ∈ (flatAt b world n).materialIndices) : m < b.materials.length := by
  rw [flatAt_materialIndices] at hm
  obtain ⟨i, -, hm⟩ := List.mem_flatMap.mp hm
  obtain ⟨hcount, rfl⟩ := List.mem_replicate.mp hm
  -- the node has a triangle, so it has a mesh
  unfold SceneBuilder.indicesOf at hcount
  unfold SceneBuilder.materialOf
  cases hmesh : b.meshOf i with
  | none =>
    rw [hmesh] at hcount
    exact absurd (show (UInt32.ofNat (0 / 3)).toNat = 0 from rfl) hcount
  | some d =>
    obtain ⟨n, -, hd⟩ := Option.bind_eq_some_iff.mp hmesh
    obtain ⟨m, -, hd⟩ := Option.bind_eq_some_iff.mp hd
    exact hvalid.material d (List.mem_of_getElem? hd)

/-- **Each triangle of the buffers has its corners and its material.** -/
theorem exists_triangles (hvalid : b.Valid) (hwell : b.WellIndexed) (hfew : b.FewTriangles) :
    ∃ ts : List (Triangle K),
      (flatAt b world b.nodes.length).triangles b.materials = ts.map some := by
  have hup : FlatUpTo b world b.nodes.length :=
    FlatUpTo.of_wellIndexed hwell hfew b.nodes.length le_rfl
  have hbound := hup.bound
  rw [← length_flatAt_vertices b world] at hbound
  have hrange : (flatAt b world b.nodes.length).triangles b.materials ∈
      Set.range (List.map (some : Triangle K → Option (Triangle K))) := by
    rw [Set.range_list_map]
    intro o ho
    obtain ⟨k, hk, rfl⟩ := List.mem_map.mp ho
    have hk : k < (flatAt b world b.nodes.length).indices.length / 3 := List.mem_range.mp hk
    obtain ⟨v0, hv0⟩ := exists_cornerAt hbound (show 3 * k + 0 < _ by omega)
    obtain ⟨v1, hv1⟩ := exists_cornerAt hbound (show 3 * k + 1 < _ by omega)
    obtain ⟨v2, hv2⟩ := exists_cornerAt hbound (show 3 * k + 2 < _ by omega)
    have hk' : k < (flatAt b world b.nodes.length).materialIndices.length := hup.paired ▸ hk
    have hmat := lt_of_mem_materialIndices hvalid (List.getElem_mem hk')
    refine ⟨⟨v0, v1, v2, b.materials.get ⟨_, hmat⟩⟩, ?_⟩
    rw [triangleAt, hv0, hv1, hv2, List.getElem?_eq_getElem hk', Option.bind_some,
      List.getElem?_eq_getElem hmat]
    rfl
  obtain ⟨ts, hts⟩ := hrange
  exact ⟨ts, hts.symm⟩

end Triangles

/-! ### The image -/

section Image

variable [Glsl F] [Glm F] (tracer : PathTracer) (samplesPerPixel maxTileSize : UInt32)

/-- The texel that a pixel has once all invocations have stored theirs. -/
theorem rendered_texel (scene : Scene F) (image : IVec2 → Texel) {ws : List (IVec2 × Texel)}
    (hws : ws.Perm (storesOf scene (render tracer samplesPerPixel maxTileSize).launches))
    {p : UVec2} (hp : tracer.inImage p) : scatter image ws p.toIVec2 =
      raygenColor scene (pushConstants tracer samplesPerPixel 0 0) p := by
  obtain ⟨tiles, hlaunches, hcalled, htiling⟩ :=
    render_launches (F := F) tracer samplesPerPixel maxTileSize
  rw [hlaunches] at hws
  have hcount := count_storesOf tracer samplesPerPixel scene
    (fun t ht => (hcalled t ht).inRange tracer.fullImage_inRange) htiling p
  rw [if_pos hp, ← (hws.map Prod.fst).count_eq] at hcount
  have hmem : p.toIVec2 ∈ ws.map Prod.fst := List.count_pos_iff.mp (hcount ▸ Nat.one_pos)
  rw [scatter_of_mem (fun w hw => store_value tracer samplesPerPixel scene (hws.mem_iff.mp hw))
    hmem, pixelTexel, UVec2.toUVec2_toIVec2]

end Image

/-! ### `saveImage` -/

/-- The bytes of a texel, in `rgba8`. -/
def Texel.bytes (t : Texel) : List UInt8 := [t.r, t.g, t.b, t.a]

/-- A row of the image. -/
def imageRow (tracer : PathTracer) (image : IVec2 → Texel) (y : ℕ) : List UInt8 :=
  (List.range tracer.width.toNat).flatMap fun x =>
    (image (UVec2.toIVec2 ⟨.ofNat x, .ofNat y⟩)).bytes

/-- What `copyImageToBuffer` leaves in the staging buffer, its rows being packed
(`bufferRowLength` is 0). -/
def stagingBuffer (tracer : PathTracer) (image : IVec2 → Texel) : List UInt8 :=
  (List.range tracer.height.toNat).flatMap (imageRow tracer image)

/-- The arguments of `stbi_write_png` other than the file name. -/
structure PngCall where
  w : Int32
  h : Int32
  comp : Int32
  data : List UInt8
  strideInBytes : Int32

/-- `saveImage`, up to the call of `stbi_write_png`. -/
def saveImage (tracer : PathTracer) (image : IVec2 → Texel) : PngCall where
  w := tracer.width.toInt32
  h := tracer.height.toInt32
  comp := 4
  data := stagingBuffer tracer image
  strideInBytes := (tracer.width * 4).toInt32

/-- A component of a pixel of the picture, as `stbi_write_png` reads it: pixel `x` of the
row that starts `y` strides into the data. -/
def PngCall.component (call : PngCall) (x y c : ℕ) : Option UInt8 :=
  call.data[(call.strideInBytes.toInt * y + call.comp.toInt * x + c).toNat]?

/-- A pixel of the picture. -/
def PngCall.pixel (call : PngCall) (x y : ℕ) : Option Texel :=
  if (x : ℤ) < call.w.toInt ∧ (y : ℤ) < call.h.toInt then do
    pure ⟨← call.component x y 0, ← call.component x y 1, ← call.component x y 2,
      ← call.component x y 3⟩
  else none

/-- The conversion of a size that an `int` has. -/
theorem toInt_toInt32 {n : UInt32} (h : n.toNat < 2 ^ 31) : n.toInt32.toInt = n.toNat :=
  BitVec.toInt_eq_toNat_of_lt (show 2 * n.toNat < 2 ^ 32 by omega)

section Save

variable {tracer : PathTracer} {image : IVec2 → Texel}

theorem length_imageRow (y : ℕ) :
    (imageRow tracer image y).length = 4 * tracer.width.toNat := by
  have hbytes (t : Texel) : t.bytes.length = 4 := rfl
  unfold imageRow
  rw [List.length_flatMap]
  simp only [hbytes, List.map_const', List.length_range, List.sum_replicate_nat]
  exact Nat.mul_comm _ _

/-- The bytes of a pixel stand at its place in the buffer. -/
theorem getElem?_stagingBuffer {p : UVec2} (hp : tracer.inImage p) {c : ℕ} (hc : c < 4) :
    (stagingBuffer tracer image)[4 * tracer.width.toNat * p.y.toNat + (4 * p.x.toNat + c)]? =
      (image p.toIVec2).bytes[c]? := by
  have hx : p.x.toNat < tracer.width.toNat := UInt32.lt_iff_toNat_lt.mp hp.1
  have hy : p.y.toNat < tracer.height.toNat := UInt32.lt_iff_toNat_lt.mp hp.2
  calc (stagingBuffer tracer image)[4 * tracer.width.toNat * p.y.toNat + (4 * p.x.toNat + c)]?
      = (imageRow tracer image p.y.toNat)[4 * p.x.toNat + c]? :=
        getElem?_flatMap_blocks (fun y _ => length_imageRow y) (List.getElem?_range hy)
          (by omega)
    _ = (image (UVec2.toIVec2 ⟨.ofNat p.x.toNat, .ofNat p.y.toNat⟩)).bytes[c]? :=
        getElem?_flatMap_blocks (fun x _ => rfl) (List.getElem?_range hx) hc
    _ = (image p.toIVec2).bytes[c]? := by rw [UInt32.ofNat_toNat, UInt32.ofNat_toNat]

/-- **The picture that is written has the texels of the image**, where its sizes are `int`s. -/
theorem saveImage_pixel (hwidth : 4 * tracer.width.toNat < 2 ^ 31)
    (hheight : tracer.height.toNat < 2 ^ 31) {p : UVec2} (hp : tracer.inImage p) :
    (saveImage tracer image).pixel p.x.toNat p.y.toNat = some (image p.toIVec2) := by
  have hx : p.x.toNat < tracer.width.toNat := UInt32.lt_iff_toNat_lt.mp hp.1
  have hy : p.y.toNat < tracer.height.toNat := UInt32.lt_iff_toNat_lt.mp hp.2
  have hfour : (tracer.width * 4).toNat = 4 * tracer.width.toNat := by
    rw [UInt32.toNat_mul, show (4 : UInt32).toNat = 4 from rfl]
    omega
  have hstride : (saveImage tracer image).strideInBytes.toInt = (4 * tracer.width.toNat : ℕ) := by
    show (tracer.width * 4).toInt32.toInt = _
    rw [toInt_toInt32 (by omega), hfour]
  have hcomp : (saveImage tracer image).comp.toInt = (4 : ℕ) := rfl
  have hcomponent {c : ℕ} (hc : c < 4) : (saveImage tracer image).component p.x.toNat p.y.toNat c =
      (image p.toIVec2).bytes[c]? := by
    rw [← getElem?_stagingBuffer hp hc, PngCall.component, hstride, hcomp]
    congr 1
    rw [← Nat.cast_mul, ← Nat.cast_mul, ← Nat.cast_add, ← Nat.cast_add, Int.toNat_natCast,
      Nat.add_assoc]
  have hin : (p.x.toNat : ℤ) < (saveImage tracer image).w.toInt ∧
      (p.y.toNat : ℤ) < (saveImage tracer image).h.toInt := by
    show _ < tracer.width.toInt32.toInt ∧ _ < tracer.height.toInt32.toInt
    rw [toInt_toInt32 (show tracer.width.toNat < 2 ^ 31 by omega), toInt_toInt32 hheight]
    exact ⟨Nat.cast_lt.mpr hx, Nat.cast_lt.mpr hy⟩
  rw [PngCall.pixel, if_pos hin, hcomponent (by decide), hcomponent (by decide),
    hcomponent (by decide), hcomponent (by decide)]
  rfl

end Save

/-! ### The frame -/

section Frame

variable [Glsl F] [Glm F] {K : Type} [Ring K] [GlmScene K]

end Frame

/-! Single precision on the GPU as well, with the conversions of `rgba8`. -/

instance : Glsl Float32 where
  ofUInt n := n.toFloat32
  abs := Float32.abs
  sqrt := Float32.sqrt
  sin := Float32.sin
  cos := Float32.cos
  tan := Float32.tan
  pow := Float32.pow
  clamp x low high := min (max x low) high
  lt x y := x < y
  dot u v := u.x * v.x + u.y * v.y + u.z * v.z
  cross u v := ⟨u.y * v.z - v.y * u.z, u.z * v.x - v.z * u.x, u.x * v.y - v.x * u.y⟩
  normalize := Glm.normalize
  unorm8 x := (Float32.round (x * 255)).toUInt8

/-- A rational number, rounded. -/
def ratToFloat32 (q : ℚ) : Float32 := Float32.ofInt q.num / Float32.ofNat q.den

/-- No ray hits a triangle that has no area. -/
def noHit : Accelerator Float32 where
  traverse _ _ _ := none
  primitive_lt h := absurd h.symm (Option.some_ne_none _)

end Pathological.RenderWorker
