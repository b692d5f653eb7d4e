import Pathological.Framework.Runs
import Pathological.RenderWorker.Flatten

/-!
# Material indices

The closest-hit shader reads triangle `k` of a scene at `3 * k` in the indices and
at `k` in the material indices. `flattenToScene` appends to the former what index
list a mesh has, and to the latter one entry for each whole triangle of it. So the
two stay aligned exactly when the meshes fit (`materials_aligned`): in a scene of
fewer than `2 ^ 32` indices, when after a mesh that is no list of whole triangles
less than another triangle follows.
-/

namespace Pathological.RenderWorker

open Framework SceneBuilder

variable {K : Type} [Ring K]

/-! ### The scene -/

/-- `Scene::indexCount`. -/
def Flat.indexCount (out : Flat K) : UInt32 := UInt32.ofNat out.indices.length

/-- `Scene::triangleCount`. -/
def Flat.triangleCount (out : Flat K) : UInt32 := out.indexCount / 3

/-- The number of indices of a node's mesh. -/
def SceneBuilder.indexCountOf (b : SceneBuilder K) (i : ℕ) : ℕ := (b.indicesOf i).length

/-- The number of material indices made for it. -/
def SceneBuilder.triangleCountOf (b : SceneBuilder K) (i : ℕ) : ℕ :=
  (UInt32.ofNat (b.indexCountOf i / 3)).toNat

/-- Where the indices start of the mesh of the node visited at `v`. -/
def Flat.firstIndex (b : SceneBuilder K) (out : Flat K) (v : ℕ) : ℕ :=
  offset b.indexCountOf out.visited v

/-- The indices of triangle `k` are indices of the mesh, moved by a base vertex,
out of those appended for the node visited at `v`. -/
structure TriangleOf (b : SceneBuilder K) (out : Flat K) (k v : ℕ) (mesh : MeshData K) : Prop where
  meshOf : (out.visited[v]?).bind b.meshOf = some mesh
  first : out.firstIndex b v ≤ 3 * k
  last : 3 * k + 3 ≤ out.firstIndex b v + mesh.indices.length
  indices : ∃ base : UInt32, ∀ c < 3, out.indices[3 * k + c]? =
    (mesh.indices[3 * k + c - out.firstIndex b v]?).map fun idx => base + idx

/-- There is a material index for each triangle, and it is the material of the mesh
that all three indices of the triangle come from. -/
structure MaterialsAligned (b : SceneBuilder K) (out : Flat K) : Prop where
  length : out.materialIndices.length = out.triangleCount.toNat
  triangle : ∀ k < out.triangleCount.toNat, ∃ v mesh, TriangleOf b out k v mesh ∧
    out.materialIndices[k]? = some mesh.materialId

/-! ### The condition -/

namespace SceneBuilder

/-- The children of a node. -/
def childrenOf (b : SceneBuilder K) (i : ℕ) : List ℕ := (b.nodes[i]?).elim [] Node.children

/-- The order in which the nodes are visited. -/
def visitOrder (b : SceneBuilder K) (depth : ℕ) : List ℕ :=
  b.getRootNodes.flatMap (descend b.childrenOf depth)

/-- The number of indices of the scene. -/
def totalIndices (b : SceneBuilder K) (depth : ℕ) : ℕ :=
  ((b.visitOrder depth).map b.indexCountOf).sum

/-- After a mesh that is no list of whole triangles, what is left over of it and
what follows do not make up another triangle. -/
def WholeTriangles (b : SceneBuilder K) (depth : ℕ) : Prop :=
  ∀ v i, (b.visitOrder depth)[v]? = some i → ¬ 3 ∣ b.indexCountOf i →
    b.indexCountOf i % 3 + (((b.visitOrder depth).drop (v + 1)).map b.indexCountOf).sum < 3

/-- The meshes fit the number of triangles of the scene. -/
def MeshesFit (b : SceneBuilder K) (depth : ℕ) : Prop :=
  Fits 3 (b.totalIndices depth % 2 ^ 32 / 3) b.indexCountOf b.triangleCountOf b.materialOf
    (b.visitOrder depth)

end SceneBuilder

/-! ### What is appended -/

section Flatten

variable {b : SceneBuilder K} {out : Flat K} {depth : ℕ}

/-- The buffers hold what is appended for the nodes visited. -/
structure Gathers (b : SceneBuilder K) (out : Flat K) : Prop where
  indices : ∃ bases : List UInt32, bases.length = out.visited.length ∧
    out.indices = (out.visited.zip bases).flatMap fun e =>
      (b.indicesOf e.1).map fun idx => e.2 + idx
  materialIndices : out.materialIndices = recorded b.triangleCountOf b.materialOf out.visited

/-- What a visit does. -/
theorem visitNode_eq_ok {x : Mat4 K} {i : ℕ} {r : Flat K × Mat4 K × List ℕ}
    (h : b.visitNode x i out = .ok r) :
    (∃ worldTransform, r.1 = visitOut b out (worldTransform, i)) ∧ r.2.2 = b.childrenOf i := by
  obtain ⟨node, hnode, h⟩ := except_bind_eq_ok.mp h
  obtain ⟨out', hflatten, h⟩ := except_bind_eq_ok.mp h
  obtain rfl := Except.ok.inj h
  rw [elem_eq_ok] at hnode
  refine ⟨⟨x * node.localTransform, ?_⟩, by rw [childrenOf, hnode]; rfl⟩
  unfold visitOut
  rw [meshOf, hnode, Option.bind_some]
  unfold flattenMesh at hflatten
  cases hmesh : node.mesh with
  | none =>
    rw [hmesh] at hflatten
    exact (Except.ok.inj hflatten).symm
  | some m =>
    rw [hmesh] at hflatten
    obtain ⟨mesh, hm, hflatten⟩ := except_bind_eq_ok.mp hflatten
    rw [Option.bind_some, elem_eq_ok.mp hm]
    exact (Except.ok.inj hflatten).symm

theorem Gathers.visit (h : Gathers b out) (e : Mat4 K × ℕ) : Gathers b (visitOut b out e) where
  indices := by
    obtain ⟨bases, hlength, hindices⟩ := h.indices
    refine ⟨bases ++ [UInt32.ofNat out.vertices.length], ?_, ?_⟩
    · rw [visitOut_visited, List.length_append, List.length_append, hlength]
      rfl
    · rw [visitOut_visited, visitOut_indices, List.zip_append hlength.symm, List.flatMap_append,
        ← hindices]
      exact congrArg (out.indices ++ ·) (List.append_nil _).symm
  materialIndices := by
    rw [visitOut_materialIndices, visitOut_visited, recorded, List.flatMap_append,
      h.materialIndices]
    exact congrArg (recorded b.triangleCountOf b.materialOf out.visited ++ ·)
      (List.append_nil _).symm

/-- The buffers of a scene. -/
theorem flattenToScene_gathers (h : b.flattenToScene depth = .ok out) :
    Gathers b out ∧ out.visited = b.visitOrder depth := by
  obtain ⟨out', hrun, h⟩ := except_bind_eq_ok.mp h
  have hsame : out' = out := by
    split at h
    · cases h
    · exact Except.ok.inj h
  subst hsame
  simp only [traverseAndFlatten_eq_walk] at hrun
  constructor
  · refine foldlM_invariant (P := Gathers b) (fun root _ s s' hs hwalk => ?_)
      ⟨⟨[], rfl, rfl⟩, rfl⟩ hrun
    refine walk_invariant (fun x i s r hs hvisit => ?_) hs hwalk
    obtain ⟨⟨worldTransform, hr⟩, -⟩ := visitNode_eq_ok hvisit
    rw [hr]
    exact hs.visit _
  · refine (foldlM_appends Flat.visited (fun root _ s s' hwalk => ?_) hrun).trans
      (List.nil_append _)
    refine walk_descend (fun x i s r hvisit => ?_) hwalk
    obtain ⟨⟨worldTransform, hr⟩, hchildren⟩ := visitNode_eq_ok hvisit
    rw [hr]
    exact ⟨visitOut_visited b s _, hchildren⟩

omit [Ring K] in
theorem Gathers.length_indices (h : Gathers b out) :
    out.indices.length = (out.visited.map b.indexCountOf).sum := by
  obtain ⟨bases, hlength, hindices⟩ := h.indices
  have hfst : (out.visited.zip bases).map Prod.fst = out.visited :=
    List.map_fst_zip hlength.ge
  rw [hindices, List.length_flatMap]
  conv_rhs => rw [← hfst, List.map_map]
  simp only [List.length_map]
  rfl

omit [Ring K] in
/-- Where the indices of a mesh stand. -/
theorem Gathers.getElem?_indices (h : Gathers b out) {v i : ℕ} (hv : out.visited[v]? = some i) :
    ∃ base : UInt32, ∀ p < b.indexCountOf i, out.indices[out.firstIndex b v + p]? =
      ((b.indicesOf i)[p]?).map fun idx => base + idx := by
  obtain ⟨bases, hlength, hindices⟩ := h.indices
  have hlt : v < bases.length := hlength ▸ (List.getElem?_eq_some_iff.mp hv).1
  have hzip : (out.visited.zip bases)[v]? = some (i, bases[v]) :=
    List.getElem?_zip_eq_some.mpr ⟨hv, List.getElem?_eq_getElem hlt⟩
  have hfst : (out.visited.zip bases).map Prod.fst = out.visited :=
    List.map_fst_zip hlength.ge
  refine ⟨bases[v], fun p hp => ?_⟩
  have hget := getElem?_flatMap_offset (f := fun e : ℕ × UInt32 =>
    (b.indicesOf e.1).map fun idx => e.2 + idx) hzip (p := p) (by rwa [List.length_map])
  rw [← hindices, List.getElem?_map] at hget
  rw [← hget, Flat.firstIndex]
  conv_lhs => rw [← hfst, offset_map]
  simp only [List.length_map]
  rfl

end Flatten

/-! ### The law -/

section Law

variable {b : SceneBuilder K} {out : Flat K} {depth : ℕ}

omit [Ring K] in
theorem toNat_triangleCount (out : Flat K) :
    out.triangleCount.toNat = out.indices.length % 2 ^ 32 / 3 := by
  rw [Flat.triangleCount, Flat.indexCount, UInt32.toNat_div, UInt32.toNat_ofNat']
  rfl

omit [Ring K] in
theorem triangleCountOf_eq (b : SceneBuilder K) (i : ℕ) :
    b.triangleCountOf i = b.indexCountOf i / 3 % 2 ^ 32 := by
  rw [SceneBuilder.triangleCountOf, UInt32.toNat_ofNat']

omit [Ring K] in
theorem indicesOf_eq {i : ℕ} {mesh : MeshData K} (h : b.meshOf i = some mesh) :
    b.indicesOf i = mesh.indices := by
  rw [indicesOf, h]
  rfl

omit [Ring K] in
theorem materialOf_eq {i : ℕ} {mesh : MeshData K} (h : b.meshOf i = some mesh) :
    b.materialOf i = mesh.materialId := by
  rw [materialOf, h]
  rfl

omit [Ring K] in
/-- A node with indices has a mesh. -/
theorem exists_meshOf {i : ℕ} (h : 0 < b.indexCountOf i) : ∃ mesh, b.meshOf i = some mesh := by
  unfold indexCountOf indicesOf at h
  cases hmesh : b.meshOf i with
  | none =>
    rw [hmesh] at h
    exact absurd h (Nat.lt_irrefl 0)
  | some mesh => exact ⟨mesh, rfl⟩

omit [Ring K] in
/-- Read run by run: the runs are the meshes of the nodes visited. -/
theorem Gathers.materialsAligned_iff (h : Gathers b out) :
    MaterialsAligned b out ↔ Aligned 3 out.triangleCount.toNat b.indexCountOf b.triangleCountOf
      b.materialOf out.visited := by
  refine ⟨fun hal => ⟨h.materialIndices ▸ hal.length, fun k hk => ?_⟩,
    fun hal => ⟨h.materialIndices ▸ hal.total, fun k hk => ?_⟩⟩
  · obtain ⟨v, mesh, htriangle, hmaterial⟩ := hal.triangle k hk
    obtain ⟨i, hi, hmesh⟩ := Option.bind_eq_some_iff.mp htriangle.meshOf
    have hcount : b.indexCountOf i = mesh.indices.length :=
      congrArg List.length (indicesOf_eq hmesh)
    rw [h.materialIndices] at hmaterial
    exact ⟨v, i, hi, htriangle.first, hcount ▸ htriangle.last, materialOf_eq hmesh ▸ hmaterial⟩
  · obtain ⟨v, i, hi, hfirst, hlast, hvalue⟩ := hal.group k hk
    obtain ⟨mesh, hmesh⟩ := exists_meshOf (b := b) (i := i) (by omega)
    have hindices : b.indicesOf i = mesh.indices := indicesOf_eq hmesh
    obtain ⟨base, hbase⟩ := h.getElem?_indices hi
    refine ⟨v, mesh, ⟨by rw [hi]; exact hmesh, hfirst, ?_, base, fun c hc => ?_⟩, ?_⟩
    · rw [← hindices]
      exact hlast
    · have hfirst : out.firstIndex b v ≤ 3 * k := hfirst
      have hget := hbase (3 * k + c - out.firstIndex b v) (by
        show _ < b.indexCountOf i
        have hlast : 3 * k + 3 ≤ out.firstIndex b v + b.indexCountOf i := hlast
        omega)
      rwa [Nat.add_sub_cancel' (hfirst.trans (Nat.le_add_right _ _)), hindices] at hget
    · rw [h.materialIndices, hvalue, materialOf_eq hmesh]

/-- **Triangles and materials are aligned exactly when the meshes fit**: with fewer
than `2 ^ 32` indices, when after a mesh that is no list of whole triangles less
than another triangle follows. -/
theorem materials_aligned (hflatten : b.flattenToScene depth = .ok out) :
    (MaterialsAligned b out ↔ b.MeshesFit depth) ∧
      (b.totalIndices depth < 2 ^ 32 → (b.MeshesFit depth ↔ b.WholeTriangles depth)) := by
  obtain ⟨hgathers, hvisited⟩ := flattenToScene_gathers hflatten
  have htotal : out.indices.length = b.totalIndices depth := by
    rw [hgathers.length_indices, hvisited, totalIndices]
  have hcount (n : ℕ) (hn : n < 2 ^ 32) (i : ℕ) (hi : b.indexCountOf i ≤ n) :
      b.triangleCountOf i = b.indexCountOf i / 3 := by
    rw [triangleCountOf_eq]
    omega
  refine ⟨?_, fun hlt => ?_⟩
  · rw [hgathers.materialsAligned_iff, toNat_triangleCount, htotal, hvisited]
    refine aligned_iff_fits (by decide) ?_ fun i _ hi => hcount _ ?_ i hi
    · show _ ≤ b.totalIndices depth
      omega
    · omega
  · rw [MeshesFit, Nat.mod_eq_of_lt hlt]
    refine fits_iff (by decide) rfl fun i hi => hcount _ hlt i ?_
    obtain ⟨v, hv⟩ := List.mem_iff_getElem?.mp hi
    have hle : offset b.indexCountOf (b.visitOrder depth) v + b.indexCountOf i ≤
        b.totalIndices depth := offset_add_le_total hv
    omega

end Law

/-- Two nodes with a mesh each, of one vertex and these indices. -/
def twoMeshes (first second : List UInt32) : SceneBuilder ℚ where
  nodes := [{ newNode "first" with mesh := some 0 }, { newNode "second" with mesh := some 1 }]
  meshes := [⟨[⟨⟨0, 0, 0⟩⟩], first, 0⟩, ⟨[⟨⟨0, 0, 0⟩⟩], second, 1⟩]

/-- Only the last mesh has an index too many. -/
theorem materials_aligned_strayLast :
    ∃ out, (twoMeshes [0, 0, 0] [0, 0, 0, 0]).flattenToScene 1 = .ok out ∧
      MaterialsAligned (twoMeshes [0, 0, 0] [0, 0, 0, 0]) out := by
  obtain ⟨out, hflatten⟩ : ∃ out, (twoMeshes [0, 0, 0] [0, 0, 0, 0]).flattenToScene 1 = .ok out :=
    ⟨_, rfl⟩
  obtain ⟨hiff, hfit⟩ := materials_aligned hflatten
  refine ⟨out, hflatten, hiff.mpr ((hfit (by decide)).mpr fun v i hv hdvd => ?_)⟩
  match v, hv with
  | 0, hv =>
    obtain rfl : 0 = i := Option.some.inj hv
    exact absurd (show 3 ∣ 3 by decide) hdvd
  | 1, hv =>
    obtain rfl : 1 = i := Option.some.inj hv
    decide

/-- The first mesh has an index too many, and the second two: there are three
triangles, but two material indices, and the second triangle has an index of the
first mesh and two of the second. -/
theorem not_materialsAligned : ∃ out,
    (twoMeshes [0, 0, 0, 0] [0, 0, 0, 0, 0]).flattenToScene 1 = .ok out ∧
      out.triangleCount = 3 ∧ out.materialIndices = [0, 1] ∧
      (∀ v mesh, ¬ TriangleOf (twoMeshes [0, 0, 0, 0] [0, 0, 0, 0, 0]) out 1 v mesh) ∧
      ¬ MaterialsAligned (twoMeshes [0, 0, 0, 0] [0, 0, 0, 0, 0]) out := by
  refine ⟨_, rfl, rfl, rfl, fun v mesh htriangle => ?_, fun hal => ?_⟩
  · match v, htriangle with
    | 0, ⟨hmesh, _, hlast, _⟩ =>
      obtain rfl := Option.some.inj hmesh
      exact absurd hlast (by decide)
    | 1, ⟨_, hfirst, _, _⟩ => exact absurd hfirst (by decide)
    | v + 2, ⟨hmesh, _, _, _⟩ => cases hmesh
  · exact absurd hal.length (by decide)

end Pathological.RenderWorker
