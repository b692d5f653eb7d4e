import Pathological.RenderWorker.LoadedScene

/-!
# The flattened scene

`flattenToScene` on a loaded builder is a fold over the nodes in the order of
their ids, each with the product of the local transforms from its root down
(`flatten_eq`). What the buffers hold after the first `m` nodes is `FlatUpTo`, and
appending a node's mesh takes it from `m` to `m + 1` (`FlatUpTo.visit`).

The triangles in the buffers are those of the node tree in world space
(`worldTriangles`), read as the closest-hit shader reads them: triangle `k` has
its corners at `3 * k`, `3 * k + 1` and `3 * k + 2` of the indices, and its
material index at `k`. The number of triangles of a mesh is a `uint32_t`: from
`2 ^ 32` on, the material indices are too few (`not_sceneFlattened`).
-/

namespace Pathological.RenderWorker

open Framework SceneBuilder

variable {K : Type} [Ring K]

/-! ### Triangles -/

/-- A triangle in world space. -/
structure Triangle (K : Type) where
  v0 : Vec3 K
  v1 : Vec3 K
  v2 : Vec3 K
  material : Material K

/-- The corner of a triangle. -/
def cornerAt (vertices : List (Vertex K)) (indices : List UInt32) (j : ℕ) : Option (Vec3 K) :=
  (indices[j]?).bind fun i => (vertices[i.toNat]?).map Vertex.position

/-- Triangle `k` of some buffers, its material given. -/
def triangleAt (vertices : List (Vertex K)) (indices : List UInt32) (mat : Option (Material K))
    (k : ℕ) : Option (Triangle K) := do
  let v0 ← cornerAt vertices indices (3 * k + 0)
  let v1 ← cornerAt vertices indices (3 * k + 1)
  let v2 ← cornerAt vertices indices (3 * k + 2)
  pure ⟨v0, v1, v2, ← mat⟩

/-- The triangles in the buffers of a scene, `none` where a read is out of range. -/
def Flat.triangles (out : Flat K) (materials : List (Material K)) : List (Option (Triangle K)) :=
  (List.range (out.indices.length / 3)).map fun k =>
    triangleAt out.vertices out.indices
      ((out.materialIndices[k]?).bind fun m => materials[m]?) k

/-- The triangles of a mesh in world space. -/
def MeshContent.triangles (worldTransform : Mat4 K) (mesh : MeshContent K) :
    List (Option (Triangle K)) :=
  (List.range (mesh.indices.length / 3)).map fun k =>
    triangleAt (mesh.vertices.map (Vertex.transform worldTransform)) mesh.indices
      (some mesh.material) k

/-- The triangles of a node in world space. -/
def Content.triangles (worldTransform : Mat4 K) (c : Content K) : List (Option (Triangle K)) :=
  c.mesh.elim [] fun mesh => mesh.triangles worldTransform

/-- The triangles of a node tree in world space. -/
def worldTriangles : Mat4 K → Forest (Content K) → List (Option (Triangle K))
  | _, .nil => []
  | parentTransform, .cons a c siblings =>
    a.triangles (parentTransform * a.localTransform) ++
      worldTriangles (parentTransform * a.localTransform) c ++
      worldTriangles parentTransform siblings

/-- Node by node, in preorder. -/
theorem worldTriangles_eq (parentTransform : Mat4 K) (G : Forest (Content K)) :
    worldTriangles parentTransform G =
      (Forest.inherit (fun x c => x * c.localTransform) parentTransform G).flatMap
        fun e => e.2.triangles e.1 := by
  induction G generalizing parentTransform with
  | nil => rfl
  | cons a c siblings ihc ihs =>
    rw [worldTriangles, Forest.inherit, List.flatMap_cons, List.flatMap_append, ihc, ihs,
      List.append_assoc]

/-! ### Nodes and their meshes -/

namespace SceneBuilder

/-- The mesh of a node. -/
def meshOf (b : SceneBuilder K) (i : ℕ) : Option (MeshData K) :=
  (b.nodes[i]?).bind fun n => n.mesh.bind fun m => b.meshes[m]?

/-- The local transform of a node. -/
def localTransform (b : SceneBuilder K) (i : ℕ) : Mat4 K :=
  (b.nodes[i]?).elim 1 Node.localTransform

/-- The parent of a node. -/
def parentOf (b : SceneBuilder K) (i : ℕ) : Option (Option ℕ) := (b.nodes[i]?).map Node.parent

/-- The vertices, the indices and the material of a node's mesh. -/
def verticesOf (b : SceneBuilder K) (i : ℕ) : List (Vertex K) :=
  (b.meshOf i).elim [] MeshData.vertices

def indicesOf (b : SceneBuilder K) (i : ℕ) : List UInt32 := (b.meshOf i).elim [] MeshData.indices

def materialOf (b : SceneBuilder K) (i : ℕ) : ℕ := (b.meshOf i).elim 0 MeshData.materialId

/-- The number of vertices of the nodes before `i`. -/
def baseVertex (b : SceneBuilder K) (i : ℕ) : ℕ :=
  ((List.range i).map fun j => (b.verticesOf j).length).sum

end SceneBuilder

/-- The buffers mean the scene. `world i` is the product of the local transforms
from a root down to node `i`. -/
structure Flattens (b : SceneBuilder K) (G : Forest (Content K)) (out : Flat K) : Prop where
  visited : out.visited = List.range b.nodes.length
  vertices : ∃ world : ℕ → Mat4 K,
    (∀ i < b.nodes.length, PathProduct b.parentOf b.localTransform (some i) (world i)) ∧
    out.vertices = (List.range b.nodes.length).flatMap fun i =>
      (b.verticesOf i).map (Vertex.transform (world i))
  indices : out.indices.map UInt32.toNat = (List.range b.nodes.length).flatMap fun i =>
    (b.indicesOf i).map fun idx => b.baseVertex i + idx.toNat
  materialIndices : out.materialIndices = (List.range b.nodes.length).flatMap fun i =>
    List.replicate ((b.indicesOf i).length / 3) (b.materialOf i)
  triangles : out.triangles b.materials = worldTriangles 1 G

/-- `flattenToScene` throws exactly when no node has a vertex, and the buffers it
makes mean the scene. -/
structure FlattenLaw (b : SceneBuilder K) (G : Forest (Content K)) (depth : ℕ) : Prop where
  throws : b.flattenToScene depth = .error (.runtimeError "Scene has no geometry") ↔
    ∀ i < b.nodes.length, b.verticesOf i = []
  flattens : (∃ i < b.nodes.length, b.verticesOf i ≠ []) →
    ∃ out, b.flattenToScene depth = .ok out ∧ Flattens b G out

/-! ### Flattening is a fold -/

/-- What a visit does to the buffers, at a node with this world transform. -/
def visitOut (b : SceneBuilder K) (out : Flat K) (e : Mat4 K × ℕ) : Flat K :=
  let out := { out with visited := out.visited ++ [e.2] }
  (b.meshOf e.2).elim out fun mesh => out.append e.1 mesh

theorem visitNode_eq {b : SceneBuilder K} (hvalid : b.Valid) {i : ℕ} (hi : i < b.nodes.length)
    (parentTransform : Mat4 K) (out : Flat K) :
    b.visitNode parentTransform i out = .ok
      (visitOut b out (parentTransform * b.localTransform i, i),
        parentTransform * b.localTransform i, b.nodes[i].children) := by
  have hnode : b.nodes[i]? = some b.nodes[i] := List.getElem?_eq_getElem hi
  rw [SceneBuilder.visitNode, elem_eq_ok.mpr hnode, SceneBuilder.localTransform, visitOut, meshOf,
    hnode, Option.bind_some]
  show (b.flattenMesh _ b.nodes[i] _ >>= _) = _
  rw [flattenMesh]
  -- the only read that could fail is that of the mesh, and its id is valid
  cases hmesh : b.nodes[i].mesh with
  | none => rfl
  | some m =>
    have hm : m < b.meshes.length := hvalid.mesh _ (List.getElem_mem hi) m hmesh
    have hlook : b.meshes[m]? = some b.meshes[m] := List.getElem?_eq_getElem hm
    show ((elem b.meshes m >>= _) >>= _) = _
    rw [elem_eq_ok.mpr hlook, Option.bind_some, hlook]
    rfl

theorem visitNode_children {b : SceneBuilder K} {x : Mat4 K} {i : ℕ} {out : Flat K}
    {r : Flat K × Mat4 K × List ℕ} (h : b.visitNode x i out = .ok r) :
    (b.table[i]?).map Entry.children = some r.2.2 := by
  obtain ⟨n, hn, h⟩ := except_bind_eq_ok.mp h
  obtain ⟨out', -, h⟩ := except_bind_eq_ok.mp h
  rw [getElem?_table, elem_eq_ok.mp hn, ← Except.ok.inj h]
  rfl

section Loaded

variable {b : SceneBuilder K} {G : Forest (Content K)}

omit [Ring K] in
theorem length_nodes_eq_size (htable : b.table = G.number none 0) : b.nodes.length = G.size := by
  rw [← length_table, htable, Forest.length_number]

omit [Ring K] in
/-- The table of the builder is that of the node tree, numbered from its first node on. -/
theorem number_prefix_table (htable : b.table = G.number none 0) :
    G.number none 0 <+: b.table.drop 0 := by
  rw [htable]
  exact List.prefix_refl _

/-- The nodes in the order in which they are visited, with their world transforms. -/
def visits (b : SceneBuilder K) (G : Forest (Content K)) : List (Mat4 K × ℕ) :=
  Forest.inherit (fun x i => x * b.localTransform i) 1 (G.indexed 0)

theorem map_snd_visits (htable : b.table = G.number none 0) :
    (visits b G).map Prod.snd = List.range b.nodes.length := by
  rw [visits, Forest.map_snd_inherit, Forest.preorder_indexed, length_nodes_eq_size htable,
    List.range_eq_range']

omit [Ring K] in
theorem getRootNodes_eq (htable : b.table = G.number none 0) : b.getRootNodes = G.rootIds 0 := by
  have hlength := length_nodes_eq_size htable
  have hprefix := number_prefix_table htable
  rw [getRootNodes, List.range_eq_range', hlength]
  refine (Forest.filter_root hprefix fun i e he => ?_).trans rfl
  rw [getElem?_table] at he
  obtain ⟨n, hn, rfl⟩ := Option.map_eq_some_iff.mp he
  rw [hn]
  rfl

/-- Flattening folds over the nodes. -/
theorem flatten_eq (hvalid : b.Valid) (htable : b.table = G.number none 0) {depth : ℕ}
    (hdepth : b.nodes.length ≤ depth) :
    b.flattenToScene depth =
      if ((visits b G).foldl (visitOut b) {}).vertices.isEmpty = true then
        .error (.runtimeError "Scene has no geometry")
      else .ok ((visits b G).foldl (visitOut b) {}) := by
  have hlength := length_nodes_eq_size htable
  have hprefix := number_prefix_table htable
  have hunfolds := Forest.number_unfolds hprefix
  -- no visit fails, so the fold along the forest is a fold over its preorder,
  have hfold : (G.indexed 0).foldM
      (fun x i out => (b.visitNode x i out).map fun r => (r.1, r.2.1)) 1 ({} : Flat K) =
        .ok ((visits b G).foldl (visitOut b) {}) := by
    refine Forest.foldM_inherit (fun i hi x out => ?_) 1 ({} : Flat K)
    rw [Forest.preorder_indexed, List.mem_range'_1] at hi
    rw [visitNode_eq hvalid (by omega)]
    rfl
  -- and the recursion over lists of children goes along the forest
  have hwalk := hunfolds.foldlM_walk
    (fun (x : Mat4 K) i (out : Flat K) r (h : b.visitNode x i out = .ok r) => visitNode_children h)
    .tooDeep (show (G.indexed 0).size ≤ depth by rw [Forest.size_indexed]; omega) 1 {}
  have hroots : b.getRootNodes.foldlM
      (fun out rootId => b.traverseAndFlatten depth 1 rootId out) ({} : Flat K) =
        .ok ((visits b G).foldl (visitOut b) {}) := by
    rw [getRootNodes_eq htable, ← hfold, ← hwalk]
    simp only [traverseAndFlatten_eq_walk]
  rw [flattenToScene, hroots]
  rfl

/-- The world transform of a node. -/
def world (b : SceneBuilder K) (G : Forest (Content K)) (i : ℕ) : Mat4 K :=
  ((visits b G)[i]?).elim 1 Prod.fst

theorem visits_eq (htable : b.table = G.number none 0) :
    visits b G = (List.range b.nodes.length).map fun i => (world b G i, i) := by
  have hsnd := map_snd_visits htable
  have hlength : (visits b G).length = b.nodes.length := by
    rw [← List.length_map Prod.snd, hsnd, List.length_range]
  refine List.ext_getElem (by rw [hlength, List.length_map, List.length_range]) fun i hi hi' => ?_
  have hi' : (visits b G)[i].2 = i := by
    have hat : ((visits b G).map Prod.snd)[i]? = some i := by
      rw [hsnd, List.getElem?_range (hlength ▸ hi)]
    rw [List.getElem?_map, List.getElem?_eq_getElem hi] at hat
    exact Option.some.inj hat
  rw [List.getElem_map, List.getElem_range, world, List.getElem?_eq_getElem hi]
  exact Prod.ext rfl hi'

theorem world_pathProduct (htable : b.table = G.number none 0) {i : ℕ} (hi : i < b.nodes.length) :
    PathProduct b.parentOf b.localTransform (some i) (world b G i) := by
  have hprefix := number_prefix_table htable
  have hparent : (fun i => (b.table[i]?).map Entry.parent) = b.parentOf := by
    funext j
    rw [getElem?_table, Option.map_map]
    rfl
  have hproducts : ∀ e ∈ visits b G, PathProduct (fun i => (b.table[i]?).map Entry.parent)
      b.localTransform (some e.2) e.1 := Forest.inherit_prod hprefix rfl
  rw [hparent] at hproducts
  refine hproducts (world b G i, i) ?_
  rw [visits_eq htable]
  exact List.mem_map_of_mem (List.mem_range.mpr hi)

end Loaded

/-! ### What a visit appends -/

section Visit

variable (b : SceneBuilder K) (out : Flat K) (e : Mat4 K × ℕ)

theorem visitOut_visited : (visitOut b out e).visited = out.visited ++ [e.2] := by
  unfold visitOut
  cases b.meshOf e.2 with
  | none => rfl
  | some d => rfl

theorem visitOut_vertices : (visitOut b out e).vertices =
    out.vertices ++ (b.verticesOf e.2).map (Vertex.transform e.1) := by
  unfold visitOut verticesOf
  cases b.meshOf e.2 with
  | none => exact (List.append_nil _).symm
  | some d => rfl

theorem visitOut_indices : (visitOut b out e).indices =
    out.indices ++ (b.indicesOf e.2).map fun idx => UInt32.ofNat out.vertices.length + idx := by
  unfold visitOut indicesOf
  cases b.meshOf e.2 with
  | none => exact (List.append_nil _).symm
  | some d => rfl

theorem visitOut_materialIndices : (visitOut b out e).materialIndices =
    out.materialIndices ++ List.replicate (UInt32.ofNat ((b.indicesOf e.2).length / 3)).toNat
      (b.materialOf e.2) := by
  unfold visitOut indicesOf materialOf
  cases b.meshOf e.2 with
  | none =>
    show out.materialIndices = out.materialIndices ++
      List.replicate (UInt32.ofNat (0 / 3)).toNat 0
    rw [show (UInt32.ofNat (0 / 3)).toNat = 0 from rfl, List.replicate_zero, List.append_nil]
  | some d => rfl

end Visit

/-- The buffers after the first `m` nodes. -/
def flatAt (b : SceneBuilder K) (world : ℕ → Mat4 K) (m : ℕ) : Flat K :=
  ((List.range m).map fun i => (world i, i)).foldl (visitOut b) {}

section Buffers

variable (b : SceneBuilder K) (world : ℕ → Mat4 K) (m : ℕ)

theorem flatAt_succ : flatAt b world (m + 1) = visitOut b (flatAt b world m) (world m, m) := by
  rw [flatAt, List.range_succ, List.map_append, List.foldl_append]
  rfl

theorem flatAt_visited : (flatAt b world m).visited = List.range m := by
  rw [flatAt, foldl_eq_flatMap (visitOut_visited b), List.flatMap_map, List.nil_append]
  exact List.flatMap_singleton' _

theorem flatAt_vertices : (flatAt b world m).vertices = (List.range m).flatMap fun i =>
    (b.verticesOf i).map (Vertex.transform (world i)) := by
  rw [flatAt, foldl_eq_flatMap (visitOut_vertices b), List.flatMap_map, List.nil_append]

theorem flatAt_materialIndices : (flatAt b world m).materialIndices =
    (List.range m).flatMap fun i =>
      List.replicate (UInt32.ofNat ((b.indicesOf i).length / 3)).toNat (b.materialOf i) := by
  rw [flatAt, foldl_eq_flatMap (visitOut_materialIndices b), List.flatMap_map, List.nil_append]

theorem length_flatAt_vertices : (flatAt b world m).vertices.length = b.baseVertex m := by
  rw [flatAt_vertices, List.length_flatMap, baseVertex]
  simp only [List.length_map]

end Buffers

/-! ### Triangles in buffers that are appended to -/

theorem toNat_base {n : ℕ} {idx : UInt32} (h : n + idx.toNat < 2 ^ 32) :
    (UInt32.ofNat n + idx).toNat = n + idx.toNat := by
  rw [UInt32.toNat_add, UInt32.toNat_ofNat', Nat.mod_eq_of_lt (show n < 2 ^ 32 by omega),
    Nat.mod_eq_of_lt h]

section Append

variable {V V' : List (Vertex K)} {I I' : List UInt32}

omit [Ring K] in
/-- The corners that were there stay. -/
theorem cornerAt_left (hV : ∀ idx ∈ I, idx.toNat < V.length) {j : ℕ} (hj : j < I.length) :
    cornerAt (V ++ V') (I ++ I') j = cornerAt V I j := by
  unfold cornerAt
  rw [List.getElem?_append_left hj, List.getElem?_eq_getElem hj, Option.bind_some,
    Option.bind_some, List.getElem?_append_left (hV _ (List.getElem_mem hj))]

omit [Ring K] in
/-- The corners that are new are those of the mesh. -/
theorem cornerAt_right (h : ∀ idx ∈ I', V.length + idx.toNat < 2 ^ 32) (j : ℕ) :
    cornerAt (V ++ V') (I ++ I'.map fun idx => UInt32.ofNat V.length + idx) (I.length + j) =
      cornerAt V' I' j := by
  unfold cornerAt
  rw [List.getElem?_append_right (Nat.le_add_right _ _), Nat.add_sub_cancel_left,
    List.getElem?_map]
  cases hj : I'[j]? with
  | none => rfl
  | some idx =>
    show ((V ++ V')[(UInt32.ofNat V.length + idx).toNat]?).map _ = (V'[idx.toNat]?).map _
    rw [toNat_base (h idx (List.mem_of_getElem? hj)),
      List.getElem?_append_right (Nat.le_add_right _ _), Nat.add_sub_cancel_left]

omit [Ring K] in
theorem triangleAt_left (hV : ∀ idx ∈ I, idx.toNat < V.length) {mat : Option (Material K)} {k : ℕ}
    (hk : k < I.length / 3) : triangleAt (V ++ V') (I ++ I') mat k = triangleAt V I mat k := by
  unfold triangleAt
  rw [cornerAt_left hV (by omega), cornerAt_left hV (by omega), cornerAt_left hV (by omega)]

omit [Ring K] in
theorem triangleAt_right (hI : 3 ∣ I.length) (h : ∀ idx ∈ I', V.length + idx.toNat < 2 ^ 32)
    {mat : Option (Material K)} {k : ℕ} :
    triangleAt (V ++ V') (I ++ I'.map fun idx => UInt32.ofNat V.length + idx) mat
      (I.length / 3 + k) = triangleAt V' I' mat k := by
  have hcorner (c : ℕ) : 3 * (I.length / 3 + k) + c = I.length + (3 * k + c) := by omega
  unfold triangleAt
  rw [hcorner, hcorner, hcorner, cornerAt_right h, cornerAt_right h, cornerAt_right h]

end Append

/-! ### The buffers after the first nodes -/

/-- The indices of each mesh are below its number of vertices, three for each
triangle, and there are fewer than `2 ^ 32` vertices in total. -/
structure SceneBuilder.WellIndexed (b : SceneBuilder K) : Prop where
  inRange : ∀ i < b.nodes.length, ∀ idx ∈ b.indicesOf i, idx.toNat < (b.verticesOf i).length
  dvd : ∀ i < b.nodes.length, 3 ∣ (b.indicesOf i).length
  total : b.baseVertex b.nodes.length < 2 ^ 32

/-- Each mesh has fewer than `2 ^ 32` triangles. -/
def SceneBuilder.FewTriangles (b : SceneBuilder K) : Prop :=
  ∀ i < b.nodes.length, (b.indicesOf i).length / 3 < 2 ^ 32

/-- The triangles of a node, out of the builder. -/
def nodeTriangles (b : SceneBuilder K) (world : ℕ → Mat4 K) (i : ℕ) :
    List (Option (Triangle K)) :=
  (List.range ((b.indicesOf i).length / 3)).map fun k =>
    triangleAt ((b.verticesOf i).map (Vertex.transform (world i))) (b.indicesOf i)
      (b.materials[b.materialOf i]?) k

/-- What the buffers hold after the first `m` nodes. -/
structure FlatUpTo (b : SceneBuilder K) (world : ℕ → Mat4 K) (m : ℕ) : Prop where
  bound : ∀ idx ∈ (flatAt b world m).indices, idx.toNat < b.baseVertex m
  dvd : 3 ∣ (flatAt b world m).indices.length
  paired : (flatAt b world m).materialIndices.length = (flatAt b world m).indices.length / 3
  indices : (flatAt b world m).indices.map UInt32.toNat = (List.range m).flatMap fun i =>
    (b.indicesOf i).map fun idx => b.baseVertex i + idx.toNat
  triangles : (flatAt b world m).triangles b.materials =
    (List.range m).flatMap (nodeTriangles b world)

omit [Ring K] in
theorem baseVertex_succ (b : SceneBuilder K) (m : ℕ) :
    b.baseVertex (m + 1) = b.baseVertex m + (b.verticesOf m).length := by
  rw [baseVertex, List.range_succ, List.map_append, List.sum_append]
  rfl

omit [Ring K] in
theorem baseVertex_mono (b : SceneBuilder K) {m n : ℕ} (h : m ≤ n) :
    b.baseVertex m ≤ b.baseVertex n := by
  induction n, h using Nat.le_induction with
  | base => exact Nat.le_refl _
  | succ n _ ih =>
    rw [baseVertex_succ]
    omega

section UpTo

variable {b : SceneBuilder K} {world : ℕ → Mat4 K}

theorem FlatUpTo.zero : FlatUpTo b world 0 where
  bound := nofun
  dvd := ⟨0, rfl⟩
  paired := (Nat.zero_div 3).symm
  indices := rfl
  triangles := by
    show (List.range (0 / 3)).map _ = []
    rw [Nat.zero_div, List.range_zero, List.map_nil]

theorem FlatUpTo.succ {m : ℕ} (h : FlatUpTo b world m) (hwell : b.WellIndexed)
    (hfew : b.FewTriangles) (hm : m < b.nodes.length) : FlatUpTo b world (m + 1) := by
  have hlength := length_flatAt_vertices b world m
  -- the shifted indices do not overflow
  have hnext : b.baseVertex m + (b.verticesOf m).length < 2 ^ 32 := by
    rw [← baseVertex_succ]
    exact (baseVertex_mono b hm).trans_lt hwell.total
  have hshift : ∀ idx ∈ b.indicesOf m, (flatAt b world m).vertices.length + idx.toNat < 2 ^ 32 := by
    intro idx hidx
    have hlt := hwell.inRange m hm idx hidx
    omega
  obtain ⟨k, hk⟩ := h.dvd
  obtain ⟨k', hk'⟩ := hwell.dvd m hm
  have hindices : (flatAt b world (m + 1)).indices = (flatAt b world m).indices ++
      (b.indicesOf m).map fun idx => UInt32.ofNat (flatAt b world m).vertices.length + idx := by
    rw [flatAt_succ, visitOut_indices]
  have hmaterials : (flatAt b world (m + 1)).materialIndices = (flatAt b world m).materialIndices ++
      List.replicate ((b.indicesOf m).length / 3) (b.materialOf m) := by
    rw [flatAt_succ, visitOut_materialIndices, UInt32.toNat_ofNat',
      Nat.mod_eq_of_lt (hfew m hm)]
  have hvertices : (flatAt b world (m + 1)).vertices = (flatAt b world m).vertices ++
      (b.verticesOf m).map (Vertex.transform (world m)) := by
    rw [flatAt_succ, visitOut_vertices]
  have hcount : (flatAt b world (m + 1)).indices.length / 3 =
      (flatAt b world m).indices.length / 3 + (b.indicesOf m).length / 3 := by
    rw [hindices, List.length_append, List.length_map]
    omega
  refine ⟨fun idx hidx => ?_, ?_, ?_, ?_, ?_⟩
  · rw [hindices] at hidx
    rw [baseVertex_succ]
    rcases List.mem_append.mp hidx with hold | hnew
    · exact (h.bound idx hold).trans_le (Nat.le_add_right _ _)
    · obtain ⟨idx', hidx', rfl⟩ := List.mem_map.mp hnew
      rw [toNat_base (hshift idx' hidx'), hlength]
      exact Nat.add_lt_add_left (hwell.inRange m hm idx' hidx') _
  · rw [hindices, List.length_append, List.length_map]
    omega
  · rw [hmaterials, hcount, List.length_append, List.length_replicate, h.paired]
  · rw [hindices, List.map_append, h.indices, List.range_succ, List.flatMap_append,
      List.flatMap_singleton, List.map_map]
    congr 1
    refine List.map_congr_left fun idx hidx => ?_
    show (UInt32.ofNat _ + idx).toNat = _
    rw [toNat_base (hshift idx hidx), hlength]
  · rw [Flat.triangles, hcount, List.range_add, List.map_append, List.range_succ,
      List.flatMap_append, List.flatMap_singleton, ← h.triangles]
    congr 1
    -- the triangles of the nodes before, which what is appended does not change
    · refine List.map_congr_left fun j hj => ?_
      have hj : j < (flatAt b world m).indices.length / 3 := List.mem_range.mp hj
      rw [hvertices, hindices, hmaterials, List.getElem?_append_left (h.paired ▸ hj)]
      exact triangleAt_left (fun idx hidx => hlength ▸ h.bound idx hidx) hj
    -- and those of node `m`, read from what is appended
    · rw [List.map_map]
      refine List.map_congr_left fun j hj => ?_
      have hj : j < (b.indicesOf m).length / 3 := List.mem_range.mp hj
      show triangleAt _ _ _ ((flatAt b world m).indices.length / 3 + j) = _
      rw [hvertices, hindices, hmaterials, triangleAt_right h.dvd hshift,
        List.getElem?_append_right (h.paired ▸ Nat.le_add_right _ _), h.paired,
        Nat.add_sub_cancel_left, List.getElem?_replicate_of_lt hj]
      rfl

theorem FlatUpTo.of_wellIndexed (hwell : b.WellIndexed) (hfew : b.FewTriangles) :
    ∀ m ≤ b.nodes.length, FlatUpTo b world m := by
  intro m hm
  induction m with
  | zero => exact .zero
  | succ m ih => exact (ih (Nat.le_of_succ_le hm)).succ hwell hfew hm

end UpTo

/-! ### The law -/

section Law

variable {b : SceneBuilder K} {G : Forest (Content K)}

omit [Ring K] in
/-- What the node table says of a node without a mesh, or with one. -/
theorem meshOf_content (hvalid : b.Valid) {i : ℕ} {n : Node K} (hn : b.nodes[i]? = some n) :
    (b.meshOf i = none ∧ (b.entry n).label.mesh = none) ∨
    ∃ d mat, b.meshOf i = some d ∧ b.materials[d.materialId]? = some mat ∧
      (b.entry n).label.mesh = some ⟨d.vertices, d.indices, mat⟩ := by
  unfold meshOf entry
  rw [hn, Option.bind_some]
  cases hmesh : n.mesh with
  | none => exact .inl ⟨rfl, rfl⟩
  | some m =>
    -- both ids are valid, so the content has this mesh and its material
    have hm : m < b.meshes.length := hvalid.mesh n (List.mem_of_getElem? hn) m hmesh
    have hmat := hvalid.material _ (List.getElem_mem hm)
    refine .inr ⟨b.meshes[m], b.materials[b.meshes[m].materialId], List.getElem?_eq_getElem hm,
      List.getElem?_eq_getElem hmat, ?_⟩
    show b.meshContent m = _
    rw [meshContent, List.getElem?_eq_getElem hm, Option.bind_some, List.getElem?_eq_getElem hmat]
    rfl

/-- The triangles of a node are those of its content. -/
theorem nodeTriangles_eq (hvalid : b.Valid) (world : ℕ → Mat4 K) {i : ℕ} {n : Node K}
    (hn : b.nodes[i]? = some n) :
    nodeTriangles b world i = (b.entry n).label.triangles (world i) := by
  unfold nodeTriangles Content.triangles verticesOf indicesOf materialOf
  obtain ⟨hnone, hlabel⟩ | ⟨d, mat, hsome, hmat, hlabel⟩ := meshOf_content hvalid hn
  · rw [hnone, hlabel]
    show (List.range (0 / 3)).map _ = []
    rw [Nat.zero_div, List.range_zero, List.map_nil]
  · rw [hsome, hlabel]
    show (List.range (d.indices.length / 3)).map
      (fun k => triangleAt _ _ b.materials[d.materialId]? k) = _
    rw [hmat]
    rfl

/-- Those of all nodes are those of the node tree. -/
theorem flatMap_nodeTriangles (hvalid : b.Valid) (htable : b.table = G.number none 0) :
    (List.range b.nodes.length).flatMap (nodeTriangles b (world b G)) = worldTriangles 1 G := by
  have hprefix := number_prefix_table htable
  -- the content of a node, by its id
  obtain ⟨label, hlabel⟩ : ∃ label : ℕ → Content K, ∀ i,
      label i = (b.table[i]?).elim ⟨"", 1, none⟩ Entry.label := ⟨_, fun _ => rfl⟩
  have hentry (i : ℕ) (e : Entry (Content K)) (he : b.table[i]? = some e) : label i = e.label := by
    rw [hlabel, he]
    rfl
  -- so the world transforms that the visits carry are those of the node tree
  have htransform (i : ℕ) : (label i).localTransform = b.localTransform i := by
    rw [hlabel, getElem?_table, SceneBuilder.localTransform]
    cases b.nodes[i]? with
    | none => rfl
    | some n => rfl
  have hinherit : (Forest.inherit (fun x i => x * (label i).localTransform) (1 : Mat4 K)
      (G.indexed 0)).map (fun e => (e.1, label e.2)) =
        Forest.inherit (fun x c => x * c.localTransform) 1 G :=
    @Forest.inherit_indexed _ _ (fun x c => x * c.localTransform) label 1 G none 0 _ hprefix hentry
  simp only [htransform] at hinherit
  have hvisits : (visits b G).map (fun e => (e.1, label e.2)) =
      Forest.inherit (fun x c => x * c.localTransform) 1 G := hinherit
  rw [worldTriangles_eq, ← hvisits, visits_eq htable, List.map_map, List.flatMap_map]
  refine List.flatMap_congr fun i hi => ?_
  have hi : i < b.nodes.length := List.mem_range.mp hi
  have hn : b.nodes[i]? = some b.nodes[i] := List.getElem?_eq_getElem hi
  rw [nodeTriangles_eq hvalid _ hn]
  show _ = (label i).triangles _
  rw [hentry i (b.entry b.nodes[i]) (by rw [getElem?_table, hn]; rfl)]
  rfl

/-- The buffers are those after all nodes. -/
theorem eq_flatAt (hvalid : b.Valid) (htable : b.table = G.number none 0) {depth : ℕ}
    (hdepth : b.nodes.length ≤ depth) {out : Flat K} (h : b.flattenToScene depth = .ok out) :
    out = flatAt b (world b G) b.nodes.length := by
  rw [flatten_eq hvalid htable hdepth, visits_eq htable] at h
  split at h
  · cases h
  · exact (Except.ok.inj h).symm

/-- Flattening a loaded builder. -/
theorem flattenLaw_of_table (hvalid : b.Valid) (htable : b.table = G.number none 0)
    (hwell : b.WellIndexed) (hfew : b.FewTriangles) {depth : ℕ} (hdepth : b.nodes.length ≤ depth) :
    FlattenLaw b G depth := by
  have hfold : (visits b G).foldl (visitOut b) {} = flatAt b (world b G) b.nodes.length := by
    rw [visits_eq htable]
    rfl
  have hflatten := flatten_eq hvalid htable hdepth
  rw [hfold] at hflatten
  have hempty : (flatAt b (world b G) b.nodes.length).vertices.isEmpty = true ↔
      ∀ i < b.nodes.length, b.verticesOf i = [] := by
    rw [List.isEmpty_iff, flatAt_vertices, List.flatMap_eq_nil_iff]
    simp only [List.mem_range, List.map_eq_nil_iff]
  have hup : FlatUpTo b (world b G) b.nodes.length :=
    FlatUpTo.of_wellIndexed hwell hfew b.nodes.length (Nat.le_refl _)
  refine ⟨?_, fun ⟨i, hi, hvertex⟩ => ⟨flatAt b (world b G) b.nodes.length, ?_, ?_⟩⟩
  · rw [hflatten, ← hempty]
    split
    · rename_i h
      exact ⟨fun _ => h, fun _ => rfl⟩
    · rename_i h
      exact ⟨nofun, fun hnone => absurd hnone h⟩
  · rw [hflatten, if_neg fun hnone => hvertex (hempty.mp hnone i hi)]
  · exact {
      visited := flatAt_visited b _ _
      vertices := ⟨world b G, fun i hi => world_pathProduct htable hi, flatAt_vertices b _ _⟩
      indices := hup.indices
      materialIndices := by
        rw [flatAt_materialIndices]
        refine List.flatMap_congr fun i hi => ?_
        rw [UInt32.toNat_ofNat', Nat.mod_eq_of_lt (hfew i (List.mem_range.mp hi))]
      triangles := hup.triangles.trans (flatMap_nodeTriangles hvalid htable) }

end Law

/-- **Flattening means the scene**, for every builder that loading a forest
produces, when each mesh has fewer than `2 ^ 32` triangles. -/
theorem scene_flattened [GlmScene K] {model : Gltf.Model} {scene : Gltf.Scene} {F : Forest ℕ}
    {depth depth' : ℕ} {graph : SceneGraph K} (hscene : model.chosenScene = some scene)
    (hforest : Unfolds model.children scene.nodes F) (hrange : model.InRange scene.nodes)
    (hdepth : F.size ≤ depth) (hload : fromGltf model depth = .ok graph)
    (hwell : graph.builder.WellIndexed) (hfew : graph.builder.FewTriangles)
    (hdepth' : graph.builder.nodes.length ≤ depth') :
    graph.builder.table = ((F.prune model.nonTriangle).map model.content).number none 0 ∧
      FlattenLaw graph.builder ((F.prune model.nonTriangle).map model.content) depth' := by
  obtain ⟨b, hb, hvalid, htable⟩ := fromGltf_table (K := K) hscene hforest hrange hdepth
  obtain rfl : _ = graph := Except.ok.inj (hb.symm.trans hload)
  exact ⟨htable, flattenLaw_of_table hvalid htable hwell hfew hdepth'⟩

/-- One node, its mesh one vertex and `n` indices, all of them 0. -/
def oneVertex (n : ℕ) : Gltf.Model where
  nodes := [{ name := "points", mesh := some 0 }]
  meshes := [⟨[{ attributes := [("POSITION", 0)], indices := some 1 }]⟩]
  accessors := [{ bufferView := some 0, componentType := .float, count := 1 },
    { bufferView := some 0, byteOffset := 12, componentType := .unsignedByte, count := n }]
  bufferViews := [{ buffer := 0 }]
  buffers := [⟨List.replicate (12 + n) 0⟩]
  scenes := [⟨[0]⟩]
  defaultScene := some 0

theorem oneVertex_unfolds (n : ℕ) :
    Unfolds (oneVertex n).children [0] (.cons 0 .nil .nil) :=
  .cons rfl .nil .nil

/-- The primitive of its mesh. -/
def oneVertexPrimitive : Gltf.Primitive := { attributes := [("POSITION", 0)], indices := some 1 }

/-- Its bytes are all 0. -/
theorem oneVertex_address {n i : ℕ} (hi : i < 12 + n) :
    addressOf (List.replicate (12 + n) 0) i = .ok (List.replicate (12 + n - i) 0) := by
  rw [addressOf, List.length_replicate, if_pos hi, List.drop_replicate]

theorem oneVertexPrimitive_inRange {n : ℕ} (hn : 0 < n) :
    oneVertexPrimitive.InRange (oneVertex n) where
  position a ha := by
    obtain rfl := Option.some.inj ha
    refine ⟨_, _, rfl, oneVertex_address (show 0 + 0 < 12 + n by omega), ?_⟩
    rw [List.length_replicate]
    exact Nat.le_add_right 12 n
  indices a ha := by
    obtain rfl := Option.some.inj ha
    refine ⟨_, _, rfl, oneVertex_address (show 0 + 12 < 12 + n by omega), ?_⟩
    rw [List.length_replicate]
    show n * 1 ≤ 12 + n - (0 + 12)
    omega
  material := nofun

theorem oneVertex_inRange {n : ℕ} (hn : 0 < n) : (oneVertex n).InRange [0] := by
  intro j _ gltfNode hj m hm
  match j, hj with
  | 0, hj =>
    rw [← Option.some.inj hj] at hm
    obtain rfl := Option.some.inj hm
    refine ⟨_, rfl, fun primitive hprimitive _ => ?_⟩
    obtain rfl := Option.some.inj hprimitive
    exact oneVertexPrimitive_inRange hn

/-- Its indices are read one by one. -/
theorem oneVertex_indices {n : ℕ} (hn : 0 < n) :
    extractIndices (oneVertex n) oneVertexPrimitive = .ok (List.replicate n 0) := by
  have hread : ∀ i ∈ List.range n,
      uintAt 1 (List.replicate (12 + n - (0 + 12)) 0) i = .ok ((fun _ => 0) i) := by
    intro i hi
    have hi : i < n := List.mem_range.mp hi
    rw [uintAt, List.length_replicate, if_pos (by omega), List.drop_replicate,
      List.take_replicate, show min 1 (12 + n - (0 + 12) - i * 1) = 1 by omega]
    rfl
  show (addressOf (List.replicate (12 + n) 0) (0 + 12) >>= fun idx =>
    (List.range n).mapM fun i => uintAt 1 idx i) = _
  rw [oneVertex_address (by omega)]
  show (List.range n).mapM (fun i => uintAt 1 (List.replicate (12 + n - (0 + 12)) 0) i) = _
  rw [mapM_eq_map hread, List.map_const', List.length_range]

/-- What is loaded of it. -/
theorem oneVertex_loaded {n : ℕ} (hn : 0 < n) : ∃ b : SceneBuilder ℚ,
    fromGltf (oneVertex n) 1 = .ok ⟨b, none, oneVertex n⟩ ∧ b.nodes.length = 1 ∧ b.Valid ∧
      b.table = (Forest.cons ((oneVertex n).content 0) .nil .nil).number none 0 ∧
      b.indicesOf 0 = List.replicate n 0 ∧ (b.verticesOf 0).length = 1 := by
  have hscene : (oneVertex n).chosenScene = some ⟨[0]⟩ := rfl
  obtain ⟨b, hload, hvalid, htable⟩ := fromGltf_table (K := ℚ) hscene (oneVertex_unfolds n)
    (oneVertex_inRange hn) (le_refl 1)
  have htable : b.table = (Forest.cons ((oneVertex n).content 0) .nil .nil).number none 0 := htable
  obtain ⟨vertices, indices, mat, hv, hi, -, hcontent⟩ :=
    content_eq_ok (K := ℚ) (oneVertexPrimitive_inRange hn)
  have hindices : indices = List.replicate n 0 :=
    Except.ok.inj (hi.symm.trans (oneVertex_indices hn))
  have hread : (addressOf (List.replicate (12 + n) 0) (0 + 0) >>= fun positions =>
      (List.range 1).mapM fun i => (vec3At positions i).map Vertex.mk) = .ok vertices := hv
  obtain ⟨positions, -, hread⟩ := except_bind_eq_ok.mp hread
  have hlength : b.nodes.length = 1 := by
    rw [← length_table, htable]
    rfl
  have hnode : b.nodes[0]? = some b.nodes[0] := List.getElem?_eq_getElem (hlength ▸ Nat.one_pos)
  have hentry : b.entry b.nodes[0] = ⟨(oneVertex n).content 0, none, []⟩ := by
    have hat := getElem?_table b 0
    rw [htable, hnode] at hat
    exact (Option.some.inj hat).symm
  have hmesh : (b.entry b.nodes[0]).label.mesh = some ⟨vertices, indices, mat⟩ := by
    rw [hentry]
    show (oneVertexPrimitive.content (oneVertex n)).toOption = _
    rw [hcontent]
    rfl
  refine ⟨b, hload, hlength, hvalid, htable, ?_⟩
  unfold indicesOf verticesOf
  obtain ⟨-, hnone⟩ | ⟨d, mat', hsome, -, hcontent'⟩ := meshOf_content hvalid hnode
  · rw [hmesh] at hnone
    cases hnone
  · obtain ⟨rfl, rfl, -⟩ := MeshContent.mk.inj (Option.some.inj (hmesh.symm.trans hcontent'))
    rw [hsome]
    exact ⟨hindices, length_of_mapM hread⟩

/-- Its indices are as they should be, but for their number. -/
theorem oneVertex_wellIndexed {n : ℕ} {b : SceneBuilder ℚ} (hn : 3 ∣ n)
    (hlength : b.nodes.length = 1) (hindices : b.indicesOf 0 = List.replicate n 0)
    (hvertices : (b.verticesOf 0).length = 1) : b.WellIndexed := by
  -- there is one node
  have hzero {i : ℕ} (hi : i < b.nodes.length) : i = 0 := by omega
  refine ⟨fun i hi idx hidx => ?_, fun i hi => ?_, ?_⟩
  · obtain rfl := hzero hi
    rw [hindices] at hidx
    rw [(List.mem_replicate.mp hidx).2, hvertices]
    exact Nat.one_pos
  · obtain rfl := hzero hi
    rw [hindices, List.length_replicate]
    exact hn
  · rw [hlength, baseVertex_succ, hvertices]
    show 0 + 1 < 2 ^ 32
    decide

theorem scene_flattened_oneTriangle : ∃ graph : SceneGraph ℚ,
    fromGltf (oneVertex 3) 1 = .ok graph ∧
      FlattenLaw graph.builder (.cons ((oneVertex 3).content 0) .nil .nil) 1 := by
  obtain ⟨b, hload, hlength, -, -, hindices, hvertices⟩ := oneVertex_loaded (show 0 < 3 by decide)
  have hscene : (oneVertex 3).chosenScene = some ⟨[0]⟩ := rfl
  have hfew : b.FewTriangles := fun i hi => by
    obtain rfl : i = 0 := by omega
    rw [hindices]
    decide
  exact ⟨_, hload, (scene_flattened hscene (oneVertex_unfolds 3) (oneVertex_inRange (by decide))
    (le_refl 1) hload (oneVertex_wellIndexed (dvd_refl 3) hlength hindices hvertices) hfew
    hlength.le).2⟩

/-- With `2 ^ 32` triangles, the number of them is 0 as a `uint32_t`. -/
theorem not_sceneFlattened : ∃ b : SceneBuilder ℚ,
    fromGltf (oneVertex (3 * 2 ^ 32)) 1 = .ok ⟨b, none, oneVertex (3 * 2 ^ 32)⟩ ∧ b.WellIndexed ∧
      b.table = (Forest.cons ((oneVertex (3 * 2 ^ 32)).content 0) .nil .nil).number none 0 ∧
      ¬ FlattenLaw b (.cons ((oneVertex (3 * 2 ^ 32)).content 0) .nil .nil) 1 := by
  obtain ⟨b, hload, hlength, hvalid, htable, hindices, hvertices⟩ :=
    oneVertex_loaded (show 0 < 3 * 2 ^ 32 by decide)
  have hwell : b.WellIndexed :=
    oneVertex_wellIndexed (Nat.dvd_mul_right _ _) hlength hindices hvertices
  refine ⟨b, hload, hwell, htable, fun hlaw => ?_⟩
  have hvertex : b.verticesOf 0 ≠ [] := fun hnil => by
    rw [hnil] at hvertices
    cases hvertices
  obtain ⟨out, hout, hflattens⟩ := hlaw.flattens ⟨0, hlength ▸ Nat.one_pos, hvertex⟩
  -- how many material indices there are, and how many there should be
  have hnone := congrArg Flat.materialIndices (eq_flatAt hvalid htable hlength.le hout)
  rw [flatAt_materialIndices, hflattens.materialIndices, hlength] at hnone
  have hcount := congrArg List.length hnone
  rw [List.range_one, List.flatMap_singleton, List.flatMap_singleton, List.length_replicate,
    List.length_replicate, hindices, List.length_replicate] at hcount
  exact absurd hcount (by decide)

end Pathological.RenderWorker
