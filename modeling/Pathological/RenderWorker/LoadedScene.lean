import Pathological.RenderWorker.SceneGraph

/-!
# What the loader makes of a forest

Seen through its node table (`SceneBuilder.table`), in which a node's mesh is the
mesh itself and not its id, a builder grows by a node at a time, and nothing that
is in the table already changes (`visitGltfNode_spec`). So where the nodes under
the chosen scene unfold to a forest, the table is the forest's, numbered in
preorder (`fromGltf_table`): the forest without what is below a node where the
loader returns early.
-/

namespace Pathological.RenderWorker

open Framework SceneBuilder

variable {K : Type} [Ring K] [GlmScene K]

/-! ### Models whose indices are in range -/

/-- What the loader follows from the primitive on is in range. -/
structure Gltf.Primitive.InRange (primitive : Gltf.Primitive) (model : Gltf.Model) : Prop where
  position : ∀ a, primitive.attributes.lookup "POSITION" = some a → model.Holds a fun _ => 12
  indices : ∀ a, primitive.indices = some a →
    model.Holds a fun accessor => accessor.componentType.indexSize.getD 0
  material : ∀ m, primitive.material = some m → ∃ mat, model.materials[m]? = some mat ∧
    3 ≤ mat.baseColorFactor.length ∧ 3 ≤ mat.emissiveFactor.length

/-- What the loader follows from the node's mesh on is in range. -/
def Gltf.Node.InRange (gltfNode : Gltf.Node) (model : Gltf.Model) : Prop :=
  ∀ m, gltfNode.mesh = some m → ∃ mesh, model.meshes[m]? = some mesh ∧
    ∀ primitive, mesh.primitives.head? = some primitive → primitive.mode = .triangles →
      primitive.InRange model

/-! ### What is loaded of a node -/

/-- A mesh, with its material. -/
structure MeshContent (K : Type) where
  vertices : List (Vertex K)
  indices : List UInt32
  material : Material K

/-- A node, without its links. -/
structure Content (K : Type) where
  name : String
  localTransform : Mat4 K
  mesh : Option (MeshContent K)

/-- What is loaded of a primitive. -/
def Gltf.Primitive.content (primitive : Gltf.Primitive) (model : Gltf.Model) :
    Except Fault (MeshContent K) := do
  let vertices ← extractVertices model primitive
  let indices ← extractIndices model primitive
  let mat ← extractMaterial model primitive
  pure ⟨vertices, indices, mat⟩

/-- The primitive of the node that is looked at. -/
def Gltf.Node.firstPrimitive (gltfNode : Gltf.Node) (model : Gltf.Model) :
    Option Gltf.Primitive :=
  (gltfNode.mesh.bind fun m => model.meshes[m]?).bind fun mesh => mesh.primitives.head?

/-- The first primitive is no triangle list. -/
def Gltf.Node.nonTriangle (gltfNode : Gltf.Node) (model : Gltf.Model) : Bool :=
  (gltfNode.firstPrimitive model).any fun primitive => primitive.mode ≠ .triangles

/-- What is loaded of a node. -/
def Gltf.Node.content (gltfNode : Gltf.Node) (model : Gltf.Model) : Content K where
  name := gltfNode.name
  localTransform := getGltfNodeTransform gltfNode
  mesh := if gltfNode.nonTriangle model then none
    else (gltfNode.firstPrimitive model).bind fun primitive => (primitive.content model).toOption

/-- What is loaded of the node with this index. -/
def Gltf.Model.content (model : Gltf.Model) (j : ℕ) : Content K :=
  (model.nodes[j]?).elim ⟨"", 1, none⟩ fun gltfNode => gltfNode.content model

/-- The node has a mesh whose first primitive is no triangle list. -/
def Gltf.Model.nonTriangle (model : Gltf.Model) (j : ℕ) : Bool :=
  (model.nodes[j]?).any fun gltfNode => gltfNode.nonTriangle model

/-- The children of the nodes. -/
def Gltf.Model.children (model : Gltf.Model) (j : ℕ) : Option (List ℕ) :=
  (model.nodes[j]?).map Gltf.Node.children

/-! ### The node table -/

namespace SceneBuilder

/-- The mesh with this id. -/
def meshContent (b : SceneBuilder K) (m : ℕ) : Option (MeshContent K) :=
  (b.meshes[m]?).bind fun d =>
    (b.materials[d.materialId]?).map (MeshContent.mk d.vertices d.indices)

/-- An entry of the node table. -/
def entry (b : SceneBuilder K) (n : Node K) : Entry (Content K) where
  label := ⟨n.name, n.localTransform, n.mesh.bind b.meshContent⟩
  parent := n.parent
  children := n.children

/-- The node table. -/
def table (b : SceneBuilder K) : List (Entry (Content K)) := b.nodes.map b.entry

/-- The mesh and material ids in the builder are valid. -/
structure Valid (b : SceneBuilder K) : Prop where
  mesh : ∀ n ∈ b.nodes, ∀ m, n.mesh = some m → m < b.meshes.length
  material : ∀ d ∈ b.meshes, d.materialId < b.materials.length

omit [Ring K] [GlmScene K] in
@[simp] theorem length_table (b : SceneBuilder K) : b.table.length = b.nodes.length :=
  List.length_map _

omit [Ring K] [GlmScene K] in
theorem getElem?_table (b : SceneBuilder K) (i : ℕ) : b.table[i]? = (b.nodes[i]?).map b.entry :=
  List.getElem?_map

omit [Ring K] [GlmScene K] in
/-- Meshes and materials that come later do not matter to an entry. -/
theorem Valid.entry_eq {b b' : SceneBuilder K} (h : b.Valid) (hmeshes : b.meshes <+: b'.meshes)
    (hmaterials : b.materials <+: b'.materials) {n : Node K}
    (hn : ∀ m, n.mesh = some m → m < b.meshes.length) : b'.entry n = b.entry n := by
  have hmesh : n.mesh.bind b'.meshContent = n.mesh.bind b.meshContent := by
    cases hm : n.mesh with
    | none => rfl
    | some m =>
      -- what the ids lead to stands in the prefixes
      have hlt : m < b.meshes.length := hn m hm
      have hmat := h.material _ (List.getElem_mem hlt)
      obtain ⟨ms, hms⟩ := hmeshes
      obtain ⟨mats, hmats⟩ := hmaterials
      show b'.meshContent m = b.meshContent m
      rw [meshContent, meshContent, ← hms, ← hmats, List.getElem?_append_left hlt,
        List.getElem?_eq_getElem hlt, Option.bind_some, Option.bind_some,
        List.getElem?_append_left hmat]
  rw [entry, entry, hmesh]

end SceneBuilder

/-! ### Setters -/

omit [Ring K] [GlmScene K] in
theorem setNode_eq_ok {b b' : SceneBuilder K} {what : String} {node : ℕ} {f : Node K → Node K} :
    b.setNode what node f = .ok b' ↔
      node < b.nodes.length ∧ b' = { b with nodes := b.nodes.modify node f } := by
  unfold setNode
  split
  · rename_i hge
    exact ⟨nofun, fun h => absurd h.1 (Nat.not_lt.mpr hge)⟩
  · rename_i hge
    exact ⟨fun h => ⟨Nat.not_le.mp hge, (Except.ok.inj h).symm⟩, fun h => congrArg _ h.2.symm⟩

/-! ### What the loader keeps -/

/-- The components of the transform are the same. -/
structure Node.SameComponents (n n' : Node K) : Prop where
  translation : n.translation = n'.translation
  rotation : n.rotation = n'.rotation
  scale : n.scale = n'.scale

/-- What creating a node keeps, and setting what is no component of a transform. -/
structure NodeInvariant (P : SceneBuilder K → Prop) : Prop where
  createNode : ∀ b name, P b → P (b.createNode name).2
  modify : ∀ (b : SceneBuilder K) (i : ℕ) (f : Node K → Node K),
    (∀ n, (f n).SameComponents n) → P b → P { b with nodes := b.nodes.modify i f }

/-- What the loader keeps. -/
structure LoaderInvariant (P : SceneBuilder K → Prop) : Prop extends NodeInvariant P where
  createMaterial : ∀ b mat, P b → P (b.createMaterial mat).2
  createMesh : ∀ b vertices indices material, P b → P (b.createMesh vertices indices material).2

section Invariant

variable {P : SceneBuilder K → Prop} {model : Gltf.Model} {b b' : SceneBuilder K}

omit [GlmScene K] in
theorem NodeInvariant.setNode (hP : NodeInvariant P) {what : String} {i : ℕ} {f : Node K → Node K}
    (hf : ∀ n, (f n).SameComponents n) (hb : P b) (h : b.setNode what i f = .ok b') : P b' := by
  obtain ⟨-, rfl⟩ := setNode_eq_ok.mp h
  exact hP.modify b i f hf hb

omit [GlmScene K] in
theorem NodeInvariant.setParent (hP : NodeInvariant P) {child parent : ℕ} (hb : P b)
    (h : b.setParent child parent = .ok b') : P b' := by
  unfold SceneBuilder.setParent at h
  split at h
  · cases h
  · obtain rfl := Except.ok.inj h
    have hchild := hP.modify b child (fun n => { n with parent := some parent })
      (fun _ => ⟨rfl, rfl, rfl⟩) hb
    exact hP.modify _ parent (fun n => { n with children := n.children ++ [child] })
      (fun _ => ⟨rfl, rfl, rfl⟩) hchild

theorem NodeInvariant.addGltfNode (hP : NodeInvariant P) {gltfNode : Gltf.Node} {parent : Option ℕ}
    {r : ℕ × SceneBuilder K} (hb : P b) (h : b.addGltfNode gltfNode parent = .ok r) : P r.2 := by
  obtain ⟨b₁, hset, h⟩ := except_bind_eq_ok.mp h
  have hlocal : P b₁ := hP.setNode
    (f := fun n => { n with localTransform := getGltfNodeTransform gltfNode })
    (fun _ => ⟨rfl, rfl, rfl⟩) (hP.createNode b gltfNode.name hb) hset
  cases parent with
  | none => exact Except.ok.inj h ▸ hlocal
  | some p =>
    obtain ⟨b₂, hparent, h⟩ := except_bind_eq_ok.mp h
    exact Except.ok.inj h ▸ hP.setParent hlocal hparent

theorem LoaderInvariant.loadGltfPrimitive (hP : LoaderInvariant P) {primitive : Gltf.Primitive}
    {nodeId : ℕ} (hb : P b)
    (h : SceneBuilder.loadGltfPrimitive model primitive nodeId b = .ok (some b')) : P b' := by
  unfold SceneBuilder.loadGltfPrimitive at h
  split at h
  · cases h
  · obtain ⟨vertices, -, h⟩ := except_bind_eq_ok.mp h
    obtain ⟨indices, -, h⟩ := except_bind_eq_ok.mp h
    obtain ⟨mat, -, h⟩ := except_bind_eq_ok.mp h
    obtain ⟨b₁, hset, h⟩ := except_bind_eq_ok.mp h
    obtain rfl := Option.some.inj (Except.ok.inj h)
    exact hP.setNode (f := fun n => { n with mesh := some b.meshes.length })
      (fun _ => ⟨rfl, rfl, rfl⟩)
      (hP.createMesh _ vertices indices b.materials.length (hP.createMaterial b mat hb)) hset

theorem LoaderInvariant.loadGltfMesh (hP : LoaderInvariant P) {gltfNode : Gltf.Node} {nodeId : ℕ}
    (hb : P b) (h : SceneBuilder.loadGltfMesh model gltfNode nodeId b = .ok (some b')) : P b' := by
  unfold SceneBuilder.loadGltfMesh at h
  split at h
  · exact Option.some.inj (Except.ok.inj h) ▸ hb
  · obtain ⟨gltfMesh, -, h⟩ := except_bind_eq_ok.mp h
    split at h
    · exact Option.some.inj (Except.ok.inj h) ▸ hb
    · exact hP.loadGltfPrimitive hb h

theorem LoaderInvariant.visitGltfNode (hP : LoaderInvariant P) {parent : Option ℕ} {j : ℕ}
    {r : SceneBuilder K × Option ℕ × List ℕ} (hb : P b)
    (h : SceneBuilder.visitGltfNode model parent j b = .ok r) : P r.1 := by
  obtain ⟨gltfNode, -, h⟩ := except_bind_eq_ok.mp h
  obtain ⟨⟨nodeId, b₁⟩, hadd, h⟩ := except_bind_eq_ok.mp h
  obtain ⟨o, hload, h⟩ := except_bind_eq_ok.mp h
  have hadded : P b₁ := hP.addGltfNode hb hadd
  cases o with
  | none => exact Except.ok.inj h ▸ hadded
  | some b₂ => exact Except.ok.inj h ▸ hP.loadGltfMesh hadded hload

theorem LoaderInvariant.loadGltfNode (hP : LoaderInvariant P) {depth : ℕ} {parent : Option ℕ}
    {j : ℕ} (hb : P b) (h : SceneBuilder.loadGltfNode model depth parent j b = .ok b') : P b' := by
  rw [loadGltfNode_eq_walk] at h
  exact walk_invariant (fun _ _ _ _ hb hvisit => hP.visitGltfNode hb hvisit) hb h

end Invariant

/-! ### A primitive -/

omit [Ring K] in
theorem extractVertices_eq_ok {model : Gltf.Model} {primitive : Gltf.Primitive}
    (h : ∀ a, primitive.attributes.lookup "POSITION" = some a → model.Holds a fun _ => 12) :
    ∃ vertices : List (Vertex K), extractVertices model primitive = .ok vertices := by
  unfold extractVertices
  cases hpos : primitive.attributes.lookup "POSITION" with
  | none => exact ⟨[], rfl⟩
  | some a =>
    obtain ⟨accessor, p, hacc, hp, hlen⟩ := h a hpos
    obtain ⟨vertices, hv⟩ : ∃ vertices : List (Vertex K), (List.range accessor.count).mapM
        (fun i => (vec3At p i).map Vertex.mk) = .ok vertices := exists_mapM fun i hi => by
      obtain ⟨v, hv⟩ := exists_vec3At (K := K) (List.mem_range.mp hi) hlen
      exact ⟨⟨v⟩, by rw [hv]; rfl⟩
    refine ⟨vertices, ?_⟩
    show (elem model.accessors a >>= _) = _
    rw [elem_eq_ok.mpr hacc]
    show (model.pointer accessor >>= _) = _
    rw [hp]
    exact hv

theorem extractIndices_eq_ok {model : Gltf.Model} {primitive : Gltf.Primitive}
    (h : primitive.InRange model) :
    ∃ indices, extractIndices model primitive = .ok indices := by
  unfold extractIndices
  cases hidx : primitive.indices with
  | none => exact ⟨[], rfl⟩
  | some a =>
    obtain ⟨accessor, p, hacc, hp, hlen⟩ := h.indices a hidx
    have hlen : accessor.count * accessor.componentType.indexSize.getD 0 ≤ p.length := hlen
    show ∃ indices, (elem model.accessors a >>= _) = _
    rw [elem_eq_ok.mpr hacc]
    cases hsize : accessor.componentType.indexSize with
    | none =>
      -- no branch reads this type, and the indices stay 0
      obtain ⟨r, hr, -⟩ := except_bind_eq_ok.mp hp
      refine ⟨List.replicate accessor.count 0, ?_⟩
      simp only [bind, Except.bind, hsize, hr]
      rfl
    | some size =>
      rw [hsize] at hlen
      simp only [bind, Except.bind, hsize, hp]
      exact exists_mapM fun i hi => exists_uintAt (List.mem_range.mp hi) hlen

theorem exists_three {α : Type} {l : List α} (h : 3 ≤ l.length) :
    ∃ x y z l', l = x :: y :: z :: l' :=
  match l, h with
  | x :: y :: z :: l', _ => ⟨x, y, z, l', rfl⟩

theorem extractMaterial_eq_ok {model : Gltf.Model} {primitive : Gltf.Primitive}
    (h : primitive.InRange model) :
    ∃ mat : Material K, extractMaterial model primitive = .ok mat := by
  unfold extractMaterial
  cases hmat : primitive.material with
  | none => exact ⟨_, rfl⟩
  | some m =>
    obtain ⟨mat, hm, hcolor, hemission⟩ := h.material m hmat
    obtain ⟨r, g, b, l, hcolor⟩ := exists_three hcolor
    obtain ⟨r', g', b', l', hemission⟩ := exists_three hemission
    show ∃ mat : Material K, (elem model.materials m >>= convertGltfMaterial) = .ok mat
    rw [elem_eq_ok.mpr hm]
    show ∃ mat' : Material K, convertGltfMaterial mat = .ok mat'
    rw [convertGltfMaterial, hcolor, hemission]
    exact ⟨_, rfl⟩

theorem content_eq_ok {model : Gltf.Model} {primitive : Gltf.Primitive}
    (h : primitive.InRange model) :
    ∃ vertices indices, ∃ mat : Material K, extractVertices model primitive = .ok vertices ∧
      extractIndices model primitive = .ok indices ∧ extractMaterial model primitive = .ok mat ∧
      primitive.content model = .ok ⟨vertices, indices, mat⟩ := by
  obtain ⟨vertices, hv⟩ := extractVertices_eq_ok (K := K) h.position
  obtain ⟨indices, hi⟩ := extractIndices_eq_ok h
  obtain ⟨mat, hm⟩ := extractMaterial_eq_ok (K := K) h
  refine ⟨vertices, indices, mat, hv, hi, hm, ?_⟩
  rw [Gltf.Primitive.content, hv, hi, hm]
  rfl

theorem Gltf.Node.InRange.firstPrimitive {model : Gltf.Model} {gltfNode : Gltf.Node}
    {primitive : Gltf.Primitive} (h : gltfNode.InRange model)
    (hfirst : gltfNode.firstPrimitive model = some primitive)
    (hmode : primitive.mode = .triangles) : primitive.InRange model := by
  obtain ⟨mesh, hmesh, hhead⟩ := Option.bind_eq_some_iff.mp hfirst
  obtain ⟨m, hm, hlook⟩ := Option.bind_eq_some_iff.mp hmesh
  obtain ⟨mesh', hmesh', hprimitive⟩ := h m hm
  obtain rfl : mesh = mesh' := Option.some.inj (hlook.symm.trans hmesh')
  exact hprimitive primitive hhead hmode

/-! ### A node -/

namespace SceneBuilder

omit [Ring K] [GlmScene K] in
/-- A setter on the last node. -/
theorem setNode_last {b : SceneBuilder K} {ns : List (Node K)} {n : Node K}
    (h : b.nodes = ns ++ [n]) (what : String) (f : Node K → Node K) :
    b.setNode what ns.length f = .ok { b with nodes := ns ++ [f n] } := by
  rw [setNode, if_neg, h, modify_last]
  rw [h, List.length_append]
  exact Nat.not_le.mpr (Nat.lt_succ_self _)

/-- The node is entered in the list of children of its parent. -/
def adoptNode (parent : Option ℕ) (nodeId : ℕ) (ns : List (Node K)) : List (Node K) :=
  match parent with
  | none => ns
  | some p => ns.modify p fun n => { n with children := n.children ++ [nodeId] }

omit [Ring K] [GlmScene K] in
@[simp] theorem length_adoptNode (parent : Option ℕ) (nodeId : ℕ) (ns : List (Node K)) :
    (adoptNode parent nodeId ns).length = ns.length := by
  cases parent with
  | none => rfl
  | some p => exact List.length_modify _ _ _

/-- The node as it is before its mesh is loaded. -/
def bareNode (gltfNode : Gltf.Node) (parent : Option ℕ) : Node K :=
  { newNode gltfNode.name with
    localTransform := getGltfNodeTransform gltfNode
    parent := parent }

/-- The builder with that node. -/
def withNode (b : SceneBuilder K) (gltfNode : Gltf.Node) (parent : Option ℕ) : SceneBuilder K :=
  { b with nodes := adoptNode parent b.nodes.length b.nodes ++ [bareNode gltfNode parent] }

theorem addGltfNode_eq (b : SceneBuilder K) (gltfNode : Gltf.Node) {parent : Option ℕ}
    (hparent : ∀ p ∈ parent, p < b.nodes.length) :
    b.addGltfNode gltfNode parent = .ok (b.nodes.length, b.withNode gltfNode parent) := by
  show ((b.createNode gltfNode.name).2.setLocalTransform b.nodes.length
    (getGltfNodeTransform gltfNode) >>= _) = _
  rw [setLocalTransform, setNode_last rfl]
  cases parent with
  | none => rfl
  | some p =>
    -- `setParent` writes to the new node, and to an older one
    have hp : p < b.nodes.length := hparent p rfl
    show (setParent _ b.nodes.length p >>= _) = _
    rw [setParent, if_neg, modify_last, modify_append_left _ hp]
    · rfl
    · show ¬((b.nodes ++ [_]).length ≤ b.nodes.length ∨ (b.nodes ++ [_]).length ≤ p)
      rw [List.length_append, List.length_singleton]
      omega

omit [Ring K] [GlmScene K] in
theorem mesh_of_mem_adoptNode {parent : Option ℕ} {nodeId : ℕ} {ns : List (Node K)} {n : Node K}
    (h : n ∈ adoptNode parent nodeId ns) : ∃ n₀ ∈ ns, n.mesh = n₀.mesh := by
  cases parent with
  | none => exact ⟨n, h, rfl⟩
  | some p =>
    obtain ⟨i, hi⟩ := List.mem_iff_getElem?.mp h
    rw [adoptNode, List.getElem?_modify, Option.map_eq_map, Option.map_eq_some_iff] at hi
    obtain ⟨n₀, hn₀, rfl⟩ := hi
    refine ⟨n₀, List.mem_of_getElem? hn₀, ?_⟩
    split
    · rfl
    · rfl

theorem Valid.withNode {b : SceneBuilder K} (h : b.Valid) (gltfNode : Gltf.Node)
    (parent : Option ℕ) : (b.withNode gltfNode parent).Valid where
  mesh n hn m hm := by
    rcases List.mem_append.mp hn with hold | hnew
    -- entering a child does not change a mesh id
    · obtain ⟨n₀, hn₀, hmesh⟩ := mesh_of_mem_adoptNode hold
      exact h.mesh n₀ hn₀ m (hmesh ▸ hm)
    · obtain rfl := List.mem_singleton.mp hnew
      cases hm
  material := h.material

/-- What loading the mesh of the last node, `n`, leaves. -/
structure LoadsMesh (model : Gltf.Model) (gltfNode : Gltf.Node) (ns : List (Node K)) (n : Node K)
    (b b' : SceneBuilder K) : Prop where
  nodes : ∃ n', b'.nodes = ns ++ [n'] ∧ b'.entry n' =
    ⟨⟨n.name, n.localTransform, (gltfNode.content model).mesh⟩, n.parent, n.children⟩
  meshes : b.meshes <+: b'.meshes
  materials : b.materials <+: b'.materials
  valid : b'.Valid

section Mesh

variable {model : Gltf.Model} {gltfNode : Gltf.Node} {ns : List (Node K)} {n : Node K}
  {b : SceneBuilder K}

/-- Where nothing is loaded. -/
theorem LoadsMesh.refl (h : b.nodes = ns ++ [n]) (hvalid : b.Valid) (hn : n.mesh = none)
    (hnone : (gltfNode.content model : Content K).mesh = none) :
    LoadsMesh model gltfNode ns n b b where
  nodes := ⟨n, h, by rw [entry, hn, hnone]; rfl⟩
  meshes := List.prefix_refl _
  materials := List.prefix_refl _
  valid := hvalid

/-- The early return. -/
theorem isNone_of_loadGltfPrimitive {primitive : Gltf.Primitive} {nodeId : ℕ}
    {o : Option (SceneBuilder K)} (h : loadGltfPrimitive model primitive nodeId b = .ok o) :
    o.isNone = decide (primitive.mode ≠ .triangles) := by
  rw [loadGltfPrimitive] at h
  split at h
  · rename_i hmode
    obtain rfl := Except.ok.inj h
    exact (decide_eq_true hmode).symm
  · rename_i hmode
    simp only [except_bind_eq_ok] at h
    obtain ⟨_, -, _, -, _, -, _, -, hret⟩ := h
    obtain rfl := Except.ok.inj hret
    exact (decide_eq_false hmode).symm

theorem isNone_of_loadGltfMesh {nodeId : ℕ} {o : Option (SceneBuilder K)}
    (h : loadGltfMesh model gltfNode nodeId b = .ok o) :
    o.isNone = gltfNode.nonTriangle model := by
  rw [loadGltfMesh] at h
  rw [Gltf.Node.nonTriangle, Gltf.Node.firstPrimitive]
  cases hmesh : gltfNode.mesh with
  | none =>
    rw [hmesh] at h
    obtain rfl := Except.ok.inj h
    rfl
  | some m =>
    rw [hmesh] at h
    obtain ⟨mesh, hm, hload⟩ := except_bind_eq_ok.mp h
    rw [Option.bind_some, elem_eq_ok.mp hm, Option.bind_some]
    split at hload
    · rename_i hnil
      obtain rfl := Except.ok.inj hload
      rw [hnil]
      rfl
    · rename_i hcons
      rw [hcons]
      exact isNone_of_loadGltfPrimitive hload

theorem loadGltfMesh_eq (hrange : gltfNode.InRange model) (nodeId : ℕ) :
    loadGltfMesh model gltfNode nodeId b = match gltfNode.firstPrimitive model with
      | none => .ok (some b)
      | some primitive => loadGltfPrimitive model primitive nodeId b := by
  rw [loadGltfMesh, Gltf.Node.firstPrimitive]
  cases hmesh : gltfNode.mesh with
  | none => rfl
  | some m =>
    obtain ⟨mesh, hm, -⟩ := hrange m hmesh
    show (elem model.meshes m >>= _) = _
    rw [elem_eq_ok.mpr hm, Option.bind_some, hm, Option.bind_some]
    cases hprimitives : mesh.primitives with
    | nil => simp only [bind, Except.bind, hprimitives]; rfl
    | cons primitive rest => simp only [bind, Except.bind, hprimitives]; rfl

/-- The mesh of a triangle list is created and set. -/
theorem loadGltfPrimitive_triangles {primitive : Gltf.Primitive} (h : b.nodes = ns ++ [n])
    (hmode : primitive.mode = .triangles) (hrange : primitive.InRange model) :
    ∃ c : MeshContent K, primitive.content model = .ok c ∧
      loadGltfPrimitive model primitive ns.length b = .ok (some {
        nodes := ns ++ [{ n with mesh := some b.meshes.length }]
        meshes := b.meshes ++ [⟨c.vertices, c.indices, b.materials.length⟩]
        materials := b.materials ++ [c.material] }) := by
  obtain ⟨vertices, indices, mat, hv, hi, hm, hcontent⟩ := content_eq_ok (K := K) hrange
  refine ⟨_, hcontent, ?_⟩
  rw [loadGltfPrimitive, if_neg (not_not_intro hmode), hv, hi, hm]
  have hnodes : ((b.createMaterial mat).2.createMesh vertices indices b.materials.length).2.nodes =
      ns ++ [n] := h
  have hset := setNode_last hnodes "setMesh" fun n => { n with mesh := some b.meshes.length }
  exact congrArg (fun r => r >>= fun b => pure (some b)) hset

omit [Ring K] [GlmScene K] in
/-- The ids stay valid when a mesh is created and set. -/
theorem Valid.createMesh (hvalid : b.Valid) (h : b.nodes = ns ++ [n]) (c : MeshContent K) :
    Valid { nodes := ns ++ [{ n with mesh := some b.meshes.length }]
            meshes := b.meshes ++ [⟨c.vertices, c.indices, b.materials.length⟩]
            materials := b.materials ++ [c.material] } where
  mesh n' hn' m hm := by
    rw [List.length_append, List.length_singleton]
    rcases List.mem_append.mp hn' with hold | hnew
    · have hlt := hvalid.mesh n' (h ▸ List.mem_append_left _ hold) m hm
      omega
    · obtain rfl := List.mem_singleton.mp hnew
      obtain rfl := Option.some.inj hm
      exact Nat.lt_succ_self _
  material d hd := by
    rw [List.length_append, List.length_singleton]
    rcases List.mem_append.mp hd with hold | hnew
    · have hlt := hvalid.material d hold
      omega
    · obtain rfl := List.mem_singleton.mp hnew
      exact Nat.lt_succ_self _

theorem loadGltfMesh_spec (h : b.nodes = ns ++ [n]) (hvalid : b.Valid) (hn : n.mesh = none)
    (hrange : gltfNode.InRange model) :
    ∃ b', (gltfNode.nonTriangle model = true ∧ b' = b ∧
          loadGltfMesh model gltfNode ns.length b = .ok none ∨
        gltfNode.nonTriangle model = false ∧
          loadGltfMesh model gltfNode ns.length b = .ok (some b')) ∧
      LoadsMesh model gltfNode ns n b b' := by
  rw [loadGltfMesh_eq hrange]
  cases hfirst : gltfNode.firstPrimitive model with
  | none =>
    have hkind : gltfNode.nonTriangle model = false := by
      rw [Gltf.Node.nonTriangle, hfirst]
      rfl
    refine ⟨b, .inr ⟨hkind, rfl⟩, .refl h hvalid hn ?_⟩
    rw [Gltf.Node.content, hfirst]
    exact ite_self _
  | some primitive =>
    have hkind : gltfNode.nonTriangle model = decide (primitive.mode ≠ .triangles) := by
      rw [Gltf.Node.nonTriangle, hfirst]
      rfl
    by_cases hmode : primitive.mode = .triangles
    · have hfalse : gltfNode.nonTriangle model = false :=
        hkind.trans (decide_eq_false (not_not_intro hmode))
      obtain ⟨c, hc, hload⟩ :=
        loadGltfPrimitive_triangles h hmode (hrange.firstPrimitive hfirst hmode)
      have hcontent : (gltfNode.content model : Content K).mesh = some c := by
        rw [Gltf.Node.content, if_neg (Bool.eq_false_iff.mp hfalse), hfirst, Option.bind_some, hc]
        rfl
      -- the ids that are set are those of the last mesh and the last material
      refine ⟨_, .inr ⟨hfalse, hload⟩, ⟨_, rfl, ?_⟩, List.prefix_append _ _,
        List.prefix_append _ _, ?_⟩
      · rw [hcontent, entry, Option.bind_some, meshContent, List.getElem?_concat_length,
          Option.bind_some, List.getElem?_concat_length]
        rfl
      · exact hvalid.createMesh h c
    -- the early return, before anything is created
    · have htrue : gltfNode.nonTriangle model = true := hkind.trans (decide_eq_true hmode)
      refine ⟨b, .inl ⟨htrue, rfl, ?_⟩, .refl h hvalid hn ?_⟩
      · exact if_pos hmode
      · rw [Gltf.Node.content, if_pos htrue]

end Mesh

omit [Ring K] [GlmScene K] in
/-- The table of a builder that has a node more. -/
theorem table_append {b b' : SceneBuilder K} {parent : Option ℕ} {n' : Node K} (hvalid : b.Valid)
    (hnodes : b'.nodes = adoptNode parent b.nodes.length b.nodes ++ [n'])
    (hmeshes : b.meshes <+: b'.meshes) (hmaterials : b.materials <+: b'.materials) :
    b'.table = adopt parent [b.table.length] b.table ++ [b'.entry n'] := by
  have hold : b.nodes.map b'.entry = b.table :=
    List.map_congr_left fun n hn => hvalid.entry_eq hmeshes hmaterials (hvalid.mesh n hn)
  have hadopt : (adoptNode parent b.nodes.length b.nodes).map b'.entry =
      adopt parent [b.table.length] b.table := by
    cases parent with
    | none => exact hold
    | some p =>
      -- entry by entry, as both sides change that of `p` only
      ext1 i
      rw [adopt, ← hold, adoptNode, List.getElem?_map, List.getElem?_modify, List.getElem?_modify,
        List.getElem?_map, Option.map_eq_map, Option.map_eq_map, Option.map_map, Option.map_map,
        List.length_map]
      refine congrFun (congrArg Option.map ?_) _
      ext1 n
      show b'.entry (if p = i then _ else n) = if p = i then _ else b'.entry n
      split
      · rfl
      · rfl
  rw [table, hnodes, List.map_append, hadopt]
  rfl

/-- A visit puts the node at the end of the table, and enters it in the list of
children of its parent. -/
theorem visitGltfNode_spec {model : Gltf.Model} {gltfNode : Gltf.Node} {j : ℕ}
    (hj : model.nodes[j]? = some gltfNode) (hrange : gltfNode.InRange model)
    {parent : Option ℕ} {b : SceneBuilder K} (hvalid : b.Valid)
    (hparent : ∀ p ∈ parent, p < b.table.length) :
    ∃ b', visitGltfNode model parent j b = .ok (b', some b.table.length,
        if gltfNode.nonTriangle model then [] else gltfNode.children) ∧ b'.Valid ∧
      b'.table = adopt parent [b.table.length] b.table ++ [⟨model.content j, parent, []⟩] := by
  rw [length_table] at hparent
  have hwith : (b.withNode gltfNode parent).nodes =
      adoptNode parent b.nodes.length b.nodes ++ [bareNode gltfNode parent] := rfl
  obtain ⟨b', hkind, ⟨n', hnodes, hentry⟩, hmeshes, hmaterials, hvalid'⟩ :=
    loadGltfMesh_spec hwith (hvalid.withNode gltfNode parent) rfl hrange
  rw [length_adoptNode] at hkind
  refine ⟨b', ?_, hvalid', ?_⟩
  · rw [visitGltfNode, elem_eq_ok.mpr hj]
    show (b.addGltfNode gltfNode parent >>= _) = _
    rw [addGltfNode_eq b gltfNode hparent]
    show (loadGltfMesh model gltfNode b.nodes.length _ >>= _) = _
    rcases hkind with ⟨htrue, rfl, hload⟩ | ⟨hfalse, hload⟩
    · rw [hload, htrue, length_table]
      rfl
    · rw [hload, hfalse, length_table]
      rfl
  · rw [table_append hvalid hnodes hmeshes hmaterials, hentry, Gltf.Model.content, hj]
    rfl

end SceneBuilder

/-! ### A scene -/

/-- The scene `fromGltf` loads. -/
def Gltf.Model.chosenScene (model : Gltf.Model) : Option Gltf.Scene :=
  model.defaultScene.bind fun d => model.scenes[d]?

/-- What the loader follows from the reachable nodes on is in range. -/
def Gltf.Model.InRange (model : Gltf.Model) (roots : List ℕ) : Prop :=
  ∀ j, ReachableFrom model.children roots j → ∀ gltfNode, model.nodes[j]? = some gltfNode →
    gltfNode.InRange model

section Scene

variable {model : Gltf.Model} {scene : Gltf.Scene} {F : Forest ℕ} {depth : ℕ}

/-- The children of a node are loaded, unless the loader returns early. -/
theorem visitGltfNode_children {parent : Option ℕ} {j : ℕ} {b : SceneBuilder K}
    {r : SceneBuilder K × Option ℕ × List ℕ} (h : visitGltfNode model parent j b = .ok r) :
    stopAt model.nonTriangle model.children j = some r.2.2 := by
  obtain ⟨gltfNode, hj, h⟩ := except_bind_eq_ok.mp h
  obtain ⟨⟨nodeId, b₁⟩, -, h⟩ := except_bind_eq_ok.mp h
  obtain ⟨o, hload, h⟩ := except_bind_eq_ok.mp h
  have hkind : model.nonTriangle j = o.isNone := by
    rw [Gltf.Model.nonTriangle, elem_eq_ok.mp hj, isNone_of_loadGltfMesh hload]
    rfl
  rw [stopAt, hkind, Gltf.Model.children, elem_eq_ok.mp hj]
  cases o with
  | none =>
    rw [← Except.ok.inj h]
    rfl
  | some b' =>
    rw [← Except.ok.inj h]
    rfl

/-- A model with a chosen scene has scenes, and the nodes of that one are loaded. -/
theorem fromGltf_eq_foldlM (hscene : model.chosenScene = some scene) (depth : ℕ) :
    fromGltf (K := K) model depth =
      (scene.nodes.foldlM (fun b j => loadGltfNode model depth none j b) {}).map fun b =>
        ⟨b, model.animations.head?, model⟩ := by
  obtain ⟨d, hd, hscene⟩ := Option.bind_eq_some_iff.mp hscene
  have hfile : loadGltfFile model = .ok model := by
    refine if_neg fun hnone => ?_
    rw [List.isEmpty_iff.mp hnone] at hscene
    cases hscene
  rw [fromGltf, hfile]
  show (elemOpt model.scenes model.defaultScene >>= _) = _
  rw [hd, elemOpt, elem_eq_ok.mpr hscene]
  rfl

/-- Loading a scene whose nodes unfold to a forest: the table is that of the
forest, without what is below a node whose first primitive is no triangle list. -/
theorem fromGltf_table (hscene : model.chosenScene = some scene)
    (hforest : Unfolds model.children scene.nodes F) (hrange : model.InRange scene.nodes)
    (hdepth : F.size ≤ depth) :
    ∃ b : SceneBuilder K, fromGltf model depth = .ok ⟨b, model.animations.head?, model⟩ ∧ b.Valid ∧
      b.table = ((F.prune model.nonTriangle).map model.content).number none 0 := by
  -- the loader is a walk over what is left of the forest
  have hpruned : Unfolds (stopAt model.nonTriangle model.children) scene.nodes
      (F.prune model.nonTriangle) := hforest.prune model.nonTriangle
  have hwalk := hpruned.foldlM_walk
    (fun (x : Option ℕ) a (b : SceneBuilder K) r (h : visitGltfNode model x a b = .ok r) =>
      visitGltfNode_children h) .tooDeep ((Forest.size_prune_le _ _).trans hdepth) none {}
  have hvisit : ∀ j ∈ (F.prune model.nonTriangle).preorder, ∀ parent (b : SceneBuilder K),
      b.Valid → (∀ p ∈ parent, p < b.table.length) →
      ∃ b', (visitGltfNode model parent j b).map (fun r => (r.1, r.2.1)) =
          .ok (b', some b.table.length) ∧ b'.Valid ∧
        b'.table = adopt parent [b.table.length] b.table ++ [⟨model.content j, parent, []⟩] := by
    intro j hj parent b hvalid hparent
    have hmem : j ∈ F.preorder := Forest.mem_of_mem_prune hj
    obtain ⟨l, hl⟩ := hforest.children_eq hmem
    obtain ⟨gltfNode, hnode, -⟩ := Option.map_eq_some_iff.mp hl
    obtain ⟨b', hb', hvalid', htable⟩ := visitGltfNode_spec hnode
      (hrange j (hforest.mem_preorder_iff.mp hmem) gltfNode hnode) hvalid hparent
    exact ⟨b', by rw [hb']; rfl, hvalid', htable⟩
  have hempty : Valid ({} : SceneBuilder K) := ⟨nofun, nofun⟩
  have hnoParent : ∀ p ∈ (none : Option ℕ), p < ({} : SceneBuilder K).table.length := nofun
  obtain ⟨b, hb, hvalid, htable⟩ := Forest.foldM_adopt hvisit hempty hnoParent
  have hload : scene.nodes.foldlM (fun b j => loadGltfNode model depth none j b)
      ({} : SceneBuilder K) = .ok b := by
    simp only [loadGltfNode_eq_walk]
    exact hwalk.trans hb
  refine ⟨b, ?_, hvalid, htable⟩
  rw [fromGltf_eq_foldlM hscene, hload]
  rfl

end Scene

end Pathological.RenderWorker
