import Pathological.Framework.Descent
import Pathological.RenderWorker.TriangleList

/-!
# What the loader takes for granted

The loader follows the indices of a file without looking whether they are in range,
and the children of its nodes without remembering where it has been.

* It stays within the vectors exactly when the file names a default scene, and
  every node it comes to leads to what is there (`fromGltf_inBounds`).
* It ends, with a builder or with an exception, exactly when moreover no node is
  below itself (`fromGltf_ends`).
-/

namespace Pathological.RenderWorker

open Framework SceneBuilder

variable {K : Type}

/-! ### Files whose indices are in range -/

namespace Gltf

/-- The view and the buffer are there, and there are `size` bytes for each element.
An address is taken of the first even when there is none. -/
def Accessor.Fits (accessor : Accessor) (model : Model) (size : ℕ) : Prop :=
  ∃ view buffer, model.viewOf accessor = some view ∧
    model.buffers[view.buffer]? = some buffer ∧
    view.byteOffset + accessor.byteOffset < buffer.data.length ∧
    view.byteOffset + accessor.byteOffset + accessor.count * size ≤ buffer.data.length

/-- What is read through the accessor of a primitive's indices is there. Of a type
that is not read, the view and the buffer are looked up all the same. -/
def Accessor.FitsIndices (accessor : Accessor) (model : Model) : Prop :=
  match accessor.componentType.indexSize with
  | some size => accessor.Fits model size
  | none => ∃ view buffer, model.viewOf accessor = some view ∧
      model.buffers[view.buffer]? = some buffer

/-- What the loader reads of a triangle primitive is there. -/
structure Primitive.WithinBounds (primitive : Primitive) (model : Model) : Prop where
  position : ∀ a, primitive.attributes.lookup "POSITION" = some a →
    ∃ accessor, model.accessors[a]? = some accessor ∧ accessor.Fits model 12
  indices : ∀ a, primitive.indices = some a →
    ∃ accessor, model.accessors[a]? = some accessor ∧ accessor.FitsIndices model
  material : ∀ m, primitive.material = some m → ∃ mat, model.materials[m]? = some mat ∧
    3 ≤ mat.baseColorFactor.length ∧ 3 ≤ mat.emissiveFactor.length

/-- What the loader reads of a node is there. -/
def Node.WithinBounds (gltfNode : Node) (model : Model) : Prop :=
  ∀ m, gltfNode.mesh = some m → ∃ mesh, model.meshes[m]? = some mesh ∧
    ∀ primitive, mesh.primitives.head? = some primitive → primitive.mode = .triangles →
      primitive.WithinBounds model

namespace Model

/-- There is a node with this index, and what the loader reads of it. -/
def NodeWithinBounds (model : Model) (j : ℕ) : Prop :=
  ∃ gltfNode, model.nodes[j]? = some gltfNode ∧ gltfNode.WithinBounds model

/-- The children that are loaded: none of a node whose first primitive is no triangle
list. -/
def loadedChildren (model : Model) : ℕ → Option (List ℕ) :=
  stopAt model.nonTriangle model.children

/-- The file names a default scene, and the loader comes to no node that is out of
bounds. -/
def WithinBounds (model : Model) : Prop :=
  ∃ scene, model.chosenScene = some scene ∧
    ∀ j, Comes model.loadedChildren scene.nodes j → model.NodeWithinBounds j

/-- No node that the loader reaches is below itself. -/
def Acyclic (model : Model) : Prop :=
  ∀ scene, model.chosenScene = some scene →
    ∀ j, ReachableFrom model.loadedChildren scene.nodes j →
      ¬ Relation.TransGen (IsChild model.loadedChildren) j j

end Model

end Gltf

/-! ### Reads -/

theorem elem_failsOnlyWith {α : Type} (l : List α) (i : ℕ) :
    FailsOnlyWith .undefinedBehaviour (elem l i) := by
  unfold elem
  cases l[i]? with
  | none => exact .error _
  | some a => exact .ok _ a

theorem elemOpt_failsOnlyWith {α : Type} (l : List α) (i : Option ℕ) :
    FailsOnlyWith .undefinedBehaviour (elemOpt l i) := by
  cases i with
  | none => exact .error _
  | some i => exact elem_failsOnlyWith l i

theorem uintAt_failsOnlyWith (size : ℕ) (p : List UInt8) (k : ℕ) :
    FailsOnlyWith .undefinedBehaviour (uintAt size p k) := by
  unfold uintAt
  split
  · exact .ok _ _
  · exact .error _

theorem exists_uintAt_iff {size k : ℕ} {p : List UInt8} :
    (∃ u, uintAt size p k = .ok u) ↔ (k + 1) * size ≤ p.length := by
  unfold uintAt
  split
  · rename_i h
    exact iff_of_true ⟨_, rfl⟩ h
  · rename_i h
    exact iff_of_false nofun h

theorem vec3At_failsOnlyWith [GlmScene K] (p : List UInt8) (k : ℕ) :
    FailsOnlyWith .undefinedBehaviour (vec3At (K := K) p k) := by
  have hfloat (k : ℕ) : FailsOnlyWith .undefinedBehaviour (floatAt (K := K) p k) :=
    (uintAt_failsOnlyWith 4 p k).map _
  exact (hfloat _).bind fun x _ => (hfloat _).bind fun y _ => (hfloat _).bind fun z _ =>
    .ok _ (Vec3.mk x y z)

theorem exists_vec3At_iff [GlmScene K] {k : ℕ} {p : List UInt8} :
    (∃ v : Vec3 K, vec3At p k = .ok v) ↔ (k + 1) * 12 ≤ p.length := by
  constructor
  · rintro ⟨v, h⟩
    obtain ⟨x, -, h⟩ := except_bind_eq_ok.mp h
    obtain ⟨y, -, h⟩ := except_bind_eq_ok.mp h
    obtain ⟨z, hz, -⟩ := except_bind_eq_ok.mp h
    -- the third float is the last
    obtain ⟨u, hu, -⟩ := except_map_eq_ok.mp hz
    have hlast := exists_uintAt_iff.mp ⟨u, hu⟩
    omega
  · intro h
    exact exists_vec3At (Nat.lt_succ_self k) h

section Accessor

variable {model : Gltf.Model} {accessor : Gltf.Accessor} {size : ℕ}

theorem bufferOf_failsOnlyWith :
    FailsOnlyWith .undefinedBehaviour (model.bufferOf accessor) :=
  (elemOpt_failsOnlyWith _ _).bind fun view _ => (elem_failsOnlyWith _ _).bind fun buffer _ =>
    .ok _ (view, buffer)

theorem pointer_failsOnlyWith : FailsOnlyWith .undefinedBehaviour (model.pointer accessor) := by
  refine bufferOf_failsOnlyWith.bind fun r _ => ?_
  show FailsOnlyWith _ (addressOf r.2.data _)
  unfold addressOf
  split
  · exact .ok _ _
  · exact .error _

theorem exists_bufferOf_iff : (∃ r, model.bufferOf accessor = .ok r) ↔
    ∃ view buffer, model.viewOf accessor = some view ∧
      model.buffers[view.buffer]? = some buffer := by
  simp only [Prod.exists, bufferOf_eq_ok]

/-- Each of the elements is behind the pointer. -/
theorem Gltf.Accessor.fits_iff : accessor.Fits model size ↔
    ∃ p, model.pointer accessor = .ok p ∧ ∀ i < accessor.count, (i + 1) * size ≤ p.length := by
  unfold Gltf.Accessor.Fits
  constructor
  · rintro ⟨view, buffer, hview, hbuffer, hlt, hle⟩
    refine ⟨_, pointer_eq_ok.mpr ⟨view, buffer, hview, hbuffer, hlt, rfl⟩, fun i hi => ?_⟩
    have hmul : (i + 1) * size ≤ accessor.count * size := Nat.mul_le_mul_right size hi
    rw [List.length_drop]
    omega
  · rintro ⟨p, hp, hall⟩
    obtain ⟨view, buffer, hview, hbuffer, hlt, rfl⟩ := pointer_eq_ok.mp hp
    refine ⟨view, buffer, hview, hbuffer, hlt, ?_⟩
    cases hcount : accessor.count with
    | zero => omega
    | succ n =>
      have hlast := hall n (by omega)
      rw [List.length_drop] at hlast
      omega

/-- A loop over the elements. -/
theorem exists_elements_iff {α : Type} {read : List UInt8 → ℕ → Except Fault α}
    (hread : ∀ p i, (∃ a, read p i = .ok a) ↔ (i + 1) * size ≤ p.length) :
    (∃ l, (model.pointer accessor >>= fun p => (List.range accessor.count).mapM (read p)) =
      .ok l) ↔ accessor.Fits model size := by
  rw [Gltf.Accessor.fits_iff]
  constructor
  · rintro ⟨l, hl⟩
    obtain ⟨p, hp, hl⟩ := except_bind_eq_ok.mp hl
    refine ⟨p, hp, fun i hi => (hread p i).mp ?_⟩
    exact exists_mapM_iff.mp ⟨l, hl⟩ i (List.mem_range.mpr hi)
  · rintro ⟨p, hp, hall⟩
    obtain ⟨l, hl⟩ := exists_mapM_iff.mpr fun i hi =>
      (hread p i).mpr (hall i (List.mem_range.mp hi))
    exact ⟨l, except_bind_eq_ok.mpr ⟨p, hp, hl⟩⟩

end Accessor

/-! ### Primitives -/

section Primitive

variable {model : Gltf.Model} {primitive : Gltf.Primitive}

theorem extractVertices_failsOnlyWith [GlmScene K] :
    FailsOnlyWith .undefinedBehaviour (extractVertices (K := K) model primitive) := by
  unfold extractVertices
  split
  · exact .ok _ []
  · refine (elem_failsOnlyWith _ _).bind fun accessor _ => pointer_failsOnlyWith.bind fun p _ => ?_
    exact .mapM (fun i => (vec3At_failsOnlyWith p i).map _) _

theorem exists_extractVertices_iff [GlmScene K] :
    (∃ vertices, extractVertices (K := K) model primitive = .ok vertices) ↔
      ∀ a, primitive.attributes.lookup "POSITION" = some a →
        ∃ accessor, model.accessors[a]? = some accessor ∧ accessor.Fits model 12 := by
  have hread (p : List UInt8) (i : ℕ) :
      (∃ v : Vertex K, (vec3At p i).map Vertex.mk = .ok v) ↔ (i + 1) * 12 ≤ p.length := by
    rw [← exists_vec3At_iff (K := K)]
    constructor
    · rintro ⟨v, hv⟩
      obtain ⟨position, hposition, -⟩ := except_map_eq_ok.mp hv
      exact ⟨position, hposition⟩
    · rintro ⟨position, hposition⟩
      exact ⟨⟨position⟩, except_map_eq_ok.mpr ⟨position, hposition, rfl⟩⟩
  unfold extractVertices
  cases primitive.attributes.lookup "POSITION" with
  | none => exact iff_of_true ⟨_, rfl⟩ nofun
  | some a =>
    constructor
    · rintro ⟨vertices, h⟩ a' ha'
      obtain rfl := Option.some.inj ha'
      obtain ⟨accessor, haccessor, h⟩ := except_bind_eq_ok.mp h
      exact ⟨accessor, elem_eq_ok.mp haccessor, (exists_elements_iff hread).mp ⟨_, h⟩⟩
    · intro h
      obtain ⟨accessor, haccessor, hfits⟩ := h a rfl
      obtain ⟨vertices, hvertices⟩ := (exists_elements_iff hread).mpr hfits
      exact ⟨vertices, except_bind_eq_ok.mpr ⟨accessor, elem_eq_ok.mpr haccessor, hvertices⟩⟩

theorem extractIndices_failsOnlyWith :
    FailsOnlyWith .undefinedBehaviour (extractIndices model primitive) := by
  unfold extractIndices
  split
  · exact .ok _ []
  · refine (elem_failsOnlyWith _ _).bind fun accessor _ => ?_
    split
    · exact pointer_failsOnlyWith.bind fun p _ =>
        .mapM (fun i => uintAt_failsOnlyWith _ p i) _
    · exact bufferOf_failsOnlyWith.bind fun r _ => .ok _ _

theorem exists_extractIndices_iff :
    (∃ indices, extractIndices model primitive = .ok indices) ↔
      ∀ a, primitive.indices = some a →
        ∃ accessor, model.accessors[a]? = some accessor ∧ accessor.FitsIndices model := by
  unfold extractIndices
  cases primitive.indices with
  | none => exact iff_of_true ⟨_, rfl⟩ nofun
  | some a =>
    have hrest (accessor : Gltf.Accessor) :
        (∃ indices : List UInt32, (match accessor.componentType.indexSize with
          | some size => do
            let idx ← model.pointer accessor
            (List.range accessor.count).mapM fun i => uintAt size idx i
          | none => do
            let _ ← model.bufferOf accessor
            pure (List.replicate accessor.count 0)) = .ok indices) ↔
          accessor.FitsIndices model := by
      unfold Gltf.Accessor.FitsIndices
      cases accessor.componentType.indexSize with
      | some size => exact exists_elements_iff fun p i => exists_uintAt_iff
      | none =>
        refine Iff.trans ?_ exists_bufferOf_iff
        constructor
        · rintro ⟨indices, h⟩
          obtain ⟨r, hr, -⟩ := except_bind_eq_ok.mp h
          exact ⟨r, hr⟩
        · rintro ⟨r, hr⟩
          exact ⟨_, except_bind_eq_ok.mpr ⟨r, hr, rfl⟩⟩
    constructor
    · rintro ⟨indices, h⟩ a' ha'
      obtain rfl := Option.some.inj ha'
      obtain ⟨accessor, haccessor, h⟩ := except_bind_eq_ok.mp h
      exact ⟨accessor, elem_eq_ok.mp haccessor, (hrest accessor).mp ⟨indices, h⟩⟩
    · intro h
      obtain ⟨accessor, haccessor, hfits⟩ := h a rfl
      obtain ⟨indices, hindices⟩ := (hrest accessor).mpr hfits
      exact ⟨indices, except_bind_eq_ok.mpr ⟨accessor, elem_eq_ok.mpr haccessor, hindices⟩⟩

theorem convertGltfMaterial_failsOnlyWith [GlmScene K] (gltfMat : Gltf.Material) :
    FailsOnlyWith .undefinedBehaviour (convertGltfMaterial (K := K) gltfMat) := by
  unfold convertGltfMaterial
  split
  · exact .ok _ _
  · exact .error _

theorem exists_convertGltfMaterial_iff [GlmScene K] {gltfMat : Gltf.Material} :
    (∃ mat, convertGltfMaterial (K := K) gltfMat = .ok mat) ↔
      3 ≤ gltfMat.baseColorFactor.length ∧ 3 ≤ gltfMat.emissiveFactor.length := by
  unfold convertGltfMaterial
  constructor
  · rintro ⟨mat, h⟩
    split at h
    · rename_i hcolor hemission
      rw [hcolor, hemission]
      exact ⟨Nat.le_add_left 3 _, Nat.le_add_left 3 _⟩
    · cases h
  · rintro ⟨hcolor, hemission⟩
    obtain ⟨r, g, b, l, hcolor⟩ := exists_three hcolor
    obtain ⟨r', g', b', l', hemission⟩ := exists_three hemission
    rw [hcolor, hemission]
    exact ⟨_, rfl⟩

variable [Ring K] [GlmScene K]

theorem extractMaterial_failsOnlyWith :
    FailsOnlyWith .undefinedBehaviour (extractMaterial (K := K) model primitive) := by
  unfold extractMaterial
  split
  · exact (elem_failsOnlyWith _ _).bind fun mat _ => convertGltfMaterial_failsOnlyWith mat
  · exact .ok _ _

theorem exists_extractMaterial_iff :
    (∃ mat, extractMaterial (K := K) model primitive = .ok mat) ↔
      ∀ m, primitive.material = some m → ∃ mat, model.materials[m]? = some mat ∧
        3 ≤ mat.baseColorFactor.length ∧ 3 ≤ mat.emissiveFactor.length := by
  unfold extractMaterial
  cases primitive.material with
  | none => exact iff_of_true ⟨_, rfl⟩ nofun
  | some m =>
    constructor
    · rintro ⟨mat, h⟩ m' hm'
      obtain rfl := Option.some.inj hm'
      obtain ⟨gltfMat, hlook, h⟩ := except_bind_eq_ok.mp h
      exact ⟨gltfMat, elem_eq_ok.mp hlook, exists_convertGltfMaterial_iff.mp ⟨mat, h⟩⟩
    · intro h
      obtain ⟨gltfMat, hlook, hfactors⟩ := h m rfl
      obtain ⟨mat, hmat⟩ := exists_convertGltfMaterial_iff (K := K).mpr hfactors
      exact ⟨mat, except_bind_eq_ok.mpr ⟨gltfMat, elem_eq_ok.mpr hlook, hmat⟩⟩

variable {nodeId : ℕ} {b : SceneBuilder K}

omit [Ring K] [GlmScene K] in
/-- The node is there for its mesh to be set. -/
theorem exists_setMesh (h : nodeId < b.nodes.length) (vertices : List (Vertex K))
    (indices : List UInt32) (mat : Material K) : ∃ b', ((b.createMaterial mat).2.createMesh
      vertices indices b.materials.length).2.setMesh nodeId b.meshes.length = .ok b' :=
  ⟨_, setNode_eq_ok.mpr ⟨h, rfl⟩⟩

theorem loadGltfPrimitive_failsOnlyWith (h : nodeId < b.nodes.length) :
    FailsOnlyWith .undefinedBehaviour (loadGltfPrimitive model primitive nodeId b) := by
  unfold loadGltfPrimitive
  split
  · exact .ok _ _
  · refine extractVertices_failsOnlyWith.bind fun vertices _ =>
      extractIndices_failsOnlyWith.bind fun indices _ =>
        extractMaterial_failsOnlyWith.bind fun mat _ => ?_
    obtain ⟨b', hset⟩ := exists_setMesh h vertices indices mat
    refine FailsOnlyWith.bind ?_ fun b' _ => .ok _ (some b')
    exact (congrArg (FailsOnlyWith _) hset).mpr (.ok _ b')

theorem exists_loadGltfPrimitive_iff (h : nodeId < b.nodes.length) :
    (∃ o, loadGltfPrimitive model primitive nodeId b = .ok o) ↔
      (primitive.mode = .triangles → primitive.WithinBounds model) := by
  unfold loadGltfPrimitive
  by_cases hmode : primitive.mode = .triangles
  · rw [if_neg (not_not_intro hmode)]
    constructor
    · rintro ⟨o, hload⟩ -
      obtain ⟨vertices, hvertices, hload⟩ := except_bind_eq_ok.mp hload
      obtain ⟨indices, hindices, hload⟩ := except_bind_eq_ok.mp hload
      obtain ⟨mat, hmat, -⟩ := except_bind_eq_ok.mp hload
      exact ⟨exists_extractVertices_iff.mp ⟨vertices, hvertices⟩,
        exists_extractIndices_iff.mp ⟨indices, hindices⟩,
        exists_extractMaterial_iff.mp ⟨mat, hmat⟩⟩
    · intro hbounds
      obtain ⟨hposition, hindices, hmaterial⟩ := hbounds hmode
      obtain ⟨vertices, hvertices⟩ := exists_extractVertices_iff (K := K).mpr hposition
      obtain ⟨indices, hindices⟩ := exists_extractIndices_iff.mpr hindices
      obtain ⟨mat, hmat⟩ := exists_extractMaterial_iff (K := K).mpr hmaterial
      obtain ⟨b', hset⟩ := exists_setMesh h vertices indices mat
      exact ⟨some b', except_bind_eq_ok.mpr ⟨vertices, hvertices,
        except_bind_eq_ok.mpr ⟨indices, hindices, except_bind_eq_ok.mpr ⟨mat, hmat,
          except_bind_eq_ok.mpr ⟨b', hset, rfl⟩⟩⟩⟩⟩
  · rw [if_pos hmode]
    exact iff_of_true ⟨_, rfl⟩ fun h => absurd h hmode

end Primitive

/-! ### Nodes -/

section Node

variable [Ring K] [GlmScene K] {model : Gltf.Model} {gltfNode : Gltf.Node} {nodeId j : ℕ}
  {parent : Option ℕ} {b : SceneBuilder K}

theorem loadGltfMesh_failsOnlyWith (h : nodeId < b.nodes.length) :
    FailsOnlyWith .undefinedBehaviour (loadGltfMesh model gltfNode nodeId b) := by
  unfold loadGltfMesh
  split
  · exact .ok _ _
  · refine (elem_failsOnlyWith _ _).bind fun gltfMesh _ => ?_
    split
    · exact .ok _ (some b)
    · exact loadGltfPrimitive_failsOnlyWith h

theorem exists_loadGltfMesh_iff (h : nodeId < b.nodes.length) :
    (∃ o, loadGltfMesh model gltfNode nodeId b = .ok o) ↔ gltfNode.WithinBounds model := by
  unfold loadGltfMesh Gltf.Node.WithinBounds
  cases gltfNode.mesh with
  | none => exact iff_of_true ⟨_, rfl⟩ nofun
  | some m =>
    constructor
    · rintro ⟨o, hload⟩ m' hm'
      obtain rfl := Option.some.inj hm'
      obtain ⟨gltfMesh, hlook, hload⟩ := except_bind_eq_ok.mp hload
      refine ⟨gltfMesh, elem_eq_ok.mp hlook, fun primitive hhead => ?_⟩
      obtain ⟨rest, hprimitives⟩ := List.head?_eq_some_iff.mp hhead
      rw [hprimitives] at hload
      exact (exists_loadGltfPrimitive_iff h).mp ⟨o, hload⟩
    · intro hbounds
      obtain ⟨gltfMesh, hlook, hprimitive⟩ := hbounds m rfl
      show ∃ o, (elem model.meshes m >>= _) = .ok o
      rw [elem_eq_ok.mpr hlook]
      cases hprimitives : gltfMesh.primitives with
      | nil =>
        refine ⟨some b, except_bind_eq_ok.mpr ⟨gltfMesh, rfl, ?_⟩⟩
        rw [hprimitives]
        rfl
      | cons primitive rest =>
        have hhead : gltfMesh.primitives.head? = some primitive := by
          rw [hprimitives, List.head?_cons]
        obtain ⟨o, hload⟩ := (exists_loadGltfPrimitive_iff h).mpr (hprimitive primitive hhead)
        refine ⟨o, except_bind_eq_ok.mpr ⟨gltfMesh, rfl, ?_⟩⟩
        rw [hprimitives]
        exact hload

/-- The parent of the next node is in the builder. -/
def ParentIn (b : SceneBuilder K) (parent : Option ℕ) : Prop := ∀ p ∈ parent, p < b.nodes.length

theorem length_withNode (b : SceneBuilder K) (gltfNode : Gltf.Node) (parent : Option ℕ) :
    (b.withNode gltfNode parent).nodes.length = b.nodes.length + 1 := by
  show (adoptNode _ _ _ ++ [_]).length = _
  rw [List.length_append, length_adoptNode, List.length_singleton]

theorem lt_length_withNode (b : SceneBuilder K) (gltfNode : Gltf.Node) (parent : Option ℕ) :
    b.nodes.length < (b.withNode gltfNode parent).nodes.length := by
  rw [length_withNode]
  exact Nat.lt_succ_self _

theorem visitGltfNode_eq (hj : model.nodes[j]? = some gltfNode) (hparent : ParentIn b parent) :
    visitGltfNode model parent j b =
      (loadGltfMesh model gltfNode b.nodes.length (b.withNode gltfNode parent)).map
        fun o => match o with
          | none => (b.withNode gltfNode parent, some b.nodes.length, [])
          | some b' => (b', some b.nodes.length, gltfNode.children) := by
  rw [visitGltfNode, elem_eq_ok.mpr hj]
  show (b.addGltfNode gltfNode parent >>= _) = _
  rw [addGltfNode_eq b gltfNode hparent]
  show (loadGltfMesh model gltfNode b.nodes.length (b.withNode gltfNode parent) >>= _) = _
  cases loadGltfMesh model gltfNode b.nodes.length (b.withNode gltfNode parent) with
  | error e => rfl
  | ok o =>
    cases o with
    | none => rfl
    | some b' => rfl

omit [GlmScene K] in
theorem nodesGrow (n : ℕ) : LoaderInvariant fun b : SceneBuilder K => n ≤ b.nodes.length where
  createNode b name h := by
    show n ≤ (b.nodes ++ [_]).length
    rw [List.length_append]
    exact Nat.le_add_right_of_le h
  modify b i f _ h := by
    show n ≤ (b.nodes.modify i f).length
    rwa [List.length_modify]
  createMaterial _ _ h := h
  createMesh _ _ _ _ h := h

/-- **A visit goes on from a node that is within bounds, and is undefined behaviour at
any other.** -/
theorem visits_gltfNode (model : Gltf.Model) :
    Visits (visitGltfNode (K := K) model) model.loadedChildren model.NodeWithinBounds
      .undefinedBehaviour ParentIn where
  proceeds {b parent j} hparent := by
    rintro ⟨gltfNode, hj, hbounds⟩
    have hlast := lt_length_withNode b gltfNode parent
    obtain ⟨o, hload⟩ := (exists_loadGltfMesh_iff hlast).mpr hbounds
    have hvisit := visitGltfNode_eq hj hparent
    rw [hload, Except.map] at hvisit
    have hchildren := visitGltfNode_children hvisit
    cases o with
    | none =>
      refine ⟨_, _, _, hvisit, hchildren, fun p hp => ?_, fun x hx p hp => ?_⟩
      · exact Option.some.inj hp ▸ hlast
      · exact (hx p hp).trans hlast
    | some b' =>
      have hgrown : b.nodes.length + 1 ≤ b'.nodes.length :=
        (nodesGrow (b.nodes.length + 1)).loadGltfMesh (length_withNode b gltfNode parent).ge hload
      refine ⟨_, _, _, hvisit, hchildren, fun p hp => ?_, fun x hx p hp => ?_⟩
      · exact Option.some.inj hp ▸ hgrown
      · exact (hx p hp).trans hgrown
  faults {b parent j} hparent hbad := by
    cases hj : model.nodes[j]? with
    | none =>
      have helem : elem model.nodes j = .error .undefinedBehaviour := by rw [elem, hj]
      rw [visitGltfNode, helem]
      rfl
    | some gltfNode =>
      have hlast := lt_length_withNode b gltfNode parent
      have hload : loadGltfMesh model gltfNode b.nodes.length (b.withNode gltfNode parent) =
          .error .undefinedBehaviour := (loadGltfMesh_failsOnlyWith hlast).eq_error fun hok =>
        hbad ⟨gltfNode, hj, (exists_loadGltfMesh_iff hlast).mp hok⟩
      rw [visitGltfNode_eq hj hparent, hload]
      rfl

end Node

/-! ### Files -/

section File

variable (K) [Ring K] [GlmScene K] (model : Gltf.Model)

/-- The file is loaded, or an exception is thrown. -/
def LoadingEnds : Prop :=
  ∃ depth, (∃ graph : SceneGraph K, fromGltf model depth = .ok graph) ∨
    ∃ what, fromGltf (K := K) model depth = .error (.runtimeError what)

variable {K model}

theorem fromGltf_of_no_scenes (h : model.scenes = []) (depth : ℕ) :
    fromGltf (K := K) model depth = .error (.runtimeError "glTF file has no scenes") := by
  have hthrow : loadGltfFile model = .error (.runtimeError "glTF file has no scenes") :=
    if_pos (List.isEmpty_iff.mpr h)
  rw [fromGltf, hthrow]
  rfl

/-- Where the file names no scene that is there, the scene is read out of range. -/
theorem fromGltf_of_no_scene (hscenes : model.scenes ≠ []) (h : model.chosenScene = none)
    (depth : ℕ) : fromGltf (K := K) model depth = .error .undefinedBehaviour := by
  have hfile : loadGltfFile model = .ok model := if_neg fun hnil =>
    hscenes (List.isEmpty_iff.mp hnil)
  have hscene : elemOpt model.scenes model.defaultScene = .error .undefinedBehaviour := by
    cases hdefault : model.defaultScene with
    | none => rfl
    | some d =>
      rw [Gltf.Model.chosenScene, hdefault, Option.bind_some] at h
      rw [elemOpt, elem, h]
  rw [fromGltf, hfile]
  show (elemOpt model.scenes model.defaultScene >>= _) = _
  rw [hscene]
  rfl

/-- The walk over the chosen scene. -/
theorem fromGltf_of_scene {scene : Gltf.Scene} (h : model.chosenScene = some scene)
    (depth : ℕ) : fromGltf (K := K) model depth =
      (walkAll .tooDeep (visitGltfNode model) depth none scene.nodes {}).map fun b =>
        ⟨b, model.animations.head?, model⟩ := by
  rw [fromGltf_eq_foldlM h]
  simp only [loadGltfNode_eq_walk]
  rfl

/-- In a scene, the loader gets out of range where it comes to a node that is out of
bounds. -/
theorem fromGltf_undefined_iff {scene : Gltf.Scene} (h : model.chosenScene = some scene) :
    (∃ depth, fromGltf (K := K) model depth = .error .undefinedBehaviour) ↔
      ∃ j, Comes model.loadedChildren scene.nodes j ∧ ¬ model.NodeWithinBounds j := by
  have hempty : ParentIn ({} : SceneBuilder K) none := nofun
  have hne : Fault.undefinedBehaviour ≠ .tooDeep := nofun
  rw [← (visits_gltfNode (K := K) model).faults_iff hne hempty]
  refine exists_congr fun depth => ?_
  rw [fromGltf_of_scene h]
  cases walkAll Fault.tooDeep (visitGltfNode (K := K) model) depth none scene.nodes {} with
  | error e => exact ⟨fun he => congrArg _ (Except.error.inj he),
      fun he => congrArg _ (Except.error.inj he)⟩
  | ok b => exact ⟨nofun, nofun⟩

/-- **The loader stays in range exactly when the file has no scenes, which it throws
at, or is within bounds.** -/
theorem fromGltf_inBounds (K : Type) [Ring K] [GlmScene K] (model : Gltf.Model) :
    (∀ depth, fromGltf (K := K) model depth ≠ .error .undefinedBehaviour) ↔
      model.scenes = [] ∨ model.WithinBounds := by
  by_cases hscenes : model.scenes = []
  · refine iff_of_true (fun depth h => ?_) (.inl hscenes)
    rw [fromGltf_of_no_scenes hscenes] at h
    cases h
  · rw [or_iff_right hscenes, Gltf.Model.WithinBounds]
    cases hchosen : model.chosenScene with
    | none => exact iff_of_false (fun h => h 0 (fromGltf_of_no_scene hscenes hchosen 0)) nofun
    | some scene =>
      have hundefined := fromGltf_undefined_iff (K := K) hchosen
      constructor
      · intro h
        refine ⟨scene, rfl, fun j hj => by_contra fun hbad => ?_⟩
        obtain ⟨depth, hdepth⟩ := hundefined.mpr ⟨j, hj, hbad⟩
        exact h depth hdepth
      · rintro ⟨scene', hscene', hbounds⟩ depth hdepth
        obtain rfl := Option.some.inj hscene'
        obtain ⟨j, hj, hbad⟩ := hundefined.mp ⟨depth, hdepth⟩
        exact hbad (hbounds j hj)

/-- Only nodes of the file have children. -/
theorem finite_loadedChildren (model : Gltf.Model) :
    {j | model.loadedChildren j ≠ none}.Finite := by
  refine (Set.finite_lt_nat model.nodes.length).subset fun j hj => ?_
  rw [Set.mem_ofPred_eq]
  by_contra hle
  have hnone : model.children j = none := by
    rw [Gltf.Model.children, List.getElem?_eq_none (Nat.not_lt.mp hle)]
    rfl
  refine hj ?_
  rw [Gltf.Model.loadedChildren, stopAt, hnone]
  exact ite_self none

theorem children_of_withinBounds {j : ℕ} (h : model.NodeWithinBounds j) :
    model.loadedChildren j ≠ none := by
  obtain ⟨gltfNode, hj, -⟩ := h
  rw [Gltf.Model.loadedChildren, stopAt, Gltf.Model.children, hj]
  by_cases hstop : model.nonTriangle j = true
  · rw [if_pos hstop]
    exact Option.some_ne_none _
  · rw [if_neg hstop]
    exact Option.some_ne_none _

/-- In a scene, loading ends where the loader comes to no node out of bounds and to no
cycle. -/
theorem loadingEnds_iff {scene : Gltf.Scene} (h : model.chosenScene = some scene) :
    LoadingEnds K model ↔
      (∀ j, Comes model.loadedChildren scene.nodes j → model.NodeWithinBounds j) ∧
        ∀ j, ReachableFrom model.loadedChildren scene.nodes j →
          ¬ Relation.TransGen (IsChild model.loadedChildren) j j := by
  have hempty : ParentIn ({} : SceneBuilder K) none := nofun
  have hvisits := visits_gltfNode (K := K) model
  have hne : Fault.undefinedBehaviour ≠ .tooDeep := nofun
  have hends : (∃ depth b, walkAll Fault.tooDeep (visitGltfNode model) depth none scene.nodes
      ({} : SceneBuilder K) = .ok b) ↔ _ := hvisits.ends_iff hne hempty
  rw [exists_unfolds_iff (finite_loadedChildren model)] at hends
  have hthrows (depth : ℕ) (what : String) :
      fromGltf (K := K) model depth ≠ .error (.runtimeError what) := by
    rw [fromGltf_of_scene h]
    rcases hvisits.walkAll_cases .tooDeep depth scene.nodes hempty with
      ⟨b, hwalk, -⟩ | ⟨hwalk, -⟩ | hwalk
    · rw [hwalk]
      exact nofun
    · rw [hwalk]
      exact nofun
    · rw [hwalk]
      exact nofun
  constructor
  · rintro ⟨depth, ⟨graph, hload⟩ | ⟨what, hload⟩⟩
    · rw [fromGltf_of_scene h] at hload
      obtain ⟨b, hwalk, -⟩ := except_map_eq_ok.mp hload
      obtain ⟨hbounds, -, hacyclic⟩ := hends.mp ⟨depth, b, hwalk⟩
      exact ⟨hbounds, hacyclic⟩
    · exact absurd hload (hthrows depth what)
  · rintro ⟨hbounds, hacyclic⟩
    have hpresent j (hj : Comes model.loadedChildren scene.nodes j) :
        model.loadedChildren j ≠ none := children_of_withinBounds (hbounds j hj)
    obtain ⟨depth, b, hwalk⟩ := hends.mpr ⟨hbounds, hpresent, hacyclic⟩
    refine ⟨depth, .inl ⟨⟨b, model.animations.head?, model⟩, ?_⟩⟩
    rw [fromGltf_of_scene h, hwalk]
    rfl

/-- **Loading ends exactly when the file has no scenes, or is within bounds and no
node is below itself.** -/
theorem fromGltf_ends (K : Type) [Ring K] [GlmScene K] (model : Gltf.Model) :
    LoadingEnds K model ↔ model.scenes = [] ∨ model.WithinBounds ∧ model.Acyclic := by
  by_cases hscenes : model.scenes = []
  · exact iff_of_true ⟨0, .inr ⟨_, fromGltf_of_no_scenes hscenes 0⟩⟩ (.inl hscenes)
  · rw [or_iff_right hscenes, Gltf.Model.WithinBounds, Gltf.Model.Acyclic]
    cases hchosen : model.chosenScene with
    | none =>
      refine iff_of_false (fun ⟨depth, h⟩ => ?_) fun h => ?_
      · rw [fromGltf_of_no_scene hscenes hchosen] at h
        rcases h with ⟨_, h⟩ | ⟨_, h⟩
        · cases h
        · cases h
      · obtain ⟨⟨_, h, _⟩, _⟩ := h
        cases h
    | some scene =>
      rw [loadingEnds_iff hchosen]
      constructor
      · rintro ⟨hbounds, hacyclic⟩
        refine ⟨⟨scene, rfl, hbounds⟩, fun scene' hscene' => ?_⟩
        rwa [← Option.some.inj hscene']
      · rintro ⟨⟨scene', hscene', hbounds⟩, hacyclic⟩
        obtain rfl := Option.some.inj hscene'
        exact ⟨hbounds, hacyclic scene rfl⟩

end File

/-! ### Files that are not loaded -/

/-- A file with a scene, of which it does not say that it is the default one. -/
def noDefaultScene : Gltf.Model where
  scenes := [⟨[]⟩]

theorem not_inBounds : loadGltfFile noDefaultScene = .ok noDefaultScene ∧
    ∀ depth, fromGltf (K := ℚ) noDefaultScene depth = .error .undefinedBehaviour :=
  ⟨rfl, fun _ => rfl⟩

/-- A file whose only node is its own child. -/
def ownChild : Gltf.Model where
  nodes := [{ name := "loop", children := [0] }]
  scenes := [⟨[0]⟩]
  defaultScene := some 0

theorem loadGltfNode_ownChild (depth : ℕ) {parent : Option ℕ} {b : SceneBuilder ℚ}
    (hparent : ParentIn b parent) : loadGltfNode ownChild depth parent 0 b = .error .tooDeep := by
  induction depth generalizing parent b with
  | zero => rfl
  | succ depth ih =>
    rw [loadGltfNode]
    show (b.addGltfNode _ parent >>= _) = _
    rw [addGltfNode_eq b _ hparent]
    show (loadGltfNode ownChild depth (some b.nodes.length) 0 (b.withNode _ parent) >>= _) = _
    rw [ih fun p hp => ?_]
    · rfl
    · rw [length_withNode, ← Option.some.inj hp]
      exact Nat.lt_succ_self _

theorem not_loadingEnds : loadGltfFile ownChild = .ok ownChild ∧
    (∀ j ∈ [0], ownChild.NodeWithinBounds j) ∧
    (∀ depth, fromGltf (K := ℚ) ownChild depth = .error .tooDeep) ∧ ¬ LoadingEnds ℚ ownChild := by
  have hdeep (depth : ℕ) : fromGltf (K := ℚ) ownChild depth = .error .tooDeep := by
    have hempty : ParentIn ({} : SceneBuilder ℚ) none := nofun
    show (loadGltfNode ownChild depth none 0 {} >>= _) >>= _ = _
    rw [loadGltfNode_ownChild depth hempty]
    rfl
  have hbounds : ownChild.NodeWithinBounds 0 := ⟨_, rfl, nofun⟩
  refine ⟨rfl, fun j hj => ?_, hdeep, ?_⟩
  · rwa [List.mem_singleton.mp hj]
  · rintro ⟨depth, ⟨graph, h⟩ | ⟨what, h⟩⟩
    · rw [hdeep] at h
      cases h
    · rw [hdeep] at h
      cases h

end Pathological.RenderWorker
