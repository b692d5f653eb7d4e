import Pathological.RenderWorker.Animation
import Pathological.RenderWorker.Flatten

/-!
# The animated scene

`updateAnimation` moves nodes, and does nothing else: their names, links and meshes stay as
they have been loaded (`SameShape`). So the builder's table is still that of the node tree of
the file, each node with the local transform that the update has left it
(`SceneBuilder.animated`), and this is the tree that is flattened at a time
(`animated_flattens`).
-/

namespace Pathological.RenderWorker

open Framework SceneBuilder

variable {K : Type} [Ring K]

/-- What an update leaves of a node as it is. -/
structure Node.SameShape (n n' : Node K) : Prop where
  name : n'.name = n.name
  parent : n'.parent = n.parent
  children : n'.children = n.children
  mesh : n'.mesh = n.mesh

namespace SceneBuilder

/-- The builder differs in the transforms of the nodes only. -/
structure SameShape (b b' : SceneBuilder K) : Prop where
  length : b'.nodes.length = b.nodes.length
  nodes : ∀ (i : ℕ) (n : Node K), b.nodes[i]? = some n →
    ∃ n', b'.nodes[i]? = some n' ∧ Node.SameShape n n'
  meshes : b'.meshes = b.meshes
  materials : b'.materials = b.materials

/-- The node tree, with the local transforms of the builder. -/
def animated (b : SceneBuilder K) (G : Forest (Content K)) : Forest (Content K) :=
  G.relabel (fun i c => { c with localTransform := b.localTransform i }) 0

end SceneBuilder

variable {b b' b'' : SceneBuilder K} {G : Forest (Content K)}

/-! ### Nodes that keep their shape -/

omit [Ring K] in
theorem Node.SameShape.trans {n n' n'' : Node K} (h : n.SameShape n') (h' : n'.SameShape n'') :
    n.SameShape n'' where
  name := h'.name.trans h.name
  parent := h'.parent.trans h.parent
  children := h'.children.trans h.children
  mesh := h'.mesh.trans h.mesh

namespace SceneBuilder.SameShape

omit [Ring K] in
theorem refl (b : SceneBuilder K) : b.SameShape b where
  length := rfl
  nodes _ n hn := ⟨n, hn, rfl, rfl, rfl, rfl⟩
  meshes := rfl
  materials := rfl

omit [Ring K] in
theorem trans (h : b.SameShape b') (h' : b'.SameShape b'') : b.SameShape b'' where
  length := h'.length.trans h.length
  nodes i n hn := by
    obtain ⟨n', hn', hsame⟩ := h.nodes i n hn
    obtain ⟨n'', hn'', hsame'⟩ := h'.nodes i n' hn'
    exact ⟨n'', hn'', hsame.trans hsame'⟩
  meshes := h'.meshes.trans h.meshes
  materials := h'.materials.trans h.materials

omit [Ring K] in
theorem getElem?_none (h : b.SameShape b') {i : ℕ} (hi : b.nodes[i]? = none) :
    b'.nodes[i]? = none := by
  rw [List.getElem?_eq_none_iff] at hi ⊢
  rw [h.length]
  exact hi

omit [Ring K] in
/-- Where a node stands, one of the same shape stood. -/
theorem exists_before (h : b.SameShape b') {i : ℕ} {n' : Node K} (hn' : b'.nodes[i]? = some n') :
    ∃ n, b.nodes[i]? = some n ∧ n.SameShape n' := by
  cases hn : b.nodes[i]? with
  | none => cases hn'.symm.trans (h.getElem?_none hn)
  | some n =>
    obtain ⟨n'', hn'', hsame⟩ := h.nodes i n hn
    obtain rfl := Option.some.inj (hn'.symm.trans hn'')
    exact ⟨n, rfl, hsame⟩

omit [Ring K] in
theorem meshOf_eq (h : b.SameShape b') (i : ℕ) : b'.meshOf i = b.meshOf i := by
  unfold meshOf
  cases hn : b.nodes[i]? with
  | none => rw [h.getElem?_none hn, Option.bind_none, Option.bind_none]
  | some n =>
    obtain ⟨n', hn', hsame⟩ := h.nodes i n hn
    rw [hn', Option.bind_some, Option.bind_some, hsame.mesh, h.meshes]

omit [Ring K] in
theorem verticesOf_eq (h : b.SameShape b') (i : ℕ) : b'.verticesOf i = b.verticesOf i := by
  unfold verticesOf
  rw [h.meshOf_eq]

omit [Ring K] in
theorem indicesOf_eq (h : b.SameShape b') (i : ℕ) : b'.indicesOf i = b.indicesOf i := by
  unfold indicesOf
  rw [h.meshOf_eq]

omit [Ring K] in
theorem valid (h : b.SameShape b') (hvalid : b.Valid) : b'.Valid where
  mesh n' hn' m hm := by
    obtain ⟨i, hi⟩ := List.mem_iff_getElem?.mp hn'
    obtain ⟨n, hn, hsame⟩ := h.exists_before hi
    rw [h.meshes]
    exact hvalid.mesh n (List.mem_of_getElem? hn) m (hsame.mesh ▸ hm)
  material := by
    rw [h.meshes, h.materials]
    exact hvalid.material

omit [Ring K] in
theorem wellIndexed (h : b.SameShape b') (hwell : b.WellIndexed) : b'.WellIndexed where
  inRange i hi := by
    rw [h.indicesOf_eq, h.verticesOf_eq]
    exact hwell.inRange i (h.length ▸ hi)
  dvd i hi := by
    rw [h.indicesOf_eq]
    exact hwell.dvd i (h.length ▸ hi)
  total := by
    have hbase : b'.baseVertex b.nodes.length = b.baseVertex b.nodes.length := by
      unfold baseVertex
      simp only [h.verticesOf_eq]
    rw [h.length, hbase]
    exact hwell.total

omit [Ring K] in
theorem fewTriangles (h : b.SameShape b') (hfew : b.FewTriangles) : b'.FewTriangles := by
  intro i hi
  rw [h.indicesOf_eq]
  exact hfew i (h.length ▸ hi)

/-- The table is that of the same node tree, with other transforms. -/
theorem table (h : b.SameShape b') (htable : b.table = G.number none 0) :
    b'.table = (b'.animated G).number none 0 := by
  rw [animated, Forest.number_relabel, ← htable]
  refine List.ext_getElem? fun i => ?_
  rw [List.getElem?_mapIdx, getElem?_table, getElem?_table, Nat.zero_add]
  cases hn : b.nodes[i]? with
  | none => rw [h.getElem?_none hn]; rfl
  | some n =>
    obtain ⟨n', hn', hsame⟩ := h.nodes i n hn
    have hlocal : b'.localTransform i = n'.localTransform := by
      rw [localTransform, hn']
      rfl
    have hcontent : b'.meshContent = b.meshContent := by
      funext m
      rw [meshContent, meshContent, h.meshes, h.materials]
    rw [hn', Option.map_some, Option.map_some, Option.map_some, entry, entry, hlocal, hsame.name,
      hsame.parent, hsame.children, hsame.mesh, hcontent]

end SceneBuilder.SameShape

/-! ### Updates -/

section Update

variable [GlmScene K]

/-- A setter writes to the transform of one node. -/
theorem SetterCall.perform_sameShape (call : SetterCall K) (b : SceneBuilder K) :
    b.SameShape (call.perform b) where
  length := length_nodes_perform call b
  nodes i n hn := by
    refine ⟨if call.node = i then call.component.store n else n, ?_, ?_⟩
    · rw [SetterCall.perform, List.getElem?_modify, hn]
      split <;> rfl
    · split
      · cases call.component with
        | translation | rotation | scale => exact ⟨rfl, rfl, rfl, rfl⟩
      · exact ⟨rfl, rfl, rfl, rfl⟩
  meshes := rfl
  materials := rfl

/-- **An update moves nodes, and does nothing else.** -/
theorem updateAnimation_sameShape {graph graph' : SceneGraph K} {time : K}
    (h : graph.updateAnimation time = .ok graph') : graph.builder.SameShape graph'.builder := by
  obtain ⟨b, animation, model⟩ := graph
  cases animation with
  | none =>
    obtain rfl := Except.ok.inj h
    exact .refl _
  | some anim =>
    obtain ⟨b', hrun, h⟩ := except_bind_eq_ok.mp h
    obtain rfl := Except.ok.inj h
    refine foldlM_invariant (P := b.SameShape) (fun channel _ b₁ b₂ hb₁ hstep => ?_) (.refl b) hrun
    rcases applyChannel_eq_ok.mp hstep with ⟨-, rfl⟩ | ⟨call, -, -, rfl⟩
    · exact hb₁
    · exact hb₁.trans (call.perform_sameShape b₁)

/-- **Flattening at a time means the animated scene.** -/
theorem animated_flattens {model : Gltf.Model} {scene : Gltf.Scene} {F : Forest ℕ}
    {depth depth' : ℕ} {graph graph' : SceneGraph K} {time : K}
    (hscene : model.chosenScene = some scene) (hforest : Unfolds model.children scene.nodes F)
    (hrange : model.InRange scene.nodes) (hdepth : F.size ≤ depth)
    (hload : fromGltf model depth = .ok graph) (htime : graph.updateAnimation time = .ok graph')
    (hwell : graph.builder.WellIndexed) (hfew : graph.builder.FewTriangles)
    (hdepth' : graph.builder.nodes.length ≤ depth') :
    FlattenLaw graph'.builder
      (graph'.builder.animated ((F.prune model.nonTriangle).map model.content)) depth' := by
  obtain ⟨b, hb, hvalid, htable⟩ := fromGltf_table (K := K) hscene hforest hrange hdepth
  obtain rfl := Except.ok.inj (hb.symm.trans hload)
  have hshape := updateAnimation_sameShape htime
  exact flattenLaw_of_table (hshape.valid hvalid) (hshape.table htable) (hshape.wellIndexed hwell)
    (hshape.fewTriangles hfew) (hshape.length.le.trans hdepth')

end Update

end Pathological.RenderWorker
