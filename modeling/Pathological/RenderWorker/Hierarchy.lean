import Mathlib.Data.Set.Card
import Pathological.RenderWorker.LoadedScene

/-!
# The hierarchy of a loaded scene

The warning of `loadGltfNode` says that a primitive is skipped, but the node's
children are skipped with it. So the builder keeps the hierarchy of a forest of
glTF nodes exactly when no reachable node with children has a mesh whose first
primitive is no triangle list (`hierarchy_kept`): where one does, the builder has
fewer nodes than are reachable.
-/

namespace Pathological.RenderWorker

open Framework SceneBuilder

variable {K : Type} [Ring K] [GlmScene K]

/-- The nodes reachable from the scene form the finite forest `F`. -/
structure Gltf.Model.IsForest (model : Gltf.Model) (scene : Gltf.Scene) (F : Forest ℕ) : Prop where
  unfolds : Unfolds model.children scene.nodes F
  nodup : F.preorder.Nodup

/-- The node with index `j` is reachable from the scene. -/
def Gltf.Model.Reachable (model : Gltf.Model) (scene : Gltf.Scene) (j : ℕ) : Prop :=
  ReachableFrom model.children scene.nodes j

/-- The builder's nodes are the reachable nodes of the model: `node j` is the
builder node of the node with index `j`. -/
structure KeepsHierarchy (model : Gltf.Model) (scene : Gltf.Scene) (b : SceneBuilder K)
    (node : ℕ → ℕ) : Prop where
  bijOn : Set.BijOn node {j | model.Reachable scene j} {i | i < b.nodes.length}
  root : ∀ j ∈ scene.nodes, ∃ n, b.nodes[node j]? = some n ∧ n.parent = none
  node : ∀ j, model.Reachable scene j → ∃ gltfNode n, model.nodes[j]? = some gltfNode ∧
    b.nodes[node j]? = some n ∧ n.name = gltfNode.name ∧
    n.localTransform = getGltfNodeTransform gltfNode ∧
    n.children = gltfNode.children.map node ∧
    ∀ c ∈ gltfNode.children, ∃ n', b.nodes[node c]? = some n' ∧ n'.parent = some (node j)

section Forest

variable {model : Gltf.Model} {scene : Gltf.Scene} {F : Forest ℕ} {b : SceneBuilder K}

theorem Gltf.Model.IsForest.setOf_reachable (h : model.IsForest scene F) :
    {j | model.Reachable scene j} = {j | j ∈ F.preorder} :=
  Set.ext fun _ => h.unfolds.mem_preorder_iff.symm

/-- There are as many reachable nodes as the forest has. -/
theorem Gltf.Model.IsForest.ncard_reachable (h : model.IsForest scene F) :
    {j | model.Reachable scene j}.ncard = F.size := by
  have hset : {j | j ∈ F.preorder} = (F.preorder.toFinset : Set ℕ) := by
    ext j
    simp
  rw [h.setOf_reachable, hset, Set.ncard_coe_finset, List.toFinset_card_of_nodup h.nodup,
    Forest.length_preorder]

/-- When the hierarchy is kept, every reachable node has been loaded. -/
theorem KeepsHierarchy.size_eq {node : ℕ → ℕ} (h : KeepsHierarchy model scene b node)
    (hforest : model.IsForest scene F) : b.nodes.length = F.size := by
  have hrange : {i | i < b.nodes.length} = (Finset.range b.nodes.length : Set ℕ) := by
    ext i
    simp
  have hcard := h.bijOn.ncard_eq
  rw [hforest.ncard_reachable, hrange, Set.ncard_coe_finset, Finset.card_range] at hcard
  exact hcard.symm

/-- A builder whose table is that of the whole forest keeps the hierarchy: a
node's number is its place in the preorder. -/
theorem keepsHierarchy_of_table (hforest : model.IsForest scene F)
    (htable : b.table = (F.map model.content).number none 0) :
    KeepsHierarchy model scene b fun j => F.preorder.idxOf j := by
  have hnum := Forest.map_idxOf hforest.nodup
  have hprefix : F.number none 0 <+: (F.number none 0).drop 0 := List.prefix_refl _
  have hlength : b.nodes.length = F.size := by
    rw [← length_table, htable, Forest.length_number, Forest.size_map]
  -- an entry of the forest's table is the entry of a node of the builder
  have hnode {i : ℕ} {e : Entry ℕ} (he : (F.number none 0)[i]? = some e) : ∃ n,
      b.nodes[i]? = some n ∧ b.entry n = ⟨model.content e.label, e.parent, e.children⟩ := by
    have hentry := getElem?_table b i
    rw [htable, Forest.number_map, List.getElem?_map, he] at hentry
    obtain ⟨n, hn, heq⟩ := Option.map_eq_some_iff.mp hentry.symm
    exact ⟨n, hn, heq⟩
  refine ⟨?_, fun j hj => ?_, fun j hj => ?_⟩
  · rw [hforest.setOf_reachable, hlength, ← Forest.length_preorder]
    refine ⟨fun j hj => List.idxOf_lt_length_of_mem hj,
      fun j hj j' _ heq => (List.idxOf_inj hj).mp heq, fun i (hi : i < F.preorder.length) => ?_⟩
    exact ⟨F.preorder[i], List.getElem_mem hi, hforest.nodup.idxOf_getElem i hi⟩
  · obtain ⟨e, he, hparent⟩ := hforest.unfolds.root_entry hnum hprefix hj
    obtain ⟨n, hn, hentry⟩ := hnode he
    exact ⟨n, hn, (congrArg Entry.parent hentry).trans hparent⟩
  · have hmem : j ∈ F.preorder := hforest.unfolds.mem_preorder_iff.mpr hj
    obtain ⟨e, l, he, hlabel, hl, hchildren, hlinks⟩ :=
      hforest.unfolds.entry hnum hprefix hmem
    obtain ⟨gltfNode, hgltf, rfl⟩ := Option.map_eq_some_iff.mp hl
    obtain ⟨n, hn, hentry⟩ := hnode he
    have hcontent : (model.content j : Content K) = gltfNode.content model := by
      rw [Gltf.Model.content, hgltf]
      rfl
    rw [hlabel, hcontent] at hentry
    refine ⟨gltfNode, n, hgltf, hn, congrArg (fun e => e.label.name) hentry,
      congrArg (fun e => e.label.localTransform) hentry,
      (congrArg Entry.children hentry).trans hchildren, fun c hc => ?_⟩
    obtain ⟨e', he', hparent⟩ := hlinks c hc
    obtain ⟨n', hn', hentry'⟩ := hnode he'
    exact ⟨n', hn', (congrArg Entry.parent hentry').trans hparent⟩

/-- **The loader keeps the hierarchy exactly when no reachable node with children
has a mesh whose first primitive is no triangle list.** -/
theorem hierarchy_kept {depth : ℕ} (hscene : model.chosenScene = some scene)
    (hforest : model.IsForest scene F) (hrange : model.InRange scene.nodes)
    (hdepth : F.size ≤ depth) :
    ∃ b : SceneBuilder K, fromGltf model depth = .ok ⟨b, model.animations.head?, model⟩ ∧
      ((∃ node, KeepsHierarchy model scene b node) ↔
        ∀ j, model.Reachable scene j → model.nonTriangle j = true →
          model.children j = some []) := by
  obtain ⟨b, hload, -, htable⟩ :=
    fromGltf_table (K := K) hscene hforest.unfolds hrange hdepth
  refine ⟨b, hload, fun ⟨node, hkept⟩ j hj => ?_, fun hleaves => ?_⟩
  · have hsize : (F.prune model.nonTriangle).size = F.size := by
      rw [← hkept.size_eq hforest, ← length_table, htable, Forest.length_number, Forest.size_map]
    exact hforest.unfolds.childless_of_size hsize j (hforest.unfolds.mem_preorder_iff.mpr hj)
  · have hpruned : F.prune model.nonTriangle = F := hforest.unfolds.prune_eq_self fun j hj =>
      hleaves j (hforest.unfolds.mem_preorder_iff.mp hj)
    exact ⟨_, keepsHierarchy_of_table hforest (hpruned ▸ htable)⟩

end Forest

/-- A node and its child, meshes being the line between two points. -/
def lineModel (parent child : Gltf.Node) : Gltf.Model where
  nodes := [parent, child]
  meshes := [⟨[{ attributes := [("POSITION", 0)], mode := .line }]⟩]
  accessors := [{ bufferView := some 0, componentType := .float, count := 2 }]
  bufferViews := [{ buffer := 0 }]
  buffers := [⟨List.replicate 24 0⟩]
  scenes := [⟨[0]⟩]
  defaultScene := some 0

theorem lineModel_isForest {parent child : Gltf.Node} (hparent : parent.children = [1])
    (hchild : child.children = []) :
    (lineModel parent child).IsForest ⟨[0]⟩ (.cons 0 (.cons 1 .nil .nil) .nil) where
  unfolds := .cons (congrArg some hparent) (.cons (congrArg some hchild) .nil .nil) .nil
  nodup := by decide

/-- The line is not followed any further. -/
theorem lineModel_inRange {parent child : Gltf.Node}
    (hparent : parent.mesh = none ∨ parent.mesh = some 0)
    (hchild : child.mesh = none ∨ child.mesh = some 0) (roots : List ℕ) :
    (lineModel parent child).InRange roots := by
  intro j _ gltfNode hj m hm
  have hmesh : gltfNode.mesh = none ∨ gltfNode.mesh = some 0 := by
    match j, hj with
    | 0, hj => exact Option.some.inj hj ▸ hparent
    | 1, hj => exact Option.some.inj hj ▸ hchild
  rw [hm, Option.some.injEq] at hmesh
  obtain rfl := hmesh.resolve_left nofun
  refine ⟨_, rfl, fun primitive hfirst hmode => ?_⟩
  rw [← Option.some.inj hfirst] at hmode
  cases hmode

/-- The line is below the other node. -/
def lineBelow : Gltf.Model :=
  lineModel { name := "group", children := [1] } { name := "line", mesh := some 0 }

theorem hierarchy_kept_lineBelow :
    ∃ b : SceneBuilder ℚ, fromGltf lineBelow 2 = .ok ⟨b, none, lineBelow⟩ ∧
      ∃ node, KeepsHierarchy lineBelow ⟨[0]⟩ b node := by
  have hrange : lineBelow.InRange [0] :=
    lineModel_inRange (.inl rfl) (.inr rfl) [0]
  have hscene : lineBelow.chosenScene = some ⟨[0]⟩ := rfl
  obtain ⟨b, hload, hiff⟩ :=
    hierarchy_kept (K := ℚ) hscene (lineModel_isForest rfl rfl) hrange (le_refl 2)
  refine ⟨b, hload, hiff.mpr fun j _ hkind => ?_⟩
  match j, hkind with
  | 1, _ => rfl

/-- The line is above the other node. -/
def lineAbove : Gltf.Model :=
  lineModel { name := "line", mesh := some 0, children := [1] } { name := "child" }

theorem not_hierarchyKept : lineAbove.chosenScene = some ⟨[0]⟩ ∧
    lineAbove.IsForest ⟨[0]⟩ (.cons 0 (.cons 1 .nil .nil) .nil) ∧ lineAbove.InRange [0] ∧
    ∃ b : SceneBuilder ℚ, fromGltf lineAbove 2 = .ok ⟨b, none, lineAbove⟩ ∧
      ¬ ∃ node, KeepsHierarchy lineAbove ⟨[0]⟩ b node := by
  have hforest : lineAbove.IsForest ⟨[0]⟩ (.cons 0 (.cons 1 .nil .nil) .nil) :=
    lineModel_isForest rfl rfl
  refine ⟨rfl, hforest, lineModel_inRange (.inr rfl) (.inl rfl) [0], _, rfl,
    fun ⟨node, hkept⟩ => ?_⟩
  exact absurd (hkept.size_eq hforest) (by decide)

end Pathological.RenderWorker
