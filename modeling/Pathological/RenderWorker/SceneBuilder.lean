import Pathological.Framework.DepthFirst
import Pathological.RenderWorker.Gltf

/-!
# The scene builder

`scene_builder.cpp`: the node table, loading a glTF node with its subtree, and
flattening.

`loadGltfNode` and `traverseAndFlatten` recurse without a bound in the source;
here the depth is bounded by their first argument, and the fault is `tooDeep`.
Both are depth-first walks (`loadGltfNode_eq_walk`, `traverseAndFlatten_eq_walk`).
Node, mesh and material ids are natural numbers: a model has fewer than `2 ^ 31`
nodes, the indices of the format being `int`s. Vertex indices are `UInt32`.
-/

namespace Pathological.RenderWorker

open Framework

/-- `Vertex`, without its padding. -/
structure Vertex (K : Type) where
  position : Vec3 K
  deriving DecidableEq, Repr

/-- `SceneBuilder::Node`. -/
structure Node (K : Type) where
  name : String
  localTransform : Mat4 K
  parent : Option ℕ
  children : List ℕ
  mesh : Option ℕ
  translation : Vec3 K
  rotation : Quat K
  scale : Vec3 K

/-- `SceneBuilder::MeshData`. -/
structure MeshData (K : Type) where
  vertices : List (Vertex K)
  indices : List UInt32
  materialId : ℕ

/-- `SceneBuilder`. -/
structure SceneBuilder (K : Type) where
  nodes : List (Node K) := []
  meshes : List (MeshData K) := []
  materials : List (Material K) := []

/-- The output of `traverseAndFlatten`, with the nodes visited so far. -/
structure Flat (K : Type) where
  visited : List ℕ := []
  vertices : List (Vertex K) := []
  indices : List UInt32 := []
  materialIndices : List ℕ := []

section Flat

variable {K : Type} [Ring K]

/-- A vertex in world space. -/
def Vertex.transform (worldTransform : Mat4 K) (v : Vertex K) : Vertex K :=
  let worldPos := worldTransform.mulVec ![v.position.x, v.position.y, v.position.z, 1]
  ⟨⟨worldPos 0, worldPos 1, worldPos 2⟩⟩

/-- The mesh of a node is appended. -/
def Flat.append (out : Flat K) (worldTransform : Mat4 K) (mesh : MeshData K) : Flat K :=
  -- both are a `uint32_t` in the source, so they wrap around
  let baseVertex := UInt32.ofNat out.vertices.length
  let triangleCount := UInt32.ofNat (mesh.indices.length / 3)
  { out with
    vertices := out.vertices ++ mesh.vertices.map (Vertex.transform worldTransform)
    indices := out.indices ++ mesh.indices.map fun idx => baseVertex + idx
    materialIndices := out.materialIndices ++
      List.replicate triangleCount.toNat mesh.materialId }

end Flat

namespace SceneBuilder

variable {K : Type} [Ring K]

section Loading

variable [GlmScene K]

/-! ### Construction -/

/-- The node `createNode` makes. -/
def newNode (name : String) : Node K where
  name := name
  localTransform := 1
  parent := none
  children := []
  mesh := none
  translation := ⟨0, 0, 0⟩
  rotation := ⟨1, 0, 0, 0⟩
  scale := ⟨1, 1, 1⟩

/-- `createNode`. -/
def createNode (b : SceneBuilder K) (name : String) : ℕ × SceneBuilder K :=
  (b.nodes.length, { b with nodes := b.nodes ++ [newNode name] })

/-- The error of a setter that gets an invalid node id. -/
def invalidNodeId (what : String) : Fault := .runtimeError ("Invalid node ID in " ++ what)

/-- What the setters of a node do. -/
def setNode (what : String) (b : SceneBuilder K) (node : ℕ) (f : Node K → Node K) :
    Except Fault (SceneBuilder K) :=
  if node ≥ b.nodes.length then .error (invalidNodeId what)
  else .ok { b with nodes := b.nodes.modify node f }

/-- `setParent`. -/
def setParent (b : SceneBuilder K) (child parent : ℕ) : Except Fault (SceneBuilder K) :=
  if child ≥ b.nodes.length ∨ parent ≥ b.nodes.length then .error (invalidNodeId "setParent")
  else .ok { b with
    nodes := (b.nodes.modify child fun n => { n with parent := some parent }).modify parent
      fun n => { n with children := n.children ++ [child] } }

/-- `setLocalTransform`. -/
def setLocalTransform (b : SceneBuilder K) (node : ℕ) (transform : Mat4 K) :
    Except Fault (SceneBuilder K) :=
  b.setNode "setLocalTransform" node fun n => { n with localTransform := transform }

/-- `setMesh`. -/
def setMesh (b : SceneBuilder K) (node mesh : ℕ) : Except Fault (SceneBuilder K) :=
  b.setNode "setMesh" node fun n => { n with mesh := some mesh }

/-- `createMesh`. -/
def createMesh (b : SceneBuilder K) (vertices : List (Vertex K)) (indices : List UInt32)
    (material : ℕ) : ℕ × SceneBuilder K :=
  (b.meshes.length, { b with meshes := b.meshes ++ [⟨vertices, indices, material⟩] })

/-- `createMaterial`. -/
def createMaterial (b : SceneBuilder K) (mat : Material K) : ℕ × SceneBuilder K :=
  (b.materials.length, { b with materials := b.materials ++ [mat] })

/-! ### Transform updates -/

/-- `T * R * S`. -/
def composeTRS (translation : Vec3 K) (rotation : Quat K) (scale : Vec3 K) : Mat4 K :=
  GlmScene.translate translation * GlmScene.mat4Cast rotation * GlmScene.scale scale

/-- `updateNodeTransform`, on the node itself. -/
def updateNodeTransform (n : Node K) : Node K :=
  { n with localTransform := composeTRS n.translation n.rotation n.scale }

/-- `setNodeTranslation`. -/
def setNodeTranslation (b : SceneBuilder K) (node : ℕ) (translation : Vec3 K) :
    Except Fault (SceneBuilder K) :=
  b.setNode "setNodeTranslation" node fun n =>
    updateNodeTransform { n with translation := translation }

/-- `setNodeRotation`. -/
def setNodeRotation (b : SceneBuilder K) (node : ℕ) (rotation : Quat K) :
    Except Fault (SceneBuilder K) :=
  b.setNode "setNodeRotation" node fun n => updateNodeTransform { n with rotation := rotation }

/-- `setNodeScale`. -/
def setNodeScale (b : SceneBuilder K) (node : ℕ) (scale : Vec3 K) :
    Except Fault (SceneBuilder K) :=
  b.setNode "setNodeScale" node fun n => updateNodeTransform { n with scale := scale }

/-- `getRootNodes`. -/
def getRootNodes (b : SceneBuilder K) : List ℕ :=
  (List.range b.nodes.length).filter fun i => (b.nodes[i]?).any fun n => n.parent.isNone

/-! ### Loading -/

/-- `convertGltfMaterial`. -/
def convertGltfMaterial (gltfMat : Gltf.Material) : Except Fault (Material K) :=
  match gltfMat.baseColorFactor, gltfMat.emissiveFactor with
  | r :: g :: b :: _, r' :: g' :: b' :: _ => .ok {
      albedo := ⟨GlmScene.ofRat r, GlmScene.ofRat g, GlmScene.ofRat b⟩
      emission := ⟨GlmScene.ofRat r', GlmScene.ofRat g', GlmScene.ofRat b'⟩ }
  | _, _ => .error .undefinedBehaviour

/-- The default material, white diffuse. -/
def defaultMaterial : Material K where
  albedo := ⟨GlmScene.ofRat (4 / 5), GlmScene.ofRat (4 / 5), GlmScene.ofRat (4 / 5)⟩
  emission := ⟨0, 0, 0⟩

/-- `getGltfNodeTransform`. -/
def getGltfNodeTransform (gltfNode : Gltf.Node) : Mat4 K :=
  if gltfNode.matrix.length = 16 then
    -- glm stores a matrix column by column
    Matrix.of fun row col => GlmScene.ofRat (gltfNode.matrix.getD (4 * col.val + row.val) 0)
  else
    let translation : Vec3 K := match gltfNode.translation with
      | [x, y, z] => ⟨GlmScene.ofRat x, GlmScene.ofRat y, GlmScene.ofRat z⟩
      | _ => ⟨0, 0, 0⟩
    -- glTF has the real part last
    let rotation : Quat K := match gltfNode.rotation with
      | [x, y, z, w] => ⟨GlmScene.ofRat w, GlmScene.ofRat x, GlmScene.ofRat y, GlmScene.ofRat z⟩
      | _ => ⟨1, 0, 0, 0⟩
    let scale : Vec3 K := match gltfNode.scale with
      | [x, y, z] => ⟨GlmScene.ofRat x, GlmScene.ofRat y, GlmScene.ofRat z⟩
      | _ => ⟨1, 1, 1⟩
    composeTRS translation rotation scale

/-- The vertices of a primitive. -/
def extractVertices (model : Gltf.Model) (primitive : Gltf.Primitive) :
    Except Fault (List (Vertex K)) :=
  match primitive.attributes.lookup "POSITION" with
  | none => .ok []
  | some a => do
    let accessor ← elem model.accessors a
    let positions ← model.pointer accessor
    (List.range accessor.count).mapM fun i => (vec3At positions i).map Vertex.mk

/-- The indices of a primitive. Those of another component type stay 0. -/
def extractIndices (model : Gltf.Model) (primitive : Gltf.Primitive) :
    Except Fault (List UInt32) :=
  match primitive.indices with
  | none => .ok []
  | some a => do
    let accessor ← elem model.accessors a
    match accessor.componentType.indexSize with
    | some size => do
      let idx ← model.pointer accessor
      (List.range accessor.count).mapM fun i => uintAt size idx i
    -- resized, but none of the branches fills them in
    | none => do
      let _ ← model.bufferOf accessor
      pure (List.replicate accessor.count 0)

/-- The material of a primitive. -/
def extractMaterial (model : Gltf.Model) (primitive : Gltf.Primitive) :
    Except Fault (Material K) :=
  match primitive.material with
  | some m => do convertGltfMaterial (← elem model.materials m)
  | none => .ok defaultMaterial

/-- What `loadGltfNode` does about a primitive. It returns early at `none`, where
the primitive is no triangle list. -/
def loadGltfPrimitive (model : Gltf.Model) (primitive : Gltf.Primitive) (nodeId : ℕ)
    (b : SceneBuilder K) : Except Fault (Option (SceneBuilder K)) :=
  if primitive.mode ≠ .triangles then .ok none
  else do
    let vertices ← extractVertices model primitive
    let indices ← extractIndices model primitive
    let mat ← extractMaterial model primitive
    let (matId, b) := b.createMaterial mat
    let (meshId, b) := b.createMesh vertices indices matId
    let b ← b.setMesh nodeId meshId
    pure (some b)

/-- What `loadGltfNode` does about the mesh of the node, whose first primitive it
handles. -/
def loadGltfMesh (model : Gltf.Model) (gltfNode : Gltf.Node) (nodeId : ℕ) (b : SceneBuilder K) :
    Except Fault (Option (SceneBuilder K)) :=
  match gltfNode.mesh with
  | none => .ok (some b)
  | some m => do
    let gltfMesh ← elem model.meshes m
    -- the other primitives are not looked at
    match gltfMesh.primitives with
    | [] => pure (some b)
    | primitive :: _ => loadGltfPrimitive model primitive nodeId b

/-- `loadGltfNode` up to the mesh: the node, its transform and its parent. -/
def addGltfNode (b : SceneBuilder K) (gltfNode : Gltf.Node) (parent : Option ℕ) :
    Except Fault (ℕ × SceneBuilder K) := do
  let (nodeId, b) := b.createNode gltfNode.name
  let b ← b.setLocalTransform nodeId (getGltfNodeTransform gltfNode)
  let b ← match parent with
    | some p => b.setParent nodeId p
    | none => pure b
  pure (nodeId, b)

/-- `loadGltfNode`. -/
def loadGltfNode (model : Gltf.Model) :
    ℕ → Option ℕ → ℕ → SceneBuilder K → Except Fault (SceneBuilder K)
  | 0, _, _, _ => .error .tooDeep
  | depth + 1, parent, nodeIdx, b => do
    let gltfNode ← elem model.nodes nodeIdx
    let (nodeId, b) ← b.addGltfNode gltfNode parent
    match ← loadGltfMesh model gltfNode nodeId b with
    -- the `return` is before the loop over the children
    | none => pure b
    | some b =>
      gltfNode.children.foldlM
        (fun b childIdx => loadGltfNode model depth (some nodeId) childIdx b) b

/-- A visit of the walk that `loadGltfNode` is. Nothing is loaded below a node
where it returns early. -/
def visitGltfNode (model : Gltf.Model) (parent : Option ℕ) (nodeIdx : ℕ) (b : SceneBuilder K) :
    Except Fault (SceneBuilder K × Option ℕ × List ℕ) := do
  let gltfNode ← elem model.nodes nodeIdx
  let (nodeId, b) ← b.addGltfNode gltfNode parent
  match ← loadGltfMesh model gltfNode nodeId b with
  | none => pure (b, some nodeId, [])
  | some b => pure (b, some nodeId, gltfNode.children)

theorem loadGltfNode_eq_walk (model : Gltf.Model) (depth : ℕ) (parent : Option ℕ) (nodeIdx : ℕ)
    (b : SceneBuilder K) :
    loadGltfNode model depth parent nodeIdx b =
      walk .tooDeep (visitGltfNode model) depth parent nodeIdx b := by
  induction depth generalizing parent nodeIdx b with
  | zero => rfl
  | succ depth ih =>
    rw [loadGltfNode, walk, visitGltfNode]
    simp only [bind_assoc]
    refine bind_congr fun gltfNode => bind_congr fun r => bind_congr fun o => ?_
    cases o with
    | none => rfl
    | some b =>
      show _ = gltfNode.children.foldlM _ b
      simp only [ih]

end Loading

/-! ### Flattening -/

/-- What `traverseAndFlatten` does about the mesh of the node. -/
def flattenMesh (b : SceneBuilder K) (worldTransform : Mat4 K) (node : Node K) (out : Flat K) :
    Except Fault (Flat K) :=
  match node.mesh with
  | some m => do
    let mesh ← elem b.meshes m
    pure (out.append worldTransform mesh)
  | none => .ok out

/-- `traverseAndFlatten`. -/
def traverseAndFlatten (b : SceneBuilder K) :
    ℕ → Mat4 K → ℕ → Flat K → Except Fault (Flat K)
  | 0, _, _, _ => .error .tooDeep
  | depth + 1, parentTransform, nodeId, out => do
    let node ← elem b.nodes nodeId
    let worldTransform := parentTransform * node.localTransform
    let out := { out with visited := out.visited ++ [nodeId] }
    let out ← b.flattenMesh worldTransform node out
    node.children.foldlM
      (fun out child => traverseAndFlatten b depth worldTransform child out) out

/-- A visit of the walk that `traverseAndFlatten` is. -/
def visitNode (b : SceneBuilder K) (parentTransform : Mat4 K) (nodeId : ℕ) (out : Flat K) :
    Except Fault (Flat K × Mat4 K × List ℕ) := do
  let node ← elem b.nodes nodeId
  let worldTransform := parentTransform * node.localTransform
  let out := { out with visited := out.visited ++ [nodeId] }
  let out ← b.flattenMesh worldTransform node out
  pure (out, worldTransform, node.children)

theorem traverseAndFlatten_eq_walk (b : SceneBuilder K) (depth : ℕ) (parentTransform : Mat4 K)
    (nodeId : ℕ) (out : Flat K) :
    b.traverseAndFlatten depth parentTransform nodeId out =
      walk .tooDeep b.visitNode depth parentTransform nodeId out := by
  induction depth generalizing parentTransform nodeId out with
  | zero => rfl
  | succ depth ih =>
    rw [traverseAndFlatten, walk, visitNode]
    simp only [bind_assoc]
    exact bind_congr fun node => bind_congr fun out => by simp only [pure_bind, ih]

/-- `flattenToScene`: the buffers the scene is made of, besides the materials. -/
def flattenToScene (b : SceneBuilder K) (depth : ℕ) : Except Fault (Flat K) := do
  let out ← b.getRootNodes.foldlM (fun out rootId => b.traverseAndFlatten depth 1 rootId out) {}
  if out.vertices.isEmpty then .error (.runtimeError "Scene has no geometry") else pure out

end SceneBuilder

end Pathological.RenderWorker
