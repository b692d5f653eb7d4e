import Pathological.RenderWorker.SceneBuilder

/-!
# The scene graph

`scene_graph.cpp`: a builder loaded from the chosen scene of a glTF model, and
the animation that moves its nodes. The model is taken as parsed.

What a channel of the animation does is a call of one of the builder's setters
(`channelCall`).
-/

namespace Pathological.RenderWorker

open Framework

variable {K : Type} [Ring K] [GlmScene K]

/-- `SceneGraph`. -/
structure SceneGraph (K : Type) where
  builder : SceneBuilder K
  animation : Option Gltf.Animation
  model : Gltf.Model

/-! ### `fromGltf` -/

/-- `loadGltfFile`, on the parsed model. -/
def loadGltfFile (model : Gltf.Model) : Except Fault Gltf.Model :=
  if model.scenes.isEmpty then .error (.runtimeError "glTF file has no scenes") else .ok model

/-- `fromGltf`. -/
def fromGltf (model : Gltf.Model) (depth : ℕ) : Except Fault (SceneGraph K) := do
  let model ← loadGltfFile model
  let scene ← elemOpt model.scenes model.defaultScene
  let builder ← scene.nodes.foldlM
    (fun b nodeIdx => SceneBuilder.loadGltfNode model depth none nodeIdx b) {}
  pure ⟨builder, model.animations.head?, model⟩

/-! ### Sampling -/

/-- The loop over the keyframes: the value between the first two that `time` is
between. -/
def sampleBetween {V : Type} (times : List UInt8) (value : ℕ → Except Fault V)
    (interpolate : V → V → K → V) (default : V) (time : K) : List ℕ → Except Fault V
  | [] => .ok default
  | i :: is => do
    let t0 ← floatAt times i
    let t1 ← floatAt times (i + 1)
    if GlmScene.le t0 time && GlmScene.le time t1 then
      let alpha := GlmScene.div (time - t0) (t1 - t0)
      let v0 ← value i
      let v1 ← value (i + 1)
      pure (interpolate v0 v1 alpha)
    else sampleBetween times value interpolate default time is

/-- What `sampleVec3Channel` and `sampleQuatChannel` share. -/
def sampleChannel {V : Type} (model : Gltf.Model) (anim : Gltf.Animation) (samplerIdx : ℕ)
    (valueAt : List UInt8 → ℕ → Except Fault V) (interpolate : V → V → K → V) (default : V)
    (time : K) : Except Fault V := do
  let sampler ← elem anim.samplers samplerIdx
  let inputAccessor ← elem model.accessors sampler.input
  let times ← model.pointer inputAccessor
  let outputAccessor ← elem model.accessors sampler.output
  let values ← model.pointer outputAccessor
  let count := inputAccessor.count
  if count = 0 then pure default
  else
    let first ← floatAt times 0
    -- before the first keyframe, the first value
    if GlmScene.le time first then valueAt values 0
    else
      let last ← floatAt times (count - 1)
      -- after the last one, the last value
      if GlmScene.le last time then valueAt values (count - 1)
      else sampleBetween times (valueAt values) interpolate default time (List.range (count - 1))

/-- `sampleVec3Channel`. -/
def sampleVec3Channel (model : Gltf.Model) (anim : Gltf.Animation) (samplerIdx : ℕ) (time : K) :
    Except Fault (Vec3 K) :=
  sampleChannel model anim samplerIdx vec3At GlmScene.mix ⟨0, 0, 0⟩ time

/-- `sampleQuatChannel`. -/
def sampleQuatChannel (model : Gltf.Model) (anim : Gltf.Animation) (samplerIdx : ℕ) (time : K) :
    Except Fault (Quat K) :=
  sampleChannel model anim samplerIdx quatAt GlmScene.slerp ⟨1, 0, 0, 0⟩ time

/-! ### `updateAnimation` -/

/-- What a setter stores. -/
inductive Component (K : Type)
  | translation (value : Vec3 K)
  | rotation (value : Quat K)
  | scale (value : Vec3 K)

/-- A call of one of the setters. -/
structure SetterCall (K : Type) where
  node : ℕ
  component : Component K

/-- The setters of the builder. -/
def SetterCall.run (call : SetterCall K) (b : SceneBuilder K) : Except Fault (SceneBuilder K) :=
  match call.component with
  | .translation v => b.setNodeTranslation call.node v
  | .rotation q => b.setNodeRotation call.node q
  | .scale v => b.setNodeScale call.node v

/-- The conversion of a node index, -1 where there is none, to a `NodeId`. -/
def toNodeId : Option ℕ → ℕ
  | some nodeIdx => nodeIdx
  | none => 2 ^ 32 - 1

/-- The call made for a channel. -/
def channelCall (model : Gltf.Model) (anim : Gltf.Animation) (time : K)
    (channel : Gltf.AnimationChannel) : Except Fault (Option (SetterCall K)) :=
  let nodeIdx := toNodeId channel.targetNode
  if channel.targetPath = "translation" then do
    let translation ← sampleVec3Channel model anim channel.sampler time
    pure (some ⟨nodeIdx, .translation translation⟩)
  else if channel.targetPath = "rotation" then do
    let rotation ← sampleQuatChannel model anim channel.sampler time
    pure (some ⟨nodeIdx, .rotation rotation⟩)
  else if channel.targetPath = "scale" then do
    let scale ← sampleVec3Channel model anim channel.sampler time
    pure (some ⟨nodeIdx, .scale scale⟩)
  else pure none

/-- The body of the loop over the channels. -/
def applyChannel (model : Gltf.Model) (anim : Gltf.Animation) (time : K) (b : SceneBuilder K)
    (channel : Gltf.AnimationChannel) : Except Fault (SceneBuilder K) := do
  match ← channelCall model anim time channel with
  | some call => call.run b
  | none => pure b

/-- `updateAnimation`. -/
def SceneGraph.updateAnimation (graph : SceneGraph K) (time : K) :
    Except Fault (SceneGraph K) :=
  match graph.animation with
  | none => .ok graph
  | some anim => do
    let builder ← anim.channels.foldlM (applyChannel graph.model anim time) graph.builder
    pure { graph with builder := builder }

end Pathological.RenderWorker
