import Pathological.RenderWorker.Animation

/-!
# Transforms of animated nodes

A node has a local transform, and the components that the animation composes it
from. An update is a sequence of setter calls, and each call writes to one
component of one node (`overwrites_perform`), so the calls of an update undo what
earlier updates have left (`animation_forgets`).

But the loader sets the transform only, and the components keep the defaults of a
new node (`fromGltf_defaults`). So with the first call the transform loses what
the file says of the components that no channel targets (`components_kept`).
-/

namespace Pathological.RenderWorker

open Framework SceneBuilder

variable {K : Type} [Ring K] [GlmScene K]

/-! ### Updates forget -/

/-- What a call writes to. -/
def SetterCall.key (call : SetterCall K) : ℕ × String := (call.node, call.component.path)

/-- Of two values for one component the later is stored. -/
theorem Component.store_same {c d : Component K} (h : c.path = d.path) (n : Node K) :
    d.store (c.store n) = d.store n := by
  cases c <;> cases d <;> first | rfl | exact absurd h (by simp [Component.path])

/-- The transform is composed anew from all components, whichever is stored last. -/
theorem Component.store_comm {c d : Component K} (h : c.path ≠ d.path) (n : Node K) :
    d.store (c.store n) = c.store (d.store n) := by
  cases c <;> cases d <;> first | rfl | exact absurd rfl h

/-- A call writes to one component of one node. -/
theorem overwrites_perform :
    Overwrites (SetterCall.perform (K := K)) SetterCall.key where
  same c d b h := by
    obtain ⟨hnode, hpath⟩ := Prod.mk.inj h
    rw [SetterCall.perform, SetterCall.perform, SetterCall.perform, hnode,
      List.modify_modify_eq]
    congr 2
    funext n
    exact Component.store_same hpath n
  comm c d b h := by
    rw [SetterCall.perform, SetterCall.perform, SetterCall.perform, SetterCall.perform]
    by_cases hnode : c.node = d.node
    · have hpath : c.component.path ≠ d.component.path := fun hpath =>
        h (Prod.ext hnode hpath)
      rw [hnode, List.modify_modify_eq, List.modify_modify_eq]
      congr 2
      funext n
      exact Component.store_comm hpath n
    · rw [List.modify_modify_ne _ _ _ hnode]

/-- The calls of an update, where its samples succeed. -/
def SceneGraph.setterCalls (graph : SceneGraph K) (time : K) : List (SetterCall K) :=
  graph.animation.elim [] fun anim => anim.channels.filterMap fun channel =>
    (channelCall graph.model anim time channel).toOption.join

/-- The channels are in range, and so are the builder nodes they address. -/
def SceneGraph.ValidTargets (graph : SceneGraph K) : Prop :=
  ∀ anim ∈ graph.animation, anim.InRange graph.model ∧ ∀ channel ∈ anim.channels,
    channel.IsTransform → toNodeId channel.targetNode < graph.builder.nodes.length

/-- No channel addresses the builder node. -/
def SceneGraph.Untargeted (graph : SceneGraph K) (i : ℕ) : Prop :=
  ∀ anim ∈ graph.animation, ∀ channel ∈ anim.channels, channel.IsTransform →
    toNodeId channel.targetNode ≠ i

section Updates

variable {graph : SceneGraph K}

theorem SceneGraph.ValidTargets.updateAnimation_eq (hvalid : graph.ValidTargets) (time : K) :
    graph.updateAnimation time = .ok { graph with
      builder := performAll SetterCall.perform (graph.setterCalls time) graph.builder } := by
  obtain ⟨b, animation, model⟩ := graph
  cases animation with
  | none => rfl
  | some anim =>
    obtain ⟨hrange, hnode⟩ := hvalid anim rfl
    show (anim.channels.foldlM _ b >>= _) = _
    rw [foldlM_applyChannel_eq hrange (fun _ h => h) hnode]
    rfl

/-- Other values in the nodes do not matter to the targets. -/
theorem SceneGraph.ValidTargets.after (hvalid : graph.ValidTargets)
    (calls : List (SetterCall K)) : SceneGraph.ValidTargets { graph with
      builder := performAll SetterCall.perform calls graph.builder } := by
  intro anim hanim
  obtain ⟨hrange, hnode⟩ := hvalid anim hanim
  refine ⟨hrange, fun channel hmem htransform => ?_⟩
  rw [length_nodes_performAll]
  exact hnode channel hmem htransform

/-- Updates perform their calls one after another. -/
theorem SceneGraph.ValidTargets.foldlM_updateAnimation (hvalid : graph.ValidTargets)
    (times : List K) :
    times.foldlM SceneGraph.updateAnimation graph = .ok { graph with
      builder := performAll SetterCall.perform (times.flatMap graph.setterCalls)
        graph.builder } := by
  induction times generalizing graph with
  | nil => rfl
  | cons time times ih =>
    rw [List.foldlM_cons, hvalid.updateAnimation_eq time]
    refine (ih (hvalid.after _)).trans ?_
    rw [List.flatMap_cons, performAll_append]
    rfl

/-- Where the calls come from. -/
theorem exists_of_mem_setterCalls {time : K} {call : SetterCall K}
    (h : call ∈ graph.setterCalls time) :
    ∃ anim ∈ graph.animation, ∃ channel ∈ anim.channels,
      channelCall graph.model anim time channel = .ok (some call) := by
  obtain ⟨b, animation, model⟩ := graph
  cases animation with
  | none => cases h
  | some anim => exact ⟨anim, rfl, mem_calls.mp h⟩

/-- Whatever the time, the same parts are written to. -/
theorem SceneGraph.ValidTargets.key_mem (hvalid : graph.ValidTargets) {time : K}
    {call : SetterCall K} (hcall : call ∈ graph.setterCalls time) (time' : K) :
    call.key ∈ (graph.setterCalls time').map SetterCall.key := by
  obtain ⟨anim, hanim, channel, hmem, hsome⟩ := exists_of_mem_setterCalls hcall
  obtain ⟨call', hcall'⟩ := exists_channelCall time' (hvalid anim hanim).1 hmem
    (isTransform_of_channelCall hsome)
  refine List.mem_map.mpr ⟨call', ?_, ?_⟩
  · rw [SceneGraph.setterCalls, hanim]
    exact mem_calls.mpr ⟨channel, hmem, hcall'⟩
  · rw [SetterCall.key, SetterCall.key, (channelCall_eq_some hcall').1,
      (channelCall_eq_some hcall').2, (channelCall_eq_some hsome).1,
      (channelCall_eq_some hsome).2]

theorem SceneGraph.Untargeted.node_ne {i : ℕ} (h : graph.Untargeted i) {time : K}
    {call : SetterCall K} (hcall : call ∈ graph.setterCalls time) : call.node ≠ i := by
  obtain ⟨anim, hanim, channel, hmem, hsome⟩ := exists_of_mem_setterCalls hcall
  rw [(channelCall_eq_some hsome).1]
  exact h anim hanim channel hmem (isTransform_of_channelCall hsome)

/-- **What an update leaves does not depend on the updates before it**, and the
nodes that no channel addresses stay as they have been loaded. -/
theorem animation_forgets (hvalid : graph.ValidTargets) (times : List K) (time : K) :
    ∃ graph' once, times.foldlM SceneGraph.updateAnimation graph = .ok graph' ∧
      graph'.updateAnimation time = .ok once ∧ graph.updateAnimation time = .ok once ∧
      ∀ i, graph.Untargeted i → graph'.builder.nodes[i]? = graph.builder.nodes[i]? ∧
        once.builder.nodes[i]? = graph.builder.nodes[i]? := by
  have hkeys (call : SetterCall K) (hcall : call ∈ times.flatMap graph.setterCalls) :
      call.key ∈ (graph.setterCalls time).map SetterCall.key := by
    obtain ⟨time', -, hcall⟩ := List.mem_flatMap.mp hcall
    exact hvalid.key_mem hcall time
  refine ⟨_, _, hvalid.foldlM_updateAnimation times, ?_, hvalid.updateAnimation_eq time,
    fun i hi => ⟨performAll_frame _ fun call hcall => ?_,
      performAll_frame _ fun call hcall => hi.node_ne hcall⟩⟩
  · exact ((hvalid.after _).updateAnimation_eq time).trans
      (congrArg (fun b => Except.ok (SceneGraph.mk b graph.animation graph.model))
        (overwrites_perform.forget hkeys graph.builder))
  · obtain ⟨time', -, hcall⟩ := List.mem_flatMap.mp hcall
    exact hi.node_ne hcall

end Updates

theorem animation_forgets_pair : ∃ graph graph' once : SceneGraph ℚ,
    fromGltf (animatedPair [0, 1]) 2 = .ok graph ∧
      [1, 3].foldlM SceneGraph.updateAnimation graph = .ok graph' ∧
      graph'.updateAnimation 0 = .ok once ∧ graph.updateAnimation 0 = .ok once := by
  obtain ⟨b, hload, hlen⟩ : ∃ b : SceneBuilder ℚ,
      fromGltf (animatedPair [0, 1]) 2 = .ok ⟨b, some moveFirst, animatedPair [0, 1]⟩ ∧
        b.nodes.length = 2 := ⟨_, rfl, rfl⟩
  have hvalid : SceneGraph.ValidTargets ⟨b, some moveFirst, animatedPair [0, 1]⟩ := by
    rintro anim ⟨⟩
    refine ⟨moveFirst_inRange _, fun channel hmem _ => ?_⟩
    obtain rfl := List.mem_singleton.mp hmem
    exact hlen ▸ Nat.zero_lt_two
  obtain ⟨graph', once, hrun, hafter, honce, -⟩ := animation_forgets hvalid [1, 3] 0
  exact ⟨_, graph', once, hload, hrun, hafter, honce⟩

/-! ### The components of a loaded node -/

/-- The components are those of a new node. -/
structure Node.HasDefaults (n : Node K) : Prop where
  translation : n.translation = ⟨0, 0, 0⟩
  rotation : n.rotation = ⟨1, 0, 0, 0⟩
  scale : n.scale = ⟨1, 1, 1⟩

namespace SceneBuilder

/-- All nodes have them. -/
def AllDefaults (b : SceneBuilder K) : Prop := ∀ n ∈ b.nodes, n.HasDefaults

end SceneBuilder

omit [GlmScene K] in
/-- The loader sets no component. -/
theorem allDefaults_invariant : LoaderInvariant (AllDefaults (K := K)) where
  createNode b name h n hn := by
    rcases List.mem_append.mp hn with hold | hnew
    · exact h n hold
    · obtain rfl := List.mem_singleton.mp hnew
      exact ⟨rfl, rfl, rfl⟩
  modify b i f hf h n hn := by
    obtain ⟨k, hk⟩ := List.mem_iff_getElem?.mp hn
    rw [List.getElem?_modify, Option.map_eq_map, Option.map_eq_some_iff] at hk
    obtain ⟨n₀, hn₀, rfl⟩ := hk
    obtain ⟨ht, hr, hs⟩ : n₀.HasDefaults := h n₀ (List.mem_of_getElem? hn₀)
    split
    · exact ⟨(hf n₀).translation.trans ht, (hf n₀).rotation.trans hr, (hf n₀).scale.trans hs⟩
    · exact ⟨ht, hr, hs⟩
  createMaterial _ _ h := h
  createMesh _ _ _ _ h := h

/-- The loader leaves the components of every node as they are in a new one. -/
theorem fromGltf_defaults {model : Gltf.Model} {depth : ℕ} {graph : SceneGraph K}
    (hload : fromGltf model depth = .ok graph) : graph.builder.AllDefaults := by
  obtain ⟨model', -, hload⟩ := except_bind_eq_ok.mp hload
  obtain ⟨scene, -, hload⟩ := except_bind_eq_ok.mp hload
  obtain ⟨b, hnodes, hload⟩ := except_bind_eq_ok.mp hload
  rw [← Except.ok.inj hload]
  exact foldlM_invariant (P := AllDefaults)
    (fun j _ b₁ b₂ hb₁ hstep => allDefaults_invariant.loadGltfNode hb₁ hstep)
    (fun n hn => absurd hn List.not_mem_nil) hnodes

/-! ### The law -/

/-- The translation, rotation and scale of a glTF node. -/
def gltfTranslation (gltfNode : Gltf.Node) : Vec3 K :=
  match gltfNode.translation with
  | [x, y, z] => ⟨GlmScene.ofRat x, GlmScene.ofRat y, GlmScene.ofRat z⟩
  | _ => ⟨0, 0, 0⟩

def gltfRotation (gltfNode : Gltf.Node) : Quat K :=
  match gltfNode.rotation with
  | [x, y, z, w] => ⟨GlmScene.ofRat w, GlmScene.ofRat x, GlmScene.ofRat y, GlmScene.ofRat z⟩
  | _ => ⟨1, 0, 0, 0⟩

def gltfScale (gltfNode : Gltf.Node) : Vec3 K :=
  match gltfNode.scale with
  | [x, y, z] => ⟨GlmScene.ofRat x, GlmScene.ofRat y, GlmScene.ofRat z⟩
  | _ => ⟨1, 1, 1⟩

/-- Without a matrix, the transform of a glTF node is composed from them. -/
theorem getGltfNodeTransform_eq {gltfNode : Gltf.Node} (h : gltfNode.matrix.length ≠ 16) :
    (getGltfNodeTransform gltfNode : Mat4 K) =
      composeTRS (gltfTranslation gltfNode) (gltfRotation gltfNode) (gltfScale gltfNode) :=
  if_neg h

/-- The last channel for this component of the glTF node with index `j`. -/
def Gltf.Animation.lastChannel (anim : Gltf.Animation) (j : ℕ) (path : String) :
    Option Gltf.AnimationChannel :=
  anim.channels.reverse.find? fun channel =>
    decide (channel.targetNode = some j ∧ channel.targetPath = path)

/-- A component, sampled for the last channel that targets it; `own` where there is
no such channel. -/
def Gltf.Animation.componentAt {V : Type} (anim : Gltf.Animation) (j : ℕ) (path : String)
    (sample : ℕ → Except Fault V) (own : V) : Except Fault V :=
  match anim.lastChannel j path with
  | some channel => sample channel.sampler
  | none => .ok own

/-- The components of the node are those that the animation gives to the glTF node
with index `j`, and its own ones where it gives none; and its local transform is
composed from them. -/
structure KeepsComponents (model : Gltf.Model) (anim : Gltf.Animation) (time : K) (j : ℕ)
    (translation : Vec3 K) (rotation : Quat K) (scale : Vec3 K) (n : Node K) : Prop where
  translation : anim.componentAt j "translation" (sampleVec3Channel model anim · time) translation =
    .ok n.translation
  rotation : anim.componentAt j "rotation" (sampleQuatChannel model anim · time) rotation =
    .ok n.rotation
  scale : anim.componentAt j "scale" (sampleVec3Channel model anim · time) scale = .ok n.scale
  localTransform : n.localTransform = composeTRS n.translation n.rotation n.scale

section Run

variable {model : Gltf.Model} {anim : Gltf.Animation} {time : K} {b b' : SceneBuilder K}
  {i : ℕ} {path : String}

/-- Where the last channel for a component stands. -/
theorem Gltf.Animation.lastChannel_eq_some {channel : Gltf.AnimationChannel}
    (h : anim.lastChannel i path = some channel) :
    channel.targetNode = some i ∧ channel.targetPath = path ∧ ∃ earlier later,
      anim.channels = earlier ++ channel :: later ∧
        ∀ channel' ∈ later, channel'.targetNode = some i → channel'.targetPath ≠ path := by
  obtain ⟨hchannel, later, earlier, hsplit, hlater⟩ := List.find?_eq_some_iff_append.mp h
  obtain ⟨hnode, hpath⟩ := of_decide_eq_true hchannel
  refine ⟨hnode, hpath, earlier.reverse, later.reverse, ?_, fun channel' hmem hnode' hpath' => ?_⟩
  · rw [← List.reverse_reverse anim.channels, hsplit, List.reverse_append, List.reverse_cons,
      List.append_assoc, List.singleton_append]
  · have hfalse := of_decide_eq_false (Bool.eq_false_of_not_eq_true'
      (hlater channel' (List.mem_reverse.mp hmem)))
    exact hfalse ⟨hnode', hpath'⟩

theorem Gltf.Animation.lastChannel_eq_none (h : anim.lastChannel i path = none)
    {channel : Gltf.AnimationChannel} (hmem : channel ∈ anim.channels)
    (hnode : channel.targetNode = some i) : channel.targetPath ≠ path := fun hpath =>
  List.find?_eq_none.mp h channel (List.mem_reverse.mpr hmem) (decide_eq_true ⟨hnode, hpath⟩)

/-- A call for the builder node `i` comes from a channel for the glTF node `i`. -/
theorem targetNode_of_channelCall
    (hnodes : ∀ channel ∈ anim.channels, ∃ j, channel.targetNode = some j)
    {channel : Gltf.AnimationChannel} (hmem : channel ∈ anim.channels) {call : SetterCall K}
    (hcall : channelCall model anim time channel = .ok (some call)) (hnode : call.node = i) :
    channel.targetNode = some i := by
  obtain ⟨j, hj⟩ := hnodes channel hmem
  rw [(channelCall_eq_some hcall).1, hj] at hnode
  rw [hj]
  exact congrArg some hnode

omit [Ring K] [GlmScene K] in
theorem Component.isTransform_of_path {c : Component K} {channel : Gltf.AnimationChannel}
    (h : channel.targetPath = c.path) : channel.IsTransform := by
  unfold Gltf.AnimationChannel.IsTransform
  rw [h]
  cases c with
  | translation v => exact .inl rfl
  | rotation q => exact .inr (.inl rfl)
  | scale v => exact .inr (.inr rfl)

/-- After the loop, a component of a node has the value of the last call for it, or
the one it had. -/
theorem foldlM_component (hrun : anim.channels.foldlM (applyChannel model anim time) b = .ok b')
    (hrange : anim.InRange model)
    (hnodes : ∀ channel ∈ anim.channels, ∃ j, channel.targetNode = some j)
    {c : Component K} (hb : ∃ n, b.nodes[i]? = some n ∧ c.StoredIn n) :
    ∃ n, b'.nodes[i]? = some n ∧ match anim.lastChannel i c.path with
      | some channel => ∃ call, channelCall model anim time channel = .ok (some call) ∧
          call.component.StoredIn n
      | none => c.StoredIn n := by
  cases hlast : anim.lastChannel i c.path with
  | none =>
    exact foldlM_keep hrun hb fun channel hmem call hcall hnode n hstored => hstored.store (by
      rw [(channelCall_eq_some hcall).2]
      exact anim.lastChannel_eq_none hlast hmem
        (targetNode_of_channelCall hnodes hmem hcall hnode))
  | some channel =>
    obtain ⟨hnode, hpath, earlier, later, hsplit, hlater⟩ := anim.lastChannel_eq_some hlast
    have hmem (channel' : Gltf.AnimationChannel) (h : channel' ∈ channel :: later) :
        channel' ∈ anim.channels := hsplit ▸ List.mem_append_right _ h
    obtain ⟨call, hcall⟩ := exists_channelCall time hrange (hmem channel List.mem_cons_self)
      (Component.isTransform_of_path hpath)
    have hi : call.node = i := by
      rw [(channelCall_eq_some hcall).1, hnode]
      rfl
    rw [hsplit] at hrun
    obtain ⟨n, hn, hstored⟩ := foldlM_last hrun hcall call.component.storedIn_store
      fun channel' hmem' call' hcall' hsame n hstored => hstored.store (by
        have hmem' := hmem channel' (List.mem_cons_of_mem _ hmem')
        rw [(channelCall_eq_some hcall').2, (channelCall_eq_some hcall).2, hpath]
        exact hlater channel' ‹_› (targetNode_of_channelCall hnodes hmem' hcall' (hsame.trans hi)))
    exact ⟨n, hi ▸ hn, call, hcall, hstored⟩

/-- After the loop, the transform of a node that a call is for is composed from its
components. -/
theorem foldlM_composed (hrun : anim.channels.foldlM (applyChannel model anim time) b = .ok b')
    {channel : Gltf.AnimationChannel} (hmem : channel ∈ anim.channels) {call : SetterCall K}
    (hcall : channelCall model anim time channel = .ok (some call)) :
    ∃ n, b'.nodes[call.node]? = some n ∧
      n.localTransform = composeTRS n.translation n.rotation n.scale := by
  have hstore (c : Component K) (n : Node K) : (c.store n).localTransform =
      composeTRS (c.store n).translation (c.store n).rotation (c.store n).scale := by
    cases c <;> rfl
  obtain ⟨earlier, later, hsplit⟩ := List.append_of_mem hmem
  rw [hsplit] at hrun
  exact foldlM_last hrun hcall (hstore _) fun _ _ call' _ _ n _ => hstore call'.component n

/-- One component, read by `get` and stored by `mk`, after the loop. -/
theorem componentAt_of_run (hrun : anim.channels.foldlM (applyChannel model anim time) b = .ok b')
    (hrange : anim.InRange model)
    (hnodes : ∀ channel ∈ anim.channels, ∃ j, channel.targetNode = some j) {V : Type}
    (mk : V → Component K) (get : Node K → V) {sample : ℕ → Except Fault V}
    (hpath : ∀ v, (mk v).path = path) (hget : ∀ v n, (mk v).StoredIn n → get n = v)
    (hstored : ∀ n, (mk (get n)).StoredIn n)
    (hcall : ∀ channel : Gltf.AnimationChannel, channel.targetPath = path →
      channelCall model anim time channel = sample channel.sampler >>= fun v =>
        pure (some ⟨toNodeId channel.targetNode, mk v⟩))
    {n n' : Node K} (hn : b.nodes[i]? = some n) (hn' : b'.nodes[i]? = some n') :
    anim.componentAt i path sample (get n) = .ok (get n') := by
  obtain ⟨n'', hn'', h⟩ := foldlM_component hrun hrange hnodes ⟨n, hn, hstored n⟩
  obtain rfl := Option.some.inj (hn'.symm.trans hn'')
  rw [hpath] at h
  unfold Gltf.Animation.componentAt
  cases hlast : anim.lastChannel i path with
  | none =>
    rw [hlast] at h
    exact congrArg _ (hget _ _ h).symm
  | some channel =>
    rw [hlast] at h
    obtain ⟨call, hsome, hcomponent⟩ := h
    rw [hcall channel (anim.lastChannel_eq_some hlast).2.1] at hsome
    obtain ⟨v, hv, hret⟩ := except_bind_eq_ok.mp hsome
    obtain rfl := Option.some.inj (Except.ok.inj hret)
    exact hv.trans (congrArg _ (hget v n' hcomponent).symm)

/-- An animated node has the components the animation gives to it, and the ones it
had before where it gives none. -/
theorem keepsComponents_of_run
    (hrun : anim.channels.foldlM (applyChannel model anim time) b = .ok b')
    (hrange : anim.InRange model)
    (hnodes : ∀ channel ∈ anim.channels, ∃ j, channel.targetNode = some j)
    (hanimated : ∃ channel ∈ anim.channels, channel.IsTransform ∧ channel.targetNode = some i)
    {n : Node K} (hn : b.nodes[i]? = some n) :
    ∃ n', b'.nodes[i]? = some n' ∧
      KeepsComponents model anim time i n.translation n.rotation n.scale n' := by
  obtain ⟨channel, hmem, htransform, hnode⟩ := hanimated
  obtain ⟨call, hcall⟩ := exists_channelCall time hrange hmem htransform
  obtain ⟨n', hn', hcomposed⟩ := foldlM_composed hrun hmem hcall
  rw [(channelCall_eq_some hcall).1, hnode] at hn'
  refine ⟨n', hn', ?_, ?_, ?_, hcomposed⟩
  · exact componentAt_of_run hrun hrange hnodes .translation Node.translation (fun _ => rfl)
      (fun _ _ h => h) (fun _ => rfl) (fun channel h => by rw [channelCall, if_pos h]) hn hn'
  · exact componentAt_of_run hrun hrange hnodes .rotation Node.rotation (fun _ => rfl)
      (fun _ _ h => h) (fun _ => rfl) (fun channel h => by
        rw [channelCall, h, if_neg (by decide), if_pos rfl]) hn hn'
  · exact componentAt_of_run hrun hrange hnodes .scale Node.scale (fun _ => rfl)
      (fun _ _ h => h) (fun _ => rfl) (fun channel h => by
        rw [channelCall, h, if_neg (by decide), if_neg (by decide), if_pos rfl]) hn hn'

end Run

section Law

variable {model : Gltf.Model} {scene : Gltf.Scene} {F : Forest ℕ} {anim : Gltf.Animation}
  {time : K} {j : ℕ} {gltfNode : Gltf.Node}

/-- `T * R * S` for the glTF node with index `j`, with what the animation gives to it
and its own components where it gives none. -/
def animatedTransform (model : Gltf.Model) (anim : Gltf.Animation) (time : K) (j : ℕ)
    (translation : Vec3 K) (rotation : Quat K) (scale : Vec3 K) : Except Fault (Mat4 K) := do
  let t ← anim.componentAt j "translation" (sampleVec3Channel model anim · time) translation
  let r ← anim.componentAt j "rotation" (sampleQuatChannel model anim · time) rotation
  let s ← anim.componentAt j "scale" (sampleVec3Channel model anim · time) scale
  pure (composeTRS t r s)

theorem KeepsComponents.animatedTransform_eq {t : Vec3 K} {r : Quat K} {s : Vec3 K} {n : Node K}
    (h : KeepsComponents model anim time j t r s n) :
    animatedTransform model anim time j t r s = .ok n.localTransform := by
  rw [animatedTransform, h.translation, h.rotation, h.scale, h.localTransform]
  rfl

/-- The own value matters where no channel targets the component. -/
theorem componentAt_iff {V : Type} {path : String} {sample : ℕ → Except Fault V} {own own' v : V}
    (h : anim.componentAt j path sample own' = .ok v) :
    anim.componentAt j path sample own = .ok v ↔ (anim.lastChannel j path = none → own = own') := by
  unfold Gltf.Animation.componentAt at h ⊢
  cases hlast : anim.lastChannel j path with
  | none =>
    rw [hlast] at h
    obtain rfl := Except.ok.inj h
    exact ⟨fun h _ => Except.ok.inj h, fun h => congrArg _ (h rfl)⟩
  | some channel =>
    rw [hlast] at h
    exact iff_of_true h nofun

/-- The components of the glTF node that no channel targets are those of a new
node. -/
structure UntargetedDefaults (K : Type) [Ring K] [GlmScene K] (anim : Gltf.Animation) (j : ℕ)
    (gltfNode : Gltf.Node) : Prop where
  translation : anim.lastChannel j "translation" = none →
    (gltfTranslation gltfNode : Vec3 K) = ⟨0, 0, 0⟩
  rotation : anim.lastChannel j "rotation" = none →
    (gltfRotation gltfNode : Quat K) = ⟨1, 0, 0, 0⟩
  scale : anim.lastChannel j "scale" = none → (gltfScale gltfNode : Vec3 K) = ⟨1, 1, 1⟩

theorem KeepsComponents.own_iff {n : Node K}
    (h : KeepsComponents model anim time j ⟨0, 0, 0⟩ ⟨1, 0, 0, 0⟩ ⟨1, 1, 1⟩ n) :
    KeepsComponents model anim time j (gltfTranslation gltfNode) (gltfRotation gltfNode)
      (gltfScale gltfNode) n ↔ UntargetedDefaults K anim j gltfNode :=
  ⟨fun hown => ⟨(componentAt_iff h.translation).mp hown.translation,
      (componentAt_iff h.rotation).mp hown.rotation, (componentAt_iff h.scale).mp hown.scale⟩,
    fun hdefaults => ⟨(componentAt_iff h.translation).mpr hdefaults.translation,
      (componentAt_iff h.rotation).mpr hdefaults.rotation,
      (componentAt_iff h.scale).mpr hdefaults.scale, h.localTransform⟩⟩

/-- **An animated node keeps its own components exactly when those that no channel
targets are the defaults**; its transform is right exactly when the defaults in
their place make no difference to the product. -/
theorem components_kept {depth : ℕ} (hscene : model.chosenScene = some scene)
    (hforest : model.IsForest scene F) (hrange : model.InRange scene.nodes)
    (hdepth : F.size ≤ depth)
    (hleaves : ∀ j, model.Reachable scene j → model.nonTriangle j = true →
      model.children j = some [])
    (hanim : model.animations.head? = some anim) (hsamplers : anim.InRange model)
    (htargets : ∀ channel ∈ anim.channels, ∃ j ∈ channel.targetNode, model.Reachable scene j)
    (hids : ∀ channel ∈ anim.channels, channel.IsTransform → ∀ j ∈ channel.targetNode,
      createdNode F j = j)
    (hnode : model.nodes[j]? = some gltfNode) (hmatrix : gltfNode.matrix.length ≠ 16)
    (hanimated : ∃ channel ∈ anim.channels, channel.IsTransform ∧ channel.targetNode = some j)
    (time : K) :
    ∃ (b b' : SceneBuilder K) (n n' : Node K),
      fromGltf model depth = .ok ⟨b, some anim, model⟩ ∧ b.nodes[j]? = some n ∧
      n.localTransform = composeTRS (gltfTranslation gltfNode) (gltfRotation gltfNode)
        (gltfScale gltfNode) ∧
      SceneGraph.updateAnimation ⟨b, some anim, model⟩ time = .ok ⟨b', some anim, model⟩ ∧
      b'.nodes[j]? = some n' ∧
      (KeepsComponents model anim time j (gltfTranslation gltfNode) (gltfRotation gltfNode)
        (gltfScale gltfNode) n' ↔ UntargetedDefaults K anim j gltfNode) ∧
      (animatedTransform model anim time j (gltfTranslation gltfNode) (gltfRotation gltfNode)
          (gltfScale gltfNode) = .ok n'.localTransform ↔
        animatedTransform model anim time j (gltfTranslation gltfNode : Vec3 K)
            (gltfRotation gltfNode) (gltfScale gltfNode) =
          animatedTransform model anim time j ⟨0, 0, 0⟩ ⟨1, 0, 0, 0⟩ ⟨1, 1, 1⟩) := by
  obtain ⟨b, hload, -, htable⟩ := fromGltf_table (K := K) hscene hforest.unfolds hrange hdepth
  have hpruned : F.prune model.nonTriangle = F := hforest.unfolds.prune_eq_self fun j hj =>
    hleaves j (hforest.unfolds.mem_preorder_iff.mp hj)
  rw [hpruned] at htable
  rw [hanim] at hload
  have hkept : KeepsHierarchy model scene b (createdNode F) :=
    keepsHierarchy_of_table hforest htable
  have hmoves : MovesTargets model anim F time b :=
    movesTargets_of_agree (fun channel hmem => by
      obtain ⟨j, hj, hreach⟩ := htargets channel hmem
      exact ⟨j, hj, hforest.unfolds.mem_preorder_iff.mpr hreach⟩)
      (hkept.size_eq hforest) hsamplers hids
  obtain ⟨b', hupdate, -⟩ := hmoves.after
  obtain ⟨b₁, hrun, hret⟩ := except_bind_eq_ok.mp hupdate
  obtain rfl := congrArg SceneGraph.builder (Except.ok.inj hret)
  -- the node is a target, so its number in the builder is its index
  obtain ⟨channel, hmem, htransform, htarget⟩ := hanimated
  have hreach : model.Reachable scene j := by
    obtain ⟨j', hj', hreach⟩ := htargets channel hmem
    rw [htarget] at hj'
    exact Option.some.inj hj' ▸ hreach
  obtain ⟨gltfNode', n, hnode', hn, -, hlocal, -⟩ := hkept.node j hreach
  obtain rfl := Option.some.inj (hnode.symm.trans hnode')
  rw [hids channel hmem htransform j htarget] at hn
  obtain ⟨htranslation, hrotation, hscale⟩ := fromGltf_defaults hload n (List.mem_of_getElem? hn)
  obtain ⟨n', hn', hkeeps⟩ := keepsComponents_of_run hrun hsamplers
    (fun channel hmem => (htargets channel hmem).imp fun _ h => h.1)
    ⟨channel, hmem, htransform, htarget⟩ hn
  rw [htranslation, hrotation, hscale] at hkeeps
  refine ⟨b, _, n, n', hload, hn, hlocal.trans (getGltfNodeTransform_eq hmatrix), hupdate, hn',
    hkeeps.own_iff, ?_⟩
  rw [hkeeps.animatedTransform_eq]

end Law

/-- The animated pair, with a transform for its first node. -/
def movingPair (moving : Gltf.Node) : Gltf.Model :=
  { animatedPair [0, 1] with nodes := [moving, { name := "still" }] }

section MovingPair

variable {moving : Gltf.Node}

theorem movingPair_isForest (h : moving.children = []) :
    (movingPair moving).IsForest ⟨[0, 1]⟩ (.cons 0 .nil (.cons 1 .nil .nil)) where
  unfolds := .cons (congrArg some h) .nil (.cons rfl .nil .nil)
  nodup := by decide

theorem movingPair_inRange (h : moving.mesh = none) : (movingPair moving).InRange [0, 1] := by
  intro j _ gltfNode hj m hm
  match j, hj with
  | 0, hj =>
    rw [← Option.some.inj hj, h] at hm
    cases hm
  | 1, hj =>
    rw [← Option.some.inj hj] at hm
    cases hm

theorem movingPair_triangles (h : moving.mesh = none) (j : ℕ) :
    (movingPair moving).nonTriangle j = false :=
  match j with
  | 0 => by
    show (moving.firstPrimitive _).any _ = false
    rw [Gltf.Node.firstPrimitive, h]
    rfl
  | 1 => rfl
  | _ + 2 => rfl

end MovingPair

/-- The node is also moved away by its own transform. -/
def translatedNode : Gltf.Node := { name := "moving", translation := [5, 0, 0] }

theorem components_kept_translatedNode : ∃ b b' : SceneBuilder ℚ, ∃ n',
    fromGltf (movingPair translatedNode) 2 = .ok ⟨b, some moveFirst, movingPair translatedNode⟩ ∧
      SceneGraph.updateAnimation ⟨b, some moveFirst, movingPair translatedNode⟩ 0 =
        .ok ⟨b', some moveFirst, movingPair translatedNode⟩ ∧
      b'.nodes[0]? = some n' ∧
      KeepsComponents (movingPair translatedNode) moveFirst 0 0 (gltfTranslation translatedNode)
        (gltfRotation translatedNode) (gltfScale translatedNode) n' := by
  have hscene : (movingPair translatedNode).chosenScene = some ⟨[0, 1]⟩ := rfl
  obtain ⟨b, b', n, n', hload, -, -, hupdate, hn', hiff, -⟩ := components_kept (K := ℚ) hscene
    (movingPair_isForest rfl) (movingPair_inRange rfl) (le_refl 2)
    (fun j _ htrue => by rw [movingPair_triangles rfl] at htrue; cases htrue)
    (show _ = some moveFirst from rfl) (moveFirst_inRange [0, 1])
    (fun channel hmem => by
      obtain rfl := List.mem_singleton.mp hmem
      exact ⟨0, rfl, .root List.mem_cons_self⟩)
    (fun channel hmem _ j hj => by
      obtain rfl := List.mem_singleton.mp hmem
      obtain rfl := Option.some.inj hj
      rfl)
    (show (movingPair translatedNode).nodes[0]? = some translatedNode from rfl) (by decide)
    ⟨_, List.mem_cons_self, .inl rfl, rfl⟩ 0
  exact ⟨b, b', n', hload, hupdate, hn', hiff.mpr ⟨nofun, fun _ => rfl, fun _ => rfl⟩⟩

/-- The node is scaled, and only its translation is animated. -/
def scaledNode : Gltf.Node := { name := "moving", scale := [2, 2, 2] }

/-- The scale is lost. -/
theorem not_componentsKept :
    (movingPair scaledNode).IsForest ⟨[0, 1]⟩ (.cons 0 .nil (.cons 1 .nil .nil)) ∧
    (∀ j < 2, createdNode (.cons 0 .nil (.cons 1 .nil .nil)) j = j) ∧
    (movingPair scaledNode).InRange [0, 1] ∧ moveFirst.InRange (movingPair scaledNode) ∧
    ∃ b b' : SceneBuilder ℚ, ∃ n',
      fromGltf (movingPair scaledNode) 2 = .ok ⟨b, some moveFirst, movingPair scaledNode⟩ ∧
      SceneGraph.updateAnimation ⟨b, some moveFirst, movingPair scaledNode⟩ 0 =
        .ok ⟨b', some moveFirst, movingPair scaledNode⟩ ∧
      b'.nodes[0]? = some n' ∧
      ¬ KeepsComponents (movingPair scaledNode) moveFirst 0 0 (gltfTranslation scaledNode)
        (gltfRotation scaledNode) (gltfScale scaledNode) n' ∧
      animatedTransform (movingPair scaledNode) moveFirst 0 0 (gltfTranslation scaledNode)
        (gltfRotation scaledNode) (gltfScale scaledNode) ≠ .ok n'.localTransform := by
  have hrange : moveFirst.InRange (movingPair scaledNode) := moveFirst_inRange [0, 1]
  have hnodes (channel : Gltf.AnimationChannel) (hmem : channel ∈ moveFirst.channels) :
      ∃ j, channel.targetNode = some j := by
    obtain rfl := List.mem_singleton.mp hmem
    exact ⟨0, rfl⟩
  refine ⟨movingPair_isForest rfl, by decide, movingPair_inRange rfl, hrange, ?_⟩
  obtain ⟨b, hload, hlen⟩ : ∃ b : SceneBuilder ℚ,
      fromGltf (movingPair scaledNode) 2 = .ok ⟨b, some moveFirst, movingPair scaledNode⟩ ∧
        b.nodes.length = 2 := ⟨_, rfl, rfl⟩
  have hlt : 0 < b.nodes.length := hlen ▸ Nat.zero_lt_two
  obtain ⟨b', hrun⟩ : ∃ b', moveFirst.channels.foldlM
      (applyChannel (movingPair scaledNode) moveFirst (0 : ℚ)) b = .ok b' :=
    ⟨_, foldlM_applyChannel_eq hrange (fun _ h => h) fun channel hmem _ => by
      obtain rfl := List.mem_singleton.mp hmem
      exact hlt⟩
  obtain ⟨n', hn', hkeeps⟩ := keepsComponents_of_run hrun hrange hnodes
    ⟨_, List.mem_cons_self, .inl rfl, rfl⟩ (List.getElem?_eq_getElem hlt)
  obtain ⟨ht, hr, hs⟩ := fromGltf_defaults hload b.nodes[0] (List.getElem_mem hlt)
  rw [ht, hr, hs] at hkeeps
  refine ⟨b, _, n', hload, ?_, hn', fun hown => ?_, fun hown => ?_⟩
  · exact congrArg (fun r : Except Fault (SceneBuilder ℚ) => r >>= fun b =>
      pure (SceneGraph.mk b (some moveFirst) (movingPair scaledNode))) hrun
  · exact absurd ((hkeeps.own_iff.mp hown).scale rfl) (by decide)
  · -- the first entry of the product is the scale along the x axis
    have htranslation : moveFirst.componentAt 0 "translation"
        (sampleVec3Channel (movingPair scaledNode) moveFirst · 0) (gltfTranslation scaledNode) =
          .ok n'.translation := (componentAt_iff hkeeps.translation).mpr nofun
    rw [animatedTransform, htranslation, hkeeps.localTransform] at hown
    have hentry := congrFun (congrFun (Except.ok.inj hown) 0) 0
    have hrotation : n'.rotation = ⟨1, 0, 0, 0⟩ := (Except.ok.inj hkeeps.rotation).symm
    have hscale : n'.scale = ⟨1, 1, 1⟩ := (Except.ok.inj hkeeps.scale).symm
    have hcompose (t : Vec3 ℚ) (a : ℚ) : composeTRS t ⟨1, 0, 0, 0⟩ ⟨a, a, a⟩ 0 0 = a := by
      simp [composeTRS, Matrix.mul_apply, Fin.sum_univ_four, GlmScene.translate,
        GlmScene.mat4Cast, GlmScene.scale]
    rw [hrotation, hscale, hcompose] at hentry
    exact absurd ((hcompose n'.translation 2).symm.trans hentry) (by decide)

end Pathological.RenderWorker
