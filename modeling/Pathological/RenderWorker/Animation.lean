import Pathological.Framework.Overwrites
import Pathological.RenderWorker.Hierarchy

/-!
# Animated nodes

`updateAnimation` passes the target of a channel, the index of a glTF node, to a
setter that takes the id of a builder node. The ids count the nodes depth first,
in the order they are created (`createdNode`), the indices in the order of the
file. So the channels move the nodes they name exactly when the two numbers of
every animated node agree (`channels_move_targets`).

A call of a setter leaves the other nodes alone and stores its value, which stays
until a later call for the same node and component (`SetterCall.run_eq_ok`,
`performAll_frame`, `foldlM_last`).
-/

namespace Pathological.RenderWorker

open Framework SceneBuilder

variable {K : Type} [Ring K] [GlmScene K]

/-! ### Setters -/

/-- What the setter does to the node. -/
def Component.store (c : Component K) (n : Node K) : Node K :=
  match c with
  | .translation v => updateNodeTransform { n with translation := v }
  | .rotation q => updateNodeTransform { n with rotation := q }
  | .scale v => updateNodeTransform { n with scale := v }

/-- The node has the value stored. -/
def Component.StoredIn (c : Component K) (n : Node K) : Prop :=
  match c with
  | .translation v => n.translation = v
  | .rotation q => n.rotation = q
  | .scale v => n.scale = v

/-- The `target_path` of the component. -/
def Component.path : Component K → String
  | .translation _ => "translation"
  | .rotation _ => "rotation"
  | .scale _ => "scale"

theorem Component.storedIn_store (c : Component K) (n : Node K) : c.StoredIn (c.store n) := by
  cases c with
  | translation v => exact rfl
  | rotation q => exact rfl
  | scale v => exact rfl

/-- Storing one component keeps the others. -/
theorem Component.StoredIn.store {c c' : Component K} {n : Node K} (h : c.StoredIn n)
    (hne : c'.path ≠ c.path) : c.StoredIn (c'.store n) := by
  cases c <;> cases c' <;> first | exact h | exact absurd rfl hne

/-- The call, its node id being valid. -/
def SetterCall.perform (call : SetterCall K) (b : SceneBuilder K) : SceneBuilder K :=
  { b with nodes := b.nodes.modify call.node call.component.store }

theorem SetterCall.run_eq_ok {call : SetterCall K} {b b' : SceneBuilder K} :
    call.run b = .ok b' ↔ call.node < b.nodes.length ∧ b' = call.perform b := by
  obtain ⟨node, component⟩ := call
  cases component with
  | translation v => exact setNode_eq_ok
  | rotation q => exact setNode_eq_ok
  | scale v => exact setNode_eq_ok

@[simp] theorem length_nodes_perform (call : SetterCall K) (b : SceneBuilder K) :
    (call.perform b).nodes.length = b.nodes.length :=
  List.length_modify _ _ _

@[simp] theorem length_nodes_performAll (calls : List (SetterCall K)) (b : SceneBuilder K) :
    (performAll SetterCall.perform calls b).nodes.length = b.nodes.length := by
  induction calls generalizing b with
  | nil => rfl
  | cons call calls ih => rw [performAll_cons, ih, length_nodes_perform]

/-- Calls leave a node alone that none of them addresses. -/
theorem performAll_frame {i : ℕ} {calls : List (SetterCall K)} (b : SceneBuilder K)
    (h : ∀ call ∈ calls, call.node ≠ i) :
    (performAll SetterCall.perform calls b).nodes[i]? = b.nodes[i]? := by
  induction calls generalizing b with
  | nil => rfl
  | cons call calls ih =>
    rw [performAll_cons, ih _ fun call' h' => h call' (List.mem_cons_of_mem _ h')]
    exact List.getElem?_modify_ne call.component.store _ (h call List.mem_cons_self)

/-! ### Channels -/

section Channels

variable {model : Gltf.Model} {anim : Gltf.Animation} {time : K} {channel : Gltf.AnimationChannel}

/-- The channel moves its target. -/
def Gltf.AnimationChannel.IsTransform (channel : Gltf.AnimationChannel) : Prop :=
  channel.targetPath = "translation" ∨ channel.targetPath = "rotation" ∨
    channel.targetPath = "scale"

/-- A call addresses the channel's target, whatever its number means, and the
component the channel names. -/
theorem channelCall_eq_some {call : SetterCall K}
    (h : channelCall model anim time channel = .ok (some call)) :
    call.node = toNodeId channel.targetNode ∧ call.component.path = channel.targetPath := by
  have hinv {V : Type} {x : Except Fault V} {mk : V → SetterCall K}
      (h : (x >>= fun v => pure (some (mk v))) = .ok (some call)) : ∃ v, call = mk v := by
    obtain ⟨v, -, hret⟩ := except_bind_eq_ok.mp h
    exact ⟨v, (Option.some.inj (Except.ok.inj hret)).symm⟩
  unfold channelCall at h
  split at h
  · rename_i hpath
    obtain ⟨v, rfl⟩ := hinv h
    exact ⟨rfl, hpath.symm⟩
  · split at h
    · rename_i hpath
      obtain ⟨q, rfl⟩ := hinv h
      exact ⟨rfl, hpath.symm⟩
    · split at h
      · rename_i hpath
        obtain ⟨v, rfl⟩ := hinv h
        exact ⟨rfl, hpath.symm⟩
      · cases Except.ok.inj h

/-- Channels that move their target, and no others, make calls. -/
theorem isTransform_of_channelCall {call : SetterCall K}
    (h : channelCall model anim time channel = .ok (some call)) : channel.IsTransform := by
  unfold Gltf.AnimationChannel.IsTransform
  rw [← (channelCall_eq_some h).2]
  cases call.component with
  | translation v => exact .inl rfl
  | rotation q => exact .inr (.inl rfl)
  | scale v => exact .inr (.inr rfl)

theorem channelCall_eq_none (h : ¬ channel.IsTransform) :
    channelCall model anim time channel = .ok none := by
  unfold channelCall
  rw [if_neg fun hpath => h (.inl hpath), if_neg fun hpath => h (.inr (.inl hpath)),
    if_neg fun hpath => h (.inr (.inr hpath))]
  rfl

/-- The accessors of the sampler hold a time and a value of `width` bytes for each
keyframe. -/
def Gltf.Model.HoldsKeyframes (model : Gltf.Model) (sampler : Gltf.AnimationSampler)
    (width : ℕ) : Prop :=
  ∃ input times output values, model.accessors[sampler.input]? = some input ∧
    model.pointer input = .ok times ∧ input.count * 4 ≤ times.length ∧
    model.accessors[sampler.output]? = some output ∧ model.pointer output = .ok values ∧
    input.count * width ≤ values.length

/-- What the channels of the animation are sampled from is in range. -/
def Gltf.Animation.InRange (anim : Gltf.Animation) (model : Gltf.Model) : Prop :=
  ∀ channel ∈ anim.channels, channel.IsTransform → ∃ sampler,
    anim.samplers[channel.sampler]? = some sampler ∧
      model.HoldsKeyframes sampler (if channel.targetPath = "rotation" then 16 else 12)

/-- The loop over the keyframes succeeds. -/
theorem exists_sampleBetween {V : Type} {times : List UInt8} {value : ℕ → Except Fault V}
    (interpolate : V → V → K → V) (default : V) {n : ℕ} (htimes : n * 4 ≤ times.length)
    (hvalue : ∀ k < n, ∃ v, value k = .ok v) :
    ∀ is : List ℕ, (∀ i ∈ is, i + 1 < n) →
      ∃ v, sampleBetween times value interpolate default time is = .ok v := by
  intro is his
  induction is with
  | nil => exact ⟨default, rfl⟩
  | cons i is ih =>
    have hi : i + 1 < n := his i List.mem_cons_self
    obtain ⟨t0, ht0⟩ := exists_floatAt (K := K) (Nat.lt_of_succ_lt hi) htimes
    obtain ⟨t1, ht1⟩ := exists_floatAt (K := K) hi htimes
    obtain ⟨v0, hv0⟩ := hvalue i (Nat.lt_of_succ_lt hi)
    obtain ⟨v1, hv1⟩ := hvalue (i + 1) hi
    obtain ⟨v, hv⟩ := ih fun i' hi' => his i' (List.mem_cons_of_mem _ hi')
    rw [sampleBetween, ht0, ht1]
    show ∃ v, (if (GlmScene.le t0 time && GlmScene.le time t1) = true then _ else _) = _
    split
    · exact ⟨_, by rw [hv0, hv1]; rfl⟩
    · exact ⟨v, hv⟩

/-- Sampling succeeds. -/
theorem exists_sampleChannel {V : Type} {valueAt : List UInt8 → ℕ → Except Fault V}
    (interpolate : V → V → K → V) (default : V) {samplerIdx width : ℕ}
    {sampler : Gltf.AnimationSampler} (hsampler : anim.samplers[samplerIdx]? = some sampler)
    (hholds : model.HoldsKeyframes sampler width)
    (hvalue : ∀ p k n, k < n → n * width ≤ p.length → ∃ v, valueAt p k = .ok v) :
    ∃ v, sampleChannel model anim samplerIdx valueAt interpolate default time = .ok v := by
  obtain ⟨input, times, output, values, hinput, htimes, htimesLen, houtput, hvalues, hvaluesLen⟩ :=
    hholds
  have hvalue (k : ℕ) (hk : k < input.count) : ∃ v, valueAt values k = .ok v :=
    hvalue values k input.count hk hvaluesLen
  rw [sampleChannel, elem_eq_ok.mpr hsampler]
  show ∃ v, (elem model.accessors sampler.input >>= _) = _
  rw [elem_eq_ok.mpr hinput]
  show ∃ v, (model.pointer input >>= _) = _
  rw [htimes]
  show ∃ v, (elem model.accessors sampler.output >>= _) = _
  rw [elem_eq_ok.mpr houtput]
  show ∃ v, (model.pointer output >>= _) = _
  rw [hvalues]
  show ∃ v, (if input.count = 0 then _ else _) = _
  split
  · exact ⟨default, rfl⟩
  · rename_i hcount
    have hpos : 0 < input.count := Nat.pos_of_ne_zero hcount
    have hlast : input.count - 1 < input.count := Nat.sub_one_lt hcount
    obtain ⟨t, ht⟩ := exists_floatAt (K := K) hpos htimesLen
    obtain ⟨t', ht'⟩ := exists_floatAt (K := K) hlast htimesLen
    rw [ht]
    show ∃ v, (if GlmScene.le time t = true then _ else _) = _
    split
    · exact hvalue 0 hpos
    · rw [ht']
      show ∃ v, (if GlmScene.le t' time = true then _ else _) = _
      split
      · exact hvalue _ hlast
      · exact exists_sampleBetween interpolate default htimesLen hvalue _ fun i hi => by
          have hlt := List.mem_range.mp hi
          omega

/-- A channel that moves its target makes a call. -/
theorem exists_channelCall (time : K) (hrange : anim.InRange model) (hmem : channel ∈ anim.channels)
    (htransform : channel.IsTransform) :
    ∃ call, channelCall model anim time channel = .ok (some call) := by
  obtain ⟨sampler, hsampler, hholds⟩ := hrange channel hmem htransform
  have hvec (hne : channel.targetPath ≠ "rotation") :
      ∃ v : Vec3 K, sampleVec3Channel model anim channel.sampler time = .ok v := by
    rw [if_neg hne] at hholds
    exact exists_sampleChannel _ _ hsampler hholds fun _ _ _ hk hp => exists_vec3At hk hp
  unfold channelCall
  rcases htransform with hpath | hpath | hpath
  · obtain ⟨v, hv⟩ := hvec (by rw [hpath]; decide)
    rw [hpath, if_pos rfl, hv]
    exact ⟨_, rfl⟩
  · rw [if_pos hpath] at hholds
    obtain ⟨q, hq⟩ : ∃ q : Quat K, sampleQuatChannel model anim channel.sampler time = .ok q :=
      exists_sampleChannel _ _ hsampler hholds fun _ _ _ hk hp => exists_quatAt hk hp
    rw [hpath, if_neg (by decide), if_pos rfl, hq]
    exact ⟨_, rfl⟩
  · obtain ⟨v, hv⟩ := hvec (by rw [hpath]; decide)
    rw [hpath, if_neg (by decide), if_neg (by decide), if_pos rfl, hv]
    exact ⟨_, rfl⟩

/-- What a round of the loop does. -/
theorem applyChannel_eq_ok {b b' : SceneBuilder K} :
    applyChannel model anim time b channel = .ok b' ↔
      (channelCall model anim time channel = .ok none ∧ b' = b) ∨
      ∃ call, channelCall model anim time channel = .ok (some call) ∧
        call.node < b.nodes.length ∧ b' = call.perform b := by
  unfold applyChannel
  cases channelCall model anim time channel with
  | error e => exact ⟨nofun, fun h => h.elim (fun h => nomatch h.1) fun ⟨_, h, _⟩ => nomatch h⟩
  | ok o =>
    cases o with
    | none =>
      exact ⟨fun h => .inl ⟨rfl, (Except.ok.inj h).symm⟩,
        fun h => h.elim (fun h => congrArg _ h.2.symm) fun ⟨_, h, _⟩ => nomatch h⟩
    | some call =>
      refine ⟨fun h => .inr ⟨call, rfl, SetterCall.run_eq_ok.mp h⟩, fun h => ?_⟩
      obtain ⟨h, -⟩ | ⟨call', h, hrun⟩ := h
      · cases h
      · obtain rfl := Option.some.inj (Except.ok.inj h)
        exact SetterCall.run_eq_ok.mpr hrun

/-- The calls that are made for some channels. -/
theorem mem_calls {l : List Gltf.AnimationChannel} {call : SetterCall K} :
    (call ∈ l.filterMap fun channel => (channelCall model anim time channel).toOption.join) ↔
      ∃ channel ∈ l, channelCall model anim time channel = .ok (some call) := by
  rw [List.mem_filterMap]
  refine exists_congr fun channel => and_congr_right fun _ => ?_
  cases channelCall model anim time channel with
  | error e => exact ⟨nofun, nofun⟩
  | ok o => exact ⟨congrArg _, Except.ok.inj⟩

/-- The loop over channels in range performs their calls. -/
theorem foldlM_applyChannel_eq {l : List Gltf.AnimationChannel} {b : SceneBuilder K}
    (hrange : anim.InRange model) (hmem : ∀ channel ∈ l, channel ∈ anim.channels)
    (hnode : ∀ channel ∈ l, channel.IsTransform →
      toNodeId channel.targetNode < b.nodes.length) :
    l.foldlM (applyChannel model anim time) b =
      .ok (performAll SetterCall.perform
        (l.filterMap fun channel => (channelCall model anim time channel).toOption.join) b) := by
  induction l generalizing b with
  | nil => rfl
  | cons channel l ih =>
    have hmem' (channel' : Gltf.AnimationChannel) (h : channel' ∈ l) : channel' ∈ anim.channels :=
      hmem channel' (List.mem_cons_of_mem _ h)
    have hnode' (channel' : Gltf.AnimationChannel) (h : channel' ∈ l) :=
      hnode channel' (List.mem_cons_of_mem _ h)
    rw [List.foldlM_cons]
    by_cases htransform : channel.IsTransform
    · obtain ⟨call, hcall⟩ := exists_channelCall time hrange (hmem channel List.mem_cons_self)
        htransform
      have hlt : call.node < b.nodes.length := by
        rw [(channelCall_eq_some hcall).1]
        exact hnode channel List.mem_cons_self htransform
      rw [applyChannel_eq_ok.mpr (.inr ⟨call, hcall, hlt, rfl⟩), List.filterMap_cons_some
        (show _ = some call by rw [hcall]; rfl), performAll_cons]
      exact ih hmem' fun channel' h h' => by
        rw [length_nodes_perform]
        exact hnode' channel' h h'
    · have hnone : channelCall model anim time channel = .ok none :=
        channelCall_eq_none htransform
      rw [applyChannel_eq_ok.mpr (.inl ⟨hnone, rfl⟩), List.filterMap_cons_none
        (by rw [hnone]; rfl)]
      exact ih hmem' hnode'

/-- The loop keeps what every call for the node keeps. -/
theorem foldlM_keep {Q : Node K → Prop} {i : ℕ} {l : List Gltf.AnimationChannel}
    {b b' : SceneBuilder K} (hrun : l.foldlM (applyChannel model anim time) b = .ok b')
    (hb : ∃ n, b.nodes[i]? = some n ∧ Q n)
    (hl : ∀ channel ∈ l, ∀ call, channelCall model anim time channel = .ok (some call) →
      call.node = i → ∀ n, Q n → Q (call.component.store n)) :
    ∃ n, b'.nodes[i]? = some n ∧ Q n := by
  refine foldlM_invariant (P := fun b₁ => ∃ n, b₁.nodes[i]? = some n ∧ Q n) ?_ hb hrun
  intro channel hmem b₁ b₂ ⟨n, hn, hQ⟩ hstep
  obtain ⟨-, rfl⟩ | ⟨call, hcall, -, rfl⟩ := applyChannel_eq_ok.mp hstep
  · exact ⟨n, hn, hQ⟩
  · refine ⟨if call.node = i then call.component.store n else n, ?_, ?_⟩
    · show (b₁.nodes.modify call.node _)[i]? = _
      rw [List.getElem?_modify, hn]
      rfl
    · split
      · rename_i hnode
        exact hl channel hmem call hcall hnode n hQ
      · exact hQ

/-- What a call makes of its node, and the later ones keep, holds after the loop. -/
theorem foldlM_last {Q : Node K → Prop} {earlier later : List Gltf.AnimationChannel}
    {b b' : SceneBuilder K} {call : SetterCall K}
    (hrun : (earlier ++ channel :: later).foldlM (applyChannel model anim time) b = .ok b')
    (hcall : channelCall model anim time channel = .ok (some call))
    (hstore : ∀ n, Q (call.component.store n))
    (hlater : ∀ channel' ∈ later, ∀ call', channelCall model anim time channel' = .ok (some call') →
      call'.node = call.node → ∀ n, Q n → Q (call'.component.store n)) :
    ∃ n, b'.nodes[call.node]? = some n ∧ Q n := by
  rw [List.foldlM_append] at hrun
  obtain ⟨b₁, -, hrun⟩ := except_bind_eq_ok.mp hrun
  rw [List.foldlM_cons] at hrun
  obtain ⟨b₂, hstep, hrest⟩ := except_bind_eq_ok.mp hrun
  obtain ⟨hnone, -⟩ | ⟨call', hcall', hlt, rfl⟩ := applyChannel_eq_ok.mp hstep
  · rw [hcall] at hnone
    cases hnone
  · obtain rfl := Option.some.inj (Except.ok.inj (hcall.symm.trans hcall'))
    refine foldlM_keep hrest ⟨call.component.store b₁.nodes[call.node], ?_, hstore _⟩ hlater
    show (b₁.nodes.modify call.node _)[call.node]? = _
    rw [List.getElem?_modify_eq, List.getElem?_eq_getElem hlt]
    rfl

end Channels

/-! ### The law -/

/-- The builder node that the loader creates from the glTF node with index `j`. -/
def createdNode (F : Forest ℕ) (j : ℕ) : ℕ := F.preorder.idxOf j

/-- The animation moves the nodes its channels name: what is sampled for a channel
is stored by a call for the node created from its target; and afterwards that is
the value in that node, unless a later channel has the same target and path, and
no other node has a new transform. -/
structure MovesTargets (model : Gltf.Model) (anim : Gltf.Animation) (F : Forest ℕ) (time : K)
    (b : SceneBuilder K) : Prop where
  calls : ∀ channel ∈ anim.channels, ∀ call,
    channelCall model anim time channel = .ok (some call) →
      ∀ j ∈ channel.targetNode, call.node = createdNode F j
  after : ∃ b', SceneGraph.updateAnimation ⟨b, some anim, model⟩ time =
      .ok ⟨b', some anim, model⟩ ∧
    (∀ i, (∀ channel ∈ anim.channels, ∀ j ∈ channel.targetNode, createdNode F j ≠ i) →
      (b'.nodes[i]?).map Node.localTransform = (b.nodes[i]?).map Node.localTransform) ∧
    ∀ earlier channel later, anim.channels = earlier ++ channel :: later →
      (∀ channel' ∈ later, channel'.targetNode = channel.targetNode →
        channel'.targetPath ≠ channel.targetPath) →
      ∀ call, channelCall model anim time channel = .ok (some call) →
        ∀ j ∈ channel.targetNode, ∃ n, b'.nodes[createdNode F j]? = some n ∧
          call.component.StoredIn n

section Law

variable {model : Gltf.Model} {scene : Gltf.Scene} {F : Forest ℕ} {anim : Gltf.Animation}
  {time : K} {b : SceneBuilder K}

/-- Where the numbers of the animated nodes agree, the calls are for the nodes
created from the targets, and their ids are valid. -/
theorem movesTargets_of_agree (htargets : ∀ channel ∈ anim.channels, ∃ j ∈ channel.targetNode,
      j ∈ F.preorder) (hsize : b.nodes.length = F.size) (hrange : anim.InRange model)
    (hagree : ∀ channel ∈ anim.channels, channel.IsTransform → ∀ j ∈ channel.targetNode,
      createdNode F j = j) : MovesTargets model anim F time b := by
  have hcalls (channel : Gltf.AnimationChannel) (hmem : channel ∈ anim.channels)
      (call : SetterCall K) (hcall : channelCall model anim time channel = .ok (some call))
      (j : ℕ) (hj : j ∈ channel.targetNode) : call.node = createdNode F j := by
    rw [hagree channel hmem (isTransform_of_channelCall hcall) j hj, (channelCall_eq_some hcall).1,
      hj]
    rfl
  have hvalid (channel : Gltf.AnimationChannel) (hmem : channel ∈ anim.channels)
      (htransform : channel.IsTransform) : toNodeId channel.targetNode < b.nodes.length := by
    obtain ⟨j, hj, hpre⟩ := htargets channel hmem
    have hlt : createdNode F j < F.preorder.length := List.idxOf_lt_length_of_mem hpre
    rw [hagree channel hmem htransform j hj, Forest.length_preorder, ← hsize] at hlt
    rw [hj]
    exact hlt
  obtain ⟨b', hrun, hb'⟩ : ∃ b', anim.channels.foldlM (applyChannel model anim time) b = .ok b' ∧
      b' = performAll SetterCall.perform (anim.channels.filterMap fun channel =>
        (channelCall model anim time channel).toOption.join) b :=
    ⟨_, foldlM_applyChannel_eq hrange (fun _ h => h) hvalid, rfl⟩
  refine ⟨hcalls, b', ?_, fun i hi => ?_,
    fun earlier channel later hsplit hlast call hcall j hj => ?_⟩
  · exact congrArg (fun r : Except Fault (SceneBuilder K) => r >>= fun b =>
      pure (SceneGraph.mk b (some anim) model)) hrun
  -- a node that is nobody's target is not addressed by a call
  · rw [hb', performAll_frame b fun call hcall hnode => ?_]
    obtain ⟨channel, hmem, hsome⟩ := mem_calls.mp hcall
    obtain ⟨j, hj, -⟩ := htargets channel hmem
    exact hi channel hmem j hj ((hcalls channel hmem call hsome j hj).symm.trans hnode)
  -- the channel's call stores the value, and the calls after it keep it
  · have hmem (channel' : Gltf.AnimationChannel) (h : channel' ∈ channel :: later) :
        channel' ∈ anim.channels := hsplit ▸ List.mem_append_right _ h
    have hnode : call.node = createdNode F j :=
      hcalls channel (hmem channel List.mem_cons_self) call hcall j hj
    rw [hsplit] at hrun
    rw [← hnode]
    refine foldlM_last hrun hcall call.component.storedIn_store
      fun channel' hmem' call' hcall' hsame n hstored => hstored.store fun hpath => ?_
    -- a later call for this node and component has the same target and path
    obtain ⟨j', hj', -⟩ := htargets channel' (hmem channel' (List.mem_cons_of_mem _ hmem'))
    have hsameNode : toNodeId channel'.targetNode = toNodeId channel.targetNode := by
      rw [← (channelCall_eq_some hcall').1, ← (channelCall_eq_some hcall).1, hsame]
    rw [hj', hj] at hsameNode
    refine hlast channel' hmem' (by rw [hj', hj]; exact congrArg some hsameNode) ?_
    rw [← (channelCall_eq_some hcall').2, ← (channelCall_eq_some hcall).2, hpath]

/-- **The channels move the nodes they name exactly when, for each of their
targets, the place in the file is the place in the depth-first order.** -/
theorem channels_move_targets {depth : ℕ} (hscene : model.chosenScene = some scene)
    (hforest : model.IsForest scene F) (hrange : model.InRange scene.nodes)
    (hdepth : F.size ≤ depth)
    (htriangles : ∀ j, model.Reachable scene j → model.nonTriangle j = false)
    (hanim : model.animations.head? = some anim) (hsamplers : anim.InRange model)
    (htargets : ∀ channel ∈ anim.channels, ∃ j ∈ channel.targetNode, model.Reachable scene j)
    (time : K) :
    ∃ b : SceneBuilder K, fromGltf model depth = .ok ⟨b, some anim, model⟩ ∧
      KeepsHierarchy model scene b (createdNode F) ∧
      (MovesTargets model anim F time b ↔
        ∀ channel ∈ anim.channels, channel.IsTransform → ∀ j ∈ channel.targetNode,
          createdNode F j = j) := by
  obtain ⟨b, hload, -, htable⟩ := fromGltf_table (K := K) hscene hforest.unfolds hrange hdepth
  have hpruned : F.prune model.nonTriangle = F := hforest.unfolds.prune_eq_self fun j hj htrue => by
    rw [htriangles j (hforest.unfolds.mem_preorder_iff.mp hj)] at htrue
    cases htrue
  rw [hpruned] at htable
  have hkept : KeepsHierarchy model scene b (createdNode F) :=
    keepsHierarchy_of_table hforest htable
  refine ⟨b, hanim ▸ hload, hkept, fun hmoves channel hmem htransform j hj => ?_, fun hagree => ?_⟩
  · obtain ⟨call, hcall⟩ := exists_channelCall time hsamplers hmem htransform
    rw [← hmoves.calls channel hmem call hcall j hj, (channelCall_eq_some hcall).1, hj]
    rfl
  · refine movesTargets_of_agree (fun channel hmem => ?_) (hkept.size_eq hforest) hsamplers hagree
    obtain ⟨j, hj, hreach⟩ := htargets channel hmem
    exact ⟨j, hj, hforest.unfolds.mem_preorder_iff.mpr hreach⟩

end Law

/-- Two nodes, the first of them animated. The roots may be listed in any order. -/
def animatedPair (roots : List ℕ) : Gltf.Model where
  nodes := [{ name := "moving" }, { name := "still" }]
  scenes := [⟨roots⟩]
  defaultScene := some 0
  accessors := [{ bufferView := some 0, componentType := .float, count := 1 },
    { bufferView := some 0, byteOffset := 4, componentType := .float, count := 1 }]
  bufferViews := [{ buffer := 0 }]
  -- the time 0 and the translation (1, 0, 0)
  buffers := [⟨[0, 0, 0, 0, 0, 0, 0x80, 0x3F, 0, 0, 0, 0, 0, 0, 0, 0]⟩]
  animations := [⟨[{ sampler := 0, targetNode := some 0, targetPath := "translation" }], [⟨0, 1⟩]⟩]

/-- Its animation. -/
def moveFirst : Gltf.Animation :=
  ⟨[{ sampler := 0, targetNode := some 0, targetPath := "translation" }], [⟨0, 1⟩]⟩

theorem moveFirst_inRange (roots : List ℕ) : moveFirst.InRange (animatedPair roots) := by
  intro channel hmem _
  obtain rfl := List.mem_singleton.mp hmem
  exact ⟨_, rfl, _, _, _, _, rfl, rfl, by decide, rfl, rfl, by decide⟩

theorem animatedPair_inRange (roots : List ℕ) : (animatedPair roots).InRange roots := by
  intro j _ gltfNode hj m hm
  match j, hj with
  | 0, hj => rw [← Option.some.inj hj] at hm; cases hm
  | 1, hj => rw [← Option.some.inj hj] at hm; cases hm

theorem animatedPair_triangles (roots : List ℕ) (j : ℕ) :
    (animatedPair roots).nonTriangle j = false :=
  match j with
  | 0 => rfl
  | 1 => rfl
  | _ + 2 => rfl

theorem animatedPair_isForest {i j : ℕ} (hne : i ≠ j)
    (hi : (animatedPair [i, j]).children i = some [])
    (hj : (animatedPair [i, j]).children j = some []) :
    (animatedPair [i, j]).IsForest ⟨[i, j]⟩ (.cons i .nil (.cons j .nil .nil)) where
  unfolds := .cons hi .nil (.cons hj .nil .nil)
  nodup := by
    show [i, j].Nodup
    simp [hne]

theorem channels_move_targets_inOrder : ∃ b : SceneBuilder ℚ,
    fromGltf (animatedPair [0, 1]) 2 = .ok ⟨b, some moveFirst, animatedPair [0, 1]⟩ ∧
      MovesTargets (animatedPair [0, 1]) moveFirst (.cons 0 .nil (.cons 1 .nil .nil)) 0 b := by
  have hscene : (animatedPair [0, 1]).chosenScene = some ⟨[0, 1]⟩ := rfl
  obtain ⟨b, hload, -, hiff⟩ := channels_move_targets (K := ℚ) hscene
    (animatedPair_isForest (by decide) rfl rfl) (animatedPair_inRange _) (le_refl 2)
    (fun j _ => animatedPair_triangles _ j) (show _ = some moveFirst from rfl) (moveFirst_inRange _)
    (fun channel hmem => by
      obtain rfl := List.mem_singleton.mp hmem
      exact ⟨0, rfl, .root List.mem_cons_self⟩) 0
  refine ⟨b, hload, hiff.mpr fun channel hmem _ j hj => ?_⟩
  obtain rfl := List.mem_singleton.mp hmem
  obtain rfl := Option.some.inj hj
  rfl

/-- The nodes' names and translations, at a time. -/
def translationsAt (model : Gltf.Model) (time : ℚ) : Except Fault (List (String × Vec3 ℚ)) := do
  let graph ← fromGltf model model.nodes.length
  let graph ← graph.updateAnimation time
  pure (graph.builder.nodes.map fun n => (n.name, n.translation))

/-- The roots are listed the other way round, and the translation of the first
node is stored in the second. -/
theorem not_channelsMoveTargets :
    (animatedPair [1, 0]).IsForest ⟨[1, 0]⟩ (.cons 1 .nil (.cons 0 .nil .nil)) ∧
    (animatedPair [1, 0]).InRange [1, 0] ∧ moveFirst.InRange (animatedPair [1, 0]) ∧
    (∃ b : SceneBuilder ℚ,
      fromGltf (animatedPair [1, 0]) 2 = .ok ⟨b, some moveFirst, animatedPair [1, 0]⟩ ∧
      ¬ MovesTargets (animatedPair [1, 0]) moveFirst (.cons 1 .nil (.cons 0 .nil .nil)) 0 b) ∧
    translationsAt (animatedPair [1, 0]) 0 = .ok [("still", ⟨1, 0, 0⟩), ("moving", ⟨0, 0, 0⟩)] := by
  refine ⟨animatedPair_isForest (by decide) rfl rfl, animatedPair_inRange _, moveFirst_inRange _,
    ⟨_, rfl, fun hmoves => ?_⟩, by decide +kernel⟩
  obtain ⟨call, hcall⟩ := exists_channelCall (0 : ℚ) (moveFirst_inRange [1, 0])
    List.mem_cons_self (.inl rfl)
  have hnode := hmoves.calls _ List.mem_cons_self call hcall 0 rfl
  rw [(channelCall_eq_some hcall).1] at hnode
  exact absurd hnode (by decide)

end Pathological.RenderWorker
