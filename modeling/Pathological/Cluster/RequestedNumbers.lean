import Mathlib.Algebra.Group.Int.Defs
import Pathological.Cluster.Completion

/-!
# The numbers of a request

The numbers a client submits are JSON values, then `int` fields of a
`RenderRequest`, then `uint32_t` fields of the message a worker is sent. The cast to
unsigned keeps the numbers that are not negative, and the setters refuse the
others, except for `setSamplesPerPixel`: a negative number of samples is accepted, and
sent as that number modulo `2 ^ 32`. So a worker renders what was asked for
(`rendered_as_asked_iff`) exactly for the payloads whose samples are not negative, that
are refused for another of their fields, or that have no frames.
-/

namespace Pathological

open Framework

/-! ### What is asked for -/

/-- The numbers of the request are the integers of the payload, and its frame is one of
the payload's. -/
structure RenderJobRequest.Carries (request : RenderJobRequest) (payload : RenderPayload) :
    Prop where
  width : payload.width = .ok (request.width.toNat : ℤ)
  height : payload.height = .ok (request.height.toNat : ℤ)
  samples : payload.samplesPerPixel = .ok (request.samples.toNat : ℤ)
  frameIndex : ∃ frames, payload.animationRuntime = .ok frames ∧
    (request.frameIndex : ℤ) < frames

namespace RenderPayload

/-- The fields `asInt` is called on. -/
def numbers (payload : RenderPayload) : List (Except String ℤ) :=
  [payload.width, payload.height, payload.framesPerSecond, payload.animationRuntime,
    payload.samplesPerPixel]

/-- What `asInt` returns is a 32-bit `int`. -/
def Int32Numbers (payload : RenderPayload) : Prop :=
  ∀ field ∈ payload.numbers, ∀ v, field = .ok v → -2 ^ 31 ≤ v ∧ v < 2 ^ 31

/-- The payload has no frames, or they can be sent as it asks for them. -/
def Renderable (payload : RenderPayload) : Prop :=
  payload.animationRuntime = .ok 0 ∨ ∃ request : RenderJobRequest, request.Carries payload

/-- Every field but the number of samples is one `createRenderRequest` accepts. -/
structure OthersAccepted (payload : RenderPayload) : Prop where
  width : ∃ w, payload.width = .ok w ∧ 0 ≤ w
  height : ∃ h, payload.height = .ok h ∧ 0 ≤ h
  framesPerSecond : ∃ fps, payload.framesPerSecond = .ok fps ∧ 0 ≤ fps
  animationRuntime : ∃ frames, payload.animationRuntime = .ok frames ∧ 0 ≤ frames
  sceneFileUrl : ∃ url, payload.sceneFileUrl = .ok url
  outputFilename : ∃ name, payload.outputFilename = .ok name

/-- A negative number of samples comes with no frames, or with another field that is
refused. -/
def SamplesChecked (payload : RenderPayload) : Prop :=
  ∀ spp, payload.samplesPerPixel = .ok spp → spp < 0 →
    payload.animationRuntime = .ok 0 ∨ ¬ payload.OthersAccepted

end RenderPayload

/-- The run has a submission of the payload that was answered with 201, for this render. -/
def Submitted (tr : List Label) (id : RenderId) (payload : RenderPayload) : Prop :=
  ∃ timestamp render, .createRenderRequest id payload timestamp ∈ tr ∧
    RenderRequest.ofPayload id payload timestamp = .ok render

/-- **What the client asked for is what the worker renders.** -/
structure RenderedAsAsked (env : Env) (payload : RenderPayload) : Prop where
  /-- The request of every frame that is dispatched carries the payload, -/
  dispatched : ∀ {tr s id j d}, (cluster env).Reaches tr s → Submitted (schedTrace tr) id payload →
    s.sched.dispatchThreads.lookup j = some d → d.frameJob.renderRequest = id →
    ∃ render, s.sched.history.lookup id = some render ∧
      (renderJobRequest render j d.frameJob.frameIndex d.frameJob.time).Carries payload
  /-- and so does every request that has reached a worker. -/
  received : ∀ {tr s id j d c}, (cluster env).Reaches tr s → Submitted (schedTrace tr) id payload →
    s.sched.dispatchThreads.lookup j = some d → d.frameJob.renderRequest = id →
    s.calls.lookup j = some c → c.request.Carries payload
  /-- A payload for which this cannot be is answered with 400, -/
  refused : ¬ payload.Renderable → ∀ id timestamp,
    ∃ e, RenderRequest.ofPayload id payload timestamp = .error e
  /-- and what is answered with 400 changes nothing. -/
  unchanged : ∀ {s s' id timestamp e}, RenderRequest.ofPayload id payload timestamp = .error e →
    (scheduler env).step s (.createRenderRequest id payload timestamp) = some s' → s' = s

/-! ### The setters -/

section Setters

variable {id : RenderId} {payload : RenderPayload} {timestamp : String} {render : RenderRequest}

theorem RenderRequest.exists_ofPayload {spp : ℤ} (h : payload.OthersAccepted)
    (hspp : payload.samplesPerPixel = .ok spp) (id : RenderId) (timestamp : String) :
    ∃ render, ofPayload id payload timestamp = .ok render := by
  obtain ⟨w, hw, hw0⟩ := h.width
  obtain ⟨hgt, hh, hh0⟩ := h.height
  obtain ⟨fps, hf, hf0⟩ := h.framesPerSecond
  obtain ⟨frames, hr, hr0⟩ := h.animationRuntime
  obtain ⟨url, hurl⟩ := h.sceneFileUrl
  obtain ⟨name, hname⟩ := h.outputFilename
  unfold ofPayload
  simp only [except_bind_eq_ok, setWidth, setHeight, setFramesPerSecond,
    setAnimationRuntimeInFrames, guardNonneg_eq_ok]
  exact ⟨_, w, hw, _, ⟨hw0, rfl⟩, hgt, hh, _, ⟨hh0, rfl⟩, fps, hf, _, ⟨hf0, rfl⟩, frames, hr, _,
    ⟨hr0, rfl⟩, spp, hspp, url, hurl, name, hname, rfl⟩

/-- Without the number of samples, the setters accept what they should. -/
theorem RenderPayload.OthersAccepted.of_ofPayload
    (h : RenderRequest.ofPayload id payload timestamp = .ok render) :
    payload.OthersAccepted := by
  obtain ⟨w, hgt, fps, frames, spp, url, name, hw, hh, hf, hr, -, hurl, hname, hw0, hh0, hf0, hr0,
    -⟩ := RenderRequest.ofPayload_eq_ok h
  exact ⟨⟨w, hw, hw0⟩, ⟨hgt, hh, hh0⟩, ⟨fps, hf, hf0⟩, ⟨frames, hr, hr0⟩, ⟨url, hurl⟩,
    ⟨name, hname⟩⟩

/-- The numbers of a render are those of the payload it was submitted with. -/
theorem RenderRequest.numbers_of_submitted
    (h : ofPayload id payload timestamp = .ok render.submitted) :
    payload.width = .ok render.width ∧ payload.height = .ok render.height ∧
      payload.animationRuntime = .ok render.animationRuntime ∧
      payload.samplesPerPixel = .ok render.samplesPerPixel := by
  obtain ⟨w, hgt, fps, frames, spp, url, name, hw, hh, -, hr, hs, -, -, -, -, -, -, hrender⟩ :=
    ofPayload_eq_ok h
  obtain rfl : render.width = w := congrArg RenderRequest.width hrender
  obtain rfl : render.height = hgt := congrArg RenderRequest.height hrender
  obtain rfl : render.animationRuntime = frames := congrArg RenderRequest.animationRuntime hrender
  obtain rfl : render.samplesPerPixel = spp := congrArg RenderRequest.samplesPerPixel hrender
  exact ⟨hw, hh, hr, hs⟩

end Setters

/-! ### The casts -/

/-- `static_cast<uint32_t>` of an `int`. -/
theorem toNat_ofInt (v : ℤ) : ((UInt32.ofInt v).toNat : ℤ) = v % 2 ^ 32 := by
  have hlt : (v % 2 ^ 32).toNat < 2 ^ 32 := by omega
  rw [UInt32.ofInt, UInt32.toNat_ofNat_of_lt' hlt]
  omega

/-- The cast keeps what is not negative. -/
theorem toNat_ofInt_of_nonneg {v : ℤ} (h0 : 0 ≤ v) (hlt : v < 2 ^ 31) :
    ((UInt32.ofInt v).toNat : ℤ) = v := by
  rw [toNat_ofInt]
  omega

/-- What is sent does not depend on what the scheduler has written since the submission. -/
theorem renderJobRequest_congr {render render' : RenderRequest}
    (h : render'.submitted = render.submitted) (j : JobId) (i : ℕ) (time : FrameTime) :
    renderJobRequest render' j i time = renderJobRequest render j i time :=
  calc renderJobRequest render' j i time = renderJobRequest render'.submitted j i time := rfl
    _ = renderJobRequest render.submitted j i time := by rw [h]
    _ = renderJobRequest render j i time := rfl

/-- A request for one of the payload's frames carries it, when the samples are checked. -/
theorem renderJobRequest_carries {id : RenderId} {payload : RenderPayload} {timestamp : String}
    {render : RenderRequest} {j : JobId} {i : ℕ} {time : FrameTime}
    (hpayload : RenderRequest.ofPayload id payload timestamp = .ok render.submitted)
    (hint : payload.Int32Numbers) (hchecked : payload.SamplesChecked)
    (hi : i < render.totalFrames) : (renderJobRequest render j i time).Carries payload := by
  have hothers := RenderPayload.OthersAccepted.of_ofPayload hpayload
  obtain ⟨hw, hh, hr, hs⟩ := RenderRequest.numbers_of_submitted hpayload
  have hframe : (i : ℤ) < render.animationRuntime := Int.lt_toNat.mp hi
  have hkept {field : Except String ℤ} {v : ℤ} (hfield : field ∈ payload.numbers)
      (hv : field = .ok v) (h0 : 0 ≤ v) : field = .ok ((UInt32.ofInt v).toNat : ℤ) := by
    rw [hv, toNat_ofInt_of_nonneg h0 (hint field hfield v hv).2]
  refine ⟨?_, ?_, ?_, render.animationRuntime, hr, hframe⟩
  · obtain ⟨w, hw', h0⟩ := hothers.width
    obtain rfl := Except.ok.inj (hw.symm.trans hw')
    exact hkept (by simp [RenderPayload.numbers]) hw h0
  · obtain ⟨hgt, hh', h0⟩ := hothers.height
    obtain rfl := Except.ok.inj (hh.symm.trans hh')
    exact hkept (by simp [RenderPayload.numbers]) hh h0
  · refine hkept (by simp [RenderPayload.numbers]) hs (Int.not_lt.mp fun hneg => ?_)
    -- a negative number would be excused by an empty render or another field
    rcases hchecked _ hs hneg with hzero | hrefused
    · have hempty := Except.ok.inj (hr.symm.trans hzero)
      omega
    · exact hrefused hothers

/-! ### Requests in a run -/

variable {env : Env}

/-- A render that was submitted stays in the history, as it was submitted. -/
theorem Submitted.in_history {tr : List Label} {s : State} (hrun : (scheduler env).Reaches tr s)
    {id : RenderId} {payload : RenderPayload} (h : Submitted tr id payload) :
    ∃ timestamp render, s.history.lookup id = some render ∧
      RenderRequest.ofPayload id payload timestamp = .ok render.submitted := by
  obtain ⟨timestamp, render₀, hmem, hpayload⟩ := h
  have hkept : .createRenderRequest id payload timestamp ∈ tr →
      ∃ render, s.history.lookup id = some render ∧ render.submitted = render₀ := by
    refine hrun.invariant (fun tr s => .createRenderRequest id payload timestamp ∈ tr →
      ∃ render, s.history.lookup id = some render ∧ render.submitted = render₀) ?_ ?_
    · intro hnil
      exact absurd hnil List.not_mem_nil
    · intro tr s l s' _ ih _ hstep hmem
      replace hstep := Step.of_step hstep
      rcases List.mem_append.mp hmem with hmem | hlast
      · obtain ⟨render, hrender, hsub⟩ := ih hmem
        obtain ⟨render', hrender', hsub'⟩ := hstep.history hrender
        exact ⟨render', hrender', hsub'.trans hsub⟩
      · obtain rfl := List.mem_singleton.mp hlast
        cases hstep with
        | createRejected hnew hrejected => cases hrejected.symm.trans hpayload
        | createAccepted hnew haccepted =>
          obtain rfl := Except.ok.inj (haccepted.symm.trans hpayload)
          exact ⟨_, AList.lookup_insert _, RenderRequest.submitted_of_ofPayload hpayload⟩
  obtain ⟨render, hrender, rfl⟩ := hkept hmem
  exact ⟨timestamp, render, hrender, hpayload⟩

namespace Cluster

/-- The call's request is the one its job's dispatch thread assembles. -/
def RequestOf (sched : State) (j : JobId) (c : RenderCall) : Prop :=
  ∃ d render, sched.dispatchThreads.lookup j = some d ∧
    sched.history.lookup d.frameJob.renderRequest = some render ∧
    c.request = renderJobRequest render j d.frameJob.frameIndex d.frameJob.time

theorem RequestOf.step {sched sched' : State} {a : Label} {j : JobId} {c : RenderCall}
    (hc : RequestOf sched j c) (h : Step env sched a sched') : RequestOf sched' j c := by
  obtain ⟨d, render, hd, hrender, hrequest⟩ := hc
  obtain ⟨d', hd', -, hframe⟩ := h.dispatched hd
  obtain ⟨render', hrender', hsub⟩ := h.history hrender
  refine ⟨d', render', hd', by rw [hframe]; exact hrender', ?_⟩
  rw [hrequest, hframe, renderJobRequest_congr hsub]

/-- Every request is the one of its job's dispatch thread. -/
def RequestsOf (s : Cluster) : Prop :=
  ∀ j c, s.calls.lookup j = some c → RequestOf s.sched j c

theorem RequestsOf.step {s s' : Cluster} {l : ClusterLabel} (hs : s.RequestsOf)
    (h : ClusterStep env s l s') : s'.RequestsOf := by
  refine h.forall_calls RequestOf hs (fun hc hstep => hc.step hstep) ?_ ?_
  · rintro j c c' ⟨d, render, hd, hrender, hof⟩ hrequest -
    exact ⟨d, render, hd, hrender, hrequest.trans hof⟩
  · intro j d render c hd hrender hrequest _
    exact ⟨d, render, hd, hrender, hrequest⟩

theorem RequestsOf.of_run {C : System.Condition Cluster ClusterLabel} {tr : List ClusterLabel}
    {s : Cluster} (h : (cluster env).Run C tr s) : s.RequestsOf := by
  refine h.invariant (fun _ s => s.RequestsOf) ?_ fun _ hs _ hstep => hs.step (.of_step hstep)
  intro j c hc
  cases hc

end Cluster

section Runs

variable {payload : RenderPayload}

/-- A frame that is dispatched is sent with the payload's numbers, when the samples are
checked. -/
theorem Submitted.carries {tr : List Label} {s : State} (hrun : (scheduler env).Reaches tr s)
    (hint : payload.Int32Numbers) (hchecked : payload.SamplesChecked) {j : JobId}
    {d : DispatchThread} (h : Submitted tr d.frameJob.renderRequest payload)
    (hd : s.dispatchThreads.lookup j = some d) :
    ∃ render, s.history.lookup d.frameJob.renderRequest = some render ∧
      (renderJobRequest render j d.frameJob.frameIndex d.frameJob.time).Carries payload := by
  obtain ⟨timestamp, render, hrender, hpayload⟩ := h.in_history hrun
  obtain ⟨render', hrender', hi, -⟩ := (State.WF.of_run hrun).dispatch_known j d hd
  obtain rfl := Option.some.inj (hrender'.symm.trans hrender)
  exact ⟨render', hrender, renderJobRequest_carries hpayload hint hchecked hi⟩

/-- A payload that is accepted can be rendered, when the samples are checked. -/
theorem RenderPayload.Renderable.of_ofPayload (hint : payload.Int32Numbers)
    (hchecked : payload.SamplesChecked) {id : RenderId} {timestamp : String}
    {render : RenderRequest} (h : RenderRequest.ofPayload id payload timestamp = .ok render) :
    payload.Renderable := by
  rw [← RenderRequest.submitted_of_ofPayload h] at h
  by_cases hframes : 0 < render.totalFrames
  · exact .inr ⟨renderJobRequest render "" 0 ⟨0, 1⟩,
      renderJobRequest_carries h hint hchecked hframes⟩
  · obtain ⟨-, -, hr, -⟩ := RenderRequest.numbers_of_submitted h
    obtain ⟨frames, hr', h0⟩ := (RenderPayload.OthersAccepted.of_ofPayload h).animationRuntime
    obtain rfl := Except.ok.inj (hr.symm.trans hr')
    have hzero : render.animationRuntime = 0 := by
      unfold RenderRequest.totalFrames at hframes
      omega
    exact .inl (by rw [hr, hzero])

/-- **What the client asked for is what the worker renders**, for exactly the payloads
whose number of samples is checked. -/
theorem rendered_as_asked_iff (env : Env) (payload : RenderPayload)
    (hint : payload.Int32Numbers) : RenderedAsAsked env payload ↔ payload.SamplesChecked := by
  constructor
  · intro h spp hspp hneg
    by_contra hoverlooked
    obtain ⟨hframes, hothers⟩ := not_or.mp hoverlooked
    -- no request carries a negative number, and the payload is accepted
    have hunrenderable : ¬ payload.Renderable := by
      rintro (hzero | ⟨request, hcarries⟩)
      · exact hframes hzero
      · have hsamples := Except.ok.inj (hspp.symm.trans hcarries.samples)
        omega
    obtain ⟨e, he⟩ := h.refused hunrenderable "" ""
    obtain ⟨render, hrender⟩ := RenderRequest.exists_ofPayload (not_not.mp hothers) hspp "" ""
    cases he.symm.trans hrender
  · intro hchecked
    refine ⟨?_, ?_, ?_, ?_⟩
    · rintro tr s id j d hrun hsubmitted hd rfl
      exact hsubmitted.carries (Cluster.sched_reaches hrun) hint hchecked hd
    · rintro tr s id j d c hrun hsubmitted hd rfl hc
      obtain ⟨d', render', hd', hrender', hrequest⟩ := Cluster.RequestsOf.of_run hrun j c hc
      obtain rfl := Option.some.inj (hd'.symm.trans hd)
      obtain ⟨render, hrender, hcarries⟩ :=
        hsubmitted.carries (Cluster.sched_reaches hrun) hint hchecked hd'
      obtain rfl := Option.some.inj (hrender'.symm.trans hrender)
      rwa [hrequest]
    · intro hunrenderable id timestamp
      cases hpayload : RenderRequest.ofPayload id payload timestamp with
      | error e => exact ⟨e, rfl⟩
      | ok render => exact absurd (.of_ofPayload hint hchecked hpayload) hunrenderable
    · intro s s' id timestamp e he hstep
      cases Step.of_step hstep with
      | createRejected hnew hrejected => rfl
      | createAccepted hnew haccepted => cases he.symm.trans haccepted

end Runs

theorem rendered_as_asked_samplePayload : RenderedAsAsked sampleEnv (samplePayload 2) := by
  refine (rendered_as_asked_iff sampleEnv (samplePayload 2) ?_).mpr ?_
  · simp [RenderPayload.Int32Numbers, RenderPayload.numbers, samplePayload]
  · intro spp hspp hneg
    obtain rfl : 1 = spp := Except.ok.inj hspp
    omega

/-- The payload of a render of one frame, with a negative number of samples. -/
def negativeSamples : RenderPayload := { samplePayload 1 with samplesPerPixel := .ok (-1) }

/-- It is submitted, and its request reaches a worker. -/
def negativeSamplesSent : List ClusterLabel :=
  let info : WorkerInfo := ⟨"10.0.0.1", "w", 50051⟩
  [.boot info, .sched (.establishConnection 0 info), .sched (.registerWorker 0 "w"),
    .process "w" .established, .process "w" .serve,
    .sched (.createRenderRequest "r" negativeSamples "now"), .sched (.addJobProgress "r"),
    .sched (.addJobQueue "r"), .sched (.assignJob "j"), .deliver "j" "w"]

theorem not_renderedAsAsked : (cluster sampleEnv).Reaches negativeSamplesSent
    ((cluster sampleEnv).after negativeSamplesSent) ∧
    (((cluster sampleEnv).after negativeSamplesSent).calls.lookup "j").map
      (fun c => c.request.samples) = some 4294967295 ∧
    ¬ RenderedAsAsked sampleEnv negativeSamples := by
  have hrun : (cluster sampleEnv).Reaches negativeSamplesSent _ := .after (by decide)
  refine ⟨hrun, by decide, fun hall => ?_⟩
  have hsubmitted : Submitted (schedTrace negativeSamplesSent) "r" negativeSamples :=
    ⟨"now", _, by simp [negativeSamplesSent, schedTrace, ClusterLabel.schedLabel], rfl⟩
  have hcarries := hall.received (j := "j") hrun hsubmitted rfl rfl rfl
  have hsamples := Except.ok.inj hcarries.samples
  omega

end Pathological
