import Mathlib.Data.Int.Notation
import Pathological.Framework.Fallible

/-!
# Render requests

The record a client's submission becomes (`renderRequest.cpp`,
`renderStatus.hpp`) and the payload it is built from
(`RequestController::createRenderRequest`).

C `int` fields are integers: every arithmetic the scheduler does on them is
guarded, so no bound on them is used. An identifier (`boost::uuids::uuid`) is
its string form, which `to_string` and `string_generator` translate to and from
one to one.

A setter that throws returns `Except.error` with the text of the exception.
-/

namespace Pathological

/-- A render's `boost::uuids::uuid`, in its string form. -/
abbrev RenderId := String

/-- `enum class RenderStatus` of `renderStatus.hpp`. -/
inductive RenderStatus where
  | completed
  | inProgress
  | inQueue
  | error
  deriving DecidableEq, Repr

/-- `class RenderRequest`, with the values its default constructor gives. -/
structure RenderRequest where
  id : RenderId
  status : RenderStatus := .inQueue
  width : ℤ := 0
  height : ℤ := 0
  framesPerSecond : ℤ := 0
  animationRuntime : ℤ := 0
  framesCompleted : ℤ := 0
  executionTime : ℤ := 0
  samplesPerPixel : ℤ := 0
  sceneFileUrl : String := ""
  createdAt : String := ""
  outputFileName : String := ""
  downloadLink : Option String := none
  downloadLinks : List String := []
  deriving DecidableEq, Repr

namespace RenderRequest

/-! ### Setters -/

/-- The guard four of the setters share: a negative value throws. -/
def guardNonneg (value : ℤ) (message : String) (r : RenderRequest) :
    Except String RenderRequest :=
  if value < 0 then .error message else .ok r

def setStatus (status : RenderStatus) (r : RenderRequest) : RenderRequest :=
  { r with status }

def setWidth (w : ℤ) (r : RenderRequest) : Except String RenderRequest :=
  guardNonneg w "Width must be greater than or equal to zero." { r with width := w }

def setHeight (h : ℤ) (r : RenderRequest) : Except String RenderRequest :=
  guardNonneg h "Height must be greater than or equal to zero." { r with height := h }

def setFramesPerSecond (fps : ℤ) (r : RenderRequest) : Except String RenderRequest :=
  guardNonneg fps "Frames per second must be greater than 0." { r with framesPerSecond := fps }

def setAnimationRuntimeInFrames (frames : ℤ) (r : RenderRequest) :
    Except String RenderRequest :=
  guardNonneg frames "Frames must be greater than zero." { r with animationRuntime := frames }

def setFramesCompleted (frames : ℤ) (r : RenderRequest) : Except String RenderRequest :=
  guardNonneg frames "Frames must be greater than zero." { r with framesCompleted := frames }

/-- Unlike its siblings, this setter has no guard. -/
def setSamplesPerPixel (s : ℤ) (r : RenderRequest) : RenderRequest :=
  { r with samplesPerPixel := s }

def setSceneFileUrl (url : String) (r : RenderRequest) : RenderRequest :=
  { r with sceneFileUrl := url }

def setCreatedAtTimestamp (time : String) (r : RenderRequest) : RenderRequest :=
  { r with createdAt := time }

def setOutputFileName (name : String) (r : RenderRequest) : RenderRequest :=
  { r with outputFileName := name }

def setDownloadLink (link : Option String) (r : RenderRequest) : RenderRequest :=
  { r with downloadLink := link }

def setDownloadLinks (links : List String) (r : RenderRequest) : RenderRequest :=
  { r with downloadLinks := links }

theorem guardNonneg_eq_ok {value : ℤ} {message : String} {r r' : RenderRequest} :
    guardNonneg value message r = .ok r' ↔ 0 ≤ value ∧ r = r' := by
  unfold guardNonneg
  split
  · simp; omega
  · simp; omega

/-- A count of frames is never refused. -/
@[simp] theorem setFramesCompleted_natCast (n : ℕ) (r : RenderRequest) :
    r.setFramesCompleted n = .ok { r with framesCompleted := n } :=
  guardNonneg_eq_ok.mpr ⟨Int.natCast_nonneg n, rfl⟩

/-- The number of frames `addJob` splits the render into. -/
def totalFrames (r : RenderRequest) : ℕ := r.animationRuntime.toNat

/-- The S3 key of a frame, `output_filename` + `_` + index. -/
def frameKey (r : RenderRequest) (frameIndex : ℕ) : String :=
  r.outputFileName ++ "_" ++ toString frameIndex

/-- What a submission fixes: the record without the fields the scheduler
writes while the render runs. -/
def submitted (r : RenderRequest) : RenderRequest :=
  { r with status := .inQueue, framesCompleted := 0, downloadLink := none, downloadLinks := [] }

theorem totalFrames_congr {r r' : RenderRequest} (h : r'.submitted = r.submitted) :
    r'.totalFrames = r.totalFrames := by
  have hsub : r'.submitted.totalFrames = r.submitted.totalFrames := by rw [h]
  exact hsub

theorem frameKey_congr {r r' : RenderRequest} (h : r'.submitted = r.submitted) :
    r'.frameKey = r.frameKey := by
  have hsub : r'.submitted.frameKey = r.submitted.frameKey := by rw [h]
  exact hsub

end RenderRequest

/-! ### Building a request from a payload -/

/-- The fields `createRenderRequest` reads from the JSON payload. A numeric
field is what `asInt` returns and a text field what `asString` returns, or the
text of the exception the conversion throws. -/
structure RenderPayload where
  width : Except String ℤ
  height : Except String ℤ
  framesPerSecond : Except String ℤ
  animationRuntime : Except String ℤ
  samplesPerPixel : Except String ℤ
  sceneFileUrl : Except String String
  outputFilename : Except String String

/-- The setter chain of `createRenderRequest`, in its order. -/
def RenderRequest.ofPayload (id : RenderId) (payload : RenderPayload) (timestamp : String) :
    Except String RenderRequest := do
  let render : RenderRequest := { id }
  let render ← render.setWidth (← payload.width)
  let render ← render.setHeight (← payload.height)
  let render := render.setStatus .inQueue
  let render ← render.setFramesPerSecond (← payload.framesPerSecond)
  let render ← render.setAnimationRuntimeInFrames (← payload.animationRuntime)
  let render := render.setSamplesPerPixel (← payload.samplesPerPixel)
  let render := render.setCreatedAtTimestamp timestamp
  let render := render.setSceneFileUrl (← payload.sceneFileUrl)
  return render.setOutputFileName (← payload.outputFilename)

/-- **Inverting the setter chain.** An accepted payload has all its fields
convertible and its guarded fields nonnegative, and the record is the default
one with those fields set. -/
theorem RenderRequest.ofPayload_eq_ok {id : RenderId} {payload : RenderPayload}
    {timestamp : String} {r : RenderRequest} (h : ofPayload id payload timestamp = .ok r) :
    ∃ w hgt fps frames spp scene output,
      payload.width = .ok w ∧ payload.height = .ok hgt ∧ payload.framesPerSecond = .ok fps ∧
      payload.animationRuntime = .ok frames ∧ payload.samplesPerPixel = .ok spp ∧
      payload.sceneFileUrl = .ok scene ∧ payload.outputFilename = .ok output ∧
      0 ≤ w ∧ 0 ≤ hgt ∧ 0 ≤ fps ∧ 0 ≤ frames ∧
      r = { id, width := w, height := hgt, framesPerSecond := fps, animationRuntime := frames,
            samplesPerPixel := spp, sceneFileUrl := scene, createdAt := timestamp,
            outputFileName := output } := by
  unfold ofPayload at h
  simp only [Framework.except_bind_eq_ok, setWidth, setHeight, setFramesPerSecond,
    setAnimationRuntimeInFrames, guardNonneg_eq_ok] at h
  obtain ⟨w, hw, _, ⟨hw0, rfl⟩, hgt, hh, _, ⟨hh0, rfl⟩, fps, hf, _, ⟨hf0, rfl⟩, frames, hr, _,
    ⟨hr0, rfl⟩, spp, hs, scene, hsc, output, ho, hret⟩ := h
  refine ⟨w, hgt, fps, frames, spp, scene, output, hw, hh, hf, hr, hs, hsc, ho, hw0, hh0, hf0,
    hr0, ?_⟩
  exact (Except.ok.inj hret).symm

section Accepted

variable {id : RenderId} {payload : RenderPayload} {timestamp : String} {r : RenderRequest}
  (h : RenderRequest.ofPayload id payload timestamp = .ok r)

include h

theorem RenderRequest.id_of_ofPayload : r.id = id := by
  obtain ⟨_, _, _, _, _, _, _, -, -, -, -, -, -, -, -, -, -, -, rfl⟩ := ofPayload_eq_ok h
  rfl

/-- The fields the scheduler writes while the render runs have their defaults. -/
theorem RenderRequest.submitted_of_ofPayload : r.submitted = r := by
  obtain ⟨_, _, _, _, _, _, _, -, -, -, -, -, -, -, -, -, -, -, rfl⟩ := ofPayload_eq_ok h
  rfl

theorem RenderRequest.status_of_ofPayload : r.status = .inQueue := by
  rw [← submitted_of_ofPayload h]
  rfl

end Accepted

end Pathological
