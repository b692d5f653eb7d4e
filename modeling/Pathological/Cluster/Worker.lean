import Pathological.Scheduler.State

/-!
# Render workers

The two things of a render worker that the scheduler talks to: the process
(`main.cpp`), which connects, serves and disconnects, and its `RenderJob`
handlers (`render_server.cpp`), one for each call it received. Both are state
machines over a program counter.

The handler can throw at every point of its try block. Rendering itself is the
event that `generateScene` returns, and the upload is the event that
`putObject` returns, with the result the handler ignores; `uploaded` remembers
the key of a successful upload, which the handler does not.
-/

namespace Pathological

open Framework

/-! ### The request -/

/-- `render_server::RenderJobRequest`. -/
structure RenderJobRequest where
  sceneLocation : String
  outputName : String
  width : UInt32
  height : UInt32
  samples : UInt32
  time : FrameTime
  jobId : JobId
  frameIndex : ℕ
  deriving DecidableEq, Repr

/-- The request `RenderWorkerClient::RenderJob` assembles. -/
def renderJobRequest (render : RenderRequest) (jobId : JobId) (frameIndex : ℕ)
    (time : FrameTime) : RenderJobRequest where
  sceneLocation := render.sceneFileUrl
  outputName := render.outputFileName
  width := UInt32.ofInt render.width
  height := UInt32.ofInt render.height
  samples := UInt32.ofInt render.samplesPerPixel
  time := time
  jobId := jobId
  frameIndex := frameIndex

/-- The key the handler uploads to, `{output}_{frame_index}`. -/
def RenderJobRequest.jobName (r : RenderJobRequest) : String :=
  r.outputName ++ "_" ++ toString r.frameIndex

/-- The worker's key for a frame is the scheduler's. -/
theorem renderJobRequest_jobName (render : RenderRequest) (j : JobId) (i : ℕ) (time : FrameTime) :
    (renderJobRequest render j i time).jobName = render.frameKey i := rfl

/-! ### `RenderServer::RenderJob` -/

/-- `enum Status` of `render_server.proto`. -/
inductive JobStatus where
  | completed
  | inProgress
  | inQueue
  | error
  deriving DecidableEq, Repr

/-- Where a `RenderJob` handler stands. `ok` is the path: the try block, or the
catch branch. -/
inductive HandlerPc where
  | generateScene
  | putObject
  | remove
  | updateJobStatus (ok : Bool)
  /-- About to call `JobCompleted`. -/
  | jobCompleted (ok : Bool)
  /-- The `JobCompleted` call is outstanding. -/
  | awaiting (ok : Bool)
  /-- `JobCompleted` has returned, with whatever outcome. -/
  | reply (ok : Bool)
  /-- Returned OK, or INTERNAL. -/
  | returned (ok : Bool)
  deriving DecidableEq, Repr

/-- A `RenderJob` handler: the process it runs in, the request and the job
entry, and where it stands. -/
structure RenderCall where
  worker : WorkerId
  gen : ℕ
  request : RenderJobRequest
  status : JobStatus
  /-- The key `putObject` has returned true for. -/
  uploaded : Option String
  pc : HandlerPc
  deriving DecidableEq, Repr

/-- What happens inside a handler. -/
inductive HandlerEvent where
  | generateScene
  | putObject (success : Bool)
  | remove
  | updateJobStatus
  /-- An exception leaves the try block. -/
  | throw
  /-- The `JobCompleted` call fails before the scheduler sees it. -/
  | jobCompletedLost
  /-- The `JobCompleted` call returns; its status is only logged. -/
  | jobCompletedReturned
  | reply
  deriving DecidableEq, Repr

/-- The handler is inside its try block. -/
def HandlerPc.inTry : HandlerPc → Bool
  | .generateScene | .putObject | .remove => true
  | .updateJobStatus ok | .jobCompleted ok | .awaiting ok | .reply ok => ok
  | .returned _ => false

/-- A step inside a handler. -/
def RenderCall.step (c : RenderCall) : HandlerEvent → Option RenderCall
  | .generateScene => if c.pc = .generateScene then some { c with pc := .putObject } else none
  | .putObject success =>
    -- the handler goes on either way
    if c.pc = .putObject then
      some { c with
        pc := .remove
        uploaded := if success then some c.request.jobName else c.uploaded }
    else none
  | .remove => if c.pc = .remove then some { c with pc := .updateJobStatus true } else none
  | .updateJobStatus =>
    match c.pc with
    -- COMPLETED at the end of the try block, ERROR in the catch branch
    | .updateJobStatus ok =>
      some { c with pc := .jobCompleted ok, status := if ok then .completed else .error }
    | _ => none
  -- from anywhere in the try block to the catch branch
  | .throw => if c.pc.inTry then some { c with pc := .updateJobStatus false } else none
  | .jobCompletedLost =>
    match c.pc with
    -- the client logs the failure, and the handler returns as planned
    | .jobCompleted ok => some { c with pc := .reply ok }
    | _ => none
  | .jobCompletedReturned =>
    match c.pc with
    | .awaiting ok => some { c with pc := .reply ok }
    | _ => none
  | .reply =>
    match c.pc with
    | .reply ok => some { c with pc := .returned ok }
    | _ => none

/-- A handler keeps its process and its request; it comes to its upload only
from `generateScene`, and an upload stays unless `putObject` succeeds again. -/
theorem RenderCall.step_spec {c c' : RenderCall} {e : HandlerEvent} (h : c.step e = some c') :
    c'.worker = c.worker ∧ c'.gen = c.gen ∧ c'.request = c.request ∧
      (c'.pc = .putObject → e = .generateScene) ∧
      (c'.uploaded = c.uploaded ∨
        e = .putObject true ∧ c.pc = .putObject ∧ c'.uploaded = some c.request.jobName) := by
  cases e <;> simp only [RenderCall.step] at h
  -- the upload is the one event that writes more than the program counter and the job's status
  case putObject success =>
    split at h
    · next hpc =>
      obtain rfl := Option.some.inj h
      refine ⟨rfl, rfl, rfl, nofun, ?_⟩
      cases success with
      | true => exact Or.inr ⟨rfl, hpc, rfl⟩
      | false => exact Or.inl rfl
    · cases h
  case generateScene =>
    split at h
    · obtain rfl := Option.some.inj h
      exact ⟨rfl, rfl, rfl, fun _ => rfl, Or.inl rfl⟩
    · cases h
  all_goals
    split at h
    · obtain rfl := Option.some.inj h
      exact ⟨rfl, rfl, rfl, nofun, Or.inl rfl⟩
    · cases h

/-! ### `main` -/

/-- Where a worker process stands. -/
inductive ProcessPc where
  /-- Not running. -/
  | down
  /-- In `EstablishConnection`, the request on its way. -/
  | connecting
  /-- The scheduler handles the request, as its handler `t`. -/
  | awaiting (t : ThreadId)
  /-- Connected; about to start its server. -/
  | starting
  | serving
  /-- In `Disconnect`, the server still running. -/
  | disconnecting
  /-- In `Shutdown`, which lets running handlers finish. -/
  | draining
  deriving DecidableEq, Repr

/-- A worker process; `gen` counts the processes that have run under its name. -/
structure Process where
  info : WorkerInfo
  gen : ℕ
  pc : ProcessPc
  deriving DecidableEq, Repr

/-- What happens to a process besides the messages it sends. -/
inductive ProcessEvent where
  /-- The OK reply of `EstablishConnection` arrives. -/
  | established
  /-- `EstablishConnection` fails: `main` returns 1. -/
  | establishFailed
  | serve
  /-- The `Disconnect` call fails before the scheduler sees it. -/
  | disconnectLost
  | disconnectReturned
  | exit
  | crash
  deriving DecidableEq, Repr

/-- A step of a process. -/
def Process.step (p : Process) : ProcessEvent → Option Process
  | .established =>
    match p.pc with
    | .awaiting _ => some { p with pc := .starting }
    | _ => none
  | .establishFailed =>
    match p.pc with
    | .connecting | .awaiting _ => some { p with pc := .down }
    | _ => none
  | .serve => if p.pc = .starting then some { p with pc := .serving } else none
  -- `shutdownServer` calls `Shutdown` whatever became of `Disconnect`
  | .disconnectLost => if p.pc = .serving then some { p with pc := .draining } else none
  | .disconnectReturned => if p.pc = .disconnecting then some { p with pc := .draining } else none
  | .exit => if p.pc = .draining then some { p with pc := .down } else none
  | .crash => some { p with pc := .down }

/-- A process keeps its name and address; it starts when its `EstablishConnection`
has returned, serves after that, and goes down. -/
theorem Process.step_spec {p p' : Process} {e : ProcessEvent} (h : p.step e = some p') :
    p'.info = p.info ∧
      ((e = .established ∧ (∃ t, p.pc = .awaiting t) ∧ p'.pc = .starting) ∨
        (p.pc = .starting ∧ p'.pc = .serving) ∨ p'.pc = .draining ∨ p'.pc = .down) := by
  cases e <;> simp only [Process.step] at h
  case established =>
    split at h
    · next t hpc =>
      obtain rfl := Option.some.inj h
      exact ⟨rfl, Or.inl ⟨rfl, ⟨t, hpc⟩, rfl⟩⟩
    · cases h
  case establishFailed =>
    split at h
    · obtain rfl := Option.some.inj h
      exact ⟨rfl, Or.inr (Or.inr (Or.inr rfl))⟩
    · obtain rfl := Option.some.inj h
      exact ⟨rfl, Or.inr (Or.inr (Or.inr rfl))⟩
    · cases h
  case serve =>
    split at h
    · next hpc =>
      obtain rfl := Option.some.inj h
      exact ⟨rfl, Or.inr (Or.inl ⟨hpc, rfl⟩)⟩
    · cases h
  case crash =>
    obtain rfl := Option.some.inj h
    exact ⟨rfl, Or.inr (Or.inr (Or.inr rfl))⟩
  case exit =>
    split at h
    · obtain rfl := Option.some.inj h
      exact ⟨rfl, Or.inr (Or.inr (Or.inr rfl))⟩
    · cases h
  all_goals
    split at h
    · obtain rfl := Option.some.inj h
      exact ⟨rfl, Or.inr (Or.inr (Or.inl rfl))⟩
    · cases h

/-- The process accepts `RenderJob` calls. -/
def ProcessPc.listening : ProcessPc → Bool
  | .serving | .disconnecting => true
  | _ => false

/-- The handlers of the process run. -/
def ProcessPc.running : ProcessPc → Bool
  | .serving | .disconnecting | .draining => true
  | _ => false

end Pathological
