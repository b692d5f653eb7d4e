import Pathological.Framework.Table
import Pathological.Framework.FirstMatch
import Pathological.Scheduler.RenderRequest

/-!
# The scheduler's state and its critical sections

The members of `class Scheduler` and `class RenderHistory`, and the handlers
that are running: a handler is a thread whose position between two of its
critical sections is a program counter. Each critical section of
`scheduler.cpp` is one function here, under the source's name for it.

A `std::shared_ptr<RenderRequest>` is the render's id: every `RenderRequest` a
thread can hold is in `RenderHistory`, which never drops one. Dispatch threads
are keyed by the job id they were started for, the handlers of the other RPCs
by a thread id.
-/

namespace Pathological

open Framework

/-- The name a worker process gives for itself. -/
abbrev WorkerId := String

/-- A job id, minted by `generateJobId`. -/
abbrev JobId := String

/-- The identity of a gRPC handler thread. -/
abbrev ThreadId := ℕ

/-! ### Records -/

/-- `enum class WorkerStatus` of `worker.hpp`. -/
inductive WorkerStatus where
  | idle
  | busy
  | offline
  deriving DecidableEq, Repr

/-- `struct Worker`. -/
structure Worker where
  id : WorkerId
  ip : String
  port : ℕ
  status : WorkerStatus
  deriving DecidableEq, Repr

/-- The `float` quotient of two frame counts, kept as the pair it is taken of. -/
structure FrameTime where
  num : ℕ
  den : ℕ
  deriving DecidableEq, Repr

/-- `struct FrameJobContext`: which frame of which render. -/
structure FrameJobContext where
  renderId : RenderId
  frameIndex : ℕ
  deriving DecidableEq, Repr

/-- `struct FrameJob`. -/
structure FrameJob where
  renderRequest : RenderId
  frameIndex : ℕ
  time : FrameTime
  deriving DecidableEq, Repr

/-- The frame a queued job stands for. -/
def FrameJob.context (f : FrameJob) : FrameJobContext := ⟨f.renderRequest, f.frameIndex⟩

/-- `struct RenderProgress`. -/
structure RenderProgress where
  totalFrames : ℕ := 0
  framesCompleted : ℕ := 0
  frameLinks : List (Option String) := []
  deriving DecidableEq, Repr

/-- `scheduler_server::WorkerInfo`. -/
structure WorkerInfo where
  workerIp : String
  workerId : WorkerId
  port : ℕ
  deriving DecidableEq, Repr

/-- `enum RegistrationStatus` of `scheduler_server.proto`. -/
inductive RegistrationStatus where
  | unknown
  | ok
  | reconnected
  | rejected
  deriving DecidableEq, Repr

/-- What the code calls outside the repository: the AWS SDK's presigned link for
a key, which depends on when it is asked for, and the configured bucket. -/
structure Env where
  createLink : ℕ → String → String
  bucketName : String

/-- `buildDownloadLink`: the presigned link, or the `s3://` fallback. -/
def buildDownloadLink (env : Env) (now : ℕ) (key : String) : Option String :=
  let presigned := env.createLink now key
  -- an empty answer is a failed signing
  if presigned.isEmpty then some ("s3://" ++ env.bucketName ++ "/" ++ key) else some presigned

/-- `link` is what `buildDownloadLink` returned for `key` at some moment. -/
def BuiltLink (env : Env) (key link : String) : Prop :=
  ∃ now, buildDownloadLink env now key = some link

/-- A link is always built. -/
theorem exists_buildDownloadLink (env : Env) (now : ℕ) (key : String) :
    ∃ link, buildDownloadLink env now key = some link ∧ BuiltLink env key link := by
  obtain ⟨link, hlink⟩ : ∃ link, buildDownloadLink env now key = some link := by
    unfold buildDownloadLink
    dsimp only
    split <;> exact ⟨_, rfl⟩
  exact ⟨link, hlink, now, hlink⟩

/-! ### Progress -/

namespace RenderProgress

/-- The entry `addJob` creates. -/
def fresh (totalFrames : ℕ) : RenderProgress :=
  { totalFrames, framesCompleted := 0, frameLinks := List.replicate totalFrames none }

/-- The write of `markRenderCompleted` under `progress_mutex_`: the slot is
filled and counted only when it exists and is still empty. -/
def record (p : RenderProgress) (frameIndex : ℕ) (link : Option String) : RenderProgress :=
  -- an index past the end, or a slot filled by an earlier completion, is skipped
  if p.frameLinks[frameIndex]? = some none then
    { p with
      frameLinks := p.frameLinks.set frameIndex link
      framesCompleted := p.framesCompleted + 1 }
  else p

/-- `allFramesDone`. -/
def done (p : RenderProgress) : Bool := p.totalFrames ≤ p.framesCompleted

/-- `orderedLinks`, with the filler for a slot left empty. -/
def orderedLinks (p : RenderProgress) : List String := p.frameLinks.map (·.getD "")

end RenderProgress

/-- A setter `markRenderCompleted` calls on the render after its last critical
section. -/
inductive Setter where
  | framesCompleted (n : ℕ)
  | downloadLinks (links : List String)
  | downloadLink (link : Option String)
  | status (st : RenderStatus)
  deriving DecidableEq, Repr

/-- The effect of a setter. `setFramesCompleted` takes a cast count, which it
never refuses (`RenderRequest.setFramesCompleted_natCast`). -/
def Setter.apply : Setter → RenderRequest → RenderRequest
  | .framesCompleted n, r => { r with framesCompleted := n }
  | .downloadLinks links, r => r.setDownloadLinks links
  | .downloadLink link, r => r.setDownloadLink link
  | .status st, r => r.setStatus st

@[simp] theorem Setter.apply_submitted (x : Setter) (r : RenderRequest) :
    (x.apply r).submitted = r.submitted := by
  cases x <;> rfl

/-- The setter calls that follow the progress section, in order. -/
def RenderProgress.setters (p : RenderProgress) : List Setter :=
  .framesCompleted p.framesCompleted ::
    if p.done then
      .downloadLinks p.orderedLinks ::
        (p.orderedLinks.head?.toList.map fun link => .downloadLink (some link)) ++
          [.status .completed]
    else []

/-! ### Handler threads -/

/-- Where a `createRenderRequest` handler stands. -/
inductive SubmitPc where
  /-- The render is in the history; `addJob` is about to run. -/
  | addJob
  /-- Between the progress section and the queue section of `addJob`. -/
  | enqueue
  /-- Answered with 201. -/
  | returned
  deriving DecidableEq, Repr

/-- Where an `EstablishConnection` handler stands after its `findWorkerByID`. -/
inductive ConnectPc where
  | register
  | reconnect
  | answered (status : RegistrationStatus)
  deriving DecidableEq, Repr

/-- An `EstablishConnection` handler. -/
structure ConnectThread where
  info : WorkerInfo
  pc : ConnectPc
  deriving DecidableEq, Repr

/-- A `Disconnect` handler of a known worker. -/
structure DisconnectThread where
  workerId : WorkerId
  answered : Bool
  deriving DecidableEq, Repr

/-- Where a `JobCompleted` handler of a known worker stands. -/
inductive CompletionPc where
  /-- About to look the job id up. -/
  | take
  /-- The job id is erased; about to look the render up and build the link. -/
  | link (ctx : FrameJobContext)
  /-- About to enter the progress section. -/
  | record (ctx : FrameJobContext) (link : Option String)
  /-- About to run the remaining setters, then `markWorkerIdle`. -/
  | publish (todo : List (RenderId × Setter))
  | answered
  deriving DecidableEq, Repr

/-- The frame a completion handler holds between its critical sections. -/
def CompletionPc.frame : CompletionPc → Option FrameJobContext
  | .link ctx => some ctx
  | .record ctx _ => some ctx
  | _ => none

/-- A `JobCompleted` handler of a known worker. -/
structure CompletionThread where
  workerId : WorkerId
  jobId : JobId
  pc : CompletionPc
  deriving DecidableEq, Repr

/-- Where a dispatch thread stands. -/
inductive DispatchPc where
  /-- The `RenderJob` call is outstanding. -/
  | calling
  /-- The call failed: the registration is to be erased, -/
  | undo
  /-- then the frame pushed back, -/
  | requeue
  /-- then the worker marked offline. -/
  | offline
  | ended (accepted : Bool)
  deriving DecidableEq, Repr

/-- A dispatch thread, with the values its lambda captured. -/
structure DispatchThread where
  workerId : WorkerId
  workerAddress : String
  frameJob : FrameJob
  pc : DispatchPc
  deriving DecidableEq, Repr

/-- The frame a dispatch thread holds between its critical sections. -/
def DispatchThread.frame (d : DispatchThread) : Option FrameJobContext :=
  if d.pc = .requeue then some d.frameJob.context else none

/-! ### The state -/

/-- The scheduler process. -/
structure State where
  /-- `RenderHistory::history`. -/
  history : Table RenderId RenderRequest
  pendingJobs : List FrameJob
  workers : List Worker
  workerJobToRenderId : Table JobId FrameJobContext
  renderProgress : Table RenderId RenderProgress
  submits : Table RenderId SubmitPc
  connects : Table ThreadId ConnectThread
  disconnects : Table ThreadId DisconnectThread
  completions : Table ThreadId CompletionThread
  dispatchThreads : Table JobId DispatchThread

namespace State

/-- The scheduler before its first request. -/
def initial : State where
  history := ∅
  pendingJobs := []
  workers := []
  workerJobToRenderId := ∅
  renderProgress := ∅
  submits := ∅
  connects := ∅
  disconnects := ∅
  completions := ∅
  dispatchThreads := ∅

/-! ### Workers -/

/-- `findWorkerByID`. -/
def findWorkerByID (s : State) (id : WorkerId) : Option Worker :=
  s.workers.find? fun w => decide (w.id = id)

/-- `findIdleWorker`. -/
def findIdleWorker (s : State) : Option Worker :=
  s.workers.find? fun w => decide (w.status = .idle)

/-- A status written through the pointer `findWorkerByID` returns. -/
def setWorkerStatus (s : State) (id : WorkerId) (status : WorkerStatus) : List Worker :=
  updateFirst (fun w => decide (w.id = id)) (fun w => { w with status }) s.workers

/-- `registerWorker`: an unconditional `push_back`. -/
def registerWorker (s : State) (info : WorkerInfo) : State :=
  { s with workers := s.workers ++ [⟨info.workerId, info.workerIp, info.port, .idle⟩] }

def reconnectWorker (s : State) (id : WorkerId) : State :=
  { s with workers := s.setWorkerStatus id .idle }

def markWorkerOffline (s : State) (id : WorkerId) : State :=
  { s with workers := s.setWorkerStatus id .offline }

def markWorkerIdle (s : State) (id : WorkerId) : State :=
  { s with workers := s.setWorkerStatus id .idle }

/-! ### `addJob` -/

/-- The time of frame `i`: `i / fps`, or `i` when the rate is zero. -/
def frameTime (fps : ℤ) (i : ℕ) : FrameTime :=
  -- no division by a rate of zero, or a negative one
  if 0 < fps then ⟨i, fps.toNat⟩ else ⟨i, 1⟩

/-- The jobs `addJob` pushes, in order. -/
def frameJobs (render : RenderRequest) : List FrameJob :=
  (List.range render.totalFrames).map fun i =>
    ⟨render.id, i, frameTime render.framesPerSecond i⟩

/-- The section of `addJob` under `progress_mutex_`. -/
def addJobProgress (s : State) (render : RenderRequest) : State :=
  { s with renderProgress := s.renderProgress.insert render.id (.fresh render.totalFrames) }

/-- The section of `addJob` under `queue_mutex_`. -/
def addJobQueue (s : State) (render : RenderRequest) : State :=
  { s with pendingJobs := s.pendingJobs ++ frameJobs render }

/-! ### `markRenderCompleted` -/

/-- The section under `job_map_mutex_`: the context, erased from the map, or
`none` for an unknown id. -/
def takeJob (s : State) (job : JobId) : Option (FrameJobContext × State) :=
  match s.workerJobToRenderId.lookup job with
  | some ctx => some (ctx, { s with workerJobToRenderId := s.workerJobToRenderId.erase job })
  | none => none

/-- The section under `progress_mutex_`: the setter calls left to do, or `none`
when the render has no entry any more. -/
def recordFrame (s : State) (ctx : FrameJobContext) (link : Option String) :
    Option (List Setter × State) :=
  match s.renderProgress.lookup ctx.renderId with
  | some p =>
    -- an entry that is full has its setters captured before it is erased
    let p := p.record ctx.frameIndex link
    if p.done then
      some (p.setters, { s with renderProgress := s.renderProgress.erase ctx.renderId })
    else
      some (p.setters, { s with renderProgress := s.renderProgress.insert ctx.renderId p })
  | none => none

/-- A setter call on a render. -/
def applySetter (s : State) (id : RenderId) (x : Setter) : State :=
  { s with history := s.history.modify id x.apply }

/-- `RenderHistory::updateStatus`. -/
def updateStatus (s : State) (id : RenderId) (status : RenderStatus) : State :=
  s.applySetter id (.status status)

/-- `markRenderCompleted`, all its sections in one go: what a call does when no
other thread runs in between. -/
def markRenderCompleted (env : Env) (now : ℕ) (s : State) (job : JobId) : Bool × State :=
  match s.takeJob job with
  | none => (false, s)
  | some (ctx, s) =>
    -- the registration is gone by now, whatever happens next
    match s.history.lookup ctx.renderId with
    | none => (false, s)
    | some render =>
      -- frames are named by index, the link is built before the progress section
      match s.recordFrame ctx (buildDownloadLink env now (render.frameKey ctx.frameIndex)) with
      | none => (false, s)
      | some (setters, s) => (true, setters.foldl (fun s x => s.applySetter ctx.renderId x) s)

/-! ### `assignJobs` -/

/-- The address a dispatch thread calls. -/
def workerAddress (w : Worker) : String := w.ip ++ ":" ++ toString w.port

/-- One iteration of the loop of `assignJobs`, with the job id it mints, or
`none` where the loop ends. -/
def assignJob (s : State) (job : JobId) : Option State :=
  match s.pendingJobs, s.findIdleWorker with
  -- the status is written without a look at the old one, and the job id is
  -- registered before the call goes out
  | frameJob :: rest, some worker =>
    some
      { s.updateStatus frameJob.renderRequest .inProgress with
        pendingJobs := rest
        workers := updateFirst (fun w => decide (w.status = .idle))
          (fun w => { w with status := .busy }) s.workers
        workerJobToRenderId := s.workerJobToRenderId.insert job frameJob.context
        dispatchThreads := s.dispatchThreads.insert job
          ⟨worker.id, workerAddress worker, frameJob, .calling⟩ }
  | _, _ => none

end State

end Pathological
