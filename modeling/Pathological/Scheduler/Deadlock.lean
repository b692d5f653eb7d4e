import Pathological.Framework.Locks
import Pathological.Scheduler.State

/-!
# Locks, joins and calls

The threads of the scheduler as sequences of lock, unlock, join and wait steps:
the thread of `run`, any number of calls of `stop`, a dispatch thread for each
job, which waits for its `RenderJob` call, the `JobCompleted` handler that the
worker calls before it answers that call, and any number of handlers of other
requests. Of the data there is what decides the way they go: `running_`, how many
frames are queued and how many workers IDLE, and `dispatch_threads_`. What other
data decide, whether a job is known or a call accepted, is in the choice each
step takes.

**There is no deadlock** (`no_deadlock`), in a run where `assignJobs` is never
about to lock `threads_mutex_` while `joinThreads` holds it with a dispatch
thread to join that may still need one of the mutexes `assignJobs` holds. In
general there is one (`not_noDeadlock`): `stop` joins a dispatch thread, whose
call waits for its `JobCompleted` handler, which wants `workers_mutex_`, which
`assignJobs` holds, which wants `threads_mutex_`, which `stop` holds.
-/

namespace Pathological

open Framework

/-! ### Mutexes and critical sections -/

/-- The mutexes of `class Scheduler`. -/
inductive SchedulerMutex where
  | queue
  | workers
  | jobMap
  | progress
  | threads
  | jobIdGen
  deriving DecidableEq, Repr

/-- The critical sections under one mutex, in which a thread waits for nothing. -/
inductive CriticalSection where
  | addJobProgress
  | addJobQueue
  | registerWorker
  | reconnectWorker
  | markWorkerOffline
  /-- The lookup in `markRenderCompleted`, -/
  | takeJob
  /-- and its progress section. -/
  | recordFrame
  | markWorkerIdle
  /-- The three sections of a dispatch thread whose call failed. -/
  | undoRegistration
  | requeueFrame
  | markDispatchOffline
  deriving DecidableEq, Repr

namespace CriticalSection

def mutex : CriticalSection → SchedulerMutex
  | .addJobProgress | .recordFrame => .progress
  | .addJobQueue | .requeueFrame => .queue
  | .takeJob | .undoRegistration => .jobMap
  | .registerWorker | .reconnectWorker | .markWorkerOffline | .markWorkerIdle
  | .markDispatchOffline => .workers

/-- The section that follows; `markRenderCompleted` returns early when the job, its
render or the entry is not found. -/
def next : CriticalSection → Bool → Option CriticalSection
  | .addJobProgress, _ => some .addJobQueue
  | .takeJob, found => some (if found then .recordFrame else .markWorkerIdle)
  | .recordFrame, _ => some .markWorkerIdle
  | .undoRegistration, _ => some .requeueFrame
  | .requeueFrame, _ => some .markDispatchOffline
  | _, _ => none

/-- The section a request other than a `JobCompleted` call of a dispatched job
begins with. -/
def opens : CriticalSection → Bool
  | .addJobProgress | .registerWorker | .reconnectWorker | .markWorkerOffline | .takeJob => true
  | _ => false

end CriticalSection

/-! ### Where the threads stand -/

/-- A thread of the scheduler. -/
inductive SchedulerThread where
  | run
  | stop (k : ℕ)
  /-- The dispatch thread of a job. -/
  | dispatch (job : JobId)
  /-- The `JobCompleted` handler of that job. -/
  | handler (job : JobId)
  /-- The handler of another request. -/
  | request (t : ThreadId)
  deriving DecidableEq, Repr

def SchedulerThread.isStop : SchedulerThread → Bool
  | .stop _ => true
  | _ => false

/-- Where the thread of `run` stands. -/
inductive RunStage where
  | start
  | head
  /-- In the wait: about to lock `queue_mutex_`, -/
  | wait
  /-- and in its predicate about to lock `workers_mutex_`, -/
  | predicate
  | search
  /-- about to unlock `queue_mutex_`, to sleep or to go on. -/
  | verdict (hasIdle : Bool)
  | asleep
  | awake
  /-- In `assignJobs`: about to lock `workers_mutex_`, -/
  | assignJobs
  /-- and then `queue_mutex_`; both are held until it leaves. -/
  | lockQueue
  | test
  | generateJobId
  | generated
  | registerJob
  | registered
  /-- About to lock `threads_mutex_`. -/
  | dispatch
  | emplace
  | leaveQueue
  | leaveWorkers
  | ended
  deriving DecidableEq, Repr

/-- Where a call of `stop` stands. -/
inductive StopStage where
  | called
  | joinThreads
  /-- Holding `threads_mutex_`, with these threads left to join. -/
  | joining (rest : List JobId)
  | returned
  deriving DecidableEq, Repr

/-- Where a thread stands that goes from one critical section to the next. -/
inductive CallStage where
  /-- A dispatch thread: in its `RenderJob` call. A handler: not called yet. -/
  | waiting
  | before (c : CriticalSection)
  | inside (c : CriticalSection)
  | ended
  deriving DecidableEq, Repr

/-- Where a thread can stand. -/
@[reducible] def SchedulerThread.Stage : SchedulerThread → Type
  | .run => RunStage
  | .stop _ => StopStage
  | .dispatch _ | .handler _ | .request _ => CallStage

/-- What decides the way the threads go. -/
structure LockData where
  running : Bool
  /-- The length of `pending_jobs_`. -/
  pending : ℕ
  /-- The number of IDLE workers. -/
  idle : ℕ
  /-- The jobs a dispatch thread has been started for, -/
  started : List JobId
  /-- and `dispatch_threads_`. -/
  joinable : List JobId

/-- What else decides it. -/
inductive Choice where
  | yes
  | no
  | job (job : JobId)
  | call (c : CriticalSection)
  | frames (n : ℕ)
  deriving DecidableEq, Repr

/-- What a section does to the data. A worker that becomes IDLE may have been, and
one that goes offline may not. -/
def CriticalSection.effect (d : LockData) : CriticalSection → Choice → LockData
  | .addJobQueue, .frames n => { d with pending := d.pending + n }
  | .requeueFrame, _ => { d with pending := d.pending + 1 }
  | .registerWorker, _ => { d with idle := d.idle + 1 }
  | .reconnectWorker, .yes | .markWorkerIdle, .yes => { d with idle := d.idle + 1 }
  | .markWorkerOffline, .yes | .markDispatchOffline, .yes => { d with idle := d.idle - 1 }
  | _, _ => d

/-! ### The code of the threads -/

/-- The code of `run`, with `assignJobs`. -/
def RunStage.instr : RunStage → Instr SchedulerThread SchedulerMutex
  | .wait | .lockQueue => .lock .queue
  | .predicate | .assignJobs => .lock .workers
  | .search | .leaveWorkers => .unlock .workers
  | .verdict _ | .leaveQueue => .unlock .queue
  | .generateJobId => .lock .jobIdGen
  | .generated => .unlock .jobIdGen
  | .registerJob => .lock .jobMap
  | .registered => .unlock .jobMap
  | .dispatch => .lock .threads
  | .emplace => .unlock .threads
  | .start | .head | .asleep | .awake | .test | .ended => .go

def RunStage.next (d : LockData) : RunStage → Choice → Option (LockData × RunStage)
  | .start, _ => some ({ d with running := true }, .head)
  | .head, _ => some (d, if d.running then .wait else .ended)
  | .wait, _ => some (d, .predicate)
  | .predicate, _ => some (d, .search)
  | .search, _ => some (d, .verdict (0 < d.idle))
  | .verdict hasIdle, _ =>
    some (d, if 0 < d.pending ∧ hasIdle = true ∨ d.running = false then .awake else .asleep)
  | .asleep, _ => some (d, .wait)
  | .awake, _ => some (d, if d.running then .assignJobs else .ended)
  | .assignJobs, _ => some (d, .lockQueue)
  | .lockQueue, _ => some (d, .test)
  -- a frame leaves the queue, and a worker becomes BUSY
  | .test, _ =>
    if 0 < d.pending ∧ 0 < d.idle then
      some ({ d with pending := d.pending - 1, idle := d.idle - 1 }, .generateJobId)
    else some (d, .leaveQueue)
  | .generateJobId, _ => some (d, .generated)
  | .generated, _ => some (d, .registerJob)
  | .registerJob, _ => some (d, .registered)
  | .registered, _ => some (d, .dispatch)
  | .dispatch, _ => some (d, .emplace)
  | .emplace, .job job =>
    if job ∈ d.started then none
    else some ({ d with started := d.started ++ [job], joinable := d.joinable ++ [job] }, .test)
  | .emplace, _ => none
  | .leaveQueue, _ => some (d, .leaveWorkers)
  | .leaveWorkers, _ => some (d, .head)
  | .ended, _ => none

def RunStage.holds : RunStage → List SchedulerMutex
  | .predicate | .verdict _ => [.queue]
  | .search => [.workers, .queue]
  | .lockQueue | .leaveWorkers => [.workers]
  | .test | .generateJobId | .registerJob | .dispatch | .leaveQueue => [.queue, .workers]
  | .generated => [.jobIdGen, .queue, .workers]
  | .registered => [.jobMap, .queue, .workers]
  | .emplace => [.threads, .queue, .workers]
  | .start | .head | .wait | .asleep | .awake | .assignJobs | .ended => []

/-- The code of `stop`, with `joinThreads`. -/
def StopStage.instr : StopStage → Instr SchedulerThread SchedulerMutex
  | .joinThreads => .lock .threads
  | .joining (job :: _) => .await (.dispatch job)
  | .joining [] => .unlock .threads
  | .called | .returned => .go

def StopStage.next (d : LockData) : StopStage → Option (LockData × StopStage)
  | .called => some ({ d with running := false }, .joinThreads)
  | .joinThreads => some (d, .joining d.joinable)
  | .joining (_ :: rest) => some (d, .joining rest)
  -- `dispatch_threads_.clear()`
  | .joining [] => some ({ d with joinable := [] }, .returned)
  | .returned => none

def StopStage.holds : StopStage → List SchedulerMutex
  | .joining _ => [.threads]
  | .called | .joinThreads | .returned => []

/-- A thread that goes from section to section, with what it does while it waits. -/
def CallStage.instr (waiting : Instr SchedulerThread SchedulerMutex) :
    CallStage → Instr SchedulerThread SchedulerMutex
  | .waiting => waiting
  | .before c => .lock c.mutex
  | .inside c => .unlock c.mutex
  | .ended => .go

/-- On to the next section, or to the end. -/
def CallStage.goOn : Option CriticalSection → CallStage
  | some c => .before c
  | none => .ended

/-- The way on from `waiting` is `first`: a section, or the end. -/
def CallStage.next (first : Choice → Option (Option CriticalSection)) :
    CallStage → Choice → Option CallStage
  | .waiting, x => (first x).map goOn
  | .before c, _ => some (.inside c)
  | .inside c, x => some (goOn (c.next (x = .yes)))
  | .ended, _ => none

/-- What it does to the data, at the end of each section. -/
def CallStage.effect (d : LockData) : CallStage → Choice → LockData
  | .inside c, x => c.effect d x
  | .waiting, _ | .before _, _ | .ended, _ => d

def CallStage.holds : CallStage → List SchedulerMutex
  | .inside c => [c.mutex]
  | .waiting | .before _ | .ended => []

/-- A dispatch thread: the call is accepted, or the frame goes back. -/
def dispatchReturns : Choice → Option (Option CriticalSection)
  | .yes => some none
  | .no => some (some .undoRegistration)
  | _ => none

/-- A `JobCompleted` handler: the worker is known, or it is not. -/
def handlerCalled : Choice → Option (Option CriticalSection)
  | .yes => some (some .takeJob)
  | .no => some none
  | _ => none

/-- The handler of another request: its first section, or none at all. -/
def requestCalled : Choice → Option (Option CriticalSection)
  | .call c => if c.opens then some (some c) else none
  | .no => some none
  | _ => none

/-! ### The mutexes they hold -/

section Holds

variable {d d' : LockData} {x : Choice}

theorem RunStage.next_takes {l l' : RunStage} (h : l.next d x = some (d', l')) :
    l.instr.Takes l.holds l'.holds := by
  unfold RunStage.next at h
  split at h
  all_goals
    first
    | obtain ⟨-, rfl⟩ := Prod.mk.inj (Option.some.inj h)
      first
      | rfl
      -- both ways on hold the same
      | split <;> rfl
    | obtain ⟨-, h⟩ := Option.ite_none_left_eq_some.mp h
      obtain ⟨-, rfl⟩ := Prod.mk.inj (Option.some.inj h)
      rfl
    | cases h
    | split at h
      · obtain ⟨-, rfl⟩ := Prod.mk.inj (Option.some.inj h)
        rfl
      · obtain ⟨-, rfl⟩ := Prod.mk.inj (Option.some.inj h)
        rfl

theorem StopStage.next_takes {l l' : StopStage} (h : l.next d = some (d', l')) :
    l.instr.Takes l.holds l'.holds := by
  unfold StopStage.next at h
  split at h
  all_goals
    first
    | obtain ⟨-, rfl⟩ := Prod.mk.inj (Option.some.inj h)
      rfl
    | cases h

@[simp] theorem CallStage.goOn_holds (c : Option CriticalSection) : (goOn c).holds = [] := by
  cases c <;> rfl

theorem CallStage.next_takes {l l' : CallStage} {waiting : Instr SchedulerThread SchedulerMutex}
    {first : Choice → Option (Option CriticalSection)} (hwaiting : waiting.Takes [] [])
    (h : l.next first x = some l') : (l.instr waiting).Takes l.holds l'.holds := by
  cases l with
  | waiting =>
    obtain ⟨c, -, rfl⟩ := Option.map_eq_some_iff.mp h
    show waiting.Takes [] (goOn c).holds
    rwa [goOn_holds]
  | before c =>
    obtain rfl := Option.some.inj h
    rfl
  | inside c =>
    obtain rfl := Option.some.inj h
    show [c.mutex] = c.mutex :: (goOn _).holds
    rw [goOn_holds]
  | ended => cases h

end Holds

/-- The threads of the scheduler. -/
def schedulerThreads :
    LockProgram SchedulerThread SchedulerMutex LockData SchedulerThread.Stage Choice where
  data := ⟨false, 0, 0, [], []⟩
  start
    | .run => RunStage.start
    | .stop _ => StopStage.called
    | .dispatch _ | .handler _ | .request _ => CallStage.waiting
  instr
    | .run => RunStage.instr
    | .stop _ => StopStage.instr
    | .dispatch job => CallStage.instr (.await (.handler job))
    | .handler _ | .request _ => CallStage.instr .go
  next
    | .run, d, l, x => RunStage.next d l x
    | .stop _, d, l, _ => StopStage.next d l
    -- neither the thread nor its handler is there before the job is dispatched
    | .dispatch job, d, l, x =>
      if job ∈ d.started then
        (CallStage.next dispatchReturns l x).map fun l' => (CallStage.effect d l x, l')
      else none
    | .handler job, d, l, x =>
      if job ∈ d.started then
        (CallStage.next handlerCalled l x).map fun l' => (CallStage.effect d l x, l')
      else none
    | .request _, d, l, x =>
      (CallStage.next requestCalled l x).map fun l' => (CallStage.effect d l x, l')
  ready
    -- a `RenderJob` call returns when no `JobCompleted` call of its job is being handled
    | .handler _, l => l = CallStage.waiting ∨ l = CallStage.ended
    | .dispatch _, l => l = CallStage.ended
    | .run, _ | .stop _, _ | .request _, _ => true
  holds
    | .run => RunStage.holds
    | .stop _ => StopStage.holds
    | .dispatch _ | .handler _ | .request _ => CallStage.holds
  holds_start i := by cases i <;> rfl
  holds_next i d l x d' l' h := by
    cases i with
    | run => exact RunStage.next_takes h
    | stop k => exact StopStage.next_takes h
    | dispatch job =>
      obtain ⟨-, h⟩ := Option.ite_none_right_eq_some.mp h
      obtain ⟨l₁, hnext, heq⟩ := Option.map_eq_some_iff.mp h
      obtain ⟨-, rfl⟩ := Prod.mk.inj heq
      exact CallStage.next_takes rfl hnext
    | handler job =>
      obtain ⟨-, h⟩ := Option.ite_none_right_eq_some.mp h
      obtain ⟨l₁, hnext, heq⟩ := Option.map_eq_some_iff.mp h
      obtain ⟨-, rfl⟩ := Prod.mk.inj heq
      exact CallStage.next_takes rfl hnext
    | request t =>
      obtain ⟨l₁, hnext, heq⟩ := Option.map_eq_some_iff.mp h
      obtain ⟨-, rfl⟩ := Prod.mk.inj heq
      exact CallStage.next_takes rfl hnext

/-- A state of these threads. -/
abbrev LockState : Type :=
  LockProgram.Config SchedulerThread SchedulerMutex LockData SchedulerThread.Stage

/-! ### What is claimed, and when it holds -/

/-- No set of threads waits for itself. -/
def NoDeadlock (s : LockState) : Prop := ∀ D, ¬ schedulerThreads.Deadlocked s D

/-- The thread may still need a mutex: its call is outstanding, or a section is to
come. -/
def CallStage.unfinished : CallStage → Bool
  | .waiting | .before _ => true
  | .inside c => (c.next true).isSome
  | .ended => false

/-- `joinThreads` holds `threads_mutex_` and has an unfinished dispatch thread to
join. -/
def JoinsUnfinished (s : LockState) : Prop :=
  ∃ k rest, s.thread (.stop k) = StopStage.joining rest ∧
    ∃ job ∈ rest, CallStage.unfinished (s.thread (.dispatch job)) = true

/-- `assignJobs` does not come to lock `threads_mutex_` while `joinThreads` holds it
with an unfinished dispatch thread to join, and `joinThreads` does not lock it with
one while `assignJobs` is about to. -/
def KeepsApart : System.Condition LockState (SchedulerThread × Choice) := fun _ s l =>
  match l.1 with
  | .run => s.thread .run = RunStage.registered → ¬ JoinsUnfinished s
  | .stop k => s.thread (.stop k) = StopStage.joinThreads → s.thread .run = RunStage.dispatch →
      ∀ job ∈ s.data.joinable, CallStage.unfinished (s.thread (.dispatch job)) = false
  | _ => True

/-- `assignJobs` waits for `threads_mutex_`, and `joinThreads`, which holds it, for a
thread that may need what `assignJobs` holds. -/
def Entangled (s : LockState) : Prop :=
  s.thread .run = RunStage.dispatch ∧ JoinsUnfinished s

/-! ### How threads get entangled -/

section Steps

variable {d d' : LockData} {x : Choice}

theorem RunStage.next_dispatch (l : RunStage) (h : l.next d x = some (d', .dispatch)) :
    l = .registered := by
  unfold RunStage.next at h
  split at h
  all_goals
    first
    | rfl
    | cases h
    | split at h <;> cases h

theorem StopStage.next_joining (l : StopStage) {rest : List JobId}
    (h : l.next d = some (d', .joining rest)) :
    (l = .joinThreads ∧ rest = d.joinable) ∨ ∃ job, l = .joining (job :: rest) := by
  unfold StopStage.next at h
  split at h
  · cases (Prod.mk.inj (Option.some.inj h)).2
  · obtain ⟨-, h⟩ := Prod.mk.inj (Option.some.inj h)
    exact Or.inl ⟨rfl, (StopStage.joining.inj h).symm⟩
  · next job rest' =>
    obtain ⟨-, h⟩ := Prod.mk.inj (Option.some.inj h)
    obtain rfl := StopStage.joining.inj h
    exact Or.inr ⟨job, rfl⟩
  · cases (Prod.mk.inj (Option.some.inj h)).2
  · cases h

/-- A thread that is unfinished after a step was so before. -/
theorem CallStage.next_unfinished {l l' : CallStage}
    {first : Choice → Option (Option CriticalSection)} (h : l.next first x = some l')
    (hl : l'.unfinished = true) : l.unfinished = true := by
  cases l with
  | waiting => rfl
  | before c => rfl
  | inside c =>
    obtain rfl := Option.some.inj h
    show (c.next true).isSome = true
    cases c with
    | addJobProgress => rfl
    | takeJob => rfl
    | recordFrame => rfl
    | undoRegistration => rfl
    | requeueFrame => rfl
    | _ => cases hl
  | ended => cases h

end Steps

variable {s s' : LockState} {i : SchedulerThread} {x : Choice}
  {tr : List (SchedulerThread × Choice)}

/-- A step under the condition entangles nobody. -/
theorem Entangled.of_step (hC : KeepsApart tr s (i, x))
    (hs : schedulerThreads.system.step s (i, x) = some s') (h : Entangled s') : Entangled s := by
  obtain ⟨-, d, l, hnext, rfl⟩ := LockProgram.step_spec hs
  obtain ⟨hrun, k, rest, hstop, job, hjob, hopen⟩ := h
  cases i with
  | run =>
    -- only `run` has moved, to where it is about to lock
    replace hrun : Function.update s.thread .run l .run = RunStage.dispatch := hrun
    rw [Function.update_self] at hrun
    subst hrun
    have hregistered := RunStage.next_dispatch (s.thread .run) hnext
    exact absurd ⟨k, rest, hstop, job, hjob, hopen⟩ (hC hregistered)
  | stop k₀ =>
    replace hstop :
        Function.update s.thread (.stop k₀) l (.stop k) = StopStage.joining rest := hstop
    by_cases hk : k = k₀
    · subst hk
      rw [Function.update_self] at hstop
      subst hstop
      rcases StopStage.next_joining (s.thread (.stop k)) hnext with ⟨hjoin, rfl⟩ | ⟨job₀, hjoining⟩
      · -- it has just locked, with the unfinished thread to join
        have hclosed := hC hjoin hrun job hjob
        have hopen : CallStage.unfinished (s.thread (.dispatch job)) = true := hopen
        rw [hclosed] at hopen
        cases hopen
      · exact ⟨hrun, k, _, hjoining, job, List.mem_cons_of_mem _ hjob, hopen⟩
    · rw [Function.update_of_ne (fun h => hk (SchedulerThread.stop.inj h))] at hstop
      exact ⟨hrun, k, rest, hstop, job, hjob, hopen⟩
  | dispatch job₀ =>
    refine ⟨hrun, k, rest, hstop, job, hjob, ?_⟩
    replace hopen : CallStage.unfinished
        (Function.update s.thread (.dispatch job₀) l (.dispatch job)) = true := hopen
    by_cases hj : job = job₀
    · subst hj
      rw [Function.update_self] at hopen
      obtain ⟨-, hnext⟩ := Option.ite_none_right_eq_some.mp hnext
      obtain ⟨l₁, hcall, heq⟩ := Option.map_eq_some_iff.mp hnext
      obtain ⟨-, rfl⟩ := Prod.mk.inj heq
      exact CallStage.next_unfinished hcall hopen
    · rwa [Function.update_of_ne (fun h => hj (SchedulerThread.dispatch.inj h))] at hopen
  | handler job₀ => exact ⟨hrun, k, rest, hstop, job, hjob, hopen⟩
  | request t => exact ⟨hrun, k, rest, hstop, job, hjob, hopen⟩

/-- As long as `stop` is not called, they are apart. -/
theorem keepsApart_of_not_stopped (hrun : schedulerThreads.system.Reaches tr s)
    (hstop : ∀ l ∈ tr, l.1.isStop = false) : schedulerThreads.system.Run KeepsApart tr s := by
  have hboth : (∀ k, s.thread (.stop k) = StopStage.called) ∧
      schedulerThreads.system.Run KeepsApart tr s := by
    induction hrun with
    | nil => exact ⟨fun _ => rfl, System.Run.nil⟩
    | @snoc tr s s' l hrun _ hs ih =>
      obtain ⟨hcalled, hkeeps⟩ := ih fun l hl => hstop l (List.mem_append_left _ hl)
      have hl : ∀ k, l.1 ≠ .stop k := by
        intro k hk
        have hnot := hstop l (List.mem_append_right _ (List.mem_singleton_self l))
        rw [hk] at hnot
        cases hnot
      refine ⟨fun k => ?_, hkeeps.snoc ?_ hs⟩
      · obtain ⟨-, d, stage, -, rfl⟩ := LockProgram.step_spec hs
        show Function.update s.thread l.1 stage (.stop k) = StopStage.called
        rw [Function.update_of_ne (hl k).symm]
        exact hcalled k
      · unfold KeepsApart
        split
        · rintro - ⟨k, rest, hjoining, -⟩
          rw [hcalled k] at hjoining
          cases hjoining
        · next k hk => exact absurd hk (hl k)
        · trivial
  exact hboth.2

/-- Throughout a run under the condition, nobody is entangled. -/
theorem not_entangled_of_run (hrun : schedulerThreads.system.Run KeepsApart tr s) :
    ¬ Entangled s := by
  refine hrun.invariant (fun _ s => ¬ Entangled s) (fun h => ?_) ?_
  · cases h.1
  · intro tr s l s' _ hnot hC hs hentangled
    exact hnot (hentangled.of_step hC hs)

/-! ### What a deadlock needs -/

section Deadlocked

variable {D : Set SchedulerThread} {m : SchedulerMutex}

theorem CriticalSection.mutex_ne_threads (c : CriticalSection) : c.mutex ≠ .threads := by
  cases c <;> nofun

/-- A thread that goes from section to section holds the mutex of the one it is in. -/
theorem CallStage.inside_of_holds {l : CallStage} (h : m ∈ l.holds) :
    ∃ c, l = .inside c ∧ m = c.mutex := by
  cases l with
  | inside c => exact ⟨c, rfl, List.mem_singleton.mp h⟩
  | _ => cases h

/-- In a deadlock, a mutex other than `threads_mutex_` is held by `run`: the others
wait for nothing while they hold one. -/
theorem eq_run_of_holds (hD : schedulerThreads.Deadlocked s D) (hi : i ∈ D)
    (hm : m ∈ schedulerThreads.holds i (s.thread i)) (hne : m ≠ .threads) : i = .run := by
  cases i with
  | run => rfl
  | stop k =>
    have hm : m ∈ StopStage.holds (s.thread (.stop k)) := hm
    cases hstop : (s.thread (.stop k) : StopStage) with
    | joining rest =>
      rw [hstop] at hm
      exact absurd (List.mem_singleton.mp hm) hne
    | _ =>
      rw [hstop] at hm
      cases hm
  -- a thread inside a section is about to unlock
  | dispatch job =>
    obtain ⟨c, hstage, -⟩ := CallStage.inside_of_holds hm
    have hinstr := congrArg (schedulerThreads.instr (.dispatch job)) hstage
    exact absurd hi (hD.not_mem_of_unlock hinstr)
  | handler job =>
    obtain ⟨c, hstage, -⟩ := CallStage.inside_of_holds hm
    have hinstr := congrArg (schedulerThreads.instr (.handler job)) hstage
    exact absurd hi (hD.not_mem_of_unlock hinstr)
  | request t =>
    obtain ⟨c, hstage, -⟩ := CallStage.inside_of_holds hm
    have hinstr := congrArg (schedulerThreads.instr (.request t)) hstage
    exact absurd hi (hD.not_mem_of_unlock hinstr)

/-- So a thread that waits for such a mutex waits for `run`. -/
theorem run_mem_of_lock (hD : schedulerThreads.Deadlocked s D) (hs : schedulerThreads.Disciplined s)
    (hi : i ∈ D) (hlock : schedulerThreads.instr i (s.thread i) = .lock m) (hne : m ≠ .threads) :
    .run ∈ D := by
  obtain ⟨j, hj, hm⟩ := hD.lock hs hi hlock
  rwa [← eq_run_of_holds hD hj hm hne]

/-- A thread that goes from section to section does not lock `threads_mutex_`. -/
theorem CallStage.lock_ne_threads {l : CallStage} {waiting : Instr SchedulerThread SchedulerMutex}
    (h : l.instr waiting = .lock m) (hwaiting : waiting ≠ .lock m) : m ≠ .threads := by
  cases l with
  | waiting => exact absurd h hwaiting
  | before c =>
    obtain rfl := Instr.lock.inj h
    exact c.mutex_ne_threads
  | inside c => cases h
  | ended => cases h

/-- It waits for another thread only where its code waits for a call. -/
theorem CallStage.waiting_eq_await {l : CallStage} {j : SchedulerThread}
    {waiting : Instr SchedulerThread SchedulerMutex} (h : l.instr waiting = .await j) :
    waiting = .await j := by
  cases l with
  | waiting => exact h
  | before c => cases h
  | inside c => cases h
  | ended => cases h

theorem run_mem_of_handler {job : JobId} (hD : schedulerThreads.Deadlocked s D)
    (hs : schedulerThreads.Disciplined s) (hi : .handler job ∈ D) : .run ∈ D := by
  rcases hD.blocked hi with ⟨m, h⟩ | ⟨j, h⟩
  · exact run_mem_of_lock hD hs hi h (CallStage.lock_ne_threads h nofun)
  · cases CallStage.waiting_eq_await h

theorem run_mem_of_request {t : ThreadId} (hD : schedulerThreads.Deadlocked s D)
    (hs : schedulerThreads.Disciplined s) (hi : .request t ∈ D) : .run ∈ D := by
  rcases hD.blocked hi with ⟨m, h⟩ | ⟨j, h⟩
  · exact run_mem_of_lock hD hs hi h (CallStage.lock_ne_threads h nofun)
  · cases CallStage.waiting_eq_await h

/-- A dispatch thread waits for a mutex, or for the handler that its call waits for. -/
theorem run_mem_of_dispatch {job : JobId} (hD : schedulerThreads.Deadlocked s D)
    (hs : schedulerThreads.Disciplined s) (hi : .dispatch job ∈ D) : .run ∈ D := by
  rcases hD.blocked hi with ⟨m, h⟩ | ⟨j, h⟩
  · exact run_mem_of_lock hD hs hi h (CallStage.lock_ne_threads h nofun)
  · obtain rfl := Instr.await.inj (CallStage.waiting_eq_await h)
    exact run_mem_of_handler hD hs (hD.await hi h).1

/-- A thread in `joinThreads` waits for one of the threads it has to join. -/
theorem dispatch_mem_of_joining {k : ℕ} {rest : List JobId}
    (hD : schedulerThreads.Deadlocked s D) (hi : .stop k ∈ D)
    (hstop : s.thread (.stop k) = StopStage.joining rest) :
    ∃ job ∈ rest, .dispatch job ∈ D := by
  have hinstr := congrArg (schedulerThreads.instr (.stop k)) hstop
  cases rest with
  | nil => exact absurd hi (hD.not_mem_of_unlock hinstr)
  | cons job rest => exact ⟨job, List.mem_cons_self, (hD.await hi hinstr).1⟩

/-- Who holds `threads_mutex_` in a deadlock is in `joinThreads`: `run` unlocks it
without waiting for anything, and no section is under it. -/
theorem joining_of_holds_threads (hD : schedulerThreads.Deadlocked s D) (hi : i ∈ D)
    (hm : .threads ∈ schedulerThreads.holds i (s.thread i)) :
    ∃ k rest, i = .stop k ∧ s.thread (.stop k) = StopStage.joining rest := by
  cases i with
  | run =>
    have hm : .threads ∈ RunStage.holds (s.thread .run) := hm
    cases hrun : (s.thread .run : RunStage) with
    | emplace =>
      exact absurd hi (hD.not_mem_of_unlock (congrArg (schedulerThreads.instr .run) hrun))
    | _ =>
      rw [hrun] at hm
      simp [RunStage.holds] at hm
  | stop k =>
    have hm : .threads ∈ StopStage.holds (s.thread (.stop k)) := hm
    cases hstop : (s.thread (.stop k) : StopStage) with
    | joining rest => exact ⟨k, rest, rfl, hstop⟩
    | _ =>
      rw [hstop] at hm
      cases hm
  | dispatch job =>
    obtain ⟨c, -, hc⟩ := CallStage.inside_of_holds hm
    exact absurd hc.symm c.mutex_ne_threads
  | handler job =>
    obtain ⟨c, -, hc⟩ := CallStage.inside_of_holds hm
    exact absurd hc.symm c.mutex_ne_threads
  | request t =>
    obtain ⟨c, -, hc⟩ := CallStage.inside_of_holds hm
    exact absurd hc.symm c.mutex_ne_threads

/-- Every deadlock has `run` in it. -/
theorem run_mem (hD : schedulerThreads.Deadlocked s D) (hs : schedulerThreads.Disciplined s) :
    .run ∈ D := by
  have hjoining : ∀ {k rest}, .stop k ∈ D → s.thread (.stop k) = StopStage.joining rest →
      .run ∈ D := by
    intro k rest hi hstop
    obtain ⟨job, -, hjob⟩ := dispatch_mem_of_joining hD hi hstop
    exact run_mem_of_dispatch hD hs hjob
  obtain ⟨i, hi⟩ := hD.1
  cases i with
  | run => exact hi
  | dispatch job => exact run_mem_of_dispatch hD hs hi
  | handler job => exact run_mem_of_handler hD hs hi
  | request t => exact run_mem_of_request hD hs hi
  | stop k =>
    cases hstop : (s.thread (.stop k) : StopStage) with
    | joining rest => exact hjoining hi hstop
    | joinThreads =>
      -- another call of `stop` has the mutex
      obtain ⟨j, hj, hm⟩ := hD.lock hs hi (congrArg (schedulerThreads.instr (.stop k)) hstop)
      obtain ⟨k', rest, rfl, hstop'⟩ := joining_of_holds_threads hD hj hm
      exact hjoining hj hstop'
    | called =>
      exact absurd hi (hD.not_mem_of_go (congrArg (schedulerThreads.instr (.stop k)) hstop))
    | returned =>
      exact absurd hi (hD.not_mem_of_go (congrArg (schedulerThreads.instr (.stop k)) hstop))

/-- `run` never waits for another thread, and never locks what it holds. -/
theorem RunStage.lock_fresh {l : RunStage} (h : l.instr = .lock m) : m ∉ l.holds := by
  cases l <;> cases h <;> decide

theorem RunStage.instr_ne_await {l : RunStage} {j : SchedulerThread} : l.instr ≠ .await j := by
  cases l <;> nofun

theorem RunStage.eq_dispatch {l : RunStage} (h : l.instr = .lock .threads) : l = .dispatch := by
  cases l <;> first | rfl | cases h

/-- **A deadlock is an entanglement**: `run` waits for `threads_mutex_`, and so for a
call of `stop`, and so for a dispatch thread that is blocked. -/
theorem Entangled.of_deadlocked (hD : schedulerThreads.Deadlocked s D)
    (hs : schedulerThreads.Disciplined s) : Entangled s := by
  have hrun := run_mem hD hs
  rcases hD.blocked hrun with ⟨m, hinstr⟩ | ⟨j, hinstr⟩
  · obtain ⟨i, hi, hm⟩ := hD.lock hs hrun hinstr
    obtain rfl : m = .threads := by
      by_contra hne
      obtain rfl := eq_run_of_holds hD hi hm hne
      exact RunStage.lock_fresh hinstr hm
    obtain ⟨k, rest, rfl, hstop⟩ := joining_of_holds_threads hD hi hm
    obtain ⟨job, hjob, hmem⟩ := dispatch_mem_of_joining hD hi hstop
    refine ⟨RunStage.eq_dispatch hinstr, k, rest, hstop, job, hjob, ?_⟩
    -- a thread that is blocked has a mutex or a call before it
    cases hstage : (s.thread (.dispatch job) : CallStage) with
    | waiting => rfl
    | before c => rfl
    | inside c =>
      have hinstr := congrArg (schedulerThreads.instr (.dispatch job)) hstage
      exact absurd hmem (hD.not_mem_of_unlock hinstr)
    | ended =>
      have hinstr := congrArg (schedulerThreads.instr (.dispatch job)) hstage
      exact absurd hmem (hD.not_mem_of_go hinstr)
  · exact absurd hinstr RunStage.instr_ne_await

end Deadlocked

/-- **There is no deadlock**, in every run that keeps `assignJobs` and `joinThreads`
apart. -/
theorem no_deadlock (hrun : schedulerThreads.system.Run KeepsApart tr s) : NoDeadlock s :=
  fun _ hD => not_entangled_of_run hrun
    (.of_deadlocked hD (LockProgram.Disciplined.of_run hrun))

/-! ### Stopping while a frame is dispatched -/

/-- A thread goes on, `n` times. -/
def goesOn (i : SchedulerThread) (n : ℕ) : List (SchedulerThread × Choice) :=
  List.replicate n (i, .yes)

/-- A render of `n` frames is submitted. -/
def submitted (n : ℕ) : List (SchedulerThread × Choice) :=
  [(.request 0, .call .addJobProgress)] ++ goesOn (.request 0) 3 ++ [(.request 0, .frames n)]

/-- A worker registers, in the handler `t`. -/
def registered (t : ThreadId) : List (SchedulerThread × Choice) :=
  [(.request t, .call .registerWorker)] ++ goesOn (.request t) 2

/-- `run` starts the dispatch thread of a frame, and leaves `assignJobs` for its
next wait; the frame's completion is handled, and its call returns. -/
def frameCompleted : List (SchedulerThread × Choice) :=
  submitted 1 ++ registered 1 ++ goesOn .run 15 ++ [(.run, .job "j")] ++ goesOn .run 8 ++
    goesOn (.handler "j") 7 ++ goesOn (.dispatch "j") 1

/-- Then `stop` joins the thread and returns. -/
theorem no_deadlock_frameCompleted :
    ∃ s, schedulerThreads.system.Run KeepsApart
        (frameCompleted ++ [(.stop 0, .yes)] ++ [(.stop 0, .yes)] ++ [(.stop 0, .yes)] ++
          [(.stop 0, .yes)]) s ∧
      s.thread (.stop 0) = StopStage.returned ∧ NoDeadlock s := by
  have hreaches : schedulerThreads.system.Reaches frameCompleted _ := .after (by decide)
  have hframe := keepsApart_of_not_stopped hreaches (by decide)
  have hcalled := hframe.after_snoc (.stop 0, .yes) (fun hjoin => absurd hjoin (by decide))
    (by decide)
  -- it locks while `run` is asleep
  have hlocked := hcalled.after_snoc (.stop 0, .yes)
    (fun _ hrun => absurd hrun (by decide)) (by decide)
  have hjoined := hlocked.after_snoc (.stop 0, .yes)
    (fun hjoin => absurd hjoin (by decide)) (by decide)
  have hreturned := hjoined.after_snoc (.stop 0, .yes)
    (fun hjoin => absurd hjoin (by decide)) (by decide)
  exact ⟨_, hreturned, by decide, no_deadlock hreturned⟩

/-- Two frames are queued and two workers IDLE. In the middle of `assignJobs`, with
one frame dispatched and the other about to be, `stop` locks `threads_mutex_`. -/
def stopsDispatching : List (SchedulerThread × Choice) :=
  submitted 2 ++ registered 1 ++ registered 2 ++ goesOn .run 15 ++ [(.run, .job "j")] ++
    goesOn .run 5 ++ goesOn (.stop 0) 2

/-- Then the completion of the first frame is handled, up to `markWorkerIdle`: the
handler, `run`, `stop` and the dispatch thread wait for each other. Or its call
fails, and the dispatch thread waits for `run` itself. -/
theorem not_noDeadlock :
    (∃ s, schedulerThreads.system.Reaches (stopsDispatching ++ goesOn (.handler "j") 5) s ∧
      schedulerThreads.Deadlocked s {.run, .stop 0, .dispatch "j", .handler "j"}) ∧
    ∃ s, schedulerThreads.system.Reaches
        (stopsDispatching ++ [(.dispatch "j", .no)] ++ goesOn (.dispatch "j") 2) s ∧
      schedulerThreads.Deadlocked s {.run, .stop 0, .dispatch "j"} := by
  constructor
  · refine ⟨_, .after (by decide), ⟨.run, .inl rfl⟩, ?_⟩
    rintro i (rfl | rfl | rfl | rfl)
    · exact ⟨.stop 0, .inr (.inl rfl),
        .of_lock (m := .threads) (by decide) (by decide)⟩
    · exact ⟨.dispatch "j", .inr (.inr (.inl rfl)),
        .of_await (by decide) (by decide)⟩
    · exact ⟨.handler "j", .inr (.inr (.inr rfl)),
        .of_await (by decide) (by decide)⟩
    · exact ⟨.run, .inl rfl,
        .of_lock (m := .workers) (by decide) (by decide)⟩
  · refine ⟨_, .after (by decide), ⟨.run, .inl rfl⟩, ?_⟩
    rintro i (rfl | rfl | rfl)
    · exact ⟨.stop 0, .inr (.inl rfl),
        .of_lock (m := .threads) (by decide) (by decide)⟩
    · exact ⟨.dispatch "j", .inr (.inr rfl),
        .of_await (by decide) (by decide)⟩
    · exact ⟨.run, .inl rfl,
        .of_lock (m := .queue) (by decide) (by decide)⟩

end Pathological
