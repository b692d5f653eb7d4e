import Pathological.Scheduler.WorkerTable

/-!
# The run loop and its condition variable

`Scheduler::run` sleeps on `job_available_`, and six operations notify it:
`addJob`, `registerWorker`, `reconnectWorker`, `markWorkerIdle`, a dispatch
thread whose call failed, and `stop`. Here the loop is a thread of its own next
to the scheduler's handlers. It evaluates the predicate of its wait holding
`queue_mutex_`, and then releases it and falls asleep in one step; an operation
updates the state under the mutex it takes, and notifies later.

**No wakeup is lost** (`no_lost_wakeup`), in a run where no notification that is
the last to come falls between the evaluation and the sleep when the predicate
has become true in between. It becomes true there only by a worker that becomes
IDLE, under `workers_mutex_`, or by `stop`, under no mutex (`Stale.cases`), and
then the loop sleeps with work to do, or for good (`not_noLostWakeup`).

`ToBeNotified` carries it: while the loop sleeps, or is about to, a predicate
that holds has a notification still to come.
-/

namespace Pathological

open Framework

/-! ### The model -/

/-- Where the thread of `run` stands. -/
inductive LoopPc where
  | start
  /-- About to test `running_`. -/
  | head
  /-- In the wait, about to lock `queue_mutex_`. -/
  | lock
  /-- Holding `queue_mutex_`: about to look for an IDLE worker, -/
  | scan
  /-- and then at the rest of the predicate. -/
  | compare (hasIdle : Bool)
  /-- The predicate was false: about to release `queue_mutex_` and sleep. -/
  | release
  | asleep
  /-- The predicate was true: about to test `running_` again. -/
  | leave
  /-- In `assignJobs`, holding `workers_mutex_` and `queue_mutex_`. -/
  | assign
  | ended
  deriving DecidableEq, Repr

/-- An operation that has updated the state and is still to notify. -/
inductive Notifier where
  | addJob (id : RenderId)
  | registerWorker (t : ThreadId)
  | reconnectWorker (t : ThreadId)
  | markWorkerIdle (t : ThreadId)
  | dispatch (job : JobId)
  | stop
  deriving DecidableEq, Repr

/-- The notification that follows a critical section. -/
def Label.notifier : Label → Option Notifier
  | .addJobQueue id => some (.addJob id)
  | .registerWorker t _ => some (.registerWorker t)
  | .reconnectWorker t _ => some (.reconnectWorker t)
  | .markWorkerIdle t => some (.markWorkerIdle t)
  | .markDispatchOffline job => some (.dispatch job)
  | _ => none

/-- The section is under `queue_mutex_`. -/
def Label.locksQueue : Label → Bool
  | .addJobQueue _ | .requeueFrame _ => true
  | _ => false

/-- The section makes a worker IDLE, under `workers_mutex_`. -/
def Label.freesWorker : Label → Bool
  | .registerWorker _ _ | .reconnectWorker _ _ | .markWorkerIdle _ => true
  | _ => false

/-- The section is under `workers_mutex_`. -/
def Label.locksWorkers : Label → Bool
  | .markWorkerOffline _ _ | .markDispatchOffline _ => true
  | a => a.freesWorker

/-- An iteration of `assignJobs`, which is the loop's. -/
def Label.assigns : Label → Bool
  | .assignJob _ => true
  | _ => false

def LoopPc.holdsQueue : LoopPc → Bool
  | .scan | .compare _ | .release | .assign => true
  | _ => false

def LoopPc.holdsWorkers : LoopPc → Bool
  | .assign => true
  | _ => false

/-- The section can run while the loop stands at `pc`: the loop's own are those of
`assignJobs`, another thread's needs its mutex. -/
def LoopPc.allows (pc : LoopPc) (a : Label) : Bool :=
  if a.assigns then pc = .assign
  else !(a.locksQueue && pc.holdsQueue) && !(a.locksWorkers && pc.holdsWorkers)

/-- `has_idle_worker` of the wait's predicate. -/
def State.hasIdleWorker (s : State) : Bool := s.workers.any fun w => decide (w.status = .idle)

/-- The scheduler with the thread of `run`. -/
structure LoopState where
  sched : State
  running : Bool
  pc : LoopPc
  /-- The notifications still to come from operations that have made their update. -/
  owed : List Notifier

namespace LoopState

/-- What the predicate of the wait returns, given the answer of its search. -/
def evaluate (s : LoopState) (hasIdle : Bool) : Bool :=
  !s.sched.pendingJobs.isEmpty && hasIdle || !s.running

/-- The predicate of the wait. -/
def waitPredicate (s : LoopState) : Bool := s.evaluate s.sched.hasIdleWorker

/-- The next step of `run`. -/
def loopStep (s : LoopState) : Option LoopState :=
  match s.pc with
  | .start => some { s with running := true, pc := .head }
  | .head => some { s with pc := if s.running then .lock else .ended }
  -- the others' sections are single steps, so no mutex is held between two of them
  | .lock => some { s with pc := .scan }
  | .scan => some { s with pc := .compare s.sched.hasIdleWorker }
  | .compare hasIdle => some { s with pc := if s.evaluate hasIdle then .leave else .release }
  | .release => some { s with pc := .asleep }
  | .asleep => none
  | .leave => some { s with pc := if s.running then .assign else .ended }
  | .assign =>
    -- `assignJobs` returns; the notification after it finds nobody asleep
    if s.sched.pendingJobs.isEmpty || s.sched.findIdleWorker.isNone then some { s with pc := .head }
    else none
  | .ended => none

/-- Someone asleep on `job_available_` wakes up, and has to lock `queue_mutex_`. -/
def wake (s : LoopState) : LoopState :=
  if s.pc = .asleep then { s with pc := .lock } else s

@[simp] theorem wake_sched (s : LoopState) : s.wake.sched = s.sched := by
  unfold wake
  split <;> rfl

end LoopState

/-- The steps of the scheduler with the thread of `run`. -/
inductive LoopLabel where
  /-- A section of another thread, or an iteration of `assignJobs`. -/
  | sched (a : Label)
  /-- The next step of `run`. -/
  | loop
  /-- A notification, of all who wait or of one: only `run` waits. -/
  | notify (n : Notifier)
  | spuriousWakeup
  /-- The write of `running_` in `stop`. -/
  | stop

/-- The scheduler's handlers and the thread of `run`. -/
def runLoop (env : Env) : System LoopState LoopLabel where
  init := ⟨State.initial, false, .start, []⟩
  step
    | s, .sched a =>
      if s.pc.allows a then
        (s.sched.step env a).map fun sched =>
          { s with sched, owed := s.owed ++ a.notifier.toList }
      else none
    | s, .loop => s.loopStep
    | s, .notify n =>
      if n ∈ s.owed then some { s with owed := s.owed.erase n }.wake else none
    | s, .spuriousWakeup => if s.pc = .asleep then some s.wake else none
    | s, .stop => some { s with running := false, owed := s.owed ++ [.stop] }

/-! ### What is claimed -/

namespace LoopState

/-- Every operation is finished: nobody is in the middle of one, and none has a
notification still to send. -/
structure Quiet (s : LoopState) : Prop where
  owed : s.owed = []
  submits : ∀ id pc, s.sched.submits.lookup id = some pc → pc = .returned
  connects : ∀ t c, s.sched.connects.lookup t = some c → c.pc ≠ .register ∧ c.pc ≠ .reconnect
  completions : ∀ t c, s.sched.completions.lookup t = some c → c.pc = .answered
  dispatches : ∀ job d, s.sched.dispatchThreads.lookup job = some d →
    d.pc ≠ .undo ∧ d.pc ≠ .requeue ∧ d.pc ≠ .offline

/-- The loop is asleep with its predicate true, and nobody is left to wake it. -/
def LostWakeup (s : LoopState) : Prop :=
  s.pc = .asleep ∧ s.waitPredicate = true ∧ s.Quiet

/-! ### Notifications still to come -/

/-- A notification is still to come: of an operation that has made its update, or
of a dispatch thread that has pushed its frame back. -/
def ToCome (s : LoopState) : Prop :=
  s.owed ≠ [] ∨ ∃ job d, s.sched.dispatchThreads.lookup job = some d ∧ d.pc = .offline

/-- The loop is asleep, or will be unless it is woken: its evaluation of the
predicate gave false, or is about to. -/
def willSleep (s : LoopState) : Bool :=
  match s.pc with
  | .asleep | .release => true
  | .compare hasIdle => !s.evaluate hasIdle
  | _ => false

/-- The loop is about to fall asleep on a predicate that has become true. -/
def Stale (s : LoopState) : Prop :=
  s.pc ≠ .asleep ∧ s.willSleep = true ∧ s.waitPredicate = true

/-- While the loop sleeps or is about to, a predicate that holds has a
notification still to come. -/
def ToBeNotified (s : LoopState) : Prop :=
  s.willSleep = true → s.waitPredicate = true → s.ToCome

end LoopState

/-- A notification sent while the loop is about to fall asleep on a predicate that
has become true is not the last to come. -/
def NotifiesInTime : System.Condition LoopState LoopLabel := fun _ s l =>
  match l with
  | .notify n => s.Stale → { s with owed := s.owed.erase n }.ToCome
  | _ => True

/-! ### What a section changes of the predicate -/

section Sections

variable {env : Env} {s s' : State} {a : Label}

theorem State.hasIdleWorker_iff : s.hasIdleWorker = true ↔ ∃ x ∈ s.workers, x.status = .idle := by
  unfold State.hasIdleWorker
  rw [List.any_eq_true]
  simp only [decide_eq_true_eq]

/-- A worker is IDLE that was so before, or the section makes one IDLE. -/
theorem Step.hasIdleWorker (h : Step env s a s') (hidle : s'.hasIdleWorker = true) :
    s.hasIdleWorker = true ∨ a.freesWorker = true := by
  rw [State.hasIdleWorker_iff] at hidle ⊢
  obtain ⟨x, hx, hstatus⟩ := hidle
  have htable := h.table
  generalize s'.workers = ws at hx htable
  cases htable with
  | keep => exact Or.inl ⟨x, hx, hstatus⟩
  | unknown => exact Or.inl ⟨x, hx, hstatus⟩
  | register => exact Or.inr rfl
  | reconnect => exact Or.inr rfl
  | completed => exact Or.inr rfl
  | disconnect =>
    rcases State.mem_setWorkerStatus hx with hx | ⟨-, hoffline⟩
    · exact Or.inl ⟨x, hx, hstatus⟩
    · rw [hoffline] at hstatus
      cases hstatus
  | failed =>
    rcases State.mem_setWorkerStatus hx with hx | ⟨-, hoffline⟩
    · exact Or.inl ⟨x, hx, hstatus⟩
    · rw [hoffline] at hstatus
      cases hstatus
  | assign =>
    rcases mem_assigned hx with hx | ⟨y, -, -, rfl⟩
    · exact Or.inl ⟨x, hx, hstatus⟩
    · cases hstatus

/-- The queue is changed under `queue_mutex_`. -/
theorem Step.pendingJobs (h : Step env s a s') :
    s'.pendingJobs = s.pendingJobs ∨ a.locksQueue = true ∨ a.assigns = true := by
  cases h with
  | addJobQueue => exact Or.inr (Or.inl rfl)
  | requeueFrame => exact Or.inr (Or.inl rfl)
  | assignJob => exact Or.inr (Or.inr rfl)
  | _ => exact Or.inl rfl

/-- A section that makes a worker IDLE is followed by a notification. -/
theorem Label.notifier_of_freesWorker (h : a.freesWorker = true) : a.notifier.isSome = true := by
  cases a <;> first | rfl | cases h

/-- A section that pushes to the queue is followed by a notification, at once or
when the dispatch thread has marked its worker offline. -/
theorem Step.locksQueue (h : Step env s a s') (ha : a.locksQueue = true) :
    a.notifier.isSome = true ∨
      ∃ job d, s'.dispatchThreads.lookup job = some d ∧ d.pc = .offline := by
  cases h with
  | addJobQueue => exact Or.inl rfl
  | requeueFrame => exact Or.inr ⟨_, _, AList.lookup_insert _, rfl⟩
  | _ => cases ha

/-- A dispatch thread that has pushed its frame back goes on to notify. -/
theorem Step.offline (h : Step env s a s')
    (hd : ∃ job d, s.dispatchThreads.lookup job = some d ∧ d.pc = .offline) :
    a.notifier.isSome = true ∨
      ∃ job d, s'.dispatchThreads.lookup job = some d ∧ d.pc = .offline := by
  obtain ⟨job, d, hd, hpc⟩ := hd
  cases h with
  | assignJob hnew => exact Or.inr ⟨job, d, Table.lookup_insert_new hnew hd, hpc⟩
  | renderJobReturned hcalling =>
    refine Or.inr ⟨job, ?_⟩
    exact Table.exists_insert_over (Q := fun d => d.pc = .offline) hcalling nofun ⟨d, hd, hpc⟩
  | undoRegistration hundo =>
    refine Or.inr ⟨job, ?_⟩
    exact Table.exists_insert_over (Q := fun d => d.pc = .offline) hundo nofun ⟨d, hd, hpc⟩
  | requeueFrame hrequeue =>
    refine Or.inr ⟨job, ?_⟩
    exact Table.exists_insert_over (Q := fun d => d.pc = .offline) hrequeue nofun ⟨d, hd, hpc⟩
  | markDispatchOffline => exact Or.inl rfl
  | _ => exact Or.inr ⟨job, d, hd, hpc⟩

end Sections

variable {env : Env} {s s' : LoopState} {l : LoopLabel} {tr : List LoopLabel}

/-- A section of another thread, and the notification it owes. -/
theorem runLoop_sched {a : Label} (h : (runLoop env).step s (.sched a) = some s') :
    s.pc.allows a = true ∧ ∃ sched, Step env s.sched a sched ∧
      s' = { s with sched, owed := s.owed ++ a.notifier.toList } := by
  obtain ⟨hallows, h⟩ := Option.ite_none_right_eq_some.mp h
  obtain ⟨sched, hsched, rfl⟩ := Option.map_eq_some_iff.mp h
  exact ⟨hallows, sched, Step.of_step hsched, rfl⟩

theorem runLoop_notify {n : Notifier} (h : (runLoop env).step s (.notify n) = some s') :
    n ∈ s.owed ∧ s' = { s with owed := s.owed.erase n }.wake := by
  obtain ⟨hn, h⟩ := Option.ite_none_right_eq_some.mp h
  exact ⟨hn, (Option.some.inj h).symm⟩

/-- A step of `run` leaves the scheduler's data as they are, and where it leads to
sleep with the predicate true, it did so before. -/
theorem LoopState.loopStep_spec (h : s.loopStep = some s') :
    s'.sched = s.sched ∧ s'.owed = s.owed ∧
      (s'.willSleep = true → s'.waitPredicate = true →
        s.willSleep = true ∧ s.waitPredicate = true) := by
  unfold LoopState.loopStep at h
  split at h
  case h_1 =>
    obtain rfl := Option.some.inj h
    exact ⟨rfl, rfl, nofun⟩
  case h_2 =>
    obtain rfl := Option.some.inj h
    refine ⟨rfl, rfl, fun hsleep => absurd hsleep ?_⟩
    cases hrun : s.running <;> simp [willSleep]
  case h_3 =>
    obtain rfl := Option.some.inj h
    exact ⟨rfl, rfl, nofun⟩
  case h_4 =>
    -- the predicate has just been read, so it cannot be false and true
    obtain rfl := Option.some.inj h
    refine ⟨rfl, rfl, fun hsleep hpred => ?_⟩
    have hfalse : (!s.evaluate s.sched.hasIdleWorker) = true := hsleep
    have htrue : s.evaluate s.sched.hasIdleWorker = true := hpred
    rw [htrue] at hfalse
    cases hfalse
  case h_5 hasIdle hpc =>
    obtain rfl := Option.some.inj h
    refine ⟨rfl, rfl, fun hsleep hpred => ⟨?_, hpred⟩⟩
    -- `willSleep` foresees what the comparison does
    unfold willSleep
    rw [hpc]
    show (!s.evaluate hasIdle) = true
    cases heval : s.evaluate hasIdle with
    | false => rfl
    | true => simp [willSleep, heval] at hsleep
  case h_6 hpc =>
    obtain rfl := Option.some.inj h
    refine ⟨rfl, rfl, fun _ hpred => ⟨?_, hpred⟩⟩
    unfold willSleep
    rw [hpc]
  case h_7 => cases h
  case h_8 =>
    obtain rfl := Option.some.inj h
    refine ⟨rfl, rfl, fun hsleep => absurd hsleep ?_⟩
    cases hrun : s.running <;> simp [willSleep]
  case h_9 =>
    obtain ⟨-, h⟩ := Option.ite_none_right_eq_some.mp h
    obtain rfl := Option.some.inj h
    exact ⟨rfl, rfl, nofun⟩
  case h_10 => cases h

/-- What the scheduler's handlers do is a run of the scheduler. -/
theorem runLoop_scheduler {C : System.Condition LoopState LoopLabel}
    (h : (runLoop env).Run C tr s) :
    (scheduler env).Reaches
      (tr.filterMap fun | .sched a => some a | _ => none) s.sched := by
  refine h.project LoopState.sched _ rfl ?_ fun _ _ _ => trivial
  intro s l s' hs
  cases l with
  | sched a =>
    obtain ⟨-, sched, hstep, rfl⟩ := runLoop_sched hs
    exact hstep.to_step
  | loop => exact (LoopState.loopStep_spec hs).1
  | notify n =>
    obtain ⟨-, rfl⟩ := runLoop_notify hs
    exact LoopState.wake_sched _
  | spuriousWakeup =>
    obtain ⟨-, hs⟩ := Option.ite_none_right_eq_some.mp hs
    obtain rfl := Option.some.inj hs
    exact LoopState.wake_sched _
  | stop =>
    obtain rfl := Option.some.inj hs
    rfl

/-! ### The step lemma -/

theorem LoopState.waitPredicate_iff : s.waitPredicate = true ↔
    (s.sched.pendingJobs ≠ [] ∧ s.sched.hasIdleWorker = true) ∨ s.running = false := by
  simp [waitPredicate, evaluate]

theorem LoopState.willSleep_pc (h : s.willSleep = true) :
    s.pc = .asleep ∨ s.pc = .release ∨ ∃ hasIdle, s.pc = .compare hasIdle := by
  unfold willSleep at h
  split at h
  · next hpc => exact Or.inl hpc
  · next hpc => exact Or.inr (Or.inl hpc)
  · next hasIdle hpc => exact Or.inr (Or.inr ⟨hasIdle, hpc⟩)
  · cases h

/-- While the loop sleeps or is about to, no section of `assignJobs` runs, and
before it sleeps none that needs `queue_mutex_`. -/
theorem LoopState.locked {a : Label} (hsleep : s.willSleep = true)
    (hallows : s.pc.allows a = true) :
    a.assigns = false ∧ (s.pc ≠ .asleep → a.locksQueue = false) := by
  have hassigns : a.assigns = false := by
    cases ha : a.assigns with
    | false => rfl
    | true =>
      rw [LoopPc.allows, if_pos ha] at hallows
      have hpc := of_decide_eq_true hallows
      rcases s.willSleep_pc hsleep with h | h | ⟨hasIdle, h⟩
      all_goals
        rw [h] at hpc
        cases hpc
  refine ⟨hassigns, fun hawake => ?_⟩
  -- until it sleeps, the loop holds `queue_mutex_`
  have hholds : s.pc.holdsQueue = true := by
    rcases s.willSleep_pc hsleep with h | h | ⟨hasIdle, h⟩
    · exact absurd h hawake
    · rw [h]
      rfl
    · rw [h]
      rfl
  rw [LoopPc.allows, hassigns, if_neg Bool.false_ne_true, hholds, Bool.and_true,
    Bool.and_eq_true] at hallows
  exact (Bool.not_eq_true' _).mp hallows.1

/-- A section that owes no notification and no second update keeps what keeps the
predicate false. -/
theorem runLoop_sched_stale {a : Label} {sched : State} (hstep : Step env s.sched a sched)
    (hassigns : a.assigns = false) (hqueue : a.locksQueue = false)
    (hfrees : a.freesWorker = false) {owed : List Notifier}
    (hsleep : ({ s with sched, owed } : LoopState).willSleep = true)
    (hpred : ({ s with sched, owed } : LoopState).waitPredicate = true) :
    s.willSleep = true ∧ s.waitPredicate = true := by
  -- neither part of the predicate becomes true in such a section
  have hpending : sched.pendingJobs = s.sched.pendingJobs := by
    rcases hstep.pendingJobs with heq | hlocks | hassign
    · exact heq
    · rw [hqueue] at hlocks
      cases hlocks
    · rw [hassigns] at hassign
      cases hassign
  constructor
  · have heval : ∀ hasIdle, ({ s with sched, owed } : LoopState).evaluate hasIdle =
        s.evaluate hasIdle := by
      intro hasIdle
      unfold LoopState.evaluate
      rw [hpending]
    unfold LoopState.willSleep at hsleep ⊢
    simp only [heval] at hsleep
    exact hsleep
  · rw [LoopState.waitPredicate_iff] at hpred ⊢
    refine hpred.imp (fun h => ⟨?_, ?_⟩) id
    · rw [← hpending]
      exact h.1
    · rcases hstep.hasIdleWorker h.2 with hidle | hfree
      · exact hidle
      · rw [hfrees] at hfree
        cases hfree

/-- A section that owes no notification does not bring a sleep with a true
predicate about, nor does it leave one without the notification it had. -/
theorem LoopState.ToBeNotified.sched {a : Label} {sched : State} (hnotify : s.ToBeNotified)
    (hstep : Step env s.sched a sched) (hallows : s.pc.allows a = true) :
    ({ s with sched, owed := s.owed ++ a.notifier.toList } : LoopState).ToBeNotified := by
  intro hsleep hpred
  cases hn : a.notifier with
  | some n => exact Or.inl (List.append_ne_nil_of_right_ne_nil _ (List.cons_ne_nil _ _))
  | none =>
    -- the state was so before, and the notification to come is still to come
    have hnone : ¬ a.notifier.isSome = true := by simp [hn]
    have hkeep : ∀ {p : Prop}, a.notifier.isSome = true ∨ p → p := fun h => h.resolve_left hnone
    have hassigns : a.assigns = false := (LoopState.locked hsleep hallows).1
    cases hqueue : a.locksQueue with
    | true => exact Or.inr (hkeep (hstep.locksQueue hqueue))
    | false =>
      have hfrees : a.freesWorker = false := by
        cases hfree : a.freesWorker with
        | false => rfl
        | true => exact absurd (Label.notifier_of_freesWorker hfree) hnone
      obtain ⟨hsleep₀, hpred₀⟩ := runLoop_sched_stale hstep hassigns hqueue hfrees hsleep hpred
      rcases hnotify hsleep₀ hpred₀ with howed | hoffline
      · exact Or.inl (List.append_ne_nil_of_left_ne_nil howed _)
      · exact Or.inr (hkeep (hstep.offline hoffline))

/-- A step keeps the invariant, unless it is the last notification before the loop
falls asleep on a predicate that has become true. -/
theorem LoopState.ToBeNotified.step (hnotify : s.ToBeNotified) (hC : NotifiesInTime tr s l)
    (hs : (runLoop env).step s l = some s') : s'.ToBeNotified := by
  cases l with
  | sched a =>
    obtain ⟨hallows, sched, hstep, rfl⟩ := runLoop_sched hs
    exact hnotify.sched hstep hallows
  | loop =>
    obtain ⟨hsched, howed, hback⟩ := LoopState.loopStep_spec hs
    intro hsleep hpred
    obtain ⟨hsleep₀, hpred₀⟩ := hback hsleep hpred
    have hcome := hnotify hsleep₀ hpred₀
    unfold ToCome at hcome ⊢
    rwa [hsched, howed]
  | notify n =>
    obtain ⟨hn, rfl⟩ := runLoop_notify hs
    unfold wake
    split
    -- who is woken does not sleep
    · exact nofun
    · next hawake =>
      intro hsleep hpred
      exact hC ⟨hawake, hsleep, hpred⟩
  | spuriousWakeup =>
    obtain ⟨hasleep, hs⟩ := Option.ite_none_right_eq_some.mp hs
    obtain rfl := Option.some.inj hs
    unfold wake
    rw [if_pos hasleep]
    exact nofun
  | stop =>
    -- `stop` still has its own notification to send
    obtain rfl := Option.some.inj hs
    intro _ _
    exact Or.inl (List.append_ne_nil_of_right_ne_nil _ (List.cons_ne_nil _ _))

/-- A sleep becomes stale only by a worker that becomes IDLE, or by `stop`: a queue
that is pushed to is locked, and the loop holds that lock until it sleeps. -/
theorem LoopState.Stale.cases (hs : (runLoop env).step s l = some s') (hstale : s'.Stale) :
    s.Stale ∨ (∃ a, l = .sched a ∧ a.freesWorker = true) ∨ l = .stop := by
  obtain ⟨hawake, hsleep, hpred⟩ := hstale
  cases l with
  | sched a =>
    obtain ⟨hallows, sched, hstep, rfl⟩ := runLoop_sched hs
    obtain ⟨hassigns, hqueue⟩ := LoopState.locked hsleep hallows
    cases hfrees : a.freesWorker with
    | true => exact Or.inr (Or.inl ⟨a, rfl, hfrees⟩)
    | false =>
      exact Or.inl ⟨hawake, runLoop_sched_stale hstep hassigns (hqueue hawake) hfrees hsleep hpred⟩
  | loop =>
    obtain ⟨-, -, hback⟩ := LoopState.loopStep_spec hs
    refine Or.inl ⟨fun hasleep => ?_, hback hsleep hpred⟩
    have hs : s.loopStep = some s' := hs
    unfold loopStep at hs
    rw [hasleep] at hs
    cases hs
  | notify n =>
    obtain ⟨hn, rfl⟩ := runLoop_notify hs
    by_cases hpc : s.pc = .asleep
    · unfold wake at hsleep
      rw [if_pos hpc] at hsleep
      cases hsleep
    · unfold wake at hsleep hpred
      rw [if_neg hpc] at hsleep hpred
      exact Or.inl ⟨hpc, hsleep, hpred⟩
  | spuriousWakeup =>
    obtain ⟨hasleep, hs⟩ := Option.ite_none_right_eq_some.mp hs
    obtain rfl := Option.some.inj hs
    unfold wake at hsleep
    rw [if_pos hasleep] at hsleep
    cases hsleep
  | stop => exact Or.inr (Or.inr rfl)

/-! ### No wakeup is lost -/

/-- Throughout a run under the condition, a sleeping loop whose predicate holds
will be notified. -/
theorem LoopState.ToBeNotified.of_run (hrun : (runLoop env).Run NotifiesInTime tr s) :
    s.ToBeNotified :=
  hrun.invariant (fun _ s => s.ToBeNotified) nofun fun _ hP hC hs => hP.step hC hs

/-- With every operation finished, no notification is to come. -/
theorem LoopState.Quiet.not_toCome (h : s.Quiet) : ¬ s.ToCome := by
  rintro (howed | ⟨job, d, hd, hpc⟩)
  · exact howed h.owed
  · exact (h.dispatches job d hd).2.2 hpc

/-- **No wakeup is lost**, in every run in which no notification that is the last to
come falls between an evaluation of the predicate and the sleep that makes stale. -/
theorem no_lost_wakeup (hrun : (runLoop env).Run NotifiesInTime tr s) : ¬ s.LostWakeup := by
  rintro ⟨hasleep, hpred, hquiet⟩
  refine hquiet.not_toCome (LoopState.ToBeNotified.of_run hrun ?_ hpred)
  unfold LoopState.willSleep
  rw [hasleep]

/-- The loop sleeps; a worker registers, a render is submitted, and the worker's
notification wakes the loop. -/
def wokenUp : List LoopLabel :=
  List.replicate 6 .loop ++
    [.sched (.establishConnection 0 ⟨"10.0.0.1", "w", 50051⟩), .sched (.registerWorker 0 "w"),
      .sched (.createRenderRequest "r" (samplePayload 1) "now"), .sched (.addJobProgress "r"),
      .sched (.addJobQueue "r")] ++ [.notify (.registerWorker 0)]

theorem no_lost_wakeup_wokenUp :
    ∃ s, (runLoop sampleEnv).Run NotifiesInTime wokenUp s ∧ s.pc = .lock ∧
      s.waitPredicate = true ∧ ¬ s.LostWakeup := by
  have hasleep : (runLoop sampleEnv).Run NotifiesInTime (List.replicate 6 .loop ++
      [.sched (.establishConnection 0 ⟨"10.0.0.1", "w", 50051⟩), .sched (.registerWorker 0 "w"),
        .sched (.createRenderRequest "r" (samplePayload 1) "now"), .sched (.addJobProgress "r"),
        .sched (.addJobQueue "r")]) _ :=
    .after (by simp [NotifiesInTime]) (by decide)
  have hrun := hasleep.after_snoc (.notify (.registerWorker 0))
    (fun hstale => absurd (by decide) hstale.1) (by decide)
  exact ⟨_, hrun, by decide, by decide, no_lost_wakeup hrun⟩

/-- A render is queued, and a worker registers between the evaluation of the
predicate and the sleep. -/
def missedWorker : List LoopLabel :=
  [.sched (.createRenderRequest "r" (samplePayload 1) "now"), .sched (.addJobProgress "r"),
    .sched (.addJobQueue "r"), .notify (.addJob "r"),
    .sched (.establishConnection 0 ⟨"10.0.0.1", "w", 50051⟩), .loop, .loop, .loop, .loop, .loop,
    .sched (.registerWorker 0 "w"), .notify (.registerWorker 0), .loop]

/-- `stop` runs between the evaluation of the predicate and the sleep. -/
def missedStop : List LoopLabel :=
  [.loop, .loop, .loop, .loop, .loop, .stop, .notify .stop, .loop]

/-- The loop sleeps for good on a queued frame with an IDLE worker, and on a
`running_` that is false. -/
theorem not_noLostWakeup :
    (∃ s, (runLoop sampleEnv).Reaches missedWorker s ∧ s.LostWakeup ∧
      s.sched.pendingJobs ≠ [] ∧ s.sched.hasIdleWorker = true) ∧
    ∃ s, (runLoop sampleEnv).Reaches missedStop s ∧ s.LostWakeup ∧ s.running = false := by
  constructor
  · refine ⟨_, .after (by decide), ⟨by decide, by decide, ?_⟩,
      by decide, by decide⟩
    constructor
    · decide
    · exact Table.forall_lookup (by decide)
    · exact Table.forall_lookup (by decide)
    · exact Table.forall_lookup (by decide)
    · exact Table.forall_lookup (by decide)
  · refine ⟨_, .after (by decide), ⟨by decide, by decide, ?_⟩,
      by decide⟩
    constructor
    · decide
    · exact Table.forall_lookup (by decide)
    · exact Table.forall_lookup (by decide)
    · exact Table.forall_lookup (by decide)
    · exact Table.forall_lookup (by decide)

end Pathological
