import Pathological.Scheduler.Deadlock

/-!
# Stopping

`stop` clears `running_`, notifies, and joins the dispatch threads there are. It does
not wait for `run`, which looks at `running_` before the wait and after it, and sets
it itself with its first statement.

**Nothing is dispatched after a call of `stop` has returned** (`nothing_after_stop`),
in a run where no call returns while `run` is before its first statement or in
`assignJobs`, or with `running_` set again. Otherwise `run` goes on
(`not_nothingAfterStop`): it is started late and sets the flag again, or it has
tested the flag and assigns after the threads have been joined.
-/

namespace Pathological

open Framework

/-! ### What is claimed, and when it holds -/

/-- The stages of `assignJobs`. -/
def RunStage.inAssignJobs : RunStage → Bool
  | .assignJobs | .lockQueue | .test | .generateJobId | .generated | .registerJob | .registered
  | .dispatch | .emplace | .leaveQueue | .leaveWorkers => true
  | .start | .head | .wait | .predicate | .search | .verdict _ | .asleep | .awake | .ended => false

/-- A call of `stop` has returned. -/
def Stopped (s : LockState) : Prop := ∃ k, s.thread (.stop k) = StopStage.returned

/-- Once a call of `stop` has returned, no step starts a dispatch thread, and `run`
takes none of `assignJobs`. -/
def NothingAfterStop (s : LockState) : Prop :=
  Stopped s → ∀ i x s', schedulerThreads.system.step s (i, x) = some s' →
    s'.data.started = s.data.started ∧
      (i = .run → RunStage.inAssignJobs (s.thread .run) = false)

/-- The flag is cleared for good, and `run` assigns no more. -/
structure Halted (s : LockState) : Prop where
  running : s.data.running = false
  begun : s.thread .run ≠ RunStage.start
  idle : RunStage.inAssignJobs (s.thread .run) = false

/-- A call of `stop` returns only when `run` has begun and is not in `assignJobs`,
with the flag still cleared. -/
def StopsHalted : System.Condition LockState (SchedulerThread × Choice) := fun _ s l =>
  ∀ k, l.1 = .stop k → s.thread (.stop k) = StopStage.joining [] → Halted s

/-! ### What the threads do -/

section Steps

variable {d d' : LockData} {x : Choice}

/-- Dispatch threads are started by `assignJobs`. -/
theorem RunStage.next_started {l l' : RunStage} (h : l.next d x = some (d', l'))
    (hl : l.inAssignJobs = false) : d'.started = d.started := by
  cases l with
  | start | head | wait | predicate | search | verdict _ | asleep | awake =>
    obtain ⟨rfl, -⟩ := Prod.mk.inj (Option.some.inj h)
    rfl
  | ended => cases h
  | _ => cases hl

/-- With the flag cleared, `run` does not come to `assignJobs`. -/
theorem RunStage.next_halted {l l' : RunStage} (h : l.next d x = some (d', l'))
    (hrunning : d.running = false) (hbegun : l ≠ .start) (hidle : l.inAssignJobs = false) :
    d'.running = false ∧ l' ≠ .start ∧ l'.inAssignJobs = false := by
  cases l with
  | start => exact absurd rfl hbegun
  | head | awake =>
    obtain ⟨rfl, rfl⟩ := Prod.mk.inj (Option.some.inj h)
    rw [hrunning]
    exact ⟨rfl, nofun, rfl⟩
  | wait | predicate | search | asleep =>
    obtain ⟨rfl, rfl⟩ := Prod.mk.inj (Option.some.inj h)
    exact ⟨hrunning, nofun, rfl⟩
  | verdict hasIdle =>
    obtain ⟨rfl, rfl⟩ := Prod.mk.inj (Option.some.inj h)
    rw [if_pos (.inr hrunning)]
    exact ⟨hrunning, nofun, rfl⟩
  | ended => cases h
  | _ => cases hidle

theorem StopStage.next_data {l l' : StopStage} (h : l.next d = some (d', l')) :
    d'.started = d.started ∧ (d.running = false → d'.running = false) := by
  cases l with
  | called | joinThreads =>
    obtain ⟨rfl, -⟩ := Prod.mk.inj (Option.some.inj h)
    exact ⟨rfl, fun h => by first | rfl | exact h⟩
  | joining rest =>
    cases rest with
    | nil =>
      obtain ⟨rfl, -⟩ := Prod.mk.inj (Option.some.inj h)
      exact ⟨rfl, id⟩
    | cons job rest =>
      obtain ⟨rfl, -⟩ := Prod.mk.inj (Option.some.inj h)
      exact ⟨rfl, id⟩
  | returned => cases h

/-- A call of `stop` returns from the end of `joinThreads`. -/
theorem StopStage.next_returned {l : StopStage} (h : l.next d = some (d', .returned)) :
    l = .joining [] := by
  cases l with
  | joining rest =>
    cases rest with
    | nil => rfl
    | cons job rest => cases (Prod.mk.inj (Option.some.inj h)).2
  | returned => cases h
  | _ => cases (Prod.mk.inj (Option.some.inj h)).2

/-- A critical section leaves the flag and the dispatch threads alone. -/
theorem CriticalSection.effect_data (d : LockData) (c : CriticalSection) (x : Choice) :
    (c.effect d x).started = d.started ∧ (c.effect d x).running = d.running := by
  unfold CriticalSection.effect
  split
  all_goals exact ⟨rfl, rfl⟩

theorem CallStage.effect_data (d : LockData) (l : CallStage) (x : Choice) :
    (l.effect d x).started = d.started ∧ (l.effect d x).running = d.running := by
  cases l with
  | inside c => exact c.effect_data d x
  | _ => exact ⟨rfl, rfl⟩

end Steps

variable {s s' : LockState} {i : SchedulerThread} {x : Choice}
  {tr : List (SchedulerThread × Choice)}

/-- What a step of a thread other than `run` does to the data. -/
theorem step_data (hs : schedulerThreads.system.step s (i, x) = some s') (hi : i ≠ .run) :
    s'.data.started = s.data.started ∧ (s.data.running = false → s'.data.running = false) := by
  have hcall {l l' : CallStage} {d : LockData} {first : Choice → Option (Option CriticalSection)}
      (h : ((CallStage.next first l x).map fun l' => (CallStage.effect s.data l x, l')) =
        some (d, l')) :
      d.started = s.data.started ∧ (s.data.running = false → d.running = false) := by
    obtain ⟨_, -, heq⟩ := Option.map_eq_some_iff.mp h
    obtain ⟨rfl, -⟩ := Prod.mk.inj heq
    obtain ⟨hstarted, hrunning⟩ := CallStage.effect_data s.data l x
    exact ⟨hstarted, fun h => hrunning.trans h⟩
  obtain ⟨-, d, l, hnext, rfl⟩ := LockProgram.step_spec hs
  cases i with
  | run => exact absurd rfl hi
  | stop k => exact StopStage.next_data hnext
  | dispatch job =>
    obtain ⟨-, hnext⟩ := Option.ite_none_right_eq_some.mp hnext
    exact hcall hnext
  | handler job =>
    obtain ⟨-, hnext⟩ := Option.ite_none_right_eq_some.mp hnext
    exact hcall hnext
  | request t => exact hcall hnext

/-- Where `run` has halted, nothing changes that. -/
theorem Halted.step (h : Halted s) (hs : schedulerThreads.system.step s (i, x) = some s') :
    Halted s' := by
  by_cases hi : i = .run
  · subst hi
    obtain ⟨-, d, l, hnext, rfl⟩ := LockProgram.step_spec hs
    obtain ⟨hrunning, hbegun, hidle⟩ :=
      RunStage.next_halted (l := s.thread .run) hnext h.running h.begun h.idle
    refine ⟨hrunning, ?_, ?_⟩
    · show Function.update s.thread .run l .run ≠ RunStage.start
      rwa [Function.update_self]
    · show RunStage.inAssignJobs (Function.update s.thread .run l .run) = false
      rwa [Function.update_self]
  · obtain ⟨-, hrunning⟩ := step_data hs hi
    obtain ⟨-, d, l, -, rfl⟩ := LockProgram.step_spec hs
    have hrun : Function.update s.thread i l .run = s.thread .run :=
      Function.update_of_ne (Ne.symm hi) l s.thread
    exact ⟨hrunning h.running, fun hstart => h.begun (hrun.symm.trans hstart),
      (congrArg RunStage.inAssignJobs hrun).trans h.idle⟩

/-- A call of `stop` that has returned after a step had before, or returns with it. -/
theorem Stopped.cases (hs : schedulerThreads.system.step s (i, x) = some s') (h : Stopped s') :
    Stopped s ∨ ∃ k, i = .stop k ∧ s.thread (.stop k) = StopStage.joining [] := by
  obtain ⟨k, hk⟩ := h
  obtain ⟨-, d, l, hnext, rfl⟩ := LockProgram.step_spec hs
  by_cases hi : i = .stop k
  · subst hi
    have hl : l = StopStage.returned := (Function.update_self _ l s.thread).symm.trans hk
    subst hl
    exact .inr ⟨k, rfl, StopStage.next_returned (l := s.thread (.stop k)) hnext⟩
  · exact .inl ⟨k, (Function.update_of_ne (Ne.symm hi) l s.thread).symm.trans hk⟩

/-- Throughout a run under the condition, `run` has halted when `stop` has returned. -/
theorem halted_of_run (hrun : schedulerThreads.system.Run StopsHalted tr s) :
    Stopped s → Halted s := by
  refine hrun.invariant (fun _ s => Stopped s → Halted s) (fun h => ?_) ?_
  · obtain ⟨k, hk⟩ := h
    cases hk
  · intro tr s l s' _ hinv hC hs hstopped
    rcases hstopped.cases hs with hbefore | ⟨k, hk, hjoined⟩
    · exact (hinv hbefore).step hs
    · exact (hC k hk hjoined).step hs

/-- **Nothing is dispatched after a call of `stop` has returned**, in every run in
which calls of `stop` return only when `run` has halted. -/
theorem nothing_after_stop (hrun : schedulerThreads.system.Run StopsHalted tr s) :
    NothingAfterStop s := by
  intro hstopped i x s' hs
  have hhalted : Halted s := halted_of_run hrun hstopped
  refine ⟨?_, fun _ => hhalted.idle⟩
  by_cases hi : i = .run
  · subst hi
    obtain ⟨-, d, l, hnext, rfl⟩ := LockProgram.step_spec hs
    exact RunStage.next_started (l := s.thread .run) hnext hhalted.idle
  · exact (step_data hs hi).1

/-! ### Stopping early and late -/

/-- A frame is dispatched and completed, and `run` sleeps. Then `stop` is called and
returns. -/
theorem nothing_after_stop_frameCompleted :
    ∃ s, schedulerThreads.system.Run StopsHalted
        (frameCompleted ++ [(.stop 0, .yes)] ++ [(.stop 0, .yes)] ++ [(.stop 0, .yes)] ++
          [(.stop 0, .yes)]) s ∧
      Stopped s ∧ NothingAfterStop s := by
  have hnoStop : ∀ l ∈ frameCompleted, l.1.isStop = false := by decide
  have hframe : schedulerThreads.system.Run StopsHalted frameCompleted _ :=
    .after (fun l hl tr s k hk => by
      have hnot := hnoStop l hl
      rw [hk] at hnot
      cases hnot) (by decide)
  have hcalled := hframe.after_snoc (.stop 0, .yes)
    (fun k hk hjoined => by cases hk; exact absurd hjoined (by decide)) (by decide)
  have hlocked := hcalled.after_snoc (.stop 0, .yes)
    (fun k hk hjoined => by cases hk; exact absurd hjoined (by decide)) (by decide)
  have hjoined := hlocked.after_snoc (.stop 0, .yes)
    (fun k hk hjoined => by cases hk; exact absurd hjoined (by decide)) (by decide)
  -- it returns while `run` is asleep
  have hreturned := hjoined.after_snoc (.stop 0, .yes)
    (fun _ _ _ => ⟨by decide, by decide, by decide⟩) (by decide)
  exact ⟨_, hreturned, ⟨0, by decide⟩, nothing_after_stop hreturned⟩

/-- Before `run` has made its first statement, `stop` is called and returns; and then a
frame is queued and a worker registers. -/
def stopsEarly : List (SchedulerThread × Choice) :=
  goesOn (.stop 0) 3 ++ submitted 1 ++ registered 1 ++ goesOn .run 15

/-- `run` has tested the flag, and is about to call `assignJobs`, when `stop` is called
and returns. -/
def stopsBetween : List (SchedulerThread × Choice) :=
  submitted 1 ++ registered 1 ++ goesOn .run 7 ++ goesOn (.stop 0) 3 ++ goesOn .run 8

/-- `run` is in `assignJobs`, and its next step starts a dispatch thread. -/
def Dispatches (s : LockState) : Prop :=
  RunStage.inAssignJobs (s.thread .run) = true ∧
    ∃ s', schedulerThreads.system.step s (.run, .job "j") = some s' ∧
      s'.data.started ≠ s.data.started

theorem Dispatches.not_nothingAfterStop (h : Dispatches s) (hstopped : Stopped s) :
    ¬ NothingAfterStop s := by
  obtain ⟨-, s', hs, hstarted⟩ := h
  exact fun hnothing => hstarted (hnothing hstopped .run (.job "j") s' hs).1

/-- Then the frame is dispatched. -/
theorem not_nothingAfterStop :
    (∃ s, schedulerThreads.system.Reaches stopsEarly s ∧ Stopped s ∧ Dispatches s ∧
      ¬ NothingAfterStop s) ∧
    ∃ s, schedulerThreads.system.Reaches stopsBetween s ∧ Stopped s ∧ Dispatches s ∧
      ¬ NothingAfterStop s := by
  have hdispatches (ls : List (SchedulerThread × Choice)) (hstage : RunStage.inAssignJobs
        ((schedulerThreads.system.after ls).thread .run) = true)
      (hbefore : (schedulerThreads.system.after ls).data.started = [])
      (hafter : (schedulerThreads.system.step (schedulerThreads.system.after ls)
        (.run, .job "j")).map (fun s => s.data.started) = some ["j"]) :
      Dispatches (schedulerThreads.system.after ls) := by
    obtain ⟨s', hs', hstarted⟩ := Option.map_eq_some_iff.mp hafter
    refine ⟨hstage, s', hs', ?_⟩
    rw [hstarted, hbefore]
    exact nofun
  have hearly := hdispatches stopsEarly (by decide) (by decide)
    (by decide)
  have hbetween := hdispatches stopsBetween (by decide) (by decide)
    (by decide)
  have hreturnedEarly : Stopped (schedulerThreads.system.after stopsEarly) :=
    ⟨0, by decide⟩
  have hreturnedBetween : Stopped (schedulerThreads.system.after stopsBetween) :=
    ⟨0, by decide⟩
  exact ⟨⟨_, .after (by decide), hreturnedEarly, hearly,
      hearly.not_nothingAfterStop hreturnedEarly⟩,
    ⟨_, .after (by decide), hreturnedBetween, hbetween,
      hbetween.not_nothingAfterStop hreturnedBetween⟩⟩

end Pathological
