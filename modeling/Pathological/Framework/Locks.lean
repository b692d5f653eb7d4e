import Mathlib.Data.Set.Basic
import Mathlib.Logic.Function.Basic
import Pathological.Framework.System

/-!
# Threads that lock and wait

A `LockProgram` is a family of threads as sequences of instructions: lock a
mutex, unlock it, wait for another thread, or anything else. Which mutexes a
thread holds is a function of where it stands, and the program carries the proof
that its instructions keep to that. `LockProgram.system` is the labelled system
of all interleavings, in which a locked mutex has a holder and a thread that
wants it does not move.

* `Disciplined.of_run`: throughout a run, the holder of a mutex is the thread that
  holds it by where it stands, so that no two threads do.
* `Waits s i j`: the thread `i` is blocked, on a mutex that `j` holds or waiting
  for `j`. A set of threads is `Deadlocked` when each waits for one of the set.
  `Deadlocked.lock` and `Deadlocked.await` follow a cycle from a thread to the one
  it waits for, which is in the set and so waits as well (`Deadlocked.blocked`).
-/

namespace Framework

/-- What a thread is about to do. -/
inductive Instr (ι Mutex : Type) where
  | lock (m : Mutex)
  | unlock (m : Mutex)
  /-- Wait for the thread `i`: its end, or the answer it is to give. -/
  | await (i : ι)
  | go
  deriving DecidableEq

/-- The instruction takes a thread that holds the mutexes `held`, the last one
locked first, to one that holds `held'`. -/
def Instr.Takes {ι Mutex : Type} (held held' : List Mutex) : Instr ι Mutex → Prop
  | .lock m => held' = m :: held
  | .unlock m => held = m :: held'
  | .await _ | .go => held' = held

/-- Threads indexed by `ι`, each with places of its own to stand at, over shared
data. An `Act` resolves what a thread's code leaves open. -/
structure LockProgram (ι Mutex Data : Type) (Local : ι → Type) (Act : Type) where
  data : Data
  start (i : ι) : Local i
  /-- The instruction the thread stands at, -/
  instr (i : ι) : Local i → Instr ι Mutex
  /-- and what executing it leads to. -/
  next (i : ι) : Data → Local i → Act → Option (Data × Local i)
  /-- Those who wait for the thread may go on. -/
  ready (i : ι) : Local i → Bool
  /-- The mutexes the thread holds, the last one locked first. -/
  holds (i : ι) : Local i → List Mutex
  holds_start (i : ι) : holds i (start i) = []
  holds_next (i : ι) (d : Data) (l : Local i) (a : Act) (d' : Data) (l' : Local i)
    (h : next i d l a = some (d', l')) : (instr i l).Takes (holds i l) (holds i l')

namespace LockProgram

variable {ι Mutex Data Act : Type} {Local : ι → Type}

/-- Who holds each mutex, the shared data, and where each thread stands. -/
structure Config (ι Mutex Data : Type) (Local : ι → Type) where
  holder : Mutex → Option ι
  data : Data
  thread (i : ι) : Local i

variable [DecidableEq ι] [DecidableEq Mutex] (P : LockProgram ι Mutex Data Local Act)

/-- The instruction the thread `i` stands at is not blocked. -/
def enabled (s : Config ι Mutex Data Local) (i : ι) : Bool :=
  match P.instr i (s.thread i) with
  | .lock m => (s.holder m).isNone
  | .await j => P.ready j (s.thread j)
  | .unlock _ | .go => true

/-- The holders after an instruction of the thread `i`. -/
def holderAfter (i : ι) (holder : Mutex → Option ι) : Instr ι Mutex → Mutex → Option ι
  | .lock m => Function.update holder m (some i)
  | .unlock m => Function.update holder m none
  | .await _ | .go => holder

/-- All interleavings of the threads. -/
def system : System (Config ι Mutex Data Local) (ι × Act) where
  init := ⟨fun _ => none, P.data, P.start⟩
  step s l :=
    if P.enabled s l.1 then
      (P.next l.1 s.data (s.thread l.1) l.2).map fun r =>
        ⟨holderAfter l.1 s.holder (P.instr l.1 (s.thread l.1)), r.1,
          Function.update s.thread l.1 r.2⟩
    else none

variable {P} {s s' : Config ι Mutex Data Local} {i j : ι} {m : Mutex} {a : Act}

/-- What a step of a thread does. -/
theorem step_spec (h : P.system.step s (i, a) = some s') :
    P.enabled s i = true ∧ ∃ d l, P.next i s.data (s.thread i) a = some (d, l) ∧
      s' = ⟨holderAfter i s.holder (P.instr i (s.thread i)), d, Function.update s.thread i l⟩ := by
  obtain ⟨henabled, h⟩ := Option.ite_none_right_eq_some.mp h
  obtain ⟨⟨d, l⟩, hnext, rfl⟩ := Option.map_eq_some_iff.mp h
  exact ⟨henabled, d, l, hnext, rfl⟩

/-! ### Mutual exclusion -/

variable (P) in
/-- Nobody holds a mutex twice, and the holders are those who hold. -/
structure Disciplined (s : Config ι Mutex Data Local) : Prop where
  nodup (i : ι) : (P.holds i (s.thread i)).Nodup
  holder_iff (m : Mutex) (i : ι) : s.holder m = some i ↔ m ∈ P.holds i (s.thread i)

omit [DecidableEq Mutex] in
/-- Moving one thread, with the mutexes it holds from then on. -/
theorem Disciplined.move {holder : Mutex → Option ι} {d : Data} {l : Local i}
    (hs : P.Disciplined s) (hnodup : (P.holds i l).Nodup)
    (hself : ∀ m, holder m = some i ↔ m ∈ P.holds i l)
    (hother : ∀ m k, k ≠ i → (holder m = some k ↔ s.holder m = some k)) :
    P.Disciplined ⟨holder, d, Function.update s.thread i l⟩ := by
  constructor
  · intro k
    show (P.holds k (Function.update s.thread i l k)).Nodup
    by_cases hk : k = i
    · subst hk
      rwa [Function.update_self]
    · rw [Function.update_of_ne hk]
      exact hs.nodup k
  · intro m k
    show holder m = some k ↔ m ∈ P.holds k (Function.update s.thread i l k)
    by_cases hk : k = i
    · subst hk
      rw [Function.update_self]
      exact hself m
    · rw [Function.update_of_ne hk, ← hs.holder_iff]
      exact hother m k hk

/-- Locking a free mutex. -/
theorem Disciplined.lock {d : Data} {l : Local i} (hs : P.Disciplined s)
    (hfree : s.holder m = none) (hl : P.holds i l = m :: P.holds i (s.thread i)) :
    P.Disciplined ⟨Function.update s.holder m (some i), d, Function.update s.thread i l⟩ := by
  -- it was free, so nobody held it
  refine hs.move ?_ ?_ ?_
  · rw [hl, List.nodup_cons, ← hs.holder_iff, hfree]
    exact ⟨nofun, hs.nodup i⟩
  · intro m'
    rw [hl, List.mem_cons, ← hs.holder_iff]
    by_cases hm : m' = m
    · subst hm
      rw [Function.update_self]
      exact iff_of_true rfl (Or.inl rfl)
    · rw [Function.update_of_ne hm, or_iff_right hm]
  · intro m' k hk
    by_cases hm : m' = m
    · subst hm
      rw [Function.update_self, hfree]
      exact iff_of_false (fun h => hk (Option.some.inj h).symm) nofun
    · rw [Function.update_of_ne hm]

/-- Unlocking the mutex locked last. -/
theorem Disciplined.unlock {d : Data} {l : Local i} (hs : P.Disciplined s)
    (hl : P.holds i (s.thread i) = m :: P.holds i l) :
    P.Disciplined ⟨Function.update s.holder m none, d, Function.update s.thread i l⟩ := by
  have hnodup := hs.nodup i
  rw [hl, List.nodup_cons] at hnodup
  refine hs.move hnodup.2 ?_ ?_
  · intro m'
    by_cases hm : m' = m
    · subst hm
      rw [Function.update_self]
      exact iff_of_false nofun hnodup.1
    · rw [Function.update_of_ne hm, hs.holder_iff, hl, List.mem_cons, or_iff_right hm]
  · intro m' k hk
    by_cases hm : m' = m
    · -- it was held by the thread that unlocks it
      subst hm
      have hholder : s.holder m' = some i := by
        rw [hs.holder_iff, hl]
        exact List.mem_cons_self
      rw [Function.update_self, hholder]
      exact iff_of_false nofun fun h => hk (Option.some.inj h).symm
    · rw [Function.update_of_ne hm]

omit [DecidableEq Mutex] in
/-- Any other instruction. -/
theorem Disciplined.keep {d : Data} {l : Local i} (hs : P.Disciplined s)
    (hl : P.holds i l = P.holds i (s.thread i)) :
    P.Disciplined ⟨s.holder, d, Function.update s.thread i l⟩ := by
  refine hs.move ?_ ?_ fun _ _ _ => Iff.rfl
  · rw [hl]
    exact hs.nodup i
  · intro m
    rw [hl]
    exact hs.holder_iff m i

/-- A step keeps the discipline. -/
theorem Disciplined.step (hs : P.Disciplined s) (h : P.system.step s (i, a) = some s') :
    P.Disciplined s' := by
  obtain ⟨henabled, d, l, hnext, rfl⟩ := step_spec h
  have htakes := P.holds_next i s.data (s.thread i) a d l hnext
  -- the instruction decides what the thread holds from now on
  unfold enabled at henabled
  cases hinstr : P.instr i (s.thread i) with
  | lock m =>
    rw [hinstr] at htakes henabled
    exact hs.lock (Option.isNone_iff_eq_none.mp henabled) htakes
  | unlock m =>
    rw [hinstr] at htakes
    exact hs.unlock htakes
  | await k =>
    rw [hinstr] at htakes
    exact hs.keep htakes
  | go =>
    rw [hinstr] at htakes
    exact hs.keep htakes

/-- **Mutual exclusion**, throughout a run. -/
theorem Disciplined.of_run {C : System.Condition (Config ι Mutex Data Local) (ι × Act)}
    {tr : List (ι × Act)} (h : P.system.Run C tr s) : P.Disciplined s := by
  refine h.invariant (fun _ s => P.Disciplined s) ⟨fun i => ?_, fun m i => ?_⟩ ?_
  · show (P.holds i (P.start i)).Nodup
    rw [P.holds_start]
    exact List.nodup_nil
  · show none = some i ↔ m ∈ P.holds i (P.start i)
    rw [P.holds_start]
    exact iff_of_false nofun List.not_mem_nil
  · intro tr s l s' _ hs _ hstep
    exact hs.step hstep

/-! ### Deadlocks -/

variable (P) in
/-- The thread `i` is blocked, and waits for the thread `j`. -/
def Waits (s : Config ι Mutex Data Local) (i j : ι) : Prop :=
  match P.instr i (s.thread i) with
  | .lock m => s.holder m = some j
  | .await k => k = j ∧ P.ready k (s.thread k) = false
  | .unlock _ | .go => False

omit [DecidableEq ι] [DecidableEq Mutex] in
theorem Waits.of_lock (hinstr : P.instr i (s.thread i) = .lock m) (hm : s.holder m = some j) :
    P.Waits s i j := by
  unfold Waits
  rw [hinstr]
  exact hm

omit [DecidableEq ι] [DecidableEq Mutex] in
theorem Waits.of_await (hinstr : P.instr i (s.thread i) = .await j)
    (hj : P.ready j (s.thread j) = false) : P.Waits s i j := by
  unfold Waits
  rw [hinstr]
  exact ⟨rfl, hj⟩

variable (P) in
/-- Each thread of the set waits for a thread of the set. -/
def Deadlocked (s : Config ι Mutex Data Local) (D : Set ι) : Prop :=
  D.Nonempty ∧ ∀ i ∈ D, ∃ j ∈ D, P.Waits s i j

omit [DecidableEq ι] [DecidableEq Mutex] in
/-- A thread of a deadlocked set that is about to lock a mutex waits for a thread
of the set that holds it. -/
theorem Deadlocked.lock {D : Set ι} (hD : P.Deadlocked s D) (hs : P.Disciplined s) (hi : i ∈ D)
    (hinstr : P.instr i (s.thread i) = .lock m) :
    ∃ j ∈ D, m ∈ P.holds j (s.thread j) := by
  obtain ⟨j, hj, hwaits⟩ := hD.2 i hi
  unfold Waits at hwaits
  rw [hinstr] at hwaits
  exact ⟨j, hj, (hs.holder_iff m j).mp hwaits⟩

omit [DecidableEq ι] [DecidableEq Mutex] in
/-- A thread of a deadlocked set that waits for another has that one in the set. -/
theorem Deadlocked.await {D : Set ι} (hD : P.Deadlocked s D) (hi : i ∈ D)
    (hinstr : P.instr i (s.thread i) = .await j) : j ∈ D ∧ P.ready j (s.thread j) = false := by
  obtain ⟨k, hk, hwaits⟩ := hD.2 i hi
  unfold Waits at hwaits
  rw [hinstr] at hwaits
  obtain ⟨rfl, hready⟩ := hwaits
  exact ⟨hk, hready⟩

omit [DecidableEq ι] [DecidableEq Mutex] in
/-- A thread of a deadlocked set is about to lock, or waits for another. -/
theorem Deadlocked.blocked {D : Set ι} (hD : P.Deadlocked s D) (hi : i ∈ D) :
    (∃ m, P.instr i (s.thread i) = .lock m) ∨ ∃ j, P.instr i (s.thread i) = .await j := by
  obtain ⟨j, -, hwaits⟩ := hD.2 i hi
  unfold Waits at hwaits
  cases hinstr : P.instr i (s.thread i) with
  | lock m => exact Or.inl ⟨m, rfl⟩
  | await k => exact Or.inr ⟨k, rfl⟩
  | unlock m =>
    rw [hinstr] at hwaits
    cases hwaits
  | go =>
    rw [hinstr] at hwaits
    cases hwaits

omit [DecidableEq ι] [DecidableEq Mutex] in
/-- One that is about to unlock is not in it, -/
theorem Deadlocked.not_mem_of_unlock {D : Set ι} (hD : P.Deadlocked s D)
    (hinstr : P.instr i (s.thread i) = .unlock m) : i ∉ D := by
  intro hi
  rcases hD.blocked hi with ⟨m', h⟩ | ⟨j, h⟩
  · cases hinstr.symm.trans h
  · cases hinstr.symm.trans h

omit [DecidableEq ι] [DecidableEq Mutex] in
/-- nor is one that waits for nothing. -/
theorem Deadlocked.not_mem_of_go {D : Set ι} (hD : P.Deadlocked s D)
    (hinstr : P.instr i (s.thread i) = .go) : i ∉ D := by
  intro hi
  rcases hD.blocked hi with ⟨m, h⟩ | ⟨j, h⟩
  · cases hinstr.symm.trans h
  · cases hinstr.symm.trans h

end LockProgram

end Framework
