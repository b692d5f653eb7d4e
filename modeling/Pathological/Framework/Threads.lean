import Mathlib.Logic.Function.Basic
import Pathological.Framework.System

/-!
# Threads over a shared store

`Threads` is a family of threads that take turns on one shared store: a step is
a step of one thread, which reads and writes the store and its own local state
and nothing else, or something that happens to the store from outside.
`Threads.system` is the labelled system of all interleavings.

The rule of these systems is `Run.threads_invariant`, the proof method for
shared-variable programs: an assertion `P i` about the store and thread `i`
holds for every thread throughout a run when each thread's own steps keep its
assertion and nobody else's step interferes with it.
-/

namespace Framework

/-- Threads indexed by `ι` over a store `Shared`, each with a local state. An
`Act` resolves what a thread's own code leaves open, an `Ext` is what happens to
the store from outside. -/
structure Threads (ι Shared Local Act Ext : Type) where
  shared : Shared
  start : ι → Local
  /-- A step of the thread `i`, `none` where it is not enabled. -/
  step (i : ι) : Shared → Local → Act → Option (Shared × Local)
  /-- A change of the store that no thread makes. -/
  outside : Shared → Ext → Option Shared

namespace Threads

variable {ι Shared Local Act Ext : Type}

/-- The store, and where each thread stands. -/
structure Config (ι Shared Local : Type) where
  shared : Shared
  thread : ι → Local

/-- Who moves next. -/
inductive Turn (ι Act Ext : Type) where
  | thread (i : ι) (a : Act)
  | outside (e : Ext)

variable [DecidableEq ι]

/-- All interleavings of the threads. -/
def system (T : Threads ι Shared Local Act Ext) :
    System (Config ι Shared Local) (Turn ι Act Ext) where
  init := ⟨T.shared, T.start⟩
  step
    | s, .thread i a => (T.step i s.shared (s.thread i) a).map fun r =>
        ⟨r.1, Function.update s.thread i r.2⟩
    | s, .outside e => (T.outside s.shared e).map fun shared => { s with shared }

variable {T : Threads ι Shared Local Act Ext} {s s' : Config ι Shared Local}

/-- What a turn of a thread leads to. -/
theorem step_thread {i : ι} {a : Act} (h : T.system.step s (.thread i a) = some s') :
    ∃ shared l, T.step i s.shared (s.thread i) a = some (shared, l) ∧
      s' = ⟨shared, Function.update s.thread i l⟩ := by
  obtain ⟨⟨shared, l⟩, hstep, rfl⟩ := Option.map_eq_some_iff.mp h
  exact ⟨shared, l, hstep, rfl⟩

/-- What a turn from outside leads to. -/
theorem step_outside {e : Ext} (h : T.system.step s (.outside e) = some s') :
    ∃ shared, T.outside s.shared e = some shared ∧ s' = { s with shared } := by
  obtain ⟨shared, hstep, rfl⟩ := Option.map_eq_some_iff.mp h
  exact ⟨shared, hstep, rfl⟩

/-- **The rule of non-interference.** An assertion about each thread and the
store holds throughout a run, when the thread's own steps keep it (`hown`) and no
step of another thread (`hother`) or from outside (`houtside`) breaks it. -/
theorem Run.threads_invariant {C : System.Condition (Config ι Shared Local) (Turn ι Act Ext)}
    (P : ι → Shared → Local → Prop) (hinit : ∀ i, P i T.shared (T.start i))
    (hown : ∀ {tr s i a shared l}, (∀ j, P j s.shared (s.thread j)) → C tr s (.thread i a) →
      T.step i s.shared (s.thread i) a = some (shared, l) → P i shared l)
    (hother : ∀ {tr s i j a shared l}, (∀ j, P j s.shared (s.thread j)) → j ≠ i →
      C tr s (.thread i a) → T.step i s.shared (s.thread i) a = some (shared, l) →
      P j shared (s.thread j))
    (houtside : ∀ {tr s j e shared}, (∀ j, P j s.shared (s.thread j)) → C tr s (.outside e) →
      T.outside s.shared e = some shared → P j shared (s.thread j))
    {tr : List (Turn ι Act Ext)} (h : T.system.Run C tr s) : ∀ i, P i s.shared (s.thread i) := by
  refine h.invariant (fun _ s => ∀ i, P i s.shared (s.thread i)) hinit ?_
  intro tr s l s' _ hP hC hs j
  cases l with
  | thread i a =>
    obtain ⟨shared, l, hstep, rfl⟩ := step_thread hs
    by_cases hji : j = i
    · subst hji
      show P j shared (Function.update s.thread j l j)
      rw [Function.update_self]
      exact hown hP hC hstep
    · show P j shared (Function.update s.thread i l j)
      rw [Function.update_of_ne hji]
      exact hother hP hji hC hstep
  | outside e =>
    obtain ⟨shared, hstep, rfl⟩ := step_outside hs
    show P j shared (s.thread j)
    exact houtside hP hC hstep

end Threads

end Framework
