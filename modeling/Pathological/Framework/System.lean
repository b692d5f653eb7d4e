import Mathlib.Data.List.Induction

/-!
# Labelled systems and their runs

A `System` is a deterministic labelled transition system: all the
nondeterminism of the modelled program (which thread moves next, what the
environment answers) is in the label, and `step` is a partial function, `none`
where the label is not enabled.

`Run sys C tr s` says that the labels `tr`, taken from the initial state, lead
to `s`, and that every step of that run satisfied `C`. The condition reads the
labels so far, the state before the step and the label of the step, so that
"in every run whose steps all meet the condition" is `Run sys C`, and plain
reachability is `Reaches`, the run under the trivial condition.

The rules every development over these runs uses are here once:

* `Run.invariant`: an invariant over label history and state;
* `Run.stable`: a property that holds at one state of a run and is kept by
  every step holds at every later state;
* `Run.mono`: a run under a condition is a run under a weaker one;
* `Run.throughout_iff`: a property holds all the way exactly under a condition;
* `Run.project`: a run of a composed system is, component-wise, a run of the
  component.
-/

namespace Framework

/-- A deterministic labelled transition system. -/
structure System (State Label : Type) where
  /-- The initial state. -/
  init : State
  /-- The step on a label, `none` when the label is not enabled. -/
  step : State → Label → Option State

namespace System

variable {State Label State' Label' : Type}

/-- A condition on the steps of a run: the labels so far, the state before the
step, and the label of the step. -/
abbrev Condition (State Label : Type) := List Label → State → Label → Prop

/-- The condition every step meets. -/
def anyStep : Condition State Label := fun _ _ _ => True

/-- The state the labels lead to from `s`, `none` when one is not enabled. -/
def exec (sys : System State Label) (s : State) : List Label → Option State
  | [] => some s
  | l :: ls => (sys.step s l).bind fun s' => sys.exec s' ls

/-- `Run sys C tr s`: the labels `tr` lead from the initial state to `s`, each
step under the condition `C`. -/
inductive Run (sys : System State Label) (C : Condition State Label) :
    List Label → State → Prop where
  | nil : Run sys C [] sys.init
  | snoc {tr : List Label} {s s' : State} {l : Label} (hrun : Run sys C tr s)
      (hcond : C tr s l) (hstep : sys.step s l = some s') : Run sys C (tr ++ [l]) s'

/-- The labels `tr` lead from the initial state to `s`. -/
abbrev Reaches (sys : System State Label) : List Label → State → Prop :=
  sys.Run anyStep

variable {sys : System State Label} {C C' : Condition State Label}

/-! ### Executing a list of labels -/

@[simp] theorem exec_nil (s : State) : sys.exec s [] = some s := rfl

@[simp] theorem exec_cons (s : State) (l : Label) (ls : List Label) :
    sys.exec s (l :: ls) = (sys.step s l).bind fun s' => sys.exec s' ls := rfl

/-- Executing a label that leads to `s'` first. -/
theorem exec_cons_of_step {s s' : State} {l : Label} {ls : List Label}
    (h : sys.step s l = some s') : sys.exec s (l :: ls) = sys.exec s' ls := by
  rw [exec_cons, h, Option.bind_some]

/-- The state after the labels, the initial one when they do not execute. -/
def after (sys : System State Label) (ls : List Label) : State :=
  (sys.exec sys.init ls).getD sys.init

/-- A run extends by whatever labels execute after it, when the condition asks
nothing of them. -/
theorem Run.append_exec {tr : List Label} {s : State} (h : sys.Run C tr s) :
    ∀ {ls : List Label} {s' : State}, (∀ l ∈ ls, ∀ tr s, C tr s l) →
      sys.exec s ls = some s' → sys.Run C (tr ++ ls) s' := by
  intro ls
  induction ls generalizing tr s with
  | nil =>
    intro s' _ he
    obtain rfl := Option.some.inj he
    rwa [List.append_nil]
  | cons l ls ih =>
    intro s' hC he
    obtain ⟨s₁, hs₁, he⟩ := Option.bind_eq_some_iff.mp he
    have hrest : ∀ l ∈ ls, ∀ tr s, C tr s l := fun l hl => hC l (List.mem_cons_of_mem _ hl)
    have h₁ := ih (h.snoc (hC l List.mem_cons_self tr s) hs₁) hrest he
    rwa [List.append_assoc, List.singleton_append] at h₁

theorem exec_append {s s' : State} {ls ls' : List Label} (h : sys.exec s ls = some s') :
    sys.exec s (ls ++ ls') = sys.exec s' ls' := by
  induction ls generalizing s with
  | nil =>
    obtain rfl := Option.some.inj h
    rfl
  | cons l ls ih =>
    obtain ⟨s₁, hs₁, h⟩ := Option.bind_eq_some_iff.mp h
    rw [List.cons_append, exec_cons_of_step hs₁]
    exact ih h

/-- The labels of a run execute to its state. -/
theorem Run.exec_eq {tr : List Label} {s : State} (h : sys.Run C tr s) :
    sys.exec sys.init tr = some s := by
  induction h with
  | nil => rfl
  | snoc hrun hcond hs ih => rw [exec_append ih, exec_cons_of_step hs, exec_nil]

theorem Run.after_eq {tr : List Label} {s : State} (h : sys.Run C tr s) : sys.after tr = s := by
  unfold System.after
  rw [h.exec_eq, Option.getD_some]

/-- A run to the state after its labels goes on with labels of which the
condition asks nothing. -/
theorem Run.after_append {tr : List Label} (h : sys.Run C tr (sys.after tr)) (ls : List Label)
    (hC : ∀ l ∈ ls, ∀ tr s, C tr s l) (he : (sys.exec (sys.after tr) ls).isSome = true) :
    sys.Run C (tr ++ ls) (sys.after (tr ++ ls)) := by
  obtain ⟨s', hs'⟩ := Option.isSome_iff_exists.mp he
  have hrun := h.append_exec hC hs'
  rwa [hrun.after_eq]

/-- A run to the state after its labels goes on with a label that meets the
condition there. -/
theorem Run.after_snoc {tr : List Label} (h : sys.Run C tr (sys.after tr)) (l : Label)
    (hC : C tr (sys.after tr) l) (he : (sys.step (sys.after tr) l).isSome = true) :
    sys.Run C (tr ++ [l]) (sys.after (tr ++ [l])) := by
  obtain ⟨s', hs'⟩ := Option.isSome_iff_exists.mp he
  have hrun := h.snoc hC hs'
  rwa [hrun.after_eq]

/-- Labels that execute are a run to the state after them. -/
theorem Run.after {ls : List Label} (hC : ∀ l ∈ ls, ∀ tr s, C tr s l)
    (h : (sys.exec sys.init ls).isSome = true) : sys.Run C ls (sys.after ls) :=
  show sys.Run C ([] ++ ls) (sys.after ([] ++ ls)) from Run.after_append Run.nil ls hC h

/-- Labels that execute reach the state after them. -/
theorem Reaches.after {ls : List Label} (h : (sys.exec sys.init ls).isSome = true) :
    sys.Reaches ls (sys.after ls) :=
  Run.after (fun _ _ _ _ => trivial) h

/-! ### Invariants -/

/-- **The invariant rule**, over the label history and the state. -/
theorem Run.invariant (P : List Label → State → Prop) (hinit : P [] sys.init)
    (hstep : ∀ {tr s l s'}, sys.Run C tr s → P tr s → C tr s l →
      sys.step s l = some s' → P (tr ++ [l]) s')
    {tr : List Label} {s : State} (h : sys.Run C tr s) : P tr s := by
  induction h with
  | nil => exact hinit
  | snoc hrun hcond hs ih => exact hstep hrun ih hcond hs

/-- Weakening the condition of a run. -/
theorem Run.mono (himp : ∀ tr s l, C tr s l → C' tr s l) {tr : List Label} {s : State}
    (h : sys.Run C tr s) : sys.Run C' tr s := by
  induction h with
  | nil => exact Run.nil
  | snoc hrun hcond hs ih => exact ih.snoc (himp _ _ _ hcond) hs

/-- A run under a condition is a run. -/
theorem Run.reaches {tr : List Label} {s : State} (h : sys.Run C tr s) :
    sys.Reaches tr s :=
  h.mono fun _ _ _ _ => trivial

/-! ### Conditions that can be checked -/

/-- The system that takes the steps that meet `K`, and no others. -/
def restrict (sys : System State Label) (K : State → Label → Prop)
    [∀ s l, Decidable (K s l)] : System State Label where
  init := sys.init
  step s l := if K s l then sys.step s l else none

/-- A run of the restricted system is a run under the condition. -/
theorem Run.of_restrict {K : State → Label → Prop} [∀ s l, Decidable (K s l)]
    {tr : List Label} {s : State} (h : (sys.restrict K).Run C tr s) :
    sys.Run (fun _ => K) tr s := by
  induction h with
  | nil => exact Run.nil
  | snoc hrun hcond hs ih =>
    obtain ⟨hK, hs⟩ := Option.ite_none_right_eq_some.mp hs
    exact ih.snoc hK hs

/-! ### Later states -/

/-- The last step of a run. -/
theorem Run.snoc_inv {tr : List Label} {l : Label} {s' : State}
    (h : sys.Run C (tr ++ [l]) s') :
    ∃ s, sys.Run C tr s ∧ C tr s l ∧ sys.step s l = some s' := by
  generalize hw : tr ++ [l] = w at h
  cases h with
  | nil => simp at hw
  | snoc hrun hcond hs =>
    obtain ⟨rfl, hl⟩ := List.append_inj' hw rfl
    obtain rfl := List.singleton_inj.mp hl
    exact ⟨_, hrun, hcond, hs⟩

/-- The labels of a run determine the state. -/
theorem Run.det {tr : List Label} {s s' : State} (h : sys.Run C tr s)
    (h' : sys.Run C' tr s') : s = s' :=
  Option.some.inj (h.exec_eq.symm.trans h'.exec_eq)

/-- **The stability rule.** A property that every step keeps, once it holds,
holds at every later state of the run. -/
theorem Run.stable (P : State → Prop)
    (hstep : ∀ {tr s l s'}, sys.Run C tr s → P s → C tr s l →
      sys.step s l = some s' → P s')
    {tr : List Label} {s : State} (h : sys.Run C tr s) (hP : P s) :
    ∀ {tr' : List Label} {s' : State}, sys.Run C (tr ++ tr') s' → P s' := by
  intro tr'
  -- from the end, where the run has its last step
  induction tr' using List.reverseRecOn with
  | nil =>
    intro s' h'
    rw [List.append_nil] at h'
    rwa [← h.det h']
  | append_singleton tr' l ih =>
    intro s' h'
    rw [← List.append_assoc] at h'
    obtain ⟨s₁, hrun, hcond, hs⟩ := h'.snoc_inv
    exact hstep hrun (ih hrun) hcond hs

/-! ### Exact conditions -/

/-- The first labels of a run are a run. -/
theorem Run.of_append {tr : List Label} :
    ∀ {tr' : List Label} {s' : State}, sys.Run C (tr ++ tr') s' → ∃ s, sys.Run C tr s := by
  intro tr'
  induction tr' using List.reverseRecOn with
  | nil =>
    intro s' h
    exact ⟨s', by rwa [List.append_nil] at h⟩
  | append_singleton tr' l ih =>
    intro s' h
    rw [← List.append_assoc] at h
    obtain ⟨s₁, hrun, -, -⟩ := h.snoc_inv
    exact ih hrun

/-- `P` holds in every state on the way of the labels `tr`. -/
def Throughout (sys : System State Label) (P : List Label → State → Prop) (tr : List Label) :
    Prop :=
  ∀ tr₁ s₁, tr₁ <+: tr → sys.Reaches tr₁ s₁ → P tr₁ s₁

/-- **The rule for an exact condition.** When `P` holds after every run under `C`,
and a step that does not meet `C` leads to a state without `P`, then `P` holds all
the way exactly when every step meets `C`. -/
theorem Run.throughout_iff {P : List Label → State → Prop}
    (hkeep : ∀ {tr s}, sys.Run C tr s → P tr s)
    (hbreak : ∀ {tr s l s'}, sys.Reaches tr s → sys.step s l = some s' → P (tr ++ [l]) s' →
      C tr s l)
    {tr : List Label} {s : State} (h : sys.Reaches tr s) :
    sys.Throughout P tr ↔ sys.Run C tr s := by
  constructor
  · intro hP
    induction h with
    | nil => exact Run.nil
    | @snoc tr s s' l hrun _ hs ih =>
      have hinit : sys.Throughout P tr := fun tr₁ s₁ h₁ => hP tr₁ s₁ (h₁.trans (tr.prefix_append _))
      have hlast : P (tr ++ [l]) s' := hP _ s' List.prefix_rfl (hrun.snoc trivial hs)
      exact (ih hinit).snoc (hbreak hrun hs hlast) hs
  · rintro hC tr₁ s₁ ⟨tr₂, rfl⟩ h₁
    obtain ⟨s₂, h₂⟩ := hC.of_append
    obtain rfl := h₁.det h₂
    exact hkeep h₂

/-! ### Components -/

/-- **Projection onto a component.** When every step of `sys` is, seen through
`view`, the step of `sys'` on the label `lab` gives, or no step of `sys'` where
`lab` gives none, a run of `sys` is a run of `sys'`. -/
theorem Run.project {sys' : System State' Label'} {D : Condition State' Label'}
    (view : State → State') (lab : Label → Option Label')
    (hinit : view sys.init = sys'.init)
    (hstep : ∀ {s l s'}, sys.step s l = some s' →
      match lab l with
      | some l' => sys'.step (view s) l' = some (view s')
      | none => view s' = view s)
    (hcond : ∀ {tr s l l'}, sys.Run C tr s → C tr s l → lab l = some l' →
      D (tr.filterMap lab) (view s) l')
    {tr : List Label} {s : State} (h : sys.Run C tr s) :
    sys'.Run D (tr.filterMap lab) (view s) := by
  induction h with
  | nil =>
    rw [List.filterMap_nil, hinit]
    exact Run.nil
  | @snoc tr s s' l hrun hc hs ih =>
    have hv := hstep hs
    rw [List.filterMap_append]
    cases hl : lab l with
    | none =>
      rw [hl] at hv
      have hnil : [l].filterMap lab = [] := by simp [hl]
      rw [hnil, List.append_nil, hv]
      exact ih
    | some l' =>
      rw [hl] at hv
      have hone : [l].filterMap lab = [l'] := by simp [hl]
      rw [hone]
      exact ih.snoc (hcond hrun hc hl) hv

end System

end Framework
