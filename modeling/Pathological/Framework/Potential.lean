import Mathlib.Algebra.Order.BigOperators.Group.List
import Mathlib.Algebra.Order.Ring.Nat
import Pathological.Framework.System
import Pathological.Framework.Table

/-!
# Potentials

A potential is a number that a state has in store for the steps to come. A step
takes its work out of the store, and what arrives from outside adds to it, so that

* over a whole run, the work done is at most what has arrived
  (`System.Run.tally_le`);
* where nothing arrives any more and every step does some work, the steps come to
  an end (`System.Drains.of_potential`).

`Table.total` is the store of the entries of a table, each with a weight that may
depend on its key.
-/

namespace Framework

/-! ### Weights of a table -/

namespace Table

variable {κ ν : Type} [DecidableEq κ] {w w' : κ → ν → ℕ} {m : Table κ ν} {k : κ} {v v₀ : ν}

omit [DecidableEq κ] in
/-- The weights of the entries, added up. -/
def total (w : κ → ν → ℕ) (m : Table κ ν) : ℕ := (m.entries.map fun e => w e.1 e.2).sum

theorem total_insert : total w (m.insert k v) = w k v + total w (m.erase k) := by
  unfold total
  rw [AList.entries_insert, List.map_cons, List.sum_cons]
  rfl

/-- Erasing takes the weight of the entry out. -/
theorem total_erase_add (h : m.lookup k = some v) :
    total w (m.erase k) + w k v = total w m := by
  have hk : k ∈ m.entries.keys := mem_of_lookup h
  obtain ⟨v', l₁, l₂, -, hl, he⟩ := List.exists_of_kerase hk
  have hv : v' = v := by
    have hmem : (⟨k, v'⟩ : Sigma fun _ : κ => ν) ∈ m.entries := by simp [hl]
    exact Option.some.inj ((AList.mem_lookup_iff.mpr hmem).symm.trans h)
  subst hv
  have herase : (m.erase k).entries = l₁ ++ l₂ := he
  unfold total
  rw [herase, hl, List.map_append, List.map_append, List.map_cons, List.sum_append,
    List.sum_append, List.sum_cons]
  exact (Nat.add_right_comm _ _ _).trans (Nat.add_assoc _ _ _)

theorem total_erase_le : total w (m.erase k) ≤ total w m := by
  cases h : m.lookup k with
  | none => rw [erase_of_lookup_none h]
  | some v =>
    rw [← total_erase_add h]
    exact Nat.le_add_right _ _

/-- Overwriting replaces the weight of the old value by that of the new one. -/
theorem total_insert_over (h : m.lookup k = some v₀) :
    total w (m.insert k v) + w k v₀ = total w m + w k v := by
  have herase := total_erase_add (w := w) h
  rw [total_insert]
  omega

theorem total_insert_le : total w (m.insert k v) ≤ total w m + w k v := by
  rw [total_insert, Nat.add_comm]
  exact Nat.add_le_add_right total_erase_le _

/-- Where every entry weighs at most as much, so do all of them. -/
theorem total_mono (h : ∀ k v, m.lookup k = some v → w k v ≤ w' k v) :
    total w m ≤ total w' m := by
  refine List.sum_le_sum fun e he => ?_
  exact h e.1 e.2 (AList.mem_lookup_iff.mpr he)

theorem total_congr (h : ∀ k v, m.lookup k = some v → w k v = w' k v) :
    total w m = total w' m :=
  le_antisymm (total_mono fun k v hk => (h k v hk).le) (total_mono fun k v hk => (h k v hk).ge)

/-- What one entry weighs less, all of them weigh less. -/
theorem total_add_le {d : ℕ} (h : ∀ k v, m.lookup k = some v → w k v ≤ w' k v)
    (hk : m.lookup k = some v) (hd : w k v + d ≤ w' k v) : total w m + d ≤ total w' m := by
  have hrest : total w (m.erase k) ≤ total w' (m.erase k) :=
    total_mono fun k' v' hk' => h k' v' (lookup_erase_cases hk').2
  rw [← total_erase_add hk, ← total_erase_add hk]
  omega

end Table

/-! ### Work along a run -/

namespace System

variable {State Label : Type} {sys : System State Label} {C : Condition State Label}
  {K : State → Label → Prop} {P : State → Prop}

/-- What the labels come to, added up. -/
def tally (f : Label → ℕ) (tr : List Label) : ℕ := (tr.map f).sum

theorem tally_snoc (f : Label → ℕ) (tr : List Label) (l : Label) :
    tally f (tr ++ [l]) = tally f tr + f l := by
  unfold tally
  rw [List.map_append, List.sum_append, List.map_singleton, List.sum_singleton]

/-- **The amortisation rule.** When every step does its work out of what the state
has in store and the step brings in, the work of a run is at most what it has
brought in. -/
theorem Run.tally_le {φ : State → ℕ} {work cost : Label → ℕ} (hinit : φ sys.init = 0)
    (hstep : ∀ {tr s l s'}, sys.Run C tr s → C tr s l → sys.step s l = some s' →
      φ s' + work l ≤ φ s + cost l)
    {tr : List Label} {s : State} (h : sys.Run C tr s) : tally work tr ≤ tally cost tr := by
  have hstore : φ s + tally work tr ≤ tally cost tr := by
    refine h.invariant (fun tr s => φ s + tally work tr ≤ tally cost tr) hinit.le ?_
    intro tr s l s' hrun ih hC hs
    have hpaid := hstep hrun hC hs
    rw [tally_snoc, tally_snoc]
    omega
  exact (Nat.le_add_left _ _).trans hstore

/-! ### Runs that come to an end -/

/-- The system, started in another state. -/
def startAt (sys : System State Label) (s : State) : System State Label := { sys with init := s }

/-- No step under `K` can be taken. -/
def Stuck (sys : System State Label) (K : State → Label → Prop) (s : State) : Prop :=
  ∀ l, K s l → sys.step s l = none

/-- From `s`, the steps under `K` come to an end, after at most `n` of them and with
`P`, whichever are taken. -/
structure Drains (sys : System State Label) (K : State → Label → Prop) (s : State) (n : ℕ)
    (P : State → Prop) : Prop where
  bounded : ∀ tr s', (sys.startAt s).Run (fun _ => K) tr s' → tr.length ≤ n
  ends : ∀ tr s', (sys.startAt s).Run (fun _ => K) tr s' → sys.Stuck K s' → P s'
  reaches : ∃ tr s', (sys.startAt s).Run (fun _ => K) tr s' ∧ P s'

/-- A run under `K` goes on until no step under `K` is left, when each does some
work. -/
theorem exists_stuck {I : State → Prop} {φ : State → ℕ}
    (hkeep : ∀ {s l s'}, I s → K s l → sys.step s l = some s' → I s')
    (hwork : ∀ {s l s'}, I s → K s l → sys.step s l = some s' → φ s' < φ s) {s₀ : State} :
    ∀ {tr : List Label} {s : State}, I s → (sys.startAt s₀).Run (fun _ => K) tr s →
      ∃ tr' s', (sys.startAt s₀).Run (fun _ => K) tr' s' ∧ sys.Stuck K s' := by
  intro tr s hI hrun
  -- on what the state has in store
  induction hn : φ s using Nat.strong_induction_on generalizing tr s with
  | _ n ih =>
    by_cases hstuck : sys.Stuck K s
    · exact ⟨tr, s, hrun, hstuck⟩
    · unfold Stuck at hstuck
      push Not at hstuck
      obtain ⟨l, hK, hsome⟩ := hstuck
      obtain ⟨s', hs⟩ := Option.ne_none_iff_exists'.mp hsome
      exact ih (φ s') (hn ▸ hwork hI hK hs) (hkeep hI hK hs) (hrun.snoc hK hs) rfl

/-- **The rule for runs that come to an end.** When every step under `K` keeps `I`
and does some work, and a state with `I` where none is left has `P`, the steps under
`K` drain to `P`. -/
theorem Drains.of_potential (I : State → Prop) (φ : State → ℕ)
    (hkeep : ∀ {s l s'}, I s → K s l → sys.step s l = some s' → I s')
    (hwork : ∀ {s l s'}, I s → K s l → sys.step s l = some s' → φ s' < φ s)
    (hends : ∀ {s}, I s → sys.Stuck K s → P s) {s : State} (hI : I s) :
    sys.Drains K s (φ s) P := by
  have hrun {tr : List Label} {s' : State} (h : (sys.startAt s).Run (fun _ => K) tr s') :
      I s' ∧ φ s' + tr.length ≤ φ s := by
    refine h.invariant (fun tr s' => I s' ∧ φ s' + tr.length ≤ φ s) ⟨hI, le_rfl⟩ ?_
    intro tr s₁ l s₂ _ ih hK hs
    have hless := hwork ih.1 hK hs
    refine ⟨hkeep ih.1 hK hs, ?_⟩
    rw [List.length_append, List.length_singleton]
    omega
  have hend : ∀ tr s', (sys.startAt s).Run (fun _ => K) tr s' → sys.Stuck K s' → P s' :=
    fun tr s' h hstuck => hends (hrun h).1 hstuck
  refine ⟨fun tr s' h => (Nat.le_add_left _ _).trans (hrun h).2, hend, ?_⟩
  obtain ⟨tr, s', h, hstuck⟩ := exists_stuck hkeep hwork hI (Run.nil)
  exact ⟨tr, s', h, hend tr s' h hstuck⟩

end System

end Framework
