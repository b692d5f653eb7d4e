import Mathlib.Algebra.Order.Field.Basic
import Mathlib.Order.Interval.Set.UnorderedInterval
import Mathlib.Tactic.Ring

/-!
# Keyframes

Values given at key times, and the linear search for the keyframes around a time
(`select`). The search needs no order among the key times: it only goes on where
the time is after the key time it has reached (`lt_of_skipped`), so with a time
before the last of them it ends in a segment that is not empty
(`exists_select`).

Where the key times are increasing, what is selected is the value of the
interpolant, the one function that is given by each closed segment and constant
outside (`isInterpolant_of_at`, `IsInterpolant.eq_value`).
-/

namespace Framework

/-- Which keyframes are taken: the first, the last, or keyframe `i` and the one
after it, `alpha` of the way. -/
inductive Selection (K : Type)
  | first
  | last
  | between (i : ℕ) (alpha : K)
  deriving DecidableEq, Repr

namespace Selection

variable {K V : Type}

/-- The earlier of the keyframes taken, of `n` keyframes. -/
def lower (n : ℕ) : Selection K → ℕ
  | first => 0
  | last => n - 1
  | between i _ => i

/-- The later one. -/
def upper (n : ℕ) : Selection K → ℕ
  | first => 0
  | last => n - 1
  | between i _ => i + 1

/-- The value taken. -/
def value (interpolate : V → V → K → V) (n : ℕ) (vs : ℕ → V) : Selection K → V
  | first => vs 0
  | last => vs (n - 1)
  | between i alpha => interpolate (vs i) (vs (i + 1)) alpha

variable [Field K] [LinearOrder K] {n : ℕ} {ts : ℕ → K} {t : K} {s : Selection K}

/-- The selection is right for the time `t`, the key times being `ts`. -/
def At (n : ℕ) (ts : ℕ → K) (t : K) : Selection K → Prop
  | first => t ≤ ts 0
  | last => ts (n - 1) ≤ t
  | between i alpha => i + 1 < n ∧ ts i < t ∧ t ≤ ts (i + 1) ∧
      alpha = (t - ts i) / (ts (i + 1) - ts i)

theorem At.upper_lt (hn : 0 < n) (h : s.At n ts t) : s.upper n < n := by
  cases s with
  | first => exact hn
  | last => exact Nat.sub_one_lt hn.ne'
  | between i alpha => exact h.1

theorem At.lower_lt (hn : 0 < n) (h : s.At n ts t) : s.lower n < n := by
  cases s with
  | first => exact hn
  | last => exact Nat.sub_one_lt hn.ne'
  | between i alpha => exact Nat.lt_of_succ_lt h.1

variable [IsStrictOrderedRing K] {i : ℕ} {alpha : K}

/-- The divisor is positive. -/
theorem At.divisor_pos (h : (between i alpha).At n ts t) : 0 < ts (i + 1) - ts i :=
  sub_pos.mpr (h.2.1.trans_le h.2.2.1)

theorem At.alpha_pos (h : (between i alpha).At n ts t) : 0 < alpha := by
  rw [h.2.2.2]
  exact div_pos (sub_pos.mpr h.2.1) h.divisor_pos

theorem At.alpha_le_one (h : (between i alpha).At n ts t) : alpha ≤ 1 := by
  rw [h.2.2.2, div_le_one h.divisor_pos]
  exact sub_le_sub_right h.2.2.1 _

end Selection

variable {K V : Type} [Field K] [LinearOrder K]

/-! ### The search -/

/-- The first of the segments that the time is in. -/
def selectSegment (ts : ℕ → K) (t : K) (is : List ℕ) : Option (Selection K) :=
  (is.find? fun i => decide (ts i ≤ t ∧ t ≤ ts (i + 1))).map
    fun i => .between i ((t - ts i) / (ts (i + 1) - ts i))

/-- The search: a time outside is taken to the first or the last keyframe. -/
def select (n : ℕ) (ts : ℕ → K) (t : K) : Option (Selection K) :=
  if t ≤ ts 0 then some .first
  else if ts (n - 1) ≤ t then some .last
  else selectSegment ts t (List.range (n - 1))

variable {n : ℕ} {ts : ℕ → K} {vs : ℕ → V} {t : K} {s : Selection K}

theorem selectSegment_cons_of_mem {i : ℕ} {is : List ℕ} (h : ts i ≤ t ∧ t ≤ ts (i + 1)) :
    selectSegment ts t (i :: is) = some (.between i ((t - ts i) / (ts (i + 1) - ts i))) := by
  rw [selectSegment, List.find?_cons_of_pos (by exact decide_eq_true h), Option.map_some]

theorem selectSegment_cons_of_notMem {i : ℕ} {is : List ℕ} (h : ¬ (ts i ≤ t ∧ t ≤ ts (i + 1))) :
    selectSegment ts t (i :: is) = selectSegment ts t is := by
  rw [selectSegment, List.find?_cons_of_neg (by simpa using h), selectSegment]

omit [Field K] in
/-- The invariant of the search: the time is after every key time it has passed. -/
theorem lt_of_skipped {m : ℕ} (hfirst : ts 0 < t)
    (hskip : ∀ i < m, ¬ (ts i ≤ t ∧ t ≤ ts (i + 1))) : ts m < t := by
  induction m with
  | zero => exact hfirst
  | succ m ih =>
    have hm : ts m < t := ih fun i hi => hskip i (Nat.lt_succ_of_lt hi)
    exact not_le.mp fun hle => hskip m (Nat.lt_succ_self m) ⟨hm.le, hle⟩

/-- The search ends with a selection. -/
theorem exists_select (n : ℕ) (ts : ℕ → K) (t : K) :
    ∃ s, select n ts t = some s ∧ s.At n ts t := by
  by_cases hfirst : t ≤ ts 0
  · exact ⟨.first, if_pos hfirst, hfirst⟩
  by_cases hlast : ts (n - 1) ≤ t
  · exact ⟨.last, by rw [select, if_neg hfirst, if_pos hlast], hlast⟩
  rw [select, if_neg hfirst, if_neg hlast, selectSegment]
  cases hfind : (List.range (n - 1)).find? fun i => decide (ts i ≤ t ∧ t ≤ ts (i + 1)) with
  | none =>
    -- the search has passed the last key time too
    rw [List.find?_range_eq_none] at hfind
    have hskip (i : ℕ) (hi : i < n - 1) : ¬ (ts i ≤ t ∧ t ≤ ts (i + 1)) :=
      of_decide_eq_false (Bool.eq_false_of_not_eq_true' (hfind i hi))
    exact absurd (lt_of_skipped (not_le.mp hfirst) hskip).le hlast
  | some i =>
    obtain ⟨hi, hmem, hfind⟩ := List.find?_range_eq_some.mp hfind
    have hskip (j : ℕ) (hj : j < i) : ¬ (ts j ≤ t ∧ t ≤ ts (j + 1)) :=
      of_decide_eq_false (Bool.eq_false_of_not_eq_true' (hfind j hj))
    have hlt : ts i < t := lt_of_skipped (not_le.mp hfirst) hskip
    have hlen := List.mem_range.mp hmem
    exact ⟨_, rfl, by omega, hlt, (of_decide_eq_true hi).2, rfl⟩

/-! ### Interpolants -/

/-- `f` interpolates the values, on each closed segment by `interpolate`, and is
constant before the first key time and after the last. -/
structure IsInterpolant (interpolate : V → V → K → V) (n : ℕ) (ts : ℕ → K) (vs : ℕ → V)
    (f : K → V) : Prop where
  before : ∀ t, t ≤ ts 0 → f t = vs 0
  after : ∀ t, ts (n - 1) ≤ t → f t = vs (n - 1)
  segment : ∀ i, i + 1 < n → ∀ t, ts i ≤ t → t ≤ ts (i + 1) →
    f t = interpolate (vs i) (vs (i + 1)) ((t - ts i) / (ts (i + 1) - ts i))

variable {interpolate : V → V → K → V} {f g : K → V}

/-- An interpolant is given by any selection that is right for the time. -/
theorem IsInterpolant.eq_value (h : IsInterpolant interpolate n ts vs f) (hs : s.At n ts t) :
    f t = s.value interpolate n vs := by
  cases s with
  | first => exact h.before t hs
  | last => exact h.after t hs
  | between i alpha =>
    obtain ⟨hi, hlt, hle, rfl⟩ := hs
    exact h.segment i hi t hlt.le hle

/-- There is at most one interpolant. -/
theorem IsInterpolant.unique (hf : IsInterpolant interpolate n ts vs f)
    (hg : IsInterpolant interpolate n ts vs g) : f = g := by
  funext t
  obtain ⟨s, -, hs⟩ := exists_select n ts t
  rw [hf.eq_value hs, hg.eq_value hs]

section Increasing

variable [IsStrictOrderedRing K] (hmono : StrictMonoOn ts (Set.Iio n))
  (hzero : ∀ u v, interpolate u v 0 = u) (hone : ∀ u v, interpolate u v 1 = v)
include hmono hone

/-- At a key time its value is taken, from whichever side. -/
theorem Selection.At.value_keyTime {k : ℕ} (hk : k < n) (hs : s.At n ts (ts k)) :
    s.value interpolate n vs = vs k := by
  cases s with
  | first =>
    have hle : k ≤ 0 := (hmono.le_iff_le hk (Nat.zero_lt_of_lt hk)).mp hs
    obtain rfl := Nat.le_zero.mp hle
    rfl
  | last =>
    have hle : n - 1 ≤ k := (hmono.le_iff_le (by simp; omega) hk).mp hs
    obtain rfl : k = n - 1 := by omega
    rfl
  | between i alpha =>
    have hpos : 0 < ts (i + 1) - ts i := hs.divisor_pos
    obtain ⟨hi, hlt, hle, rfl⟩ := hs
    have hlt : i < k := (hmono.lt_iff_lt (Nat.lt_of_succ_lt hi) hk).mp hlt
    have hle : k ≤ i + 1 := (hmono.le_iff_le hk hi).mp hle
    obtain rfl : k = i + 1 := by omega
    rw [Selection.value, div_self hpos.ne', hone]

include hzero

/-- A closed segment that the time is in gives the value taken. -/
theorem Selection.At.value_segment {i : ℕ} (hi : i + 1 < n) (hle : ts i ≤ t)
    (hle' : t ≤ ts (i + 1)) (hs : s.At n ts t) :
    s.value interpolate n vs =
      interpolate (vs i) (vs (i + 1)) ((t - ts i) / (ts (i + 1) - ts i)) := by
  have hi' : i < n := Nat.lt_of_succ_lt hi
  have hpos : 0 < ts (i + 1) - ts i := sub_pos.mpr (hmono hi' hi (Nat.lt_succ_self i))
  -- the ends of the segment are key times
  rcases hle.eq_or_lt with rfl | hlt
  · rw [hs.value_keyTime hmono hone hi', sub_self, zero_div, hzero]
  rcases hle'.eq_or_lt with rfl | hlt'
  · rw [hs.value_keyTime hmono hone hi, div_self hpos.ne', hone]
  -- inside, no other selection is right
  cases s with
  | first =>
    have hfirst : ts 0 ≤ ts i := hmono.monotoneOn (Nat.zero_lt_of_lt hi) hi' (Nat.zero_le i)
    exact absurd hs (not_le.mpr (hfirst.trans_lt hlt))
  | last =>
    have hmem : n - 1 ∈ Set.Iio n := Nat.sub_one_lt (Nat.ne_zero_of_lt hi)
    have hlast : ts (i + 1) ≤ ts (n - 1) := hmono.monotoneOn hi hmem (by omega)
    exact absurd hs (not_le.mpr (hlt'.trans_le hlast))
  | between j alpha =>
    obtain ⟨hj, hltj, hlej, rfl⟩ := hs
    have hji : j < i + 1 := (hmono.lt_iff_lt (Nat.lt_of_succ_lt hj) hi).mp (hltj.trans hlt')
    have hij : i < j + 1 := (hmono.lt_iff_lt hi' hj).mp (hlt.trans_le hlej)
    obtain rfl : j = i := by omega
    rfl

omit hzero in
theorem Selection.At.value_before (hn : 0 < n) (ht : t ≤ ts 0) (hs : s.At n ts t) :
    s.value interpolate n vs = vs 0 := by
  rcases ht.eq_or_lt with rfl | hlt
  · exact hs.value_keyTime hmono hone hn
  cases s with
  | first => rfl
  | last =>
    have hle : ts 0 ≤ ts (n - 1) := hmono.monotoneOn hn (Nat.sub_one_lt hn.ne') (Nat.zero_le _)
    exact absurd hs (not_le.mpr (hlt.trans_le hle))
  | between i alpha =>
    have hle : ts 0 ≤ ts i := hmono.monotoneOn hn (Nat.lt_of_succ_lt hs.1) (Nat.zero_le i)
    exact absurd hs.2.1 (hlt.trans_le hle).not_gt

omit hzero in
theorem Selection.At.value_after (hn : 0 < n) (ht : ts (n - 1) ≤ t) (hs : s.At n ts t) :
    s.value interpolate n vs = vs (n - 1) := by
  have hmem : n - 1 ∈ Set.Iio n := Nat.sub_one_lt hn.ne'
  rcases ht.eq_or_lt with rfl | hlt
  · exact hs.value_keyTime hmono hone hmem
  cases s with
  | first =>
    have hle : ts 0 ≤ ts (n - 1) := hmono.monotoneOn hn hmem (Nat.zero_le _)
    exact absurd hs (not_le.mpr (hle.trans_lt hlt))
  | last => rfl
  | between i alpha =>
    have hle : ts (i + 1) ≤ ts (n - 1) := hmono.monotoneOn hs.1 hmem (Nat.le_sub_one_of_lt hs.1)
    exact absurd hs.2.2.1 (hle.trans_lt hlt).not_ge

/-- What is taken at each time makes up an interpolant. -/
theorem isInterpolant_of_at (hn : 0 < n)
    (hf : ∀ t, ∃ s : Selection K, s.At n ts t ∧ f t = s.value interpolate n vs) :
    IsInterpolant interpolate n ts vs f where
  before t ht := by
    obtain ⟨s, hs, hft⟩ := hf t
    rw [hft, hs.value_before hmono hone hn ht]
  after t ht := by
    obtain ⟨s, hs, hft⟩ := hf t
    rw [hft, hs.value_after hmono hone hn ht]
  segment i hi t hle hle' := by
    obtain ⟨s, hs, hft⟩ := hf t
    rw [hft, hs.value_segment hmono hzero hone hi hle hle']

end Increasing

end Framework
