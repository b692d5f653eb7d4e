import Mathlib.Algebra.BigOperators.Group.List.Basic
import Mathlib.Algebra.Ring.Nat
import Mathlib.Order.Monotone.Basic

/-!
# Runs and groups

Runs of elements, one after another: run `a` of the list has `size a` elements,
and starts at the total size of the runs before it (`offset`). The elements are
read in groups of `g`, and next to them stands a list of values, `count a` times
the value of run `a`.

The first `n` groups agree with the first `n` values when each lies within a run
and its value is that run's (`Aligned`). Where the counts are those of the whole
groups of each run, that is so exactly when the runs start at multiples of `g`, as
far as the groups reach (`aligned_iff_fits`); and where the groups are all whole
groups of the elements, when a run that is no multiple of `g` is followed by less
than would make up another group (`fits_iff`).
-/

namespace Framework

variable {α β : Type}

/-! ### Offsets -/

/-- The total size of the first `i` runs. -/
def offset (size : α → ℕ) (l : List α) (i : ℕ) : ℕ := ((l.take i).map size).sum

section Offset

variable (size : α → ℕ) (l : List α) {i j : ℕ} {a : α}

@[simp] theorem offset_zero : offset size l 0 = 0 := rfl

theorem offset_length : offset size l l.length = (l.map size).sum := by
  rw [offset, List.take_length]

theorem offset_add_drop (i : ℕ) :
    offset size l i + ((l.drop i).map size).sum = (l.map size).sum := by
  rw [offset, ← List.sum_append, ← List.map_append, List.take_append_drop]

variable {size l}

theorem offset_succ (h : l[i]? = some a) : offset size l (i + 1) = offset size l i + size a := by
  rw [offset, List.take_add_one, h, List.map_append, List.sum_append]
  rfl

theorem offset_succ_of_none (h : l[i]? = none) : offset size l (i + 1) = offset size l i := by
  rw [offset, List.take_add_one, h, Option.toList_none, List.append_nil, offset]

theorem offset_mono : Monotone (offset size l) := by
  refine monotone_nat_of_le_succ fun i => ?_
  cases h : l[i]? with
  | none => exact (offset_succ_of_none h).ge
  | some a => exact (Nat.le_add_right _ _).trans_eq (offset_succ h).symm

theorem offset_map {γ : Type} {f : γ → α} {l : List γ} (i : ℕ) :
    offset size (l.map f) i = offset (fun c => size (f c)) l i := by
  rw [offset, offset, ← List.map_take, List.map_map]
  rfl

/-- A run ends where the next one starts, or before. -/
theorem offset_add_le (h : l[i]? = some a) (hij : i < j) :
    offset size l i + size a ≤ offset size l j := by
  rw [← offset_succ h]
  exact offset_mono hij

theorem offset_add_le_total (h : l[i]? = some a) :
    offset size l i + size a ≤ (l.map size).sum := by
  rw [← offset_length]
  exact offset_add_le h (List.getElem?_eq_some_iff.mp h).1

/-- Every element is in a run. -/
theorem exists_offset {p : ℕ} (hp : p < (l.map size).sum) :
    ∃ i a, l[i]? = some a ∧ offset size l i ≤ p ∧ p < offset size l i + size a := by
  induction l generalizing p with
  | nil => cases hp
  | cons a l ih =>
    rw [List.map_cons, List.sum_cons] at hp
    by_cases hlt : p < size a
    · exact ⟨0, a, rfl, Nat.zero_le p, by rwa [offset_zero, Nat.zero_add]⟩
    · obtain ⟨i, b, hb, hle, hlt'⟩ := ih (p := p - size a) (by omega)
      have hoffset : offset size (a :: l) (i + 1) = size a + offset size l i := rfl
      exact ⟨i + 1, b, hb, by omega, by omega⟩

/-- An element before the end of run `j` is not in a run after it. -/
theorem le_of_offset {p : ℕ} {b : α} (hi : offset size l i ≤ p) (hj : l[j]? = some b)
    (hp : p < offset size l j + size b) : i ≤ j := by
  refine Nat.not_lt.mp fun hlt => ?_
  have hle : offset size l j + size b ≤ offset size l i := offset_add_le hj hlt
  omega

/-- The elements of a run, in the concatenation. -/
theorem getElem?_flatMap_offset {f : α → List β} {p : ℕ} (h : l[i]? = some a)
    (hp : p < (f a).length) :
    (l.flatMap f)[offset (fun a => (f a).length) l i + p]? = (f a)[p]? := by
  induction l generalizing i with
  | nil => cases h
  | cons b l ih =>
    rw [List.flatMap_cons]
    cases i with
    | zero =>
      obtain rfl := Option.some.inj h
      rw [offset_zero, Nat.zero_add, List.getElem?_append_left hp]
    | succ i =>
      have hoffset : offset (fun a => (f a).length) (b :: l) (i + 1) =
        (f b).length + offset (fun a => (f a).length) l i := rfl
      rw [hoffset, Nat.add_assoc, List.getElem?_append_right (Nat.le_add_right _ _),
        Nat.add_sub_cancel_left]
      exact ih h

/-- Runs of one size. -/
theorem offset_blocks {n : ℕ} (hsize : ∀ a ∈ l, size a = n) (hi : i ≤ l.length) :
    offset size l i = n * i := by
  have hconst : (l.take i).map size = List.replicate i n := by
    refine List.eq_replicate_iff.mpr ⟨?_, fun m hm => ?_⟩
    · rw [List.length_map, List.length_take, Nat.min_eq_left hi]
    · obtain ⟨a, ha, rfl⟩ := List.mem_map.mp hm
      exact hsize a (List.mem_of_mem_take ha)
  rw [offset, hconst, List.sum_replicate_nat, Nat.mul_comm]

/-- The elements of a run, where the runs have one size. -/
theorem getElem?_flatMap_blocks {f : α → List β} {n p : ℕ} (hsize : ∀ a ∈ l, (f a).length = n)
    (h : l[i]? = some a) (hp : p < n) : (l.flatMap f)[n * i + p]? = (f a)[p]? := by
  have hi : i < l.length := (List.getElem?_eq_some_iff.mp h).1
  have hget := getElem?_flatMap_offset (f := f) (p := p) h (by
    rw [hsize a (List.mem_of_getElem? h)]
    exact hp)
  rwa [offset_blocks hsize hi.le] at hget

end Offset

/-! ### Groups -/

/-- Each run's value, `count` times. -/
def recorded (count : α → ℕ) (value : α → β) (l : List α) : List β :=
  l.flatMap fun a => List.replicate (count a) (value a)

/-- There are `n` values, and each of the first `n` groups is in a run that has its
value. -/
structure Aligned (g n : ℕ) (size count : α → ℕ) (value : α → β) (l : List α) : Prop where
  total : (recorded count value l).length = n
  group : ∀ k < n, ∃ i a, l[i]? = some a ∧ offset size l i ≤ g * k ∧
    g * k + g ≤ offset size l i + size a ∧ (recorded count value l)[k]? = some (value a)

/-- There are `n` values, the runs that the groups reach start at multiples of `g`,
and the runs after those have no value, or that of the last of those. -/
structure Fits (g n : ℕ) (size count : α → ℕ) (value : α → β) (l : List α) : Prop where
  total : (l.map count).sum = n
  start : ∀ i, offset size l i < g * n → g ∣ offset size l i
  rest : ∀ i a, l[i]? = some a → offset size l i < g * n → g * n ≤ offset size l i + size a →
    ∀ j b, l[j]? = some b → i < j → 0 < count b → value b = value a

section Groups

variable {g n : ℕ} {size count : α → ℕ} {value : α → β} {l : List α}

theorem length_recorded : (recorded count value l).length = (l.map count).sum := by
  rw [recorded, List.length_flatMap]
  simp only [List.length_replicate]

/-- The values of a run. -/
theorem getElem?_recorded {i k : ℕ} {a : α} (h : l[i]? = some a) (hle : offset count l i ≤ k)
    (hlt : k < offset count l i + count a) : (recorded count value l)[k]? = some (value a) := by
  have hlength : (fun a => (List.replicate (count a) (value a)).length) = count := by
    funext a
    exact List.length_replicate
  have hp : k - offset count l i < (List.replicate (count a) (value a)).length := by
    rw [List.length_replicate]
    omega
  have hget := getElem?_flatMap_offset (f := fun a => List.replicate (count a) (value a)) h hp
  rw [hlength, Nat.add_sub_cancel' hle, List.getElem?_replicate_of_lt (by omega)] at hget
  exact hget

/-- As far as the groups reach, the values keep pace with the groups. -/
theorem offset_count_eq (hstart : ∀ i, offset size l i < g * n → g ∣ offset size l i)
    (hcount : ∀ a ∈ l, size a ≤ g * n → count a = size a / g) {i : ℕ}
    (hi : offset size l i < g * n) : g * offset count l i = offset size l i := by
  induction i with
  | zero => rfl
  | succ i ih =>
    have hi' : offset size l i < g * n := (offset_mono (Nat.le_succ i)).trans_lt hi
    cases h : l[i]? with
    | none => rw [offset_succ_of_none h, offset_succ_of_none h, ih hi']
    | some a =>
      have hsucc : offset size l (i + 1) = offset size l i + size a := offset_succ h
      -- the run is made up of whole groups
      have hdvd : g ∣ size a := (Nat.dvd_add_right (hstart i hi')).mp (hsucc ▸ hstart _ hi)
      have hle : size a ≤ g * n := by omega
      rw [offset_succ h, hsucc, Nat.mul_add, ih hi', hcount a (List.mem_of_getElem? h) hle,
        Nat.mul_div_cancel' hdvd]

/-- The runs that the groups reach start at multiples of `g` when each group is in a
run. -/
theorem dvd_offset (hg : 0 < g) (hgroup : ∀ k < n, ∃ i a, l[i]? = some a ∧
      offset size l i ≤ g * k ∧ g * k + g ≤ offset size l i + size a) (i : ℕ)
    (hi : offset size l i < g * n) : g ∣ offset size l i := by
  -- the group that the start of the run is in is in a run too
  have hlt : offset size l i / g < n := Nat.div_lt_of_lt_mul hi
  obtain ⟨j, a, hj, hle, hlast⟩ := hgroup _ hlt
  have hmod := Nat.div_add_mod (offset size l i) g
  have hmodlt := Nat.mod_lt (offset size l i) hg
  have hij : ¬ j < i := fun hji => by
    have hend : offset size l j + size a ≤ offset size l i := offset_add_le hj hji
    omega
  have hmono : offset size l i ≤ offset size l j := offset_mono (Nat.not_lt.mp hij)
  exact Nat.dvd_of_mod_eq_zero (by omega)

theorem mul_succ_le {k m : ℕ} (hlt : g * k < m) (hdvd : g ∣ m) : g * k + g ≤ m := by
  obtain ⟨q, rfl⟩ := hdvd
  rw [← Nat.mul_succ]
  exact Nat.mul_le_mul_left g (Nat.lt_of_mul_lt_mul_left hlt)

/-- Each group is in a run when the runs it may reach start at multiples of `g`. -/
theorem exists_group (hn : g * n ≤ (l.map size).sum) (hg : 0 < g)
    (hstart : ∀ i, offset size l i < g * n → g ∣ offset size l i) {k : ℕ} (hk : k < n) :
    ∃ i a, l[i]? = some a ∧ offset size l i ≤ g * k ∧ g * k + g ≤ offset size l i + size a := by
  have hlt : g * k < g * n := Nat.mul_lt_mul_of_pos_left hk hg
  obtain ⟨i, a, h, hle, hend⟩ := exists_offset (hlt.trans_le hn)
  refine ⟨i, a, h, hle, ?_⟩
  rw [← offset_succ h] at hend ⊢
  by_cases hreach : offset size l (i + 1) < g * n
  · exact mul_succ_le hend (hstart _ hreach)
  · exact (mul_succ_le hlt (Nat.dvd_mul_right g n)).trans (Nat.not_lt.mp hreach)

/-- Groups and values agree exactly when the runs fit. -/
theorem aligned_iff_fits (hg : 0 < g) (hn : g * n ≤ (l.map size).sum)
    (hcount : ∀ a ∈ l, size a ≤ g * n → count a = size a / g) :
    Aligned g n size count value l ↔ Fits g n size count value l := by
  refine ⟨fun h => ?_, fun h => ⟨length_recorded.trans h.total, fun k hk => ?_⟩⟩
  · have htotal : (l.map count).sum = n := length_recorded.symm.trans h.total
    have hstart := dvd_offset (n := n) hg fun k hk => by
      obtain ⟨i, a, hi, hle, hend, -⟩ := h.group k hk
      exact ⟨i, a, hi, hle, hend⟩
    refine ⟨htotal, hstart, fun i a hi hlt hreach j b hj hij hpos => ?_⟩
    -- the first value of run `j` is that of a group, and the group is in run `i`
    have hk : offset count l j < n := by
      have hle : offset count l j + count b ≤ (l.map count).sum := offset_add_le_total hj
      omega
    obtain ⟨m, c, hm, hle, hend, hvalue⟩ := h.group _ hk
    have hfirstValue : (recorded count value l)[offset count l j]? = some (value b) :=
      getElem?_recorded hj le_rfl (Nat.lt_add_of_pos_right hpos)
    have hpace := offset_count_eq hstart hcount hlt
    have hfirst : offset size l i ≤ g * offset count l j :=
      hpace.ge.trans (Nat.mul_le_mul_left g (offset_mono hij.le))
    have hlast := mul_succ_le (Nat.mul_lt_mul_of_pos_left hk hg) (Nat.dvd_mul_right g n)
    have hmi : m = i := Nat.le_antisymm (le_of_offset hle hi (by omega))
      (le_of_offset hfirst hm (by omega))
    subst hmi
    obtain rfl := Option.some.inj (hi.symm.trans hm)
    exact Option.some.inj (hfirstValue.symm.trans hvalue)
  · obtain ⟨i, a, hi, hle, hend⟩ := exists_group hn hg h.start hk
    refine ⟨i, a, hi, hle, hend, ?_⟩
    have hlt : offset size l i < g * n :=
      hle.trans_lt (Nat.mul_lt_mul_of_pos_left hk hg)
    have hpace := offset_count_eq h.start hcount hlt
    have hfirst : offset count l i ≤ k :=
      Nat.le_of_mul_le_mul_left (hpace.trans_le hle) hg
    obtain ⟨j, b, hj, hfrom, hto⟩ := exists_offset (h.total.symm ▸ hk)
    rw [getElem?_recorded hj hfrom hto]
    rcases (le_of_offset hfirst hj hto).eq_or_lt with rfl | hij
    · obtain rfl := Option.some.inj (hi.symm.trans hj)
      rfl
    -- the value is recorded for a later run, so the groups end in this one
    · refine congrArg some
        (h.rest i a hi hlt (Nat.not_lt.mp fun hreach => ?_) j b hj hij (by omega))
      rw [← offset_succ hi] at hend hreach
      have hnext := offset_count_eq h.start hcount hreach
      have hlater : offset count l (i + 1) ≤ offset count l j := offset_mono hij
      have hmul := Nat.mul_le_mul_left g (hlater.trans hfrom)
      omega

section Whole

variable (hg : 0 < g) (hn : n = (l.map size).sum / g)
include hg hn

/-- There are fewer than `g` elements after the groups. -/
theorem total_lt : (l.map size).sum < g * n + g := by
  have htotal := Nat.div_add_mod (l.map size).sum g
  have hlt := Nat.mod_lt (l.map size).sum hg
  rw [← hn] at htotal
  omega

/-- What is left over of the run in which the groups end. -/
theorem mod_of_reached {i : ℕ} {a : α} (h : l[i]? = some a) (hdvd : g ∣ offset size l i)
    (hreach : g * n ≤ offset size l i + size a) :
    g * n + size a % g = offset size l i + size a ∧ n = offset size l i / g + size a / g := by
  have hle : offset size l i + size a ≤ (l.map size).sum := offset_add_le_total h
  have hlt := total_lt hg hn
  obtain ⟨q, hq⟩ := hdvd
  have hcomm : n * g = g * n := Nat.mul_comm n g
  have hdiv : (g * q + size a) / g = n :=
    Nat.div_eq_of_lt_le (by omega) (by rw [Nat.succ_mul]; omega)
  have hmod := Nat.div_add_mod (g * q + size a) g
  rw [hdiv, Nat.mul_add_mod] at hmod
  rw [Nat.mul_add_div hg] at hdiv
  rw [hq, Nat.mul_div_cancel_left q hg]
  exact ⟨hmod, hdiv.symm⟩

/-- A run after the groups has no values. -/
theorem count_eq_zero (hcount : ∀ a ∈ l, count a = size a / g) {j : ℕ} {b : α}
    (hj : l[j]? = some b) (hreach : g * n ≤ offset size l j) : count b = 0 := by
  have hle : offset size l j + size b ≤ (l.map size).sum := offset_add_le_total hj
  have hlt := total_lt hg hn
  rw [hcount b (List.mem_of_getElem? hj)]
  exact Nat.div_eq_of_lt (by omega)

/-- As many values are recorded as there are groups. -/
theorem total_count (hcount : ∀ a ∈ l, count a = size a / g)
    (hstart : ∀ i, offset size l i < g * n → g ∣ offset size l i) :
    (l.map count).sum = n := by
  -- nothing is recorded after the groups
  have hrest (i : ℕ) (hreach : g * n ≤ offset size l i) : ((l.drop i).map count).sum = 0 := by
    refine List.sum_eq_zero fun c hc => ?_
    obtain ⟨b, hb, rfl⟩ := List.mem_map.mp hc
    obtain ⟨j, hj⟩ := List.mem_iff_getElem?.mp hb
    rw [List.getElem?_drop] at hj
    exact count_eq_zero hg hn hcount hj (hreach.trans (offset_mono (Nat.le_add_right i j)))
  rcases Nat.eq_zero_or_pos n with rfl | hpos
  · exact hrest 0 (Nat.zero_le _)
  have hpos' : 0 < g * n := Nat.mul_pos hg hpos
  have hle : g * n ≤ (l.map size).sum := hn ▸ Nat.mul_div_le _ g
  obtain ⟨i, a, hi, hfrom, hto⟩ := exists_offset (show g * n - 1 < (l.map size).sum by omega)
  have hlt : offset size l i < g * n := by omega
  have hreach : g * n ≤ offset size l i + size a := by omega
  have hpace : g * offset count l i = offset size l i :=
    offset_count_eq hstart (fun a ha _ => hcount a ha) hlt
  obtain ⟨-, hquot⟩ := mod_of_reached hg hn hi (hstart i hlt) hreach
  rw [← hpace, Nat.mul_div_cancel_left _ hg, ← hcount a (List.mem_of_getElem? hi),
    ← offset_succ hi] at hquot
  rw [← offset_add_drop count l (i + 1), hrest _ (hreach.trans_eq (offset_succ hi).symm),
    Nat.add_zero, ← hquot]

/-- The runs fit the groups that the elements make up exactly when a run that is no
multiple of `g` leaves no other group. -/
theorem fits_iff (hcount : ∀ a ∈ l, count a = size a / g) :
    Fits g n size count value l ↔ ∀ i a, l[i]? = some a → ¬ g ∣ size a →
      size a % g + ((l.drop (i + 1)).map size).sum < g := by
  have htotal := total_lt hg hn
  refine ⟨fun h i a hi hdvd => ?_, fun h => ?_⟩
  · have hdrop := offset_add_drop size l (i + 1)
    rw [offset_succ hi] at hdrop
    by_cases hlt : offset size l i < g * n
    · have hreach : g * n ≤ offset size l i + size a := Nat.not_lt.mp fun hnext =>
        hdvd ((Nat.dvd_add_right (h.start i hlt)).mp
          (offset_succ hi ▸ h.start (i + 1) (offset_succ hi ▸ hnext)))
      obtain ⟨hmod, -⟩ := mod_of_reached hg hn hi (h.start i hlt) hreach
      omega
    · rw [Nat.mod_eq_of_lt (by omega)]
      omega
  · have hstart (i : ℕ) (hi : offset size l i < g * n) : g ∣ offset size l i := by
      induction i with
      | zero => exact Nat.dvd_zero g
      | succ i ih =>
        have hdvd := ih ((offset_mono (Nat.le_succ i)).trans_lt hi)
        cases hrun : l[i]? with
        | none => exact offset_succ_of_none hrun ▸ hdvd
        | some a =>
          rw [offset_succ hrun] at hi ⊢
          refine (Nat.dvd_add_right hdvd).mpr (by_contra fun hsize => ?_)
          -- what follows does not make up the groups that are left
          have hdrop := offset_add_drop size l (i + 1)
          have hsmall := h i a hrun hsize
          have hmod := Nat.div_add_mod (size a) g
          have hle : g * n ≤ (l.map size).sum := hn ▸ Nat.mul_div_le _ g
          obtain ⟨q, hq⟩ := hdvd
          rw [offset_succ hrun, hq] at hdrop
          rw [hq] at hi
          have hlt : g * n < g * (q + size a / g + 1) := by
            rw [Nat.mul_add, Nat.mul_add]
            omega
          have hreach := Nat.mul_le_mul_left g
            (Nat.le_of_lt_succ (Nat.lt_of_mul_lt_mul_left hlt))
          rw [Nat.mul_add] at hreach
          omega
    refine ⟨total_count hg hn hcount hstart, hstart,
      fun i a hi hlt hreach j b hj hij hpos => ?_⟩
    have hzero := count_eq_zero hg hn hcount hj (hreach.trans (offset_add_le hi hij))
    omega

end Whole

end Groups

end Framework
