import Mathlib.Data.Finset.Sort
import Mathlib.Data.Prod.Lex
import Mathlib.Data.String.Basic
import Pathological.Cluster.Worker
import Pathological.Framework.Separator

/-!
# Frame keys

Scheduler and worker name a frame `{output}_{frame_index}`. The index holds no
underscore, so it is what follows the last one, and the key tells the name and the
index apart whatever the name is (`frameKeyOf_inj`).

`make-video.sh` goes the other way. It mirrors the bucket into a directory, matches
each file's name against the output name, an underscore and digits, and sorts what
matches by the number the digits are. This gives the frames of that render and no
others, in their order (`frame_keys_decode`).
-/

namespace Pathological

open Framework

/-! ### The key of a frame -/

/-- `{output}_{frame_index}`. -/
def frameKeyOf (output : String) (frameIndex : ℕ) : String :=
  output ++ "_" ++ toString frameIndex

theorem RenderRequest.frameKey_eq (r : RenderRequest) (frameIndex : ℕ) :
    r.frameKey frameIndex = frameKeyOf r.outputFileName frameIndex := rfl

theorem RenderJobRequest.jobName_eq (r : RenderJobRequest) :
    r.jobName = frameKeyOf r.outputName r.frameIndex := rfl

section Keys

variable {output output' : String} {i j : ℕ}

theorem toList_frameKeyOf (output : String) (i : ℕ) :
    (frameKeyOf output i).toList = output.toList ++ '_' :: Nat.toDigits 10 i := by
  unfold frameKeyOf
  simp

/-- The other characters of a key are the name's. -/
theorem mem_frameKeyOf {c : Char} (hunderscore : c ≠ '_') (hdigit : c.isDigit = false) :
    c ∈ (frameKeyOf output i).toList ↔ c ∈ output.toList := by
  have hindex : c ∉ Nat.toDigits 10 i := by
    intro hc
    rw [Nat.isDigit_of_mem_toDigits (by decide) (by decide) hc] at hdigit
    cases hdigit
  rw [toList_frameKeyOf, List.mem_append, List.mem_cons, or_iff_left]
  rw [not_or]
  exact ⟨hunderscore, hindex⟩

theorem toDigits_injective : Function.Injective (Nat.toDigits 10) :=
  Function.LeftInverse.injective (g := fun cs => Nat.ofDigitChars 10 cs 0)
    fun _ => Nat.ofDigitChars_ten_toDigits

theorem frameKeyOf_ne_empty (output : String) (i : ℕ) : frameKeyOf output i ≠ "" := by
  intro h
  have hlist := congrArg String.toList h
  rw [toList_frameKeyOf] at hlist
  exact List.append_ne_nil_of_right_ne_nil _ (List.cons_ne_nil _ _) hlist

/-- **A key tells the name and the index apart.** -/
theorem frameKeyOf_inj : frameKeyOf output i = frameKeyOf output' j ↔ output = output' ∧ i = j := by
  constructor
  · intro h
    have hlist := congrArg String.toList h
    rw [toList_frameKeyOf, toList_frameKeyOf, append_cons_inj Nat.underscore_not_in_toDigits
      Nat.underscore_not_in_toDigits] at hlist
    exact ⟨String.toList_injective hlist.1, toDigits_injective hlist.2⟩
  · rintro ⟨rfl, rfl⟩
    rfl

end Keys

/-! ### `make-video.sh` -/

/-- Python's decimal digits: what `\d` matches, with the value `int` gives each. -/
structure DecimalDigits where
  value : Char → Option ℕ
  isDigit : ∀ c, c.isDigit = true → value c = some (c.toNat - '0'.toNat)
  underscore : value '_' = none

/-- The ASCII digits alone, as with the flag `re.ASCII`. -/
def DecimalDigits.ascii : DecimalDigits where
  value c := if c.isDigit then some (c.toNat - '0'.toNat) else none
  isDigit _ h := if_pos h
  underscore := rfl

/-- `pattern.fullmatch(name)` for the pattern of an output name: the digits its group
matches, by their values. -/
def DecimalDigits.fullmatch (D : DecimalDigits) (output name : String) : Option (List ℕ) :=
  match (output.toList ++ ['_']).isPrefixOf? name.toList with
  | some group => if group = [] then none else group.mapM D.value
  | none => none

/-- `int` of a group of digits. -/
def intOfDigits (digits : List ℕ) : ℕ :=
  digits.foldl (fun n d => 10 * n + d) 0

/-- Python's order of the pairs of a number and a name. -/
def FrameLE (a b : ℕ × String) : Prop := toLex a ≤ toLex b

instance : DecidableRel FrameLE := fun a b => inferInstanceAs (Decidable (toLex a ≤ toLex b))

instance : Std.Antisymm FrameLE := ⟨fun _ _ h h' => toLex.injective (le_antisymm h h')⟩

instance : Std.Total FrameLE := ⟨fun a b => le_total (toLex a) (toLex b)⟩

instance : IsTrans (ℕ × String) FrameLE := ⟨fun _ _ _ h h' => le_trans h h'⟩

/-- The frames the script finds for an output name among the names of a directory. -/
def DecimalDigits.videoFrames (D : DecimalDigits) (output : String) (names : List String) :
    List (ℕ × String) :=
  (names.filterMap fun name =>
    (D.fullmatch output name).map fun digits => (intOfDigits digits, name)).insertionSort FrameLE

/-- The entry of the mirror's directory an object is in: a file of its own, unless its
key has a slash. -/
def directoryEntry (key : String) : String :=
  String.ofList (key.toList.takeWhile (· ≠ '/'))

/-- `os.listdir` of the mirror of a bucket, in whatever order. -/
structure Mirrors (bucket : Set String) (names : List String) : Prop where
  nodup : names.Nodup
  mem_iff : ∀ name, name ∈ names ↔ ∃ key ∈ bucket, directoryEntry key = name

/-- The keys of renders' frames, given the indices of those that are stored under
each output name. -/
def frameKeys (frames : String → Finset ℕ) : Set String :=
  {key | ∃ output, ∃ i ∈ frames output, frameKeyOf output i = key}

section Selection

variable {D : DecimalDigits} {output output' name : String} {i : ℕ}

/-- The digits of an index, by their values. -/
def indexDigits (i : ℕ) : List ℕ :=
  (Nat.toDigits 10 i).map fun c => c.toNat - '0'.toNat

theorem intOfDigits_indexDigits (i : ℕ) : intOfDigits (indexDigits i) = i := by
  unfold intOfDigits indexDigits
  rw [List.foldl_map]
  exact (Nat.ofDigitChars_eq_foldl (b := 10)).symm.trans Nat.ofDigitChars_ten_toDigits

theorem DecimalDigits.mapM_value {cs : List Char} (h : ∀ c ∈ cs, c.isDigit = true) :
    cs.mapM D.value = some (cs.map fun c => c.toNat - '0'.toNat) := by
  induction cs with
  | nil => rfl
  | cons c cs ih =>
    rw [List.mapM_cons, D.isDigit c (h c List.mem_cons_self),
      ih fun c' hc' => h c' (List.mem_cons_of_mem c hc')]
    rfl

/-- What is read as digits holds no underscore. -/
theorem DecimalDigits.underscore_notMem {cs : List Char} {digits : List ℕ}
    (h : cs.mapM D.value = some digits) : '_' ∉ cs := by
  induction cs generalizing digits with
  | nil => exact List.not_mem_nil
  | cons c cs ih =>
    rw [List.mapM_cons] at h
    obtain ⟨d, hd, h⟩ := Option.bind_eq_some_iff.mp h
    obtain ⟨ds, hds, -⟩ := Option.bind_eq_some_iff.mp h
    rw [List.mem_cons, not_or]
    refine ⟨?_, ih hds⟩
    rintro rfl
    rw [D.underscore] at hd
    cases hd

/-- The pattern of an output name matches the keys of its frames, -/
theorem DecimalDigits.fullmatch_frameKeyOf (output : String) (i : ℕ) :
    D.fullmatch output (frameKeyOf output i) = some (indexDigits i) := by
  have hgroup : (output.toList ++ ['_']).isPrefixOf? (frameKeyOf output i).toList =
      some (Nat.toDigits 10 i) := by
    rw [List.isPrefixOf?_eq_some_iff_append_eq, toList_frameKeyOf]
    simp
  unfold fullmatch
  rw [hgroup]
  dsimp only
  rw [if_neg Nat.toDigits_ne_nil]
  exact mapM_value fun c hc => Nat.isDigit_of_mem_toDigits (by decide) (by decide) hc

/-- and of the keys of frames no others. -/
theorem DecimalDigits.eq_of_fullmatch {digits : List ℕ}
    (h : D.fullmatch output (frameKeyOf output' i) = some digits) : output = output' := by
  unfold fullmatch at h
  split at h
  · next group hgroup =>
    rw [List.isPrefixOf?_eq_some_iff_append_eq, toList_frameKeyOf] at hgroup
    obtain ⟨-, hdigits⟩ := Option.ite_none_left_eq_some.mp h
    have hparts : output.toList ++ '_' :: group = output'.toList ++ '_' :: Nat.toDigits 10 i := by
      rw [← hgroup]
      simp
    rw [append_cons_inj (underscore_notMem hdigits) Nat.underscore_not_in_toDigits] at hparts
    exact String.toList_injective hparts.1
  · cases h

/-- The key of a render without a slash in its name is the name of a file. -/
theorem directoryEntry_frameKeyOf (h : '/' ∉ output.toList) (i : ℕ) :
    directoryEntry (frameKeyOf output i) = frameKeyOf output i := by
  have hslash : ∀ c ∈ (frameKeyOf output i).toList, decide (c ≠ '/') = true := by
    intro c hc
    rw [decide_eq_true_eq]
    rintro rfl
    exact h ((mem_frameKeyOf (by decide) (by decide)).mp hc)
  unfold directoryEntry
  rw [List.takeWhile_eq_self_iff.mpr hslash, String.ofList_toList]

end Selection

/-! ### Keys are decoded -/

/-- Frame keys tell frames apart, and `make-video.sh` finds the frames of a render by
them, in the order of their indices. -/
structure FrameKeysDecode (D : DecimalDigits) : Prop where
  scheduler : ∀ (r r' : RenderRequest) (i j : ℕ), r.frameKey i = r'.frameKey j →
    r.outputFileName = r'.outputFileName ∧ i = j
  worker : ∀ r r' : RenderJobRequest, r.jobName = r'.jobName →
    r.outputName = r'.outputName ∧ r.frameIndex = r'.frameIndex
  both : ∀ (r : RenderRequest) (i : ℕ) (r' : RenderJobRequest), r.frameKey i = r'.jobName →
    r.outputFileName = r'.outputName ∧ i = r'.frameIndex
  video : ∀ (frames : String → Finset ℕ) (names : List String) (output : String),
    (∀ output, (frames output).Nonempty → '/' ∉ output.toList) →
    Mirrors (frameKeys frames) names →
    D.videoFrames output names = (frames output).sort.map fun i => (i, frameKeyOf output i)

section Decoding

variable {D : DecimalDigits} {frames : String → Finset ℕ} {names : List String} {output : String}

/-- The script finds the frames of the render, -/
theorem DecimalDigits.mem_videoFrames
    (hslash : ∀ output, (frames output).Nonempty → '/' ∉ output.toList)
    (hnames : Mirrors (frameKeys frames) names) (frame : ℕ × String) :
    frame ∈ D.videoFrames output names ↔ ∃ i ∈ frames output, (i, frameKeyOf output i) = frame := by
  unfold videoFrames
  rw [List.mem_insertionSort, List.mem_filterMap]
  constructor
  · rintro ⟨name, hname, hframe⟩
    obtain ⟨key, ⟨output', i, hi, rfl⟩, rfl⟩ := (hnames.mem_iff name).mp hname
    rw [directoryEntry_frameKeyOf (hslash output' ⟨i, hi⟩)] at hframe
    obtain ⟨digits, hdigits, rfl⟩ := Option.map_eq_some_iff.mp hframe
    obtain rfl := eq_of_fullmatch hdigits
    rw [fullmatch_frameKeyOf] at hdigits
    obtain rfl := Option.some.inj hdigits
    exact ⟨i, hi, by rw [intOfDigits_indexDigits]⟩
  · rintro ⟨i, hi, rfl⟩
    refine ⟨frameKeyOf output i, ?_, ?_⟩
    · rw [hnames.mem_iff]
      exact ⟨_, ⟨output, i, hi, rfl⟩, directoryEntry_frameKeyOf (hslash output ⟨i, hi⟩) i⟩
    · rw [fullmatch_frameKeyOf, Option.map_some, intOfDigits_indexDigits]

/-- each once, -/
theorem DecimalDigits.nodup_videoFrames (hnames : Mirrors (frameKeys frames) names) :
    (D.videoFrames output names).Nodup := by
  unfold videoFrames
  rw [(List.perm_insertionSort FrameLE _).nodup_iff]
  apply hnames.nodup.filterMap
  intro name name' frame hframe hframe'
  obtain ⟨digits, -, rfl⟩ := Option.map_eq_some_iff.mp hframe
  obtain ⟨digits', -, heq⟩ := Option.map_eq_some_iff.mp hframe'
  exact (congrArg Prod.snd heq).symm

/-- and in order. -/
theorem DecimalDigits.pairwise_videoFrames (D : DecimalDigits) (output : String)
    (names : List String) : (D.videoFrames output names).Pairwise FrameLE :=
  List.pairwise_insertionSort FrameLE _

/-- **Frame keys decode uniquely.** -/
theorem frame_keys_decode (D : DecimalDigits) : FrameKeysDecode D := by
  refine ⟨?_, ?_, ?_, ?_⟩
  · intro r r' i j h
    exact frameKeyOf_inj.mp h
  · intro r r' h
    exact frameKeyOf_inj.mp h
  · intro r i r' h
    exact frameKeyOf_inj.mp h
  · intro frames names output hslash hnames
    have hnodup : ((frames output).sort.map fun i => (i, frameKeyOf output i)).Nodup := by
      apply List.Nodup.map _ ((frames output).sort_nodup _)
      intro i j h
      exact congrArg Prod.fst h
    have hsorted : ((frames output).sort.map fun i => (i, frameKeyOf output i)).Pairwise
        FrameLE := by
      rw [List.pairwise_map]
      apply (frames output).sortedLT_sort.pairwise.imp
      intro i j hlt
      exact Prod.Lex.toLex_le_toLex.mpr (.inl hlt)
    apply List.Perm.eq_of_pairwise' (D.pairwise_videoFrames output names) hsorted
    rw [List.perm_ext_iff_of_nodup (D.nodup_videoFrames hnames) hnodup]
    intro frame
    simp only [DecimalDigits.mem_videoFrames hslash hnames, List.mem_map, Finset.mem_sort]

/-- By the number, not by the name; and not those of the renders "a_1" and "b". -/
example : DecimalDigits.ascii.videoFrames "a" ["a_10", "a_1_0", "a_9", "b_0", "a_1_1"] =
    [(9, "a_9"), (10, "a_10")] := by
  decide

end Decoding

end Pathological
