import Pathological.Frontend.FrameNames
import Pathological.Framework.System

/-!
# The frame viewer

`ViewRendersPage` polls the list of renders, and plays the frames of the one whose output is
open. The list is a new one with every poll, and an answer can be older than the one before
it. The page keeps no frames: it reads them off the list whenever it is drawn, and of the
open render it remembers the id, an index, and the frames that could not be loaded.

If all that a render is ever listed with is no frames or its film (`Listed`), then while it
is the open one the index is one of the film's, whatever is clicked and however the answers
are ordered, and the viewer shows the frame of the index, or says that this one could not be
loaded (`Viewer.Playable.shows_one`).
-/

namespace Pathological

open Framework

/-! ### The page -/

/-- The state of `ViewRendersPage`. -/
structure Viewer where
  jobs : List RenderJob
  loading : Bool
  error : Option String
  detailsJobId : Option RenderId
  outputJobId : Option RenderId
  frameIndex : ℤ
  playing : Bool
  failedFrames : List String

/-- What happens on the page. -/
inductive ViewerLabel where
  /-- A poll is answered, with this list. -/
  | loaded (data : List RenderJob)
  | loadFailed (message : String)
  /-- "View Details" and "View Output", on the card of a job. -/
  | viewDetails (id : RenderId)
  | viewOutput (id : RenderId)
  /-- "Prev" and "Next". -/
  | stepFrame (forward : Bool)
  | togglePlaying
  /-- The interval of a frame is over. -/
  | tick
  /-- An image could not be loaded. -/
  | imageFailed (name : String)
  | close
  deriving DecidableEq, Repr

namespace Viewer

/-- The page before its first poll. -/
def initial : Viewer where
  jobs := []
  loading := true
  error := none
  detailsJobId := none
  outputJobId := none
  frameIndex := 0
  playing := false
  failedFrames := []

/-- `outputJob`. -/
def outputJob (v : Viewer) : Option RenderJob :=
  v.outputJobId.bind fun id => v.jobs.find? fun job => decide (job.id = id)

/-- `outputFrames`. The viewer is shown if there are some. -/
def outputFrames (U : UrlParser) (v : Viewer) : List String :=
  v.outputJob.elim [] (getFrameNames U)

/-- An element of an array, at an index that is any number. -/
def frameAt (frames : List String) (i : ℤ) : Option String :=
  if 0 ≤ i then frames[i.toNat]? else none

/-- `currentFrame`. -/
def currentFrame (U : UrlParser) (v : Viewer) : String :=
  ((frameAt (v.outputFrames U) v.frameIndex).or (v.outputFrames U)[0]?).getD ""

/-- `canViewOutput`. -/
def canViewOutput (job : RenderJob) : Bool :=
  decide (job.status = "Completed") && decide (0 < job.downloadLinks.length)

/-- `toggleOutput`. -/
def toggleOutput (v : Viewer) (id : RenderId) : Viewer :=
  if some id = v.outputJobId then { v with outputJobId := none }
  else
    { v with outputJobId := some id, frameIndex := 0, playing := false, failedFrames := [] }

/-- The page's step. -/
def step (U : UrlParser) (v : Viewer) : ViewerLabel → Option Viewer
  | .loaded data => some { v with jobs := data, error := none, loading := false }
  -- the old list stays
  | .loadFailed message => some { v with error := some message, loading := false }
  | .viewDetails id =>
    if v.jobs.any (fun job => decide (job.id = id)) then
      some { v with detailsJobId := if some id = v.detailsJobId then none else some id }
    else none
  | .viewOutput id =>
    if v.jobs.any (fun job => decide (job.id = id) && canViewOutput job) then
      some (v.toggleOutput id)
    else none
  | .stepFrame forward =>
    let n := (v.outputFrames U).length
    let amount : ℤ := if forward then 1 else -1
    if 0 < n then
      some { v with playing := false, frameIndex := (v.frameIndex + amount + n).tmod n }
    else none
  | .togglePlaying =>
    if 0 < (v.outputFrames U).length then some { v with playing := !v.playing } else none
  | .tick =>
    let n := (v.outputFrames U).length
    if v.playing = true ∧ 2 ≤ n then
      some { v with frameIndex := (v.frameIndex + 1).tmod n }
    else none
  | .imageFailed name =>
    if name ∈ v.outputFrames U then
      some { v with failedFrames := v.failedFrames.insert name }
    else none
  | .close =>
    if 0 < (v.outputFrames U).length then some { v with outputJobId := none } else none

end Viewer

/-- The page, before its first poll. -/
def viewer (U : UrlParser) : System Viewer ViewerLabel where
  init := Viewer.initial
  step := Viewer.step U

/-! ### What is drawn -/

namespace Viewer

/-- The images that are not hidden. -/
def visible (U : UrlParser) (v : Viewer) : List String :=
  ((v.outputFrames U).zipIdx.filter fun frame =>
    decide ((frame.2 : ℤ) = v.frameIndex) && !(v.failedFrames.contains frame.1)).map Prod.fst

/-- The text in place of an image. -/
def failure (U : UrlParser) (v : Viewer) : Option String :=
  if v.failedFrames.contains (v.currentFrame U) then
    some ("Frame " ++ toString (v.frameIndex + 1) ++ " could not be loaded")
  else none

end Viewer

/-! ### What a step can do -/

/-- The ways a step can go. -/
inductive ViewerStep (U : UrlParser) (v : Viewer) : ViewerLabel → Viewer → Prop where
  | loaded {data} : ViewerStep U v (.loaded data)
      { v with jobs := data, error := none, loading := false }
  | loadFailed {message} : ViewerStep U v (.loadFailed message)
      { v with error := some message, loading := false }
  | viewDetails {id detailsJobId} : ViewerStep U v (.viewDetails id) { v with detailsJobId }
  | outputClosed {id} (hid : some id = v.outputJobId) :
      ViewerStep U v (.viewOutput id) { v with outputJobId := none }
  | outputOpened {id} (hid : some id ≠ v.outputJobId) : ViewerStep U v (.viewOutput id)
      { v with outputJobId := some id, frameIndex := 0, playing := false, failedFrames := [] }
  | stepped {forward : Bool} (hshown : 0 < (v.outputFrames U).length) :
      ViewerStep U v (.stepFrame forward)
        { v with
          playing := false
          frameIndex := (v.frameIndex + (if forward then 1 else -1) +
            (v.outputFrames U).length).tmod (v.outputFrames U).length }
  | playToggled (hshown : 0 < (v.outputFrames U).length) :
      ViewerStep U v .togglePlaying { v with playing := !v.playing }
  | ticked (hplaying : v.playing = true) (hshown : 2 ≤ (v.outputFrames U).length) :
      ViewerStep U v .tick
        { v with frameIndex := (v.frameIndex + 1).tmod (v.outputFrames U).length }
  | imageFailed {name} (hname : name ∈ v.outputFrames U) :
      ViewerStep U v (.imageFailed name) { v with failedFrames := v.failedFrames.insert name }
  | closed : ViewerStep U v .close { v with outputJobId := none }

theorem ViewerStep.of_step {U : UrlParser} {v v' : Viewer} {a : ViewerLabel}
    (h : (viewer U).step v a = some v') : ViewerStep U v a v' := by
  change v.step U a = some v' at h
  cases a with
  | loaded data =>
    obtain rfl := Option.some.inj h
    exact .loaded
  | loadFailed message =>
    obtain rfl := Option.some.inj h
    exact .loadFailed
  | viewDetails id =>
    obtain ⟨-, h⟩ := Option.ite_none_right_eq_some.mp h
    obtain rfl := Option.some.inj h
    exact .viewDetails
  | viewOutput id =>
    obtain ⟨-, h⟩ := Option.ite_none_right_eq_some.mp h
    obtain rfl := Option.some.inj h
    unfold Viewer.toggleOutput
    split
    · next hid => exact .outputClosed hid
    · next hid => exact .outputOpened hid
  | stepFrame forward =>
    obtain ⟨hshown, h⟩ := Option.ite_none_right_eq_some.mp h
    obtain rfl := Option.some.inj h
    exact .stepped hshown
  | togglePlaying =>
    obtain ⟨hshown, h⟩ := Option.ite_none_right_eq_some.mp h
    obtain rfl := Option.some.inj h
    exact .playToggled hshown
  | tick =>
    obtain ⟨⟨hplaying, hshown⟩, h⟩ := Option.ite_none_right_eq_some.mp h
    obtain rfl := Option.some.inj h
    exact .ticked hplaying hshown
  | imageFailed name =>
    obtain ⟨hname, h⟩ := Option.ite_none_right_eq_some.mp h
    obtain rfl := Option.some.inj h
    exact .imageFailed hname
  | close =>
    obtain ⟨-, h⟩ := Option.ite_none_right_eq_some.mp h
    obtain rfl := Option.some.inj h
    exact .closed

/-! ### The index is one of the film's -/

/-- The polls are answered with records that have the property. -/
def Loads (P : RenderJob → Prop) : System.Condition Viewer ViewerLabel := fun _ _ a =>
  match a with
  | .loaded data => ∀ job ∈ data, P job
  | _ => True

theorem Loads.mono {P Q : RenderJob → Prop} (himp : ∀ job, P job → Q job)
    {tr : List ViewerLabel} {v : Viewer} {a : ViewerLabel} (h : Loads P tr v a) :
    Loads Q tr v a := by
  cases a with
  | loaded data => exact fun job hjob => himp job (h job hjob)
  | _ => trivial

/-- If the record is one of the render `r`, it lists no frames, or the film. -/
def Listed (U : UrlParser) (r : RenderId) (film : List String) (job : RenderJob) : Prop :=
  job.id = r → getFrameNames U job = [] ∨ getFrameNames U job = film

/-- What the page remembers of the render `r`, while it is open, is of the film. -/
structure Viewer.Playable (r : RenderId) (film : List String) (v : Viewer) : Prop where
  nonneg : 0 ≤ v.frameIndex
  index_lt : v.outputJobId = some r → film ≠ [] → v.frameIndex < film.length
  failed : v.outputJobId = some r → v.failedFrames.Nodup ∧ v.failedFrames ⊆ film

section Playable

variable {U : UrlParser} {r : RenderId} {film : List String} {v v' : Viewer} {a : ViewerLabel}
  {tr : List ViewerLabel}

theorem Viewer.forall_jobs {P : RenderJob → Prop} (h : (viewer U).Run (Loads P) tr v) :
    ∀ job ∈ v.jobs, P job := by
  refine h.invariant (fun _ v => ∀ job ∈ v.jobs, P job) ?_ ?_
  · intro job hjob
    cases hjob
  · intro tr v a v' _ hP hC hs
    cases ViewerStep.of_step hs with
    | loaded => exact hC
    | _ => exact hP

/-- What is shown is a record of the open render. -/
theorem Viewer.exists_outputJob (hshown : v.outputFrames U ≠ []) : ∃ job ∈ v.jobs,
    v.outputJobId = some job.id ∧ v.outputFrames U = getFrameNames U job := by
  cases hjob : v.outputJob with
  | none =>
    unfold Viewer.outputFrames at hshown
    rw [hjob] at hshown
    exact absurd rfl hshown
  | some job =>
    obtain ⟨id, hid, hfind⟩ := Option.bind_eq_some_iff.mp hjob
    have hjobid := List.find?_some hfind
    rw [decide_eq_true_eq] at hjobid
    refine ⟨job, List.mem_of_find?_eq_some hfind, by rw [hid, hjobid], ?_⟩
    unfold Viewer.outputFrames
    rw [hjob]
    rfl

/-- So the frames are the film. -/
theorem Viewer.outputFrames_eq (hlisted : ∀ job ∈ v.jobs, Listed U r film job)
    (hopen : v.outputJobId = some r) (hshown : v.outputFrames U ≠ []) :
    v.outputFrames U = film := by
  obtain ⟨job, hjob, hid, hframes⟩ := Viewer.exists_outputJob hshown
  rw [hframes] at hshown ⊢
  have hr : job.id = r := Option.some.inj (hid.symm.trans hopen)
  exact (hlisted job hjob hr).resolve_left hshown

/-- An index modulo a number is below it. -/
theorem tmod_mem {i n : ℤ} (hi : 0 ≤ i) (hn : 0 < n) : 0 ≤ i.tmod n ∧ i.tmod n < n :=
  ⟨Int.tmod_nonneg n hi, Int.tmod_lt_of_pos i hn⟩

namespace Viewer.Playable

theorem initial (r : RenderId) (film : List String) : Viewer.initial.Playable r film :=
  ⟨le_rfl, nofun, nofun⟩

variable (hlisted : ∀ job ∈ v.jobs, Listed U r film job) (hv : v.Playable r film)

include hlisted hv

/-- Where the index is set to another one of the frames. -/
theorem setIndex (hshown : 0 < (v.outputFrames U).length) {i : ℤ} (hi : 0 ≤ i)
    (playing : Bool) : Viewer.Playable r film
      { v with playing, frameIndex := i.tmod (v.outputFrames U).length } := by
  have hmod := tmod_mem hi (Int.natCast_pos.mpr hshown)
  refine ⟨hmod.1, ?_, hv.failed⟩
  intro hopen _
  have hframes := Viewer.outputFrames_eq hlisted hopen (List.length_pos_iff.mp hshown)
  rw [← hframes]
  exact hmod.2

theorem step (h : ViewerStep U v a v') : v'.Playable r film := by
  cases h with
  | outputClosed hid => exact ⟨hv.nonneg, nofun, nofun⟩
  | outputOpened hid =>
    refine ⟨le_rfl, ?_, fun _ => ⟨List.nodup_nil, List.nil_subset _⟩⟩
    intro _ hne
    exact Int.natCast_pos.mpr (List.length_pos_iff.mpr hne)
  | @stepped forward hshown =>
    refine setIndex hlisted hv hshown ?_ false
    -- one back from the first frame is the last
    have hnonneg := hv.nonneg
    split <;> omega
  | ticked hplaying hshown =>
    have hnonneg := hv.nonneg
    exact setIndex hlisted hv (by omega) (by omega) v.playing
  | @imageFailed name hname =>
    refine ⟨hv.nonneg, hv.index_lt, ?_⟩
    intro hopen
    obtain ⟨hnodup, hsub⟩ := hv.failed hopen
    rw [Viewer.outputFrames_eq hlisted hopen (List.ne_nil_of_mem hname)] at hname
    refine ⟨hnodup.insert, ?_⟩
    intro name' hname'
    rcases List.mem_insert_iff.mp hname' with rfl | hname'
    · exact hname
    · exact hsub hname'
  | closed => exact ⟨hv.nonneg, nofun, nofun⟩
  | _ => exact ⟨hv.nonneg, hv.index_lt, hv.failed⟩

omit hlisted hv

theorem of_run (h : (viewer U).Run (Loads (Listed U r film)) tr v) : v.Playable r film :=
  h.invariant (fun _ v => v.Playable r film) (initial r film) fun hrun hv _ hs =>
    hv.step (Viewer.forall_jobs hrun) (.of_step hs)

end Viewer.Playable

end Playable

/-! ### One frame is shown -/

/-- Of the elements with the index `k` there is one, if it passes. -/
theorem filter_zipIdx {α : Type} (p : α → Bool) (l : List α) (n k : ℕ) :
    ((l.zipIdx n).filter fun e => decide (e.2 = n + k) && p e.1).map Prod.fst =
      (l[k]?.filter p).toList := by
  induction l generalizing n k with
  | nil => rfl
  | cons a l ih =>
    rw [List.zipIdx_cons]
    cases k with
    | zero =>
      have hrest : ((l.zipIdx (n + 1)).filter fun e => decide (e.2 = n + 0) && p e.1) = [] := by
        rw [List.filter_eq_nil_iff]
        intro e he
        have hle := List.le_snd_of_mem_zipIdx he
        have hne : e.2 ≠ n := by omega
        simp [hne]
      cases hp : p a with
      | true =>
        rw [List.filter_cons_of_pos (by simp [hp]), hrest, List.getElem?_cons_zero,
          Option.filter_some_pos hp]
        rfl
      | false =>
        rw [List.filter_cons_of_neg (by simp [hp]), hrest, List.getElem?_cons_zero,
          Option.filter_some_neg hp]
        rfl
    | succ k =>
      rw [List.filter_cons_of_neg (by simp), List.getElem?_cons_succ, ← ih (n + 1) k]
      have hindex : n + (k + 1) = n + 1 + k := by omega
      rw [hindex]

section Shown

variable {U : UrlParser} {r : RenderId} {film : List String} {v : Viewer}

/-- What is drawn is the frame `name`, one of `frames`. -/
structure Viewer.ShowsOne (U : UrlParser) (v : Viewer) (frames : List String) (name : String) :
    Prop where
  frames_eq : v.outputFrames U = frames
  nonneg : 0 ≤ v.frameIndex
  name_eq : frames[v.frameIndex.toNat]? = some name
  current : v.currentFrame U = name
  /-- The image, or the text that it could not be loaded. -/
  shown : v.visible U = [name] ∧ v.failure U = none ∨ name ∈ v.failedFrames ∧ v.visible U = [] ∧
    v.failure U = some ("Frame " ++ toString (v.frameIndex + 1) ++ " could not be loaded")
  failed : v.failedFrames.length ≤ frames.length

theorem Viewer.Playable.shows_one (hv : v.Playable r film)
    (hlisted : ∀ job ∈ v.jobs, Listed U r film job) (hopen : v.outputJobId = some r)
    (hshown : v.outputFrames U ≠ []) : ∃ name, v.ShowsOne U film name := by
  have hframes := Viewer.outputFrames_eq hlisted hopen hshown
  have hlt := hv.index_lt hopen (hframes ▸ hshown)
  have hnonneg := hv.nonneg
  obtain ⟨k, hk⟩ := Int.eq_ofNat_of_zero_le hnonneg
  have hk' : v.frameIndex.toNat < film.length := by omega
  have hname := List.getElem?_eq_getElem hk'
  have hcurrent : v.currentFrame U = film[v.frameIndex.toNat] := by
    unfold Viewer.currentFrame Viewer.frameAt
    rw [hframes, if_pos hnonneg, hname]
    rfl
  have hvisible : v.visible U = (film[v.frameIndex.toNat]?.filter fun name =>
      !(v.failedFrames.contains name)).toList := by
    have hindex (n : ℕ) : ((n : ℤ) = v.frameIndex) = (n = 0 + v.frameIndex.toNat) := by
      rw [hk, Int.toNat_natCast, Nat.zero_add, Nat.cast_inj]
    unfold Viewer.visible
    rw [← filter_zipIdx _ _ 0, hframes]
    simp only [hindex]
  obtain ⟨hnodup, hsub⟩ := hv.failed hopen
  refine ⟨_, hframes, hnonneg, hname, hcurrent, ?_, (hnodup.subperm hsub).length_le⟩
  rw [hvisible, hname]
  unfold Viewer.failure
  rw [hcurrent]
  cases hfailed : v.failedFrames.contains film[v.frameIndex.toNat] with
  | true =>
    refine .inr ⟨List.contains_iff_mem.mp hfailed, ?_, if_pos rfl⟩
    rw [Option.filter_some_neg (by rw [hfailed]; rfl)]
    rfl
  | false =>
    refine .inl ⟨?_, if_neg Bool.false_ne_true⟩
    rw [Option.filter_some_pos (by rw [hfailed]; rfl)]
    rfl

end Shown

end Pathological
