import Pathological.Framework.Before
import Pathological.Frontend.ImageKeys

/-!
# Polls of the submit page

The page lists the renders of the latest submit and polls for what has become of them.
A poll takes the jobs that are listed when it starts, asks for each, and writes the list
it gets over the jobs, unless it is cancelled. What cancels it is the effect that has
started it, when that is cleaned up, and the effect is keyed to the number of jobs.

So a delete cancels every poll under way, and a deleted job never comes back
(`not_mem_ids_of_delete`). A submit of as many forms as there are jobs cancels none, and
a poll that is under way then puts the jobs from before the submit in their old place
(`not_idsExact`). The page lists the renders it should list, all the time, exactly when
no poll finishes like this (`idsExact_iff`).
-/

namespace Pathological

open Framework

/-! ### Jobs and their images -/

/-- What `encodeURIComponent` keeps. -/
def keptInComponent (c : Char) : Bool :=
  c.isAlphanum || [0x21, 0x27, 0x28, 0x29, 0x2a, 0x2d, 0x2e, 0x5f, 0x7e].contains c.toNat

/-- `buildImageApiUrl`, at the time `now`. -/
def buildImageApiUrl (now : ℕ) (outputFilename : String) : String :=
  "/api/render-image?image=" ++
    String.ofList (percentEncode keptInComponent outputFilename.toList) ++
    "&ts=" ++ toString now

/-- `resolveImageUrl`, of the fields of a record. -/
def resolveImageUrl (now : ℕ) (data : RenderJob) : Option String :=
  (ifTruthy (resolveApiImageUrl data.outputFilename data.downloadLink data.animationRuntime)).map
    (buildImageApiUrl now)

/-- `JobView`, a record with the URL of its image, `none` for `null`. -/
structure JobView extends RenderJob where
  imageUrl : Option String
  deriving DecidableEq, Repr

/-- A record with the URL that it gives. -/
def RenderJob.view (data : RenderJob) (now : ℕ) : JobView :=
  { data with imageUrl := resolveImageUrl now data }

/-- Whether a poll has something to ask for: a job's status, or its image. -/
def JobView.pollable (job : JobView) : Bool :=
  let shouldRefreshStatus := decide (job.status ≠ "Completed") && decide (job.status ≠ "Error")
  let shouldResolveImage := decide (job.status ≠ "Error") && job.imageUrl.isNone
  decide (jsTrim job.id ≠ "") && (shouldRefreshStatus || shouldResolveImage)

/-- What a poll makes of a job. Its status request is answered with `data`, `none` if it
fails; a job that needs no request is not asked for. -/
def JobView.refresh (job : JobView) (data : Option RenderJob) (now : ℕ) : JobView :=
  if job.status = "Error" then job
  else if jsTrim job.id = "" then job
  else
    let current := job.toRenderJob.view now
    if job.status = "Completed" then current
    else
      match data with
      | some data => data.view now
      | none => current

/-! ### The page -/

/-- A poll: the jobs it asks for, the number of the effect that has started it, and
whether it is over. -/
structure Poll where
  currentJobs : List JobView
  effect : ℕ
  finished : Bool

/-- The state of the page. The polling effects are numbered, `effect` is the one that is
not cleaned up. Of the scheduler there are the ids that it has given to renders. -/
structure Page where
  jobs : List JobView
  submitting : Bool
  effect : ℕ
  polls : Table ℕ Poll
  renders : List RenderId

/-- What happens on the page. -/
inductive PageLabel where
  /-- `onSubmit` is called. -/
  | submit
  /-- It has the records of all forms, each taken at a time. -/
  | submitted (results : List (RenderJob × ℕ))
  /-- One of its requests fails. -/
  | submitFailed
  /-- `onDelete` of the job listed at the index, which has the id. -/
  | delete (index : ℕ) (id : RenderId)
  /-- The polling interval is over, and there is a pollable job. -/
  | pollStart (k : ℕ)
  /-- The requests of a poll are answered, or have failed. -/
  | pollFinish (k : ℕ) (answers : List (Option RenderJob × ℕ))
  deriving DecidableEq, Repr

/-- The ids in `jobs`. -/
def Page.ids (s : Page) : List RenderId := s.jobs.map (·.id)

/-- The ids that a poll asks for. -/
def Poll.ids (p : Poll) : List RenderId := p.currentJobs.map (·.id)

/-- The ids of a submit's records. -/
def submittedIds (results : List (RenderJob × ℕ)) : List RenderId := results.map (·.1.id)

/-- `setJobs`, and the polling effect that depends on `jobs.length`: with another length
it is cleaned up, and runs anew. -/
def Page.setJobs (s : Page) (jobs : List JobView) : Page :=
  { s with jobs, effect := if jobs.length = s.jobs.length then s.effect else s.effect + 1 }

/-- The end of `onSubmit`. -/
def Page.submitted (s : Page) (results : List (RenderJob × ℕ)) : Page :=
  { s.setJobs (results.map fun (data, now) => data.view now) with
    submitting := false
    renders := submittedIds results ++ s.renders }

/-- A poll begins. -/
def Page.startPoll (s : Page) (k : ℕ) : Page :=
  { s with polls := s.polls.insert k ⟨s.jobs, s.effect, false⟩ }

/-- A poll is over. -/
def Page.endPoll (s : Page) (k : ℕ) (p : Poll) : Page :=
  { s with polls := s.polls.insert k { p with finished := true } }

/-- The scheduler answers with the render it is asked for. -/
def Poll.Answered (p : Poll) (answers : List (Option RenderJob × ℕ)) : Prop :=
  List.Forall₂ (fun job answer => ∀ data ∈ answer.1, data.id = job.id) p.currentJobs answers

instance (p : Poll) (answers : List (Option RenderJob × ℕ)) : Decidable (p.Answered answers) :=
  inferInstanceAs (Decidable (List.Forall₂ _ _ _))

/-- The list `updated` of a poll. -/
def Poll.updated (p : Poll) (answers : List (Option RenderJob × ℕ)) : List JobView :=
  List.zipWith (fun job answer => job.refresh answer.1 answer.2) p.currentJobs answers

/-- The page's step. -/
def Page.step (s : Page) : PageLabel → Option Page
  -- the button is disabled meanwhile
  | .submit => if s.submitting then none else some { s with submitting := true }
  -- the scheduler makes a new id for each render
  | .submitted results =>
    if s.submitting = true ∧ (submittedIds results ++ s.renders).Nodup then
      some (s.submitted results)
    else none
  | .submitFailed => if s.submitting then some { s with submitting := false } else none
  | .delete index id =>
    if s.ids[index]? = some id then some (s.setJobs (s.jobs.eraseIdx index)) else none
  | .pollStart k =>
    if k ∉ s.polls ∧ s.jobs.any JobView.pollable = true then some (s.startPoll k) else none
  | .pollFinish k answers =>
    match s.polls.lookup k with
    | some p =>
      if p.finished = false ∧ p.Answered answers then
        -- `isCancelled` where the effect is another
        some (if p.effect = s.effect then (s.endPoll k p).setJobs (p.updated answers)
          else s.endPoll k p)
      else none
    | none => none

/-- The page, before the first submit. -/
def page : System Page PageLabel where
  init := ⟨[], false, 0, ∅, []⟩
  step := Page.step

/-! ### What is claimed -/

/-- What has been asked of the page: the renders of the latest submit, and those deleted
since. -/
structure Asked where
  latest : List RenderId
  deleted : List RenderId

def Asked.next (a : Asked) : PageLabel → Asked
  | .submitted results => ⟨submittedIds results, []⟩
  | .delete _ id => { a with deleted := id :: a.deleted }
  | _ => a

def asked (tr : List PageLabel) : Asked := tr.foldl Asked.next ⟨[], []⟩

/-- The ids in `jobs` are those of the latest submit minus the ones deleted since. -/
def IdsExact (tr : List PageLabel) (s : Page) : Prop :=
  ∀ id, id ∈ s.ids ↔ id ∈ (asked tr).latest ∧ id ∉ (asked tr).deleted

/-- The end of a submit. -/
def PageLabel.IsSubmitted : PageLabel → Prop
  | .submitted _ => True
  | _ => False

/-- No submit has ended since the poll started. -/
def UpToDate (k : ℕ) (tr : List PageLabel) : Prop :=
  ¬ Before (· = .pollStart k) PageLabel.IsSubmitted tr

/-- A poll that finishes is cancelled, or no submit has ended since it started. -/
def PollsUpToDate : System.Condition Page PageLabel := fun tr s a =>
  ∀ k answers p, a = .pollFinish k answers → s.polls.lookup k = some p → p.effect = s.effect →
    UpToDate k tr

/-! ### What a step can do -/

section Jobs

variable {s : Page} {p : Poll} {answers : List (Option RenderJob × ℕ)}

@[simp] theorem Page.setJobs_polls (s : Page) (jobs : List JobView) :
    (s.setJobs jobs).polls = s.polls := rfl

@[simp] theorem Page.delete_ids (s : Page) (index : ℕ) :
    (s.setJobs (s.jobs.eraseIdx index)).ids = s.ids.eraseIdx index :=
  (List.eraseIdx_map _ _ _).symm

@[simp] theorem Page.submitted_ids (s : Page) (results : List (RenderJob × ℕ)) :
    (s.submitted results).ids = submittedIds results := by
  unfold Page.submitted Page.ids submittedIds
  exact List.map_map

theorem Page.le_setJobs_effect (s : Page) (jobs : List JobView) :
    s.effect ≤ (s.setJobs jobs).effect := by
  unfold Page.setJobs
  dsimp only
  split <;> omega

/-- A deletion cleans the effect up. -/
theorem Page.lt_effect_of_delete {index : ℕ} {id : RenderId} (hjob : s.ids[index]? = some id) :
    s.effect < (s.setJobs (s.jobs.eraseIdx index)).effect := by
  have hindex : index < s.jobs.length := by
    have hlt := (List.getElem?_eq_some_iff.mp hjob).1
    rwa [Page.ids, List.length_map] at hlt
  have hne : (s.jobs.eraseIdx index).length ≠ s.jobs.length := by
    rw [List.length_eraseIdx_of_lt hindex]
    omega
  unfold Page.setJobs
  dsimp only
  rw [if_neg hne]
  exact Nat.lt_succ_self _

/-- A job keeps its id. -/
theorem JobView.refresh_id {job : JobView} {data : Option RenderJob}
    (h : ∀ d ∈ data, d.id = job.id) (now : ℕ) : (job.refresh data now).id = job.id := by
  unfold JobView.refresh
  dsimp only
  split
  · rfl
  · split
    · rfl
    · split
      · rfl
      · cases data with
        | none => rfl
        | some d => exact h d rfl

/-- So a poll writes the ids that it has asked for. -/
theorem Poll.updated_ids (h : p.Answered answers) :
    (p.updated answers).map (·.id) = p.ids := by
  unfold Poll.Answered at h
  unfold Poll.updated Poll.ids
  generalize p.currentJobs = jobs at h
  induction h with
  | nil => rfl
  | @cons job answer jobs answers hid _ ih =>
    rw [List.zipWith_cons_cons, List.map_cons, List.map_cons, ih,
      JobView.refresh_id hid answer.2]

theorem Page.pollFinish_ids (h : p.Answered answers) :
    (s.setJobs (p.updated answers)).ids = p.ids := Poll.updated_ids h

/-- The scheduler answers with the render it is asked for: `getStatus` looks it up. -/
theorem State.WF.toJson_id {env : Env} {s : State} (hI : s.WF env) {id : RenderId}
    {job : RenderJob} (h : job ∈ (s.history.lookup id).map RenderRequest.toJson) :
    job.id = id := by
  obtain ⟨render, hrender, rfl⟩ := Option.map_eq_some_iff.mp h
  exact hI.id_eq id render hrender

end Jobs

/-- The ways a step can go. -/
inductive PageStep (s : Page) : PageLabel → Page → Prop where
  | submit (hidle : s.submitting = false) : PageStep s .submit { s with submitting := true }
  | submitted {results} (hsubmit : s.submitting = true)
      (hnew : (submittedIds results ++ s.renders).Nodup) :
      PageStep s (.submitted results) (s.submitted results)
  | submitFailed (hsubmit : s.submitting = true) :
      PageStep s .submitFailed { s with submitting := false }
  | delete {index id} (hjob : s.ids[index]? = some id) :
      PageStep s (.delete index id) (s.setJobs (s.jobs.eraseIdx index))
  | pollStart {k} (hnew : k ∉ s.polls) (hjobs : s.jobs.any JobView.pollable = true) :
      PageStep s (.pollStart k) (s.startPoll k)
  | pollFinish {k p answers} (hp : s.polls.lookup k = some p) (hopen : p.finished = false)
      (hanswers : p.Answered answers) (heffect : p.effect = s.effect) :
      PageStep s (.pollFinish k answers) ((s.endPoll k p).setJobs (p.updated answers))
  | pollCancelled {k p answers} (hp : s.polls.lookup k = some p) (hopen : p.finished = false)
      (heffect : p.effect ≠ s.effect) : PageStep s (.pollFinish k answers) (s.endPoll k p)

section Steps

variable {s s' : Page} {a : PageLabel} {tr : List PageLabel} {k : ℕ} {p : Poll}

theorem PageStep.of_step (h : page.step s a = some s') : PageStep s a s' := by
  change s.step a = some s' at h
  unfold Page.step at h
  split at h
  case h_1 =>
    obtain ⟨hidle, h⟩ := Option.ite_none_left_eq_some.mp h
    obtain rfl := Option.some.inj h
    exact .submit (Bool.eq_false_iff.mpr hidle)
  case h_2 results =>
    obtain ⟨⟨hsubmit, hnew⟩, h⟩ := Option.ite_none_right_eq_some.mp h
    obtain rfl := Option.some.inj h
    exact .submitted hsubmit hnew
  case h_3 =>
    obtain ⟨hsubmit, h⟩ := Option.ite_none_right_eq_some.mp h
    obtain rfl := Option.some.inj h
    exact .submitFailed hsubmit
  case h_4 index id =>
    obtain ⟨hjob, h⟩ := Option.ite_none_right_eq_some.mp h
    obtain rfl := Option.some.inj h
    exact .delete hjob
  case h_5 k =>
    obtain ⟨⟨hnew, hjobs⟩, h⟩ := Option.ite_none_right_eq_some.mp h
    obtain rfl := Option.some.inj h
    exact .pollStart hnew hjobs
  case h_6 k answers =>
    split at h
    · next p hp =>
      obtain ⟨⟨hopen, hanswers⟩, h⟩ := Option.ite_none_right_eq_some.mp h
      obtain rfl := Option.some.inj h
      split
      · next heffect => exact .pollFinish hp hopen hanswers heffect
      · next heffect => exact .pollCancelled hp hopen heffect
    · cases h

theorem PageStep.effect_le (h : PageStep s a s') : s.effect ≤ s'.effect := by
  cases h with
  | submitted => exact s.le_setJobs_effect _
  | delete => exact s.le_setJobs_effect _
  | @pollFinish k p => exact (s.endPoll k p).le_setJobs_effect _
  | _ => exact le_rfl

theorem PageStep.renders_subset (h : PageStep s a s') : s.renders ⊆ s'.renders := by
  cases h with
  | submitted => exact List.subset_append_right _ _
  | _ => exact List.Subset.refl _

/-- A poll after a step was there before, or begins with it. -/
theorem PageStep.lookup_cases (h : PageStep s a s') (hp : s'.polls.lookup k = some p) :
    (∃ p₀, s.polls.lookup k = some p₀ ∧ p.ids = p₀.ids ∧ p.effect = p₀.effect) ∨
    (a = .pollStart k ∧ k ∉ s.polls ∧ p.ids = s.ids ∧ p.effect = s.effect ∧ s.ids ≠ []) := by
  have hend {k₀ : ℕ} {p₀ : Poll} (hp₀ : s.polls.lookup k₀ = some p₀)
      (hp : (s.endPoll k₀ p₀).polls.lookup k = some p) :
      ∃ p₀, s.polls.lookup k = some p₀ ∧ p.ids = p₀.ids ∧ p.effect = p₀.effect := by
    rcases Table.lookup_insert_cases hp with ⟨rfl, rfl⟩ | ⟨-, hold⟩
    · exact ⟨p₀, hp₀, rfl, rfl⟩
    · exact ⟨p, hold, rfl, rfl⟩
  cases h with
  | pollStart hnew hjobs =>
    rcases Table.lookup_insert_cases hp with ⟨rfl, rfl⟩ | ⟨-, hold⟩
    · -- there is a pollable job, so there is a job
      refine .inr ⟨rfl, hnew, rfl, rfl, ?_⟩
      intro hnil
      rw [List.map_eq_nil_iff.mp hnil] at hjobs
      cases hjobs
    · exact .inl ⟨p, hold, rfl, rfl⟩
  | pollFinish hp₀ => exact .inl (hend hp₀ hp)
  | pollCancelled hp₀ => exact .inl (hend hp₀ hp)
  | _ => exact .inl ⟨p, hp, rfl, rfl⟩

end Steps

/-! ### In every run -/

/-- A poll asks for some renders, for none of them twice, and its effect is the page's or
one before. -/
structure Poll.WF (s : Page) (p : Poll) : Prop where
  nonempty : p.ids ≠ []
  nodup : p.ids.Nodup
  renders : p.ids ⊆ s.renders
  effect_le : p.effect ≤ s.effect

/-- No render is listed twice, and the polls are well formed. -/
structure Page.WF (s : Page) : Prop where
  nodup : s.ids.Nodup
  renders : s.ids ⊆ s.renders
  poll : ∀ k p, s.polls.lookup k = some p → p.WF s

/-- What the labels say of the page: which polls there are, and that a poll from before
the latest submit has asked for none of its renders. -/
structure Page.Traced (tr : List PageLabel) (s : Page) : Prop where
  latest : (asked tr).latest ⊆ s.renders
  started : ∀ k, k ∈ s.polls ↔ .pollStart k ∈ tr
  stale : ∀ k p, s.polls.lookup k = some p → ¬ UpToDate k tr →
    ∀ id ∈ p.ids, id ∉ (asked tr).latest

/-- A deleted job is not listed, and a poll that is not cancelled has not asked for it. -/
def Page.DeletesFinal (tr : List PageLabel) (s : Page) : Prop :=
  ∀ index id, .delete index id ∈ tr → id ∈ s.renders ∧ id ∉ s.ids ∧
    ∀ k p, s.polls.lookup k = some p → p.effect = s.effect → id ∉ p.ids

section Invariants

variable {s s' : Page} {a : PageLabel} {tr : List PageLabel} {k : ℕ} {p : Poll}

@[simp] theorem asked_snoc (tr : List PageLabel) (a : PageLabel) :
    asked (tr ++ [a]) = (asked tr).next a := List.foldl_append

/-- In a list without duplicates, the entry at an index is taken out by its value. -/
theorem eraseIdx_eq_filter {ids : List RenderId} (hnodup : ids.Nodup) {index : ℕ} {id : RenderId}
    (h : ids[index]? = some id) : ids.eraseIdx index = ids.filter (· != id) := by
  obtain ⟨hindex, rfl⟩ := List.getElem?_eq_some_iff.mp h
  calc ids.eraseIdx index = ids.erase ids[index] := (hnodup.erase_getElem index hindex).symm
    _ = ids.filter (· != ids[index]) := hnodup.erase_eq_filter _

theorem UpToDate.of_snoc (h : UpToDate k (tr ++ [a])) : UpToDate k tr :=
  fun hbefore => h (Before.append hbefore [a])

theorem Poll.WF.mono (h : p.WF s) (hrenders : s.renders ⊆ s'.renders)
    (heffect : s.effect ≤ s'.effect) : p.WF s' where
  nonempty := h.nonempty
  nodup := h.nodup
  renders := List.Subset.trans h.renders hrenders
  effect_le := h.effect_le.trans heffect

namespace Page.WF

theorem nodup_step (hW : s.WF) (h : PageStep s a s') : s'.ids.Nodup := by
  cases h with
  | submitted hsubmit hnew =>
    rw [Page.submitted_ids]
    exact hnew.of_append_left
  | @delete index id hjob =>
    rw [Page.delete_ids]
    exact hW.nodup.sublist (List.eraseIdx_sublist _ _)
  | @pollFinish k p answers hp hopen hanswers heffect =>
    rw [Page.pollFinish_ids hanswers]
    exact (hW.poll k p hp).nodup
  | _ => exact hW.nodup

theorem renders_step (hW : s.WF) (h : PageStep s a s') : s'.ids ⊆ s'.renders := by
  cases h with
  | submitted hsubmit hnew =>
    rw [Page.submitted_ids]
    exact List.subset_append_left _ _
  | @delete index id hjob =>
    rw [Page.delete_ids]
    exact List.Subset.trans List.eraseIdx_subset hW.renders
  | @pollFinish k p answers hp hopen hanswers heffect =>
    rw [Page.pollFinish_ids hanswers]
    exact (hW.poll k p hp).renders
  | _ => exact hW.renders

theorem poll_step (hW : s.WF) (h : PageStep s a s') :
    ∀ k p, s'.polls.lookup k = some p → p.WF s' := by
  intro k p hp
  rcases h.lookup_cases hp with ⟨p₀, hp₀, hids, heffect⟩ | ⟨-, -, hids, heffect, hne⟩
  · have hp₀ := (hW.poll k p₀ hp₀).mono h.renders_subset h.effect_le
    exact ⟨hids ▸ hp₀.nonempty, hids ▸ hp₀.nodup, hids ▸ hp₀.renders, heffect ▸ hp₀.effect_le⟩
  · refine ⟨hids ▸ hne, hids ▸ hW.nodup, hids ▸ ?_, heffect ▸ h.effect_le⟩
    exact List.Subset.trans hW.renders h.renders_subset

end Page.WF

theorem Page.WF.of_run (h : page.Reaches tr s) : s.WF := by
  refine h.invariant (fun _ s => s.WF) ⟨List.nodup_nil, List.nil_subset _, nofun⟩ ?_
  intro tr s a s' _ hW _ hs
  have h := PageStep.of_step hs
  exact ⟨hW.nodup_step h, hW.renders_step h, hW.poll_step h⟩

/-- A poll that is not cancelled after a step was not before it either, or begins with it. -/
theorem PageStep.live_cases (h : PageStep s a s') (hW : s.WF) (hp : s'.polls.lookup k = some p)
    (heffect : p.effect = s'.effect) :
    (∃ p₀, s.polls.lookup k = some p₀ ∧ p.ids = p₀.ids ∧ p₀.effect = s.effect ∧
      s'.effect = s.effect) ∨ (a = .pollStart k ∧ p.ids = s.ids) := by
  rcases h.lookup_cases hp with ⟨p₀, hp₀, hids, he⟩ | ⟨ha, -, hids, -, -⟩
  · -- effects are numbered upwards
    have hle := (hW.poll k p₀ hp₀).effect_le
    have hle' := h.effect_le
    exact .inl ⟨p₀, hp₀, hids, by omega, by omega⟩
  · exact .inr ⟨ha, hids⟩

/-- A render of the latest submit was one before the step, or is a new render. -/
theorem PageStep.latest_cases (h : PageStep s a s') {id : RenderId}
    (hid : id ∈ (asked (tr ++ [a])).latest) :
    (id ∈ (asked tr).latest ∧ ¬ a.IsSubmitted) ∨ id ∉ s.renders := by
  rw [asked_snoc] at hid
  cases h with
  | submitted hsubmit hnew => exact .inr (List.disjoint_of_nodup_append hnew hid)
  | _ => exact .inl ⟨hid, fun h => h⟩

namespace Page.Traced

theorem latest_step (hT : s.Traced tr) (h : PageStep s a s') :
    (asked (tr ++ [a])).latest ⊆ s'.renders := by
  rw [asked_snoc]
  have hkeep := List.Subset.trans hT.latest h.renders_subset
  cases h with
  | submitted => exact List.subset_append_left _ _
  | _ => exact hkeep

theorem started_step (hT : s.Traced tr) (h : PageStep s a s') (k : ℕ) :
    k ∈ s'.polls ↔ .pollStart k ∈ tr ++ [a] := by
  have hend {k₀ : ℕ} {p₀ : Poll} (hp₀ : s.polls.lookup k₀ = some p₀) :
      k ∈ (s.endPoll k₀ p₀).polls ↔ k ∈ s.polls := by
    refine (AList.mem_insert _).trans (or_iff_right_of_imp ?_)
    rintro rfl
    exact Table.mem_of_lookup hp₀
  rw [List.mem_append, ← hT.started k, List.mem_singleton]
  cases h with
  | pollStart hnew hjobs =>
    refine (AList.mem_insert _).trans ?_
    rw [PageLabel.pollStart.injEq, or_comm]
  | pollFinish hp₀ => simpa using hend hp₀
  | pollCancelled hp₀ => simpa using hend hp₀
  | _ => simp [Page.submitted]

theorem stale_step (hW : s.WF) (hT : s.Traced tr) (h : PageStep s a s') :
    ∀ k p, s'.polls.lookup k = some p → ¬ UpToDate k (tr ++ [a]) →
      ∀ id ∈ p.ids, id ∉ (asked (tr ++ [a])).latest := by
  intro k p hp hstale id hid hlatest
  rcases h.latest_cases hlatest with ⟨hlatest, hsubmitted⟩ | hnew
  · have hbefore : ¬ UpToDate k tr := by
      rcases Before.cases (not_not.mp hstale) with hbefore | ⟨ha, -⟩
      · exact not_not.mpr hbefore
      · exact absurd ha hsubmitted
    rcases h.lookup_cases hp with ⟨p₀, hp₀, hids, -⟩ | ⟨-, hnew, -⟩
    · exact hT.stale k p₀ hp₀ hbefore id (hids ▸ hid) hlatest
    · -- the poll has not started before
      obtain ⟨a', ha', rfl⟩ := Before.exists_left (not_not.mp hbefore)
      exact hnew ((hT.started k).mpr ha')
  · rcases h.lookup_cases hp with ⟨p₀, hp₀, hids, -⟩ | ⟨-, -, hids, -⟩
    · exact hnew ((hW.poll k p₀ hp₀).renders (hids ▸ hid))
    · exact hnew (hW.renders (hids ▸ hid))

end Page.Traced

theorem Page.Traced.of_run (h : page.Reaches tr s) : s.Traced tr := by
  refine h.invariant (fun tr s => s.Traced tr) ?_ ?_
  · refine ⟨List.nil_subset _, ?_, nofun⟩
    intro k
    exact iff_of_false (AList.notMem_empty k) List.not_mem_nil
  · intro tr s a s' hrun hT _ hs
    have h := PageStep.of_step hs
    exact ⟨hT.latest_step h, hT.started_step h, hT.stale_step (.of_run hrun) h⟩

theorem Page.DeletesFinal.step (hD : s.DeletesFinal tr) (hW : s.WF) (h : PageStep s a s') :
    s'.DeletesFinal (tr ++ [a]) := by
  intro index id hmem
  rcases List.mem_append.mp hmem with hmem | hmem
  · -- deleted before: what a step lists is new, was listed, or was asked for
    obtain ⟨hrenders, hids, hpolls⟩ := hD index id hmem
    refine ⟨h.renders_subset hrenders, ?_, ?_⟩
    · cases h with
      | submitted hsubmit hnew =>
        rw [Page.submitted_ids]
        exact fun hid => List.disjoint_of_nodup_append hnew hid hrenders
      | delete hjob =>
        rw [Page.delete_ids]
        exact fun hid => hids (List.eraseIdx_subset hid)
      | @pollFinish k p answers hp hopen hanswers heffect =>
        rw [Page.pollFinish_ids hanswers]
        exact hpolls k p hp heffect
      | _ => exact hids
    · intro k p hp heffect
      rcases h.live_cases hW hp heffect with ⟨p₀, hp₀, he, heffect₀, -⟩ | ⟨-, he⟩
      · exact he ▸ hpolls k p₀ hp₀ heffect₀
      · exact he ▸ hids
  · obtain rfl := List.mem_singleton.mp hmem
    cases h with
    | delete hjob =>
      refine ⟨hW.renders (List.mem_of_getElem? hjob), ?_, ?_⟩
      · rw [Page.delete_ids, eraseIdx_eq_filter hW.nodup hjob]
        simp
      · intro k p hp heffect
        -- all polls before it are cancelled
        have hlt := Page.lt_effect_of_delete hjob
        rcases PageStep.live_cases (.delete hjob) hW hp heffect with ⟨-, -, -, -, he⟩ | ⟨ha, -⟩
        · exact absurd he hlt.ne'
        · cases ha

/-- **A deleted job never comes back.** -/
theorem not_mem_ids_of_delete (h : page.Reaches tr s) {index : ℕ} {id : RenderId}
    (hdelete : .delete index id ∈ tr) : id ∉ s.ids := by
  have hD : s.DeletesFinal tr := by
    refine h.invariant (fun tr s => s.DeletesFinal tr) ?_ ?_
    · intro index id hmem
      exact absurd hmem List.not_mem_nil
    · exact fun hrun hD _ hs => hD.step (.of_run hrun) (.of_step hs)
  exact (hD index id hdelete).2.1

end Invariants

/-! ### In the runs that meet the condition -/

/-- The page lists the renders it should list, and so do the polls that are not cancelled
and not from before the latest submit. -/
structure Page.Current (tr : List PageLabel) (s : Page) : Prop where
  ids_eq : s.ids = (asked tr).latest.filter (· ∉ (asked tr).deleted)
  poll : ∀ k p, s.polls.lookup k = some p → p.effect = s.effect → UpToDate k tr → p.ids = s.ids

section Current

variable {s s' : Page} {a : PageLabel} {tr : List PageLabel}

namespace Page.Current

variable (hW : s.WF) (hC : s.Current tr) (hcond : PollsUpToDate tr s a) (h : PageStep s a s')

include hW hC hcond h

theorem ids_eq_step : s'.ids =
    (asked (tr ++ [a])).latest.filter (· ∉ (asked (tr ++ [a])).deleted) := by
  rw [asked_snoc]
  cases h with
  | submitted =>
    rw [Page.submitted_ids]
    simp [Asked.next]
  | @delete index id hjob =>
    rw [Page.delete_ids]
    calc s.ids.eraseIdx index
        = s.ids.filter (· != id) := eraseIdx_eq_filter hW.nodup hjob
      _ = ((asked tr).latest.filter (· ∉ (asked tr).deleted)).filter (· != id) := by rw [hC.ids_eq]
      _ = (asked tr).latest.filter (· ∉ id :: (asked tr).deleted) := by
        rw [List.filter_filter]
        apply List.filter_congr
        intro id' _
        rw [Bool.eq_iff_iff]
        simp
  | @pollFinish k p answers hp hopen hanswers heffect =>
    rw [Page.pollFinish_ids hanswers,
      hC.poll k p hp heffect (hcond k answers p rfl hp heffect)]
    exact hC.ids_eq
  | _ => exact hC.ids_eq

theorem poll_step (hT : s.Traced tr) : ∀ k p, s'.polls.lookup k = some p →
    p.effect = s'.effect → UpToDate k (tr ++ [a]) → p.ids = s'.ids := by
  intro k p hp heffect hup
  rcases h.live_cases hW hp heffect with ⟨p₀, hp₀, hids, heffect₀, hsame⟩ | ⟨rfl, hids⟩
  · have hold : p.ids = s.ids := hids.trans (hC.poll k p₀ hp₀ heffect₀ hup.of_snoc)
    cases h with
    | submitted =>
      -- then it is from before this submit
      have hstarted := (hT.started k).mp (Table.mem_of_lookup hp₀)
      exact absurd (Before.snoc hstarted (P := (· = _)) rfl trivial) hup
    | delete hjob => exact absurd hsame (Page.lt_effect_of_delete hjob).ne'
    | @pollFinish k₁ p₁ answers hp₁ hopen hanswers heffect₁ =>
      rw [Page.pollFinish_ids hanswers,
        hC.poll k₁ p₁ hp₁ heffect₁ (hcond k₁ answers p₁ rfl hp₁ heffect₁)]
      exact hold
    | _ => exact hold
  · cases h with
    | pollStart => exact hids

end Page.Current

theorem Page.Current.of_run (h : page.Run PollsUpToDate tr s) : s.Current tr := by
  refine h.invariant (fun tr s => s.Current tr) ⟨rfl, nofun⟩ ?_
  intro tr s a s' hrun hC hcond hs
  have hW : s.WF := .of_run hrun.reaches
  have h := PageStep.of_step hs
  exact ⟨hC.ids_eq_step hW hcond h, hC.poll_step hW hcond h (.of_run hrun.reaches)⟩

theorem Page.Current.idsExact (hC : s.Current tr) : IdsExact tr s := by
  intro id
  rw [hC.ids_eq, List.mem_filter, decide_eq_true_iff]

/-- A poll from before the latest submit puts back what is not to be listed. -/
theorem pollsUpToDate_of_idsExact (hrun : page.Reaches tr s) (hs : page.step s a = some s')
    (hexact : IdsExact (tr ++ [a]) s') : PollsUpToDate tr s a := by
  rintro k answers p rfl hp heffect
  by_contra hstale
  cases PageStep.of_step hs with
  | @pollFinish _ p' _ hp' _ hanswers _ =>
    obtain rfl := Option.some.inj (hp.symm.trans hp')
    -- whatever the poll asked for is listed now, and the submit has none of it
    obtain ⟨id, hid⟩ := List.exists_mem_of_ne_nil _ ((Page.WF.of_run hrun).poll k p hp).nonempty
    have hlisted := hexact id
    rw [Page.pollFinish_ids hanswers, asked_snoc] at hlisted
    exact (Page.Traced.of_run hrun).stale k p hp hstale id hid (hlisted.mp hid).1
  | @pollCancelled _ p' _ hp' _ hother =>
    obtain rfl := Option.some.inj (hp.symm.trans hp')
    exact hother heffect

/-- **The ids in `jobs` are those of the latest submit minus the ones deleted since**, in
every state of a run, exactly when every poll that finishes is cancelled or is from after
the latest submit. -/
theorem idsExact_iff (hrun : page.Reaches tr s) :
    page.Throughout IdsExact tr ↔ page.Run PollsUpToDate tr s :=
  System.Run.throughout_iff (fun h => (Page.Current.of_run h).idsExact)
    (fun hrun hs hexact => pollsUpToDate_of_idsExact hrun hs hexact) hrun

end Current

/-- A record of a render in the queue. -/
def queued (id : RenderId) : RenderJob where
  id := id
  status := "In Queue"
  width := 1920
  height := 1080
  framesPerSecond := 30
  animationRuntime := 10
  framesCompleted := 0
  executionTime := 0
  samplesPerPixel := 16
  createdAt := "now"
  sceneFileUrl := "scene.gltf"
  outputFilename := "scene.png"
  downloadLink := none
  downloadLinks := []

/-- A poll between two submits of one form. -/
def polledBetween : List PageLabel :=
  [.submit, .submitted [(queued "a", 0)], .pollStart 0, .pollFinish 0 [(some (queued "a"), 10)],
    .submit, .submitted [(queued "b", 11)]]

theorem idsExact_iff_polledBetween : (page.after polledBetween).ids = ["b"] ∧
    (page.Throughout IdsExact polledBetween ↔
      page.Run PollsUpToDate polledBetween (page.after polledBetween)) :=
  ⟨by decide, idsExact_iff (.after (by decide))⟩

/-- The same poll, when it is over after the second submit only. -/
def polledAcross : List PageLabel :=
  [.submit, .submitted [(queued "a", 0)], .pollStart 0, .submit, .submitted [(queued "b", 11)],
    .pollFinish 0 [(some (queued "a"), 12)]]

/-- The render submitted last is not listed, and the one before is. -/
theorem not_idsExact : page.Reaches polledAcross (page.after polledAcross) ∧
    (page.after polledAcross).ids = ["a"] ∧ asked polledAcross = ⟨["b"], []⟩ ∧
    ¬ IdsExact polledAcross (page.after polledAcross) := by
  have hids : (page.after polledAcross).ids = ["a"] := by decide
  refine ⟨.after (by decide), hids, rfl, ?_⟩
  intro h
  have hb := h "b"
  rw [hids] at hb
  exact absurd (hb.mpr (by decide)) (by decide)

end Pathological
