import Pathological.Scheduler.JobIds

/-!
# Where a frame is

A frame of a render that `addJob` has accepted can be in four kinds of places:
an entry of `pending_jobs_`, a job id of `worker_job_to_render_id_`, a handler
that holds it between two of its critical sections, or the record of its
completion (its slot in the progress entry, or the render's finalization).
`State.places` adds up the occurrences over all of them.

* No step of the scheduler loses a frame (`State.Owned.located`): the sum is
  never zero, whatever fails and in whatever order.
* A step duplicates a frame in one way only: a dispatch thread that undoes a
  registration which is no longer there pushes a frame back that somebody else
  has. Where every such thread finds its registration (`UndoFindsJob`), the sum
  is exactly one (`State.Owned.unique`).

`frame_conserved` is the second with the assumption the source states about
the workers: a job id whose call failed never has a completion processed.
-/

namespace Pathological

open Framework

/-! ### The places -/

/-- The queued job is for the frame. -/
def FrameJob.isFor (c : FrameJobContext) (f : FrameJob) : Bool := decide (f.context = c)

/-- The registration is for the frame. -/
def FrameJobContext.isFor (c c' : FrameJobContext) : Bool := decide (c' = c)

/-- The completion handler holds the frame. -/
def CompletionThread.holds (c : FrameJobContext) (t : CompletionThread) : Bool :=
  decide (t.pc.frame = some c)

/-- `addJob` has accepted the render and not pushed its frames yet. -/
def enqueuing (submits : Table RenderId SubmitPc) (r : RenderId) : Bool :=
  submits.lookup r == some .enqueue

/-- The dispatch thread holds the frame. -/
def DispatchThread.holds (c : FrameJobContext) (d : DispatchThread) : Bool :=
  decide (d.frame = some c)

/-- The slot of the frame is filled, or its render has no entry. -/
def recordedIn (progress : Table RenderId RenderProgress) (c : FrameJobContext) : Bool :=
  match progress.lookup c.renderId with
  | some p => p.frameLinks[c.frameIndex]?.join.isSome
  | none => true

namespace State

/-- `addJob` has accepted the render: its progress section has run. -/
def Accepted (s : State) (r : RenderId) : Prop :=
  s.submits.lookup r = some .enqueue ∨ s.submits.lookup r = some .returned

/-- The frame is one of an accepted render's frames. -/
def Owned (s : State) (c : FrameJobContext) : Prop :=
  ∃ render, s.history.lookup c.renderId = some render ∧ c.frameIndex < render.totalFrames ∧
    s.Accepted c.renderId

/-- The entries of `pending_jobs_` for the frame. -/
def pendingAt (s : State) (c : FrameJobContext) : ℕ :=
  s.pendingJobs.countP (FrameJob.isFor c)

/-- The job ids of `worker_job_to_render_id_` for the frame. -/
def registeredAt (s : State) (c : FrameJobContext) : ℕ :=
  Table.occ (FrameJobContext.isFor c) s.workerJobToRenderId

/-- The handlers that hold the frame between two of their critical sections: its
`addJob`, completion handlers, and dispatch threads whose call failed. -/
def heldAt (s : State) (c : FrameJobContext) : ℕ :=
  (enqueuing s.submits c.renderId).toNat +
    Table.occ (CompletionThread.holds c) s.completions +
    Table.occ (DispatchThread.holds c) s.dispatchThreads

/-- The completion of the frame is recorded: its slot is filled, or the entry of
its (accepted) render is gone, which is the render's finalization. -/
def recorded (s : State) (c : FrameJobContext) : Bool :=
  recordedIn s.renderProgress c

/-- In how many places the frame is. -/
def places (s : State) (c : FrameJobContext) : ℕ :=
  s.pendingAt c + s.registeredAt c + s.heldAt c + (s.recorded c).toNat

end State

/-! ### Small facts about the places -/

section Places

variable {env : Env} {s s' : State} {a : Label} {c : FrameJobContext}

theorem FrameJob.isFor_iff {f : FrameJob} : f.isFor c = true ↔ f.context = c := decide_eq_true_iff

@[simp] theorem CompletionThread.holds_mk {w : WorkerId} {j : JobId} {pc : CompletionPc} :
    CompletionThread.holds c ⟨w, j, pc⟩ = decide (pc.frame = some c) := rfl

@[simp] theorem DispatchThread.holds_mk {w : WorkerId} {addr : String} {f : FrameJob}
    {pc : DispatchPc} :
    DispatchThread.holds c ⟨w, addr, f, pc⟩ = (decide (pc = .requeue) && f.isFor c) := by
  unfold holds frame FrameJob.isFor
  by_cases h : pc = .requeue <;> simp [h]

section Recorded

variable {progress : Table RenderId RenderProgress}

theorem recordedIn_of_none (h : progress.lookup c.renderId = none) :
    recordedIn progress c = true := by
  unfold recordedIn
  rw [h]

theorem recordedIn_of_some {p : RenderProgress} (h : progress.lookup c.renderId = some p) :
    recordedIn progress c = true ↔ ∃ l, p.frameLinks[c.frameIndex]? = some (some l) := by
  unfold recordedIn
  rw [h, Option.isSome_iff_exists]
  simp only [Option.join_eq_some_iff]

theorem recordedIn_congr {progress' : Table RenderId RenderProgress}
    (h : progress'.lookup c.renderId = progress.lookup c.renderId) :
    recordedIn progress' c = recordedIn progress c := by
  unfold recordedIn
  rw [h]

end Recorded

theorem State.Known.owned (h : s.Known c) : s.Owned c := by
  obtain ⟨render, hr, hi, hpc⟩ := h
  exact ⟨render, hr, hi, Or.inr hpc⟩

/-- `addJob` pushes each frame of its render once. -/
theorem countP_frameJobs {render : RenderRequest} :
    (State.frameJobs render).countP (FrameJob.isFor c) =
      (decide (c.renderId = render.id ∧ c.frameIndex < render.totalFrames)).toNat := by
  unfold State.frameJobs
  rw [List.countP_map]
  by_cases hid : c.renderId = render.id
  · -- the pushed job at position `i` is for frame `i`
    have hpred : (FrameJob.isFor c ∘ fun i =>
        (⟨render.id, i, State.frameTime render.framesPerSecond i⟩ : FrameJob)) =
        fun i => i == c.frameIndex := by
      funext i
      rw [Bool.eq_iff_iff, Function.comp_apply, FrameJob.isFor_iff, beq_iff_eq]
      obtain ⟨r, k⟩ := c
      simp only at hid
      simp [FrameJob.context, hid]
    rw [hpred, ← List.count_eq_countP, List.count_range]
    by_cases hi : c.frameIndex < render.totalFrames <;> simp [hid, hi]
  · -- a frame of another render is not pushed at all
    rw [List.countP_eq_zero.mpr]
    · simp [hid]
    · intro i _ hfor
      rw [Function.comp_apply, FrameJob.isFor_iff] at hfor
      exact hid (by rw [← hfor]; rfl)

/-- The sum, component by component. -/
theorem State.places_def : s.places c =
    s.pendingJobs.countP (FrameJob.isFor c) +
      Table.occ (FrameJobContext.isFor c) s.workerJobToRenderId +
      ((enqueuing s.submits c.renderId).toNat +
        Table.occ (CompletionThread.holds c) s.completions +
        Table.occ (DispatchThread.holds c) s.dispatchThreads) +
      (recordedIn s.renderProgress c).toNat := rfl

end Places

/-! ### What a step does to the sum -/

section Steps

variable {env : Env} {s s' : State} {a : Label} {c : FrameJobContext}

/-- A completion handler moving on changes the sum by what it held and holds. -/
theorem occ_completion {t : ThreadId} {w : WorkerId} {j : JobId} {pc : CompletionPc}
    (pc' : CompletionPc) (hpc : s.completions.lookup t = some ⟨w, j, pc⟩) :
    Table.occ (CompletionThread.holds c) (s.completions.insert t ⟨w, j, pc'⟩) +
        (decide (pc.frame = some c)).toNat =
      Table.occ (CompletionThread.holds c) s.completions +
        (decide (pc'.frame = some c)).toNat :=
  Table.occ_insert_over hpc

/-- A dispatch thread moving on changes the sum by what it held and holds. -/
theorem occ_dispatch {j : JobId} {w : WorkerId} {addr : String} {f : FrameJob}
    {pc : DispatchPc} (pc' : DispatchPc)
    (hpc : s.dispatchThreads.lookup j = some ⟨w, addr, f, pc⟩) :
    Table.occ (DispatchThread.holds c) (s.dispatchThreads.insert j ⟨w, addr, f, pc'⟩) +
        (decide (pc = .requeue) && f.isFor c).toNat =
      Table.occ (DispatchThread.holds c) s.dispatchThreads +
        (decide (pc' = .requeue) && f.isFor c).toNat := by
  have h := Table.occ_insert_over (p := DispatchThread.holds c) (v := ⟨w, addr, f, pc'⟩) hpc
  rwa [DispatchThread.holds_mk, DispatchThread.holds_mk] at h

/-- A submit handler moving on, seen from a frame of another render. -/
theorem enqueuing_other {id : RenderId} {pc : SubmitPc} (hne : c.renderId ≠ id) :
    enqueuing (s.submits.insert id pc) c.renderId = enqueuing s.submits c.renderId := by
  unfold enqueuing
  rw [AList.lookup_insert_ne hne]

theorem enqueuing_self {id : RenderId} {pc : SubmitPc} :
    enqueuing (s.submits.insert id pc) id = (pc == .enqueue) := by
  unfold enqueuing
  rw [AList.lookup_insert]
  rfl

/-- A submit handler of another render, seen from a frame of an accepted render. -/
theorem State.Owned.ne_of_addJob {id : RenderId} (hc : s.Owned c)
    (hpc : s.submits.lookup id = some .addJob) : c.renderId ≠ id := by
  rintro rfl
  obtain ⟨-, -, -, henq | hret⟩ := hc
  · rw [hpc] at henq
    cases henq
  · rw [hpc] at hret
    cases hret

/-- Recording a frame fills its own slot and no other one. -/
theorem recordedIn_record {progress : Table RenderId RenderProgress} {ctx : FrameJobContext}
    {p : RenderProgress} {l : String} (hentry : progress.lookup ctx.renderId = some p)
    (hsize : ctx.frameIndex < p.frameLinks.length) :
    recordedIn (progress.insert ctx.renderId (p.record ctx.frameIndex (some l))) c =
      (recordedIn progress c || decide (ctx = c)) := by
  by_cases hr : c.renderId = ctx.renderId
  · have hold : progress.lookup c.renderId = some p := by rw [hr]; exact hentry
    have hnew : (progress.insert ctx.renderId
        (p.record ctx.frameIndex (some l))).lookup c.renderId =
        some (p.record ctx.frameIndex (some l)) := by
      rw [hr]
      exact AList.lookup_insert _
    rw [Bool.eq_iff_iff, Bool.or_eq_true, decide_eq_true_iff, recordedIn_of_some hold,
      recordedIn_of_some hnew]
    constructor
    · -- a slot filled now was filled before, or is the one just written
      rintro ⟨l', hl'⟩
      rw [RenderProgress.record_frameLinks] at hl'
      split at hl'
      · next hi =>
        refine Or.inr ?_
        obtain ⟨r, i⟩ := c
        obtain ⟨r', i'⟩ := ctx
        rw [FrameJobContext.mk.injEq]
        exact ⟨hr.symm, hi.1⟩
      · exact Or.inl ⟨l', hl'⟩
    · rintro (⟨l', hl'⟩ | rfl)
      · exact ⟨l', RenderProgress.record_filled hl'⟩
      · exact RenderProgress.record_self hsize
  · -- another render's entry is not touched
    have hne : ctx ≠ c := fun he => hr (by rw [he])
    rw [recordedIn_congr (AList.lookup_insert_ne hr), decide_eq_false hne, Bool.or_false]

/-- Erasing the entry that the last missing frame completes records that frame
and no other one. -/
theorem recordedIn_erase {progress : Table RenderId RenderProgress} {ctx : FrameJobContext}
    {p : RenderProgress} {l : String} {n : ℕ} (hentry : progress.lookup ctx.renderId = some p)
    (hfull : (p.record ctx.frameIndex (some l)).Full n) (hi : c.renderId = ctx.renderId →
      c.frameIndex < n) :
    recordedIn (progress.erase ctx.renderId) c = (recordedIn progress c || decide (ctx = c)) := by
  by_cases hr : c.renderId = ctx.renderId
  · have hnone : (progress.erase ctx.renderId).lookup c.renderId = none := by
      rw [hr]
      exact AList.lookup_erase _ _
    have hold : progress.lookup c.renderId = some p := by rw [hr]; exact hentry
    rw [recordedIn_of_none hnone, eq_comm, Bool.or_eq_true, decide_eq_true_iff,
      recordedIn_of_some hold]
    -- a slot filled at the end was filled before, or is the one just recorded
    obtain ⟨l', hl'⟩ := hfull.2 c.frameIndex (hi hr)
    rw [RenderProgress.record_frameLinks] at hl'
    split at hl'
    · next heq =>
      refine Or.inr ?_
      obtain ⟨r, i⟩ := c
      obtain ⟨r', i'⟩ := ctx
      rw [FrameJobContext.mk.injEq]
      exact ⟨hr.symm, heq.1⟩
    · exact Or.inl ⟨l', hl'⟩
  · have hne : ctx ≠ c := fun he => hr (by rw [he])
    rw [recordedIn_congr (AList.lookup_erase_ne hr), decide_eq_false hne, Bool.or_false]

/-- What a step may do to the number of places a frame is in: keep the frame
somewhere and, unless a registration to undo is missing, not add a place. -/
def PlacesStep (s : State) (a : Label) (n n' : ℕ) : Prop :=
  (1 ≤ n → 1 ≤ n') ∧ (UndoFindsJob [] s a → n' ≤ n)

theorem PlacesStep.of_eq {n n' : ℕ} (h : n' = n) : PlacesStep s a n n' :=
  ⟨fun hn => h ▸ hn, fun _ => Nat.le_of_eq h⟩

/-- A handler lets go of the frame it holds, which is recorded from then on. -/
theorem PlacesStep.of_record {k occ occ' : ℕ} {held done : Bool} (hocc : occ' + held.toNat = occ) :
    PlacesStep s a (k + occ + done.toNat) (k + occ' + (done || held).toNat) := by
  cases held <;> cases done <;>
    simp only [Bool.toNat_true, Bool.toNat_false, Bool.or_true, Bool.or_false] at * <;>
    exact ⟨fun _ => by omega, fun _ => by omega⟩

/-- The step of a handler that records its frame. -/
theorem PlacesStep.of_recorded {t : ThreadId} {w : WorkerId} {j : JobId} {ctx : FrameJobContext}
    {link : Option String} {todo : List (RenderId × Setter)} {pend reg sub disp : ℕ}
    {rec₀ rec₁ : Bool} (hpc : s.completions.lookup t = some ⟨w, j, .record ctx link⟩)
    (hrec : rec₁ = (rec₀ || decide (ctx = c))) :
    PlacesStep s a
      (pend + reg + (sub + Table.occ (CompletionThread.holds c) s.completions + disp) + rec₀.toNat)
      (pend + reg + (sub + Table.occ (CompletionThread.holds c)
        (s.completions.insert t ⟨w, j, .publish todo⟩) + disp) + rec₁.toNat) := by
  have hocc := occ_completion (c := c) (.publish todo) hpc
  have hheld : decide ((CompletionPc.record ctx link).frame = some c) = decide (ctx = c) := by
    simp [CompletionPc.frame]
  have hfree : decide ((CompletionPc.publish todo).frame = some c) = false := rfl
  rw [hheld, hfree, Bool.toNat_false, Nat.add_zero] at hocc
  -- only the handler's part of the sum and the recorded part move
  have hmove : PlacesStep s a (pend + reg + sub + disp + _ + rec₀.toNat) _ := .of_record hocc
  rw [hrec]
  convert hmove using 1 <;> omega

/-- **One step, for a frame already owned.** The frame is not lost, and it is
duplicated only by undoing a registration that is not there. -/
theorem Step.places (hI : s.WF env) (h : Step env s a s') (hc : s.Owned c) :
    PlacesStep s a (s.places c) (s'.places c) := by
  have hother : ∀ {id : RenderId}, s.submits.lookup id = some .addJob → c.renderId ≠ id :=
    hc.ne_of_addJob
  obtain ⟨render, hrender, hi, hacc⟩ := hc
  have hin : c.renderId ∈ s.history := Table.mem_of_lookup hrender
  simp only [State.places_def]
  -- a completion handler that holds the same frame before and after
  have hkeep : ∀ {t : ThreadId} {w : WorkerId} {j : JobId} {pc : CompletionPc} (pc' : CompletionPc),
      s.completions.lookup t = some ⟨w, j, pc⟩ → pc'.frame = pc.frame →
      Table.occ (CompletionThread.holds c) (s.completions.insert t ⟨w, j, pc'⟩) =
        Table.occ (CompletionThread.holds c) s.completions := by
    intro t w j pc pc' hpc hframe
    have hocc := occ_completion (c := c) pc' hpc
    rw [hframe] at hocc
    exact Nat.add_right_cancel hocc
  -- every case but those that record or undo moves the frame between two summands
  cases h with
  | @createAccepted id payload timestamp render' hnew hpayload =>
    refine .of_eq ?_
    have hne : c.renderId ≠ id := by
      rintro rfl
      exact hnew hin
    simp only [State.setSubmit, enqueuing_other hne]
  | addJobSkipped hpc hrender' hframes =>
    refine .of_eq ?_
    simp only [State.setSubmit, enqueuing_other (hother hpc)]
  | @addJobProgress id render' hpc hrender' hframes =>
    have hid := hI.id_eq id render' hrender'
    subst hid
    refine .of_eq ?_
    simp only [State.setSubmit, State.addJobProgress, enqueuing_other (hother hpc),
      recordedIn_congr (AList.lookup_insert_ne (hother hpc))]
  | @addJobQueue id render' hpc hrender' =>
    have hid := hI.id_eq id render' hrender'
    subst hid
    refine .of_eq ?_
    simp only [State.setSubmit, State.addJobQueue, List.countP_append, countP_frameJobs]
    by_cases hr : c.renderId = render'.id
    · -- the handler hands its frames over to the queue
      obtain rfl : render' = render := by
        rw [hr] at hrender
        exact Option.some.inj (hrender'.symm.trans hrender)
      have hheld : enqueuing s.submits render'.id = true := by
        unfold enqueuing
        rw [hpc]
        rfl
      have hfree : (SubmitPc.returned == .enqueue) = false := rfl
      simp only [hr, hi, and_self, decide_true, enqueuing_self, hheld, hfree, Bool.toNat_true,
        Bool.toNat_false]
      omega
    · simp only [hr, false_and, decide_false, enqueuing_other hr, Bool.toNat_false, Nat.add_zero]
  | @jobCompleted t worker job w hnew hfind =>
    refine .of_eq ?_
    have hocc := Table.occ_insert_new (p := CompletionThread.holds c)
      (v := ⟨worker, job, .take⟩) (AList.lookup_eq_none.mpr hnew)
    simp only [State.setCompletion, hocc]
    rfl
  | @takeJob t w j ctx hpc hjob =>
    refine .of_eq ?_
    -- from the map into the hands of the handler
    have hocc := occ_completion (c := c) (.link ctx) hpc
    have hreg := Table.occ_erase_add (p := FrameJobContext.isFor c) hjob
    have hlink : decide ((CompletionPc.link ctx).frame = some c) = FrameJobContext.isFor c ctx := by
      simp [CompletionPc.frame, FrameJobContext.isFor]
    have htake : decide ((CompletionPc.take).frame = some c) = false := rfl
    rw [hlink, htake, Bool.toNat_false] at hocc
    simp only [State.setCompletion]
    omega
  | takeUnknown hpc hjob =>
    refine .of_eq ?_
    simp only [State.setCompletion, hkeep (.publish []) hpc rfl]
  | @buildLink t now w j ctx render' hpc hrender' =>
    refine .of_eq ?_
    simp only [State.setCompletion, hkeep (.record ctx _) hpc rfl]
  | @buildLinkLost t now w j ctx hpc hnone =>
    -- a handler's frame belongs to a render of the history
    obtain ⟨render', hrender', -⟩ := hI.completion_known t _ ctx hpc rfl
    rw [hnone] at hrender'
    cases hrender'
  | @recordProgress t w j ctx link p hpc hentry hdone =>
    obtain ⟨_, l, -, rfl, -⟩ := hI.completion_link t w j ctx link hpc
    obtain ⟨render', hrender', hlt, -⟩ := hI.completion_known t _ ctx hpc rfl
    obtain ⟨render'', hrender'', hp, -⟩ := hI.progress_tracked _ p hentry
    obtain rfl := Option.some.inj (hrender''.symm.trans hrender')
    have hrec := recordedIn_record (c := c) (l := l) hentry (hp.size ▸ hlt)
    exact .of_recorded hpc hrec
  | @recordLast t w j ctx link p hpc hentry hdone =>
    obtain ⟨_, l, -, rfl, -⟩ := hI.completion_link t w j ctx link hpc
    obtain ⟨render', hrender', hp, -⟩ := hI.progress_tracked _ p hentry
    -- the entry goes only when every slot is filled, so the erasure records no other frame
    have hfull := hp.record (i := ctx.frameIndex) (l := l)
    rw [if_pos hdone] at hfull
    refine .of_recorded hpc (recordedIn_erase hentry hfull fun hr => ?_)
    rw [hr] at hrender
    rwa [Option.some.inj (hrender'.symm.trans hrender)]
  | @recordFinalized t w j ctx link hpc hnone =>
    -- without an entry the frame counts as recorded already
    have hrec : recordedIn s.renderProgress c =
        (recordedIn s.renderProgress c || decide (ctx = c)) := by
      by_cases he : ctx = c
      · subst he
        rw [recordedIn_of_none hnone, Bool.true_or]
      · rw [decide_eq_false he, Bool.or_false]
    exact .of_recorded hpc hrec
  | @publish t w j id x todo hpc =>
    refine .of_eq ?_
    simp only [State.setCompletion, State.applySetter, hkeep (.publish todo) hpc rfl]
  | markWorkerIdle hpc =>
    refine .of_eq ?_
    simp only [State.setCompletion, State.markWorkerIdle, hkeep .answered hpc rfl]
  | @assignJob job f rest w hnew hqueue hidle =>
    refine .of_eq ?_
    have hdisp := Table.occ_insert_new (p := DispatchThread.holds c)
      (v := ⟨w.id, State.workerAddress w, f, .calling⟩) (AList.lookup_eq_none.mpr hnew)
    -- a minted id is not registered: a registered one has a dispatch thread
    have hfresh : s.workerJobToRenderId.lookup job = none := by
      cases hj : s.workerJobToRenderId.lookup job with
      | none => rfl
      | some ctx =>
        obtain ⟨d, hd, -⟩ := hI.job_dispatched job ctx hj
        exact absurd (Table.mem_of_lookup hd) hnew
    have hreg := Table.occ_insert_new (p := FrameJobContext.isFor c) (v := f.context) hfresh
    have hfor : (FrameJobContext.isFor c f.context).toNat = (f.isFor c).toNat := rfl
    have hpend : s.pendingJobs.countP (FrameJob.isFor c) =
        rest.countP (FrameJob.isFor c) + (f.isFor c).toNat := by
      rw [hqueue, List.countP_cons]
      cases f.isFor c <;> rfl
    have hcalling : (DispatchThread.holds c
        ⟨w.id, State.workerAddress w, f, .calling⟩).toNat = 0 := rfl
    simp only [hdisp, hreg, hpend, hfor, hcalling]
    omega
  | @renderJobReturned job accepted w addr f hpc =>
    refine .of_eq ?_
    have hocc := occ_dispatch (c := c)
      (if accepted then .ended true else .undo) hpc
    have hfree : (decide ((if accepted then DispatchPc.ended true else .undo) = .requeue) &&
        f.isFor c).toNat = 0 := by
      cases accepted <;> rfl
    have hcalling : (decide (DispatchPc.calling = .requeue) && f.isFor c).toNat = 0 := rfl
    rw [hfree, hcalling] at hocc
    simp only [State.setDispatch]
    omega
  | @undoRegistration job w addr f hpc =>
    have hocc := occ_dispatch (c := c) .requeue hpc
    have hundo : (decide (DispatchPc.undo = .requeue) && f.isFor c).toNat = 0 := rfl
    rw [hundo, decide_eq_true rfl, Bool.true_and, Nat.add_zero] at hocc
    simp only [State.setDispatch]
    cases hj : s.workerJobToRenderId.lookup job with
    | none =>
      -- nothing to erase: the frame pushed back is somebody else's too
      rw [Table.erase_of_lookup_none hj]
      refine ⟨fun hn => by omega, fun hfinds => ?_⟩
      exact absurd hfinds (AList.lookup_eq_none.mp hj)
    | some ctx =>
      obtain ⟨d, hd, rfl⟩ := hI.job_dispatched job ctx hj
      obtain rfl := Option.some.inj (hpc.symm.trans hd)
      have hreg : Table.occ (FrameJobContext.isFor c) (s.workerJobToRenderId.erase job) +
          (f.isFor c).toNat = Table.occ (FrameJobContext.isFor c) s.workerJobToRenderId :=
        Table.occ_erase_add hj
      -- from the map into the hands of the dispatch thread
      refine .of_eq ?_
      omega
  | @requeueFrame job w addr f hpc =>
    refine .of_eq ?_
    -- from the dispatch thread to the back of the queue
    have hocc := occ_dispatch (c := c) .offline hpc
    have hoffline : (decide (DispatchPc.offline = .requeue) && f.isFor c).toNat = 0 := rfl
    rw [hoffline, decide_eq_true rfl, Bool.true_and, Nat.add_zero] at hocc
    have hpend : (s.pendingJobs ++ [f]).countP (FrameJob.isFor c) =
        s.pendingJobs.countP (FrameJob.isFor c) + (f.isFor c).toNat := by
      rw [List.countP_append, List.countP_singleton]
      cases f.isFor c <;> rfl
    simp only [State.setDispatch, hpend]
    omega
  | @markDispatchOffline job w addr f hpc =>
    refine .of_eq ?_
    have hocc := occ_dispatch (c := c) (.ended false) hpc
    have hoffline : (decide (DispatchPc.offline = .requeue) && f.isFor c).toNat = 0 := rfl
    have hended : (decide (DispatchPc.ended false = .requeue) && f.isFor c).toNat = 0 := rfl
    rw [hoffline, hended] at hocc
    simp only [State.setDispatch, State.markWorkerOffline]
    omega
  | _ => exact .of_eq rfl

/-! ### Frames an `addJob` has just accepted -/

/-- A frame is owned from the progress section of its `addJob` on. -/
theorem Step.owned_cases (hI : s.WF env) (h : Step env s a s') (hc : s'.Owned c) :
    s.Owned c ∨ ∃ render, s.submits.lookup c.renderId = some .addJob ∧
      s.history.lookup c.renderId = some render ∧ c.frameIndex < render.totalFrames ∧
      s' = (s.addJobProgress render).setSubmit c.renderId .enqueue := by
  obtain ⟨render', hrender', hi, hacc⟩ := hc
  -- an accepted render was in the history before, with the same frames
  have hback : s.Accepted c.renderId → s.Owned c := by
    intro hacc₀
    have hin : c.renderId ∈ s.history := hacc₀.elim (hI.submit_known _ _) (hI.submit_known _ _)
    obtain ⟨render, hrender⟩ := Table.exists_lookup_of_mem hin
    obtain ⟨render₁, hrender₁, hsub⟩ := h.history hrender
    obtain rfl := Option.some.inj (hrender₁.symm.trans hrender')
    exact ⟨render, hrender, RenderRequest.totalFrames_congr hsub ▸ hi, hacc₀⟩
  have hother : ∀ {id : RenderId} {pc : SubmitPc}, c.renderId ≠ id →
      (s.submits.insert id pc).lookup c.renderId = some .enqueue ∨
        (s.submits.insert id pc).lookup c.renderId = some .returned → s.Accepted c.renderId := by
    intro id pc hne hacc
    rwa [AList.lookup_insert_ne hne] at hacc
  cases h with
  | @createAccepted id payload timestamp render hnew hpayload =>
    by_cases hr : c.renderId = id
    · subst hr
      have hpc : (s.submits.insert c.renderId .addJob).lookup c.renderId = some SubmitPc.addJob :=
        AList.lookup_insert _
      rcases hacc with hacc | hacc <;> cases hpc.symm.trans hacc
    · exact Or.inl (hback (hother hr hacc))
  | @addJobSkipped id render hpc hrender hframes =>
    by_cases hr : c.renderId = id
    · subst hr
      -- a skipped render has no frames
      obtain rfl := Option.some.inj (hrender.symm.trans hrender')
      unfold RenderRequest.totalFrames at hi
      omega
    · exact Or.inl (hback (hother hr hacc))
  | @addJobProgress id render hpc hrender hframes =>
    by_cases hr : c.renderId = id
    · subst hr
      obtain rfl := Option.some.inj (hrender.symm.trans hrender')
      exact Or.inr ⟨render, hpc, hrender, hi, rfl⟩
    · exact Or.inl (hback (hother hr hacc))
  | @addJobQueue id render hpc hrender =>
    by_cases hr : c.renderId = id
    · -- `addJob` accepted the render in its progress section already
      subst hr
      exact Or.inl (hback (Or.inl hpc))
    · exact Or.inl (hback (hother hr hacc))
  | _ => exact Or.inl (hback hacc)

/-- A frame nobody owns is nowhere. -/
theorem State.WF.nowhere (hI : s.WF env) (hc : ¬ s.Owned c) :
    s.pendingAt c = 0 ∧ s.registeredAt c = 0 ∧
      Table.occ (CompletionThread.holds c) s.completions = 0 ∧
      Table.occ (DispatchThread.holds c) s.dispatchThreads = 0 := by
  have hunknown : ¬ s.Known c := fun hk => hc hk.owned
  refine ⟨List.countP_eq_zero.mpr fun f hf hfor => ?_, Table.occ_eq_zero_iff.mpr fun j ctx hj => ?_,
    Table.occ_eq_zero_iff.mpr fun t th ht => ?_, Table.occ_eq_zero_iff.mpr fun j d hd => ?_⟩
  · rw [FrameJob.isFor_iff] at hfor
    exact hunknown (hfor ▸ hI.pending_known f hf)
  · refine decide_eq_false fun he => hunknown ?_
    obtain ⟨d, hd, hctx⟩ := hI.job_dispatched j ctx hj
    rw [← he, ← hctx]
    exact hI.dispatch_known j d hd
  · exact decide_eq_false fun he => hunknown (hI.completion_known t th c ht he)
  · refine decide_eq_false fun he => hunknown ?_
    unfold DispatchThread.frame at he
    split at he
    · rw [← Option.some.inj he]
      exact hI.dispatch_known j d hd
    · cases he

/-- **A frame just accepted is in one place**, in the hands of its `addJob`. -/
theorem Step.places_new (hI : s.WF env) (h : Step env s a s') (hold : ¬ s.Owned c)
    (hc : s'.Owned c) : s'.places c = 1 := by
  rcases h.owned_cases hI hc with hown | ⟨render, hpc, hrender, hi, rfl⟩
  · exact absurd hown hold
  obtain ⟨hpend, hreg, hcomp, hdisp⟩ := hI.nowhere hold
  have hid := hI.id_eq _ render hrender
  -- an empty slot is not a recorded frame
  have hfresh : recordedIn (s.renderProgress.insert render.id (.fresh render.totalFrames)) c =
      false := by
    rw [hid, Bool.eq_false_iff, Ne.eq_def, recordedIn_of_some (AList.lookup_insert _)]
    rintro ⟨l, hl⟩
    rw [RenderProgress.fresh_frameLinks] at hl
    split at hl <;> cases hl
  unfold State.pendingAt at hpend
  unfold State.registeredAt at hreg
  simp only [State.places_def, State.setSubmit, State.addJobProgress, hpend, hreg, hcomp, hdisp,
    hfresh, enqueuing_self]
  rfl

end Steps

/-! ### Whole runs -/

section Runs

variable {env : Env} {s : State} {tr : List Label} {c : FrameJobContext}

/-- **No frame is lost**, in any run. -/
theorem State.Owned.located {C : System.Condition State Label}
    (hrun : (scheduler env).Run C tr s) (hc : s.Owned c) : 1 ≤ s.places c := by
  refine hrun.invariant (fun _ s => s.Owned c → 1 ≤ s.places c) ?_ ?_ hc
  · rintro ⟨render, hrender, -⟩
    cases hrender
  · intro tr s a s' hrun ih _ hs hc
    have hI := State.WF.of_run hrun
    by_cases hold : s.Owned c
    · exact ((Step.of_step hs).places hI hold).1 (ih hold)
    · exact Nat.le_of_eq ((Step.of_step hs).places_new hI hold hc).symm

/-- Where a known frame can be, in any run. -/
theorem State.Known.located {C : System.Condition State Label}
    (hrun : (scheduler env).Run C tr s) (hk : s.Known c) :
    (∃ f ∈ s.pendingJobs, f.context = c) ∨ (∃ j, s.workerJobToRenderId.lookup j = some c) ∨
      (∃ t th, s.completions.lookup t = some th ∧ th.pc.frame = some c) ∨
      (∃ j d, s.dispatchThreads.lookup j = some d ∧ d.frame = some c) ∨ s.recorded c = true := by
  have hplaces := hk.owned.located hrun
  have henq : enqueuing s.submits c.renderId = false := by
    obtain ⟨render, -, -, hret⟩ := hk
    unfold enqueuing
    rw [hret]
    rfl
  unfold State.places State.heldAt at hplaces
  rw [henq, Bool.toNat_false, Nat.zero_add] at hplaces
  -- one of the summands is positive
  rcases Nat.eq_zero_or_pos (s.pendingAt c) with hp | hp
  · rcases Nat.eq_zero_or_pos (s.registeredAt c) with hr | hr
    · rcases Nat.eq_zero_or_pos (Table.occ (CompletionThread.holds c) s.completions) with hc | hc
      · rcases Nat.eq_zero_or_pos (Table.occ (DispatchThread.holds c) s.dispatchThreads)
          with hd | hd
        · have hone : (s.recorded c).toNat = 1 := Nat.le_antisymm (Bool.toNat_le _) (by omega)
          exact Or.inr (Or.inr (Or.inr (Or.inr (Bool.toNat_eq_one.mp hone))))
        · obtain ⟨j, d, hd, hholds⟩ := Table.occ_pos_iff.mp hd
          exact Or.inr (Or.inr (Or.inr (Or.inl ⟨j, d, hd, of_decide_eq_true hholds⟩)))
      · obtain ⟨t, th, ht, hholds⟩ := Table.occ_pos_iff.mp hc
        exact Or.inr (Or.inr (Or.inl ⟨t, th, ht, of_decide_eq_true hholds⟩))
    · obtain ⟨j, c', hj, hfor⟩ := Table.occ_pos_iff.mp hr
      obtain rfl : c' = c := of_decide_eq_true hfor
      exact Or.inr (Or.inl ⟨j, hj⟩)
  · obtain ⟨f, hf, hfor⟩ := List.countP_pos_iff.mp hp
    exact Or.inl ⟨f, hf, FrameJob.isFor_iff.mp hfor⟩

/-- **No frame is duplicated** in a run where every dispatch thread that undoes
its registration still finds it. -/
theorem State.Owned.unique (hrun : (scheduler env).Run UndoFindsJob tr s) (hc : s.Owned c) :
    s.places c = 1 := by
  refine hrun.invariant (fun _ s => s.Owned c → s.places c = 1) ?_ ?_ hc
  · rintro ⟨render, hrender, -⟩
    cases hrender
  · intro tr s a s' hrun ih hfinds hs hc
    have hI := State.WF.of_run hrun
    by_cases hold : s.Owned c
    · -- not lost by the step, and not duplicated since the undo, if it is one, finds its id
      have hstep := (Step.of_step hs).places hI hold
      have hone := ih hold
      exact Nat.le_antisymm (hone ▸ hstep.2 hfinds) (hstep.1 (Nat.le_of_eq hone.symm))
    · exact (Step.of_step hs).places_new hI hold hc

/-- **Frame conservation.** In any run where failed calls are never completed,
every frame of every accepted render is in exactly one place. -/
theorem frame_conserved (hrun : (scheduler env).Reaches tr s) (hfail : FailedNeverCompleted tr)
    (hc : s.Owned c) : s.places c = 1 :=
  hc.unique (UndoFindsJob.of_failed hrun hfail)

end Runs

/-! ### A run with a failed call -/

/-- A deployment whose presigned links are the keys themselves. -/
def sampleEnv : Env where
  createLink := fun _ key => key
  bucketName := "bucket"

/-- A payload for a render of `frames` frames. -/
def samplePayload (frames : ℤ) : RenderPayload where
  width := .ok 64
  height := .ok 64
  framesPerSecond := .ok 24
  animationRuntime := .ok frames
  samplesPerPixel := .ok 1
  sceneFileUrl := .ok "scene.gltf"
  outputFilename := .ok "out"

/-- A worker connects, a two-frame render is submitted, and the first dispatch
fails: its frame is in the hands of the dispatch thread. -/
def failedDispatch : List Label :=
  [.establishConnection 0 ⟨"10.0.0.1", "w", 50051⟩, .registerWorker 0 "w",
    .createRenderRequest "r" (samplePayload 2) "now", .addJobProgress "r", .addJobQueue "r",
    .assignJob "j", .renderJobReturned "j" false, .undoRegistration "j"]

theorem frame_conserved_failedDispatch :
    ((scheduler sampleEnv).after failedDispatch).places ⟨"r", 0⟩ = 1 := by
  have hrun : (scheduler sampleEnv).Reaches failedDispatch _ := .after (by decide)
  have hfail : FailedNeverCompleted failedDispatch := by
    simp [FailedNeverCompleted, failedDispatch]
  exact frame_conserved hrun hfail ⟨_, rfl, by decide, Or.inr rfl⟩

end Pathological
