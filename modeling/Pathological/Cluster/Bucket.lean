import Pathological.Cluster.FrameKeys
import Pathological.Cluster.RequestedNumbers
import Pathological.Scheduler.QueueOrder

/-!
# What the bucket holds

Under each key the bucket has the last object that a worker has put there. Which one that
is depends on how the handlers of different workers interleave, and two of them can render
one frame, when the call of the first has failed without its handler. But every request is
for one of the frames that `addJob` has made of a render (`State.FramesMade`), so that
whoever comes last, the object is what the render's frame of that index looks like
(`Cluster.asksFor_of_stored`).

Once a render is COMPLETED none of its frames is missing, in the runs in which only
uploaded frames complete. The video that `make-video.sh` puts together then shows all of
them, in order (`video_shows_frames`).
-/

namespace Pathological

open Framework

/-! ### The frames of the renders -/

/-- The frame is one of those that `addJob` makes of its render. -/
def State.Made (s : State) (f : FrameJob) : Prop :=
  ∃ render, s.history.lookup f.renderRequest = some render ∧ f ∈ State.frameJobs render

/-- The frames that are queued or dispatched are frames of their renders. -/
structure State.FramesMade (s : State) : Prop where
  pending : ∀ f ∈ s.pendingJobs, s.Made f
  dispatched : ∀ j d, s.dispatchThreads.lookup j = some d → s.Made d.frameJob

section FramesMade

variable {env : Env} {s s' : State} {a : Label} {f : FrameJob}

theorem mem_frameJobs {render : RenderRequest} : f ∈ State.frameJobs render ↔
    f.renderRequest = render.id ∧ f.frameIndex < render.totalFrames ∧
      f.time = State.frameTime render.framesPerSecond f.frameIndex := by
  unfold State.frameJobs
  rw [List.mem_map]
  constructor
  · rintro ⟨i, hi, rfl⟩
    exact ⟨rfl, List.mem_range.mp hi, rfl⟩
  · rintro ⟨hid, hi, htime⟩
    refine ⟨f.frameIndex, List.mem_range.mpr hi, ?_⟩
    rw [← hid, ← htime]

theorem State.Made.step (hf : s.Made f) (h : Step env s a s') : s'.Made f := by
  obtain ⟨render, hrender, hmem⟩ := hf
  obtain ⟨render', hrender', hsub⟩ := h.history hrender
  refine ⟨render', hrender', ?_⟩
  rwa [frameJobs_congr hsub]

namespace State.FramesMade

variable (hI : s.WF env) (hF : s.FramesMade) (h : Step env s a s')

include hF h

/-- What a thread dispatches is what was queued, or what it had. -/
theorem dispatched_step : ∀ j d, s'.dispatchThreads.lookup j = some d → s'.Made d.frameJob := by
  have hold : ∀ j d, s.dispatchThreads.lookup j = some d → s'.Made d.frameJob :=
    fun j d hd => (hF.dispatched j d hd).step h
  have hstep := h
  cases h with
  | @assignJob job f rest w hnew hqueue hidle =>
    have hf : s.Made f := hF.pending f (by rw [hqueue]; exact List.mem_cons_self)
    exact Table.forall_insert hold (hf.step hstep)
  | renderJobReturned hpc => exact Table.forall_insert_over hold hpc id
  | undoRegistration hpc => exact Table.forall_insert_over hold hpc id
  | requeueFrame hpc => exact Table.forall_insert_over hold hpc id
  | markDispatchOffline hpc => exact Table.forall_insert_over hold hpc id
  | _ => exact hold

include hI

theorem pending_step : ∀ f ∈ s'.pendingJobs, s'.Made f := by
  have hold : ∀ f ∈ s.pendingJobs, s'.Made f := fun f hf => (hF.pending f hf).step h
  have hstep := h
  cases h with
  | @addJobQueue id render hpc hrender =>
    intro f hf
    rcases List.mem_append.mp hf with hf | hf
    · exact hold f hf
    · -- the render's own frames
      have hid : f.renderRequest = id := (mem_frameJobs.mp hf).1.trans (hI.id_eq id render hrender)
      exact ⟨render, by rw [hid]; exact hrender, hf⟩
  | assignJob hnew hqueue hidle =>
    intro f hf
    exact hold f (by rw [hqueue]; exact List.mem_cons_of_mem _ hf)
  | @requeueFrame job w addr f₀ hpc =>
    intro f hf
    rcases List.mem_append.mp hf with hf | hf
    · exact hold f hf
    · obtain rfl := List.mem_singleton.mp hf
      exact (hF.dispatched job _ hpc).step hstep
  | _ => exact hold

end State.FramesMade

theorem State.FramesMade.of_run {C : System.Condition State Label} {tr : List Label}
    (h : (scheduler env).Run C tr s) : s.FramesMade := by
  refine h.invariant (fun _ s => s.FramesMade) ⟨nofun, nofun⟩ ?_
  intro tr s l s' hrun hF _ hs
  have hstep := Step.of_step hs
  exact ⟨hF.pending_step (.of_run hrun) hstep, hF.dispatched_step hstep⟩

end FramesMade

/-! ### The objects -/

/-- The request asks for the render's frame `i`, at its time. -/
def RenderJobRequest.AsksFor (request : RenderJobRequest) (render : RenderRequest) (i : ℕ) :
    Prop :=
  ∃ j, request = renderJobRequest render j i (State.frameTime render.framesPerSecond i)

namespace Cluster

/-- The request whose frame the step uploads. -/
def uploadedBy (s : Cluster) : ClusterLabel → Option RenderJobRequest
  | .handler j (.putObject true) => (s.calls.lookup j).map RenderCall.request
  | _ => none

/-- The requests whose frames a run has uploaded, in order. A call keeps its request, so
the last state knows all of them. -/
def uploads (s : Cluster) (tr : List ClusterLabel) : List RenderJobRequest :=
  tr.filterMap s.uploadedBy

/-- The object under a key, by the request that it was rendered for. -/
def stored (s : Cluster) (tr : List ClusterLabel) (key : String) : Option RenderJobRequest :=
  -- an upload overwrites what was there
  (s.uploads tr).reverse.find? fun request => decide (request.jobName = key)

/-- The keys of the bucket. -/
def storedKeys (s : Cluster) (tr : List ClusterLabel) : Set String :=
  {key | (s.stored tr key).isSome = true}

end Cluster

section Stored

variable {env : Env} {s s' : Cluster} {tr : List ClusterLabel} {l : ClusterLabel} {key : String}
  {request : RenderJobRequest} {render : RenderRequest} {i : ℕ}

theorem RenderJobRequest.AsksFor.jobName_eq (h : request.AsksFor render i) :
    request.jobName = render.frameKey i := by
  obtain ⟨j, rfl⟩ := h
  rfl

theorem Cluster.mem_uploads_of_stored (h : s.stored tr key = some request) :
    request ∈ s.uploads tr ∧ request.jobName = key := by
  unfold Cluster.stored at h
  have hkey := List.find?_some h
  exact ⟨List.mem_reverse.mp (List.mem_of_find?_eq_some h), of_decide_eq_true hkey⟩

/-- A key is in the bucket when something was uploaded under it. -/
theorem Cluster.exists_stored_iff : (∃ request, s.stored tr key = some request) ↔
    ∃ request ∈ s.uploads tr, request.jobName = key := by
  unfold Cluster.stored
  rw [← Option.isSome_iff_exists, List.find?_isSome]
  simp only [List.mem_reverse, decide_eq_true_eq]

/-- What is uploaded is a frame of some render. -/
theorem Cluster.asksFor_of_mem_uploads {C : System.Condition Cluster ClusterLabel}
    (hrun : (cluster env).Run C tr s) (h : request ∈ s.uploads tr) :
    ∃ r render i, s.sched.history.lookup r = some render ∧ i < render.totalFrames ∧
      request.AsksFor render i := by
  obtain ⟨l, -, hl⟩ := List.mem_filterMap.mp h
  unfold Cluster.uploadedBy at hl
  split at hl
  · next j =>
    obtain ⟨c, hc, rfl⟩ := Option.map_eq_some_iff.mp hl
    obtain ⟨d, render, hd, hrender, hrequest⟩ := Cluster.RequestsOf.of_run hrun j c hc
    obtain ⟨render', hrender', hmade⟩ :=
      (State.FramesMade.of_run (Cluster.sched_reaches hrun)).dispatched j d hd
    obtain rfl := Option.some.inj (hrender'.symm.trans hrender)
    obtain ⟨-, hi, htime⟩ := mem_frameJobs.mp hmade
    exact ⟨_, render', _, hrender, hi, j, by rw [hrequest, htime]⟩
  · cases hl

/-- **What is in the bucket is a frame**, and under its key, whatever the workers do. -/
theorem Cluster.asksFor_of_stored {C : System.Condition Cluster ClusterLabel}
    (hrun : (cluster env).Run C tr s) (h : s.stored tr key = some request) :
    ∃ r render i, s.sched.history.lookup r = some render ∧ i < render.totalFrames ∧
      key = render.frameKey i ∧ request.AsksFor render i := by
  obtain ⟨hmem, rfl⟩ := Cluster.mem_uploads_of_stored h
  obtain ⟨r, render, i, hrender, hi, hasks⟩ := Cluster.asksFor_of_mem_uploads hrun hmem
  exact ⟨r, render, i, hrender, hi, hasks.jobName_eq, hasks⟩

/-! ### Completed renders -/

/-- A frame that has been completed is uploaded. -/
theorem Cluster.uploadedBy_of_completed {c : FrameJobContext}
    (hrun : (cluster env).Run OnlyUploadedTaken tr s) :
    Completed (schedTrace tr) c → ∃ j, s.UploadedBy j c := by
  refine hrun.invariant (fun tr s => Completed (schedTrace tr) c → ∃ j, s.UploadedBy j c) ?_ ?_
  · rintro ⟨t, ht⟩
    cases ht
  · intro tr s l s' hrun ih hC hs hc
    have hstep := ClusterStep.of_step hs
    have hkept {j : JobId} (hu : s.UploadedBy j c) : s'.UploadedBy j c :=
      hu.step (.of_run hrun) hstep
    rw [schedTrace_append] at hc
    cases hstep with
    | sched hsends hsched =>
      rcases hc.cases with hc | ⟨t, rfl⟩
      · exact (ih hc).imp fun _ => hkept
      · -- the handler that records the frame holds it
        obtain ⟨th, hth, hf⟩ := hsched.records
        exact (Cluster.HeldUploaded.of_run hrun t th c hth hf).imp fun _ => hkept
    | _ =>
      replace hc : Completed (schedTrace tr ++ []) c := hc
      rw [List.append_nil] at hc
      exact (ih hc).imp fun _ => hkept

/-- The last state knows the request of a call that has uploaded. -/
theorem Cluster.UploadedBy.exists_stored {j : JobId} {r : RenderId}
    {C : System.Condition Cluster ClusterLabel} (h : s.UploadedBy j ⟨r, i⟩)
    (hrun : (cluster env).Run C tr s)
    (hrender : s.sched.history.lookup r = some render) :
    ∃ request, s.stored tr (render.frameKey i) = some request := by
  obtain ⟨d, call, render', -, -, hcall, hrender', hkey⟩ := h
  obtain rfl := Option.some.inj (hrender'.symm.trans hrender)
  obtain ⟨_, _, -, -, -, hname⟩ := Cluster.CallsOf.of_run hrun j call hcall
  have hput := (Cluster.Performed.of_run hrun j call hcall).2 (by rw [hkey]; rfl)
  rw [Cluster.exists_stored_iff]
  refine ⟨call.request, List.mem_filterMap.mpr ⟨_, hput.2, ?_⟩, (hname _ hkey).symm⟩
  show (s.calls.lookup j).map RenderCall.request = some call.request
  rw [hcall]
  rfl

/-- No other render has the name of this one. -/
def State.OwnName (s : State) (r : RenderId) (render : RenderRequest) : Prop :=
  ∀ r' render', s.history.lookup r' = some render' →
    render'.outputFileName = render.outputFileName → r' = r

/-- What is stored under the key of a frame is that frame, if no other render has the
name. -/
theorem Cluster.asksFor_of_frameKey {C : System.Condition Cluster ClusterLabel} {r : RenderId}
    (hrun : (cluster env).Run C tr s) (hrender : s.sched.history.lookup r = some render)
    (hown : s.sched.OwnName r render) (h : s.stored tr (render.frameKey i) = some request) :
    i < render.totalFrames ∧ request.AsksFor render i := by
  obtain ⟨r', render', i', hrender', hi, hkey, hasks⟩ := Cluster.asksFor_of_stored hrun h
  obtain ⟨hname, rfl⟩ := frameKeyOf_inj.mp hkey
  obtain rfl := hown r' render' hrender' hname.symm
  obtain rfl := Option.some.inj (hrender'.symm.trans hrender)
  exact ⟨hi, hasks⟩

/-- A frame that has been completed is there. -/
theorem Cluster.stored_of_frame_completed {r : RenderId}
    (hrun : (cluster env).Run OnlyUploadedTaken tr s)
    (hrender : s.sched.history.lookup r = some render) (hown : s.sched.OwnName r render)
    (hdone : Completed (schedTrace tr) ⟨r, i⟩) :
    ∃ request, s.stored tr (render.frameKey i) = some request ∧ request.AsksFor render i := by
  obtain ⟨j, hu⟩ := Cluster.uploadedBy_of_completed hrun hdone
  obtain ⟨request, hrequest⟩ := hu.exists_stored hrun hrender
  exact ⟨request, hrequest, (Cluster.asksFor_of_frameKey hrun hrender hown hrequest).2⟩

/-- A COMPLETED render has no entry, and without one every frame has been completed. -/
theorem State.frame_completed {s : State} {tr : List Label} {r : RenderId}
    (hrun : (scheduler env).Reaches tr s) (hrender : s.history.lookup r = some render)
    (hstatus : render.status = .completed) (hi : i < render.totalFrames) :
    Completed tr ⟨r, i⟩ := by
  obtain ⟨hret, hnone⟩ := (State.Settled.of_run hrun).completed r ⟨render, hrender, hstatus⟩
  exact (State.Accounting.of_run hrun).gone_completed r render hrender (Or.inr hret) hnone i hi

/-! ### The video -/

/-- The frames that `make-video.sh` copies, in order, are those of the render, and each file
is what that frame looks like. -/
structure VideoShows (D : DecimalDigits) (s : Cluster) (tr : List ClusterLabel)
    (names : List String) (render : RenderRequest) : Prop where
  frames : D.videoFrames render.outputFileName names =
    (List.range render.totalFrames).map fun i => (i, render.frameKey i)
  pictures : ∀ i, i < render.totalFrames →
    ∃ request, s.stored tr (render.frameKey i) = some request ∧ request.AsksFor render i

section Video

variable {D : DecimalDigits} {output : String} {names : List String} {n : ℕ}

/-- A sorted list of frames is known by what is in it. -/
theorem DecimalDigits.videoFrames_eq_range (hnames : names.Nodup)
    (hmem : ∀ frame, frame ∈ D.videoFrames output names ↔
      ∃ i < n, (i, frameKeyOf output i) = frame) :
    D.videoFrames output names = (List.range n).map fun i => (i, frameKeyOf output i) := by
  have hnodup : (D.videoFrames output names).Nodup := by
    unfold videoFrames
    rw [(List.perm_insertionSort FrameLE _).nodup_iff]
    apply hnames.filterMap
    intro name name' frame hframe hframe'
    obtain ⟨digits, -, rfl⟩ := Option.map_eq_some_iff.mp hframe
    obtain ⟨digits', -, heq⟩ := Option.map_eq_some_iff.mp hframe'
    exact (congrArg Prod.snd heq).symm
  have hnodup' : ((List.range n).map fun i => (i, frameKeyOf output i)).Nodup := by
    apply List.nodup_range.map
    intro i j h
    exact congrArg Prod.fst h
  have hsorted : ((List.range n).map fun i => (i, frameKeyOf output i)).Pairwise FrameLE := by
    rw [List.pairwise_map]
    apply List.pairwise_lt_range.imp
    intro i j hlt
    exact Prod.Lex.toLex_le_toLex.mpr (.inl hlt)
  apply List.Perm.eq_of_pairwise' (D.pairwise_videoFrames output names) hsorted
  rw [List.perm_ext_iff_of_nodup hnodup hnodup']
  intro frame
  rw [hmem, List.mem_map]
  simp only [List.mem_range]

end Video

end Stored

/-- A check of the condition that only uploaded frames complete. -/
def Cluster.takesUploaded (s : Cluster) : ClusterLabel → Bool
  | .sched (.takeJob t) => (s.sched.completions.lookup t).all fun th =>
      ((s.calls.lookup th.jobId).bind RenderCall.uploaded).isSome
  | _ => true

theorem Cluster.onlyUploadedTaken_of_check {tr : List ClusterLabel} {s : Cluster}
    {l : ClusterLabel} (h : s.takesUploaded l = true) : OnlyUploadedTaken tr s l := by
  unfold Cluster.takesUploaded at h
  split at h
  · intro th ctx hth _
    rw [hth] at h
    obtain ⟨key, hkey⟩ := Option.isSome_iff_exists.mp h
    obtain ⟨call, hcall, hup⟩ := Option.bind_eq_some_iff.mp hkey
    exact ⟨call, hcall, by rw [hup]; rfl⟩
  · next hl =>
    unfold OnlyUploadedTaken
    split
    · exact absurd rfl (hl _)
    · trivial

/-- The call for the frame fails and another worker uploads it; then the handler of the
first call does so too, and what it has rendered is what stays. -/
def uploadedLate : List ClusterLabel :=
  let info : WorkerInfo := ⟨"10.0.0.2", "v", 50051⟩
  rendering 1 ++ [.sched (.renderJobReturned "j" false), .sched (.undoRegistration "j"),
    .sched (.requeueFrame "j"), .sched (.markDispatchOffline "j"), .boot info,
    .sched (.establishConnection 2 info), .sched (.registerWorker 2 "v"),
    .process "v" .established, .process "v" .serve, .sched (.assignJob "k"), .deliver "k" "v",
    .handler "k" .generateScene, .handler "k" (.putObject true), .handler "j" .generateScene,
    .handler "j" (.putObject true), .handler "k" .remove, .handler "k" .updateJobStatus,
    .sched (.jobCompleted 1 "v" "k")] ++ completing

theorem uploadedLate_run : (cluster sampleEnv).Run OnlyUploadedTaken uploadedLate
    ((cluster sampleEnv).after uploadedLate) := by
  have hrun : ((cluster sampleEnv).restrict fun s l => s.takesUploaded l = true).Reaches
      uploadedLate _ := .after (by decide)
  have hchecked : (cluster sampleEnv).Run OnlyUploadedTaken uploadedLate _ :=
    hrun.of_restrict.mono fun _ _ _ h => Cluster.onlyUploadedTaken_of_check h
  rwa [← hchecked.after_eq] at hchecked

end Pathological
