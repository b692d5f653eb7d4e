import Pathological.Framework.Potential
import Pathological.Framework.Queue
import Pathological.Scheduler.Conservation
import Pathological.Scheduler.JobIds
import Pathological.Scheduler.Wakeup

/-!
# The order of the queue

`pending_jobs_` is pushed to by `addJob`, which queues the frames of a render in order, and
by the dispatch threads whose call has failed; it is popped by `assignJobs`, an iteration at
a time. Neither says more than which end it works on. Over any run, from any state, the
frames are dispatched in the order in which they were pushed (`first_in_first_out`): a frame
with `k` others ahead of it goes out with the iteration number `k`, whichever frames are
queued or come back meanwhile.

What a run has pushed and dispatched is read off its labels. The render of an `addJob` and
the frame of a dispatch thread stay what they are (`Step.pushedBy`, `Step.assignedBy`), so
the last state knows all of them.
-/

namespace Pathological

open Framework

/-! ### What a run has pushed and dispatched -/

namespace State

/-- The frame of a dispatch thread. -/
def frameJobOf (s : State) (job : JobId) : List FrameJob :=
  (s.dispatchThreads.lookup job).elim [] fun d => [d.frameJob]

/-- The frames that the step pushes. -/
def pushedBy (s : State) : Label → List FrameJob
  | .addJobQueue id => (s.history.lookup id).elim [] frameJobs
  | .requeueFrame job => s.frameJobOf job
  | _ => []

/-- The frame that the step dispatches. -/
def assignedBy (s : State) : Label → List FrameJob
  | .assignJob job => s.frameJobOf job
  | _ => []

def pushed (s : State) (tr : List Label) : List FrameJob := tr.flatMap s.pushedBy

def assigned (s : State) (tr : List Label) : List FrameJob := tr.flatMap s.assignedBy

/-- The render that the label queues, and the thread that it names, exist. -/
def Recalls (s : State) : Label → Prop
  | .addJobQueue id => id ∈ s.history
  | .requeueFrame job => job ∈ s.dispatchThreads
  | .assignJob job => job ∈ s.dispatchThreads
  | _ => True

end State

variable {env : Env} {s s' s₀ : State} {a l : Label} {tr : List Label}

/-! ### What stays -/

theorem frameJobs_congr {render render' : RenderRequest}
    (h : render'.submitted = render.submitted) :
    State.frameJobs render' = State.frameJobs render := by
  have hsub : State.frameJobs render'.submitted = State.frameJobs render.submitted := by rw [h]
  exact hsub

theorem State.frameJobOf_of_lookup {job : JobId} {d : DispatchThread}
    (h : s.dispatchThreads.lookup job = some d) : s.frameJobOf job = [d.frameJob] := by
  unfold State.frameJobOf
  rw [h]
  rfl

/-- The frame of a dispatch thread stays. -/
theorem Step.frameJobOf (h : Step env s a s') {job : JobId} (hjob : job ∈ s.dispatchThreads) :
    s'.frameJobOf job = s.frameJobOf job := by
  obtain ⟨d, hd⟩ := Table.exists_lookup_of_mem hjob
  obtain ⟨d', hd', -, hframe⟩ := h.dispatched hd
  rw [State.frameJobOf_of_lookup hd, State.frameJobOf_of_lookup hd', hframe]

/-- A later state knows what an earlier one knew of a step. -/
theorem Step.pushedBy (h : Step env s a s') (hl : s.Recalls l) :
    s'.pushedBy l = s.pushedBy l := by
  cases l with
  | addJobQueue id =>
    obtain ⟨render, hrender⟩ := Table.exists_lookup_of_mem hl
    obtain ⟨render', hrender', hsub⟩ := h.history hrender
    show (s'.history.lookup id).elim [] _ = (s.history.lookup id).elim [] _
    rw [hrender, hrender']
    exact frameJobs_congr hsub
  | requeueFrame job => exact h.frameJobOf hl
  | _ => rfl

theorem Step.assignedBy (h : Step env s a s') (hl : s.Recalls l) :
    s'.assignedBy l = s.assignedBy l := by
  cases l with
  | assignJob job => exact h.frameJobOf hl
  | _ => rfl

theorem Step.recalls (h : Step env s a s') (hl : s.Recalls l) : s'.Recalls l := by
  have hthread {job : JobId} (hjob : job ∈ s.dispatchThreads) : job ∈ s'.dispatchThreads := by
    obtain ⟨d, hd⟩ := Table.exists_lookup_of_mem hjob
    obtain ⟨d', hd', -⟩ := h.dispatched hd
    exact Table.mem_of_lookup hd'
  cases l with
  | addJobQueue id =>
    obtain ⟨render, hrender⟩ := Table.exists_lookup_of_mem hl
    obtain ⟨render', hrender', -⟩ := h.history hrender
    exact Table.mem_of_lookup hrender'
  | requeueFrame job => exact hthread hl
  | assignJob job => exact hthread hl
  | _ => trivial

/-! ### What a step does to the queue -/

/-- A step takes the frame that it dispatches off the front of the queue, and pushes what it
pushes to its back. -/
theorem Step.queue (h : Step env s a s') : s'.Recalls a ∧
    (s'.assignedBy a).length = a.assigns.toNat ∧
    Served s.pendingJobs (s'.pushedBy a) (s'.assignedBy a) s'.pendingJobs := by
  cases h with
  | @addJobQueue id render hpc hrender =>
    refine ⟨Table.mem_of_lookup hrender, rfl, ?_⟩
    show s.pendingJobs ++ (s.history.lookup id).elim [] State.frameJobs = _
    rw [hrender]
    rfl
  | @requeueFrame job w addr f hpc =>
    have hd : (s.dispatchThreads.insert job ⟨w, addr, f, .offline⟩).lookup job =
        some ⟨w, addr, f, .offline⟩ := AList.lookup_insert _
    refine ⟨Table.mem_of_lookup hd, rfl, ?_⟩
    show s.pendingJobs ++ ((s.dispatchThreads.insert job _).lookup job).elim [] _ = _
    rw [hd]
    rfl
  | @assignJob job f rest w hnew hqueue hidle =>
    have hd : (s.dispatchThreads.insert job ⟨w.id, State.workerAddress w, f, .calling⟩).lookup job =
        some ⟨w.id, State.workerAddress w, f, .calling⟩ := AList.lookup_insert _
    refine ⟨Table.mem_of_lookup hd, ?_, ?_⟩
    · show (((s.dispatchThreads.insert job _).lookup job).elim [] _).length = 1
      rw [hd]
      rfl
    · show s.pendingJobs ++ [] = ((s.dispatchThreads.insert job _).lookup job).elim [] _ ++ rest
      rw [hd, List.append_nil, hqueue]
      rfl
  | _ => exact ⟨trivial, rfl, .nil _⟩

/-! ### The order over a run -/

/-- Between two states of a run the queue is served: the labels are recalled, a frame is
dispatched for each iteration of `assignJobs`, and the queue is worked on at its two ends. -/
structure ServedOver (s : State) (tr : List Label) (s' : State) : Prop where
  recalls : ∀ l ∈ tr, s'.Recalls l
  count : (s'.assigned tr).length = tr.countP Label.assigns
  order : Served s.pendingJobs (s'.pushed tr) (s'.assigned tr) s'.pendingJobs

theorem ServedOver.nil (s : State) : ServedOver s [] s where
  recalls _ hl := absurd hl List.not_mem_nil
  count := rfl
  order := .nil _

theorem ServedOver.step (hS : ServedOver s₀ tr s) (h : Step env s a s') :
    ServedOver s₀ (tr ++ [a]) s' := by
  obtain ⟨hrecall, hone, hqueue⟩ := h.queue
  -- what the run has pushed and dispatched up to here
  have hpushed : s'.pushed (tr ++ [a]) = s.pushed tr ++ s'.pushedBy a := by
    rw [State.pushed, List.flatMap_append, List.flatMap_singleton,
      List.flatMap_congr fun l hl => h.pushedBy (hS.recalls l hl)]
    rfl
  have hassigned : s'.assigned (tr ++ [a]) = s.assigned tr ++ s'.assignedBy a := by
    rw [State.assigned, List.flatMap_append, List.flatMap_singleton,
      List.flatMap_congr fun l hl => h.assignedBy (hS.recalls l hl)]
    rfl
  refine ⟨fun l hl => ?_, ?_, ?_⟩
  · rcases List.mem_append.mp hl with hl | hl
    · exact h.recalls (hS.recalls l hl)
    · exact List.mem_singleton.mp hl ▸ hrecall
  · rw [hassigned, List.length_append, hS.count, hone, List.countP_append, List.countP_singleton]
    cases a.assigns with
    | true => rfl
    | false => rfl
  · rw [hpushed, hassigned]
    exact hS.order.trans hqueue

/-- First in, first out: what is pushed to the queue leaves it in order, and a frame that has
`k` ahead of it goes out with iteration `k` of `assignJobs`, moving up by one with each. -/
structure FirstInFirstOut (s : State) (tr : List Label) (s' : State) : Prop where
  order : s.pendingJobs ++ s'.pushed tr = s'.assigned tr ++ s'.pendingJobs
  turn : ∀ k f, s.pendingJobs[k]? = some f → k < tr.countP Label.assigns →
    (s'.assigned tr)[k]? = some f
  rank : ∀ k f, s.pendingJobs[k]? = some f → tr.countP Label.assigns ≤ k →
    s'.pendingJobs[k - tr.countP Label.assigns]? = some f

/-- **Frames are dispatched in the order in which they are queued**, over any run, from any
state. -/
theorem first_in_first_out (hrun : ((scheduler env).startAt s).Reaches tr s') :
    FirstInFirstOut s tr s' := by
  have hS : ServedOver s tr s' := by
    refine hrun.invariant (ServedOver s) (.nil s) ?_
    intro tr s₁ a s₂ _ ih _ hs
    have hstep : Step env s₁ a s₂ := .of_step hs
    exact ih.step hstep
  refine ⟨hS.order, fun k f hf hk => ?_, fun k f hf hk => ?_⟩
  · exact hS.order.taken_eq hf (hS.count ▸ hk)
  · rw [← hS.count] at hk ⊢
    exact hS.order.rest_eq hf hk

/-- The call for the first of two frames fails, and the second goes out first. -/
def secondFirst : List Label :=
  [.establishConnection 0 ⟨"10.0.0.1", "w", 50051⟩, .registerWorker 0 "w",
    .createRenderRequest "r" (samplePayload 2) "now", .addJobProgress "r", .addJobQueue "r",
    .assignJob "j", .renderJobReturned "j" false, .undoRegistration "j", .requeueFrame "j",
    .markDispatchOffline "j", .establishConnection 1 ⟨"10.0.0.1", "w", 50051⟩,
    .reconnectWorker 1 "w", .assignJob "k"]

theorem first_in_first_out_secondFirst :
    FirstInFirstOut State.initial secondFirst ((scheduler sampleEnv).after secondFirst) ∧
      (((scheduler sampleEnv).after secondFirst).assigned secondFirst).map FrameJob.frameIndex =
        [0, 1] ∧
      ((scheduler sampleEnv).after secondFirst).pendingJobs.map FrameJob.frameIndex = [0] := by
  have hrun : ((scheduler sampleEnv).startAt State.initial).Reaches secondFirst
      ((scheduler sampleEnv).after secondFirst) := .after (by decide)
  exact ⟨first_in_first_out hrun, by decide, by decide⟩

end Pathological
