import Pathological.Cluster.Completion

/-!
# Failed calls

What a `RenderJob` call leaves behind when it, or the `JobCompleted` call of its
handler, fails.

* The catch branch of a worker sends `JobCompleted` and then fails the call, so
  the dispatch thread can come to undo a registration that is gone, and put back
  a frame that is already recorded: a COMPLETED render goes back to IN_PROGRESS
  (`not_completedFinal`). COMPLETED is final (`completed_stays`) in runs where
  every dispatch thread finds the registration it undoes.
* A registration goes with the failure of the call or with the `JobCompleted`
  message, and with neither it stays, also when the call returned OK
  (`not_noLeak`, `registration_released`).
-/

namespace Pathological

open Framework

variable {env : Env} {s s' : Cluster} {tr tr' : List ClusterLabel} {l : ClusterLabel}

/-! ### COMPLETED is final -/

/-- A render that is COMPLETED in `s` is so in the later state `s'`, and none of
its frames is queued or registered there. -/
def CompletedFinal (s s' : Cluster) : Prop :=
  ∀ r, s.sched.HasStatus r .completed →
    s'.sched.HasStatus r .completed ∧ (∀ f ∈ s'.sched.pendingJobs, f.renderRequest ≠ r) ∧
      ∀ j c, s'.sched.workerJobToRenderId.lookup j = some c → c.renderId ≠ r

/-- **COMPLETED is final** in a run where every dispatch thread finds the
registration it undoes. -/
theorem completed_stays (hrun : (cluster env).Run (onSched UndoFindsJob) tr s)
    (hrun' : (cluster env).Run (onSched UndoFindsJob) (tr ++ tr') s') : CompletedFinal s s' := by
  intro r hst
  have hsched := Cluster.sched_run (D := UndoFindsJob) id hrun
  have hsched' := Cluster.sched_run (D := UndoFindsJob) id hrun'
  rw [schedTrace_append] at hsched'
  exact completed_final hsched hst hsched'

/-- The call that the catch branch reported returns INTERNAL, and the frame of
the COMPLETED render is dispatched again. -/
def dispatchedAgain : List ClusterLabel :=
  [.handler "j" .jobCompletedReturned, .handler "j" .reply, .sched (.renderJobReturned "j" false),
    .sched (.undoRegistration "j"), .sched (.requeueFrame "j"), .sched (.assignJob "j'")]

theorem not_completedFinal :
    (cluster sampleEnv).Reaches completedByCatch ((cluster sampleEnv).after completedByCatch) ∧
      (cluster sampleEnv).Reaches (completedByCatch ++ dispatchedAgain)
        ((cluster sampleEnv).after (completedByCatch ++ dispatchedAgain)) ∧
      ¬ CompletedFinal ((cluster sampleEnv).after completedByCatch)
        ((cluster sampleEnv).after (completedByCatch ++ dispatchedAgain)) := by
  refine ⟨.after (by decide), .after (by decide), fun hfinal => ?_⟩
  -- the dispatch has written IN_PROGRESS over COMPLETED
  obtain ⟨⟨render, hrender, hst⟩, -, -⟩ := hfinal "r" ⟨_, rfl, by decide⟩
  have hprogress : ((cluster sampleEnv).after (completedByCatch ++ dispatchedAgain)).sched.HasStatus
      "r" .inProgress := ⟨_, rfl, by decide⟩
  obtain ⟨render', hrender', hst'⟩ := hprogress
  obtain rfl := Option.some.inj (hrender.symm.trans hrender')
  cases hst.symm.trans hst'

/-- The call of a frame that is rendered and reported returns OK. -/
def accepted : List ClusterLabel :=
  [.handler "j" .jobCompletedReturned, .handler "j" .reply, .sched (.renderJobReturned "j" true)]

theorem completed_stays_accepted :
    ((cluster sampleEnv).after (rendered ++ completing)).sched.HasStatus "r" .completed ∧
      CompletedFinal ((cluster sampleEnv).after (rendered ++ completing))
        ((cluster sampleEnv).after (rendered ++ completing ++ accepted)) := by
  refine ⟨⟨_, rfl, by decide⟩, ?_⟩
  have hrun : (cluster sampleEnv).Run (onSched UndoFindsJob) (rendered ++ completing) _ :=
    .after (by simp [rendered, rendering, completing, onSched, UndoFindsJob]) (by decide)
  have hrun' := hrun.after_append accepted
    (by simp [accepted, onSched, UndoFindsJob]) (by decide)
  exact completed_stays hrun hrun'

/-! ### Registrations -/

/-- Every job whose dispatch thread has ended is out of the job map, and its frame
is pending, registered under another job id, or recorded. -/
def NoLeak (s : State) : Prop :=
  ∀ j d accepted, s.dispatchThreads.lookup j = some d → d.pc = .ended accepted →
    j ∉ s.workerJobToRenderId ∧
      ((∃ f ∈ s.pendingJobs, f.context = d.frameJob.context) ∨
        (∃ j', j' ≠ j ∧ s.workerJobToRenderId.lookup j' = some d.frameJob.context) ∨
        s.recorded d.frameJob.context = true)

/-- The frame is rendered and uploaded, `JobCompleted` fails, and the call
returns OK. -/
def reportLost : List ClusterLabel :=
  rendering 1 ++ [.handler "j" .generateScene, .handler "j" (.putObject true),
    .handler "j" .remove, .handler "j" .updateJobStatus, .handler "j" .jobCompletedLost,
    .handler "j" .reply, .sched (.renderJobReturned "j" true)]

theorem not_noLeak : (cluster sampleEnv).Reaches reportLost ((cluster sampleEnv).after reportLost) ∧
    ¬ NoLeak ((cluster sampleEnv).after reportLost).sched := by
  refine ⟨.after (by decide), fun hleak => ?_⟩
  exact (hleak "j" _ true rfl rfl).1 (AList.lookup_isSome.mp (by decide))

/-- What has become of an ended job: where its call failed or was reported, it is
released and its frame is somewhere else; otherwise it stays registered. -/
structure Released (s : State) (j : JobId) (c : FrameJobContext) (accepted : Bool) : Prop where
  unregistered : accepted = false ∨ s.Reported j → j ∉ s.workerJobToRenderId
  located : accepted = false ∨ s.Reported j → (∃ f ∈ s.pendingJobs, f.context = c) ∨
    (∃ j', j' ≠ j ∧ s.workerJobToRenderId.lookup j' = some c) ∨
    (∃ t th, s.completions.lookup t = some th ∧ th.pc.frame = some c) ∨
    (∃ j' d, s.dispatchThreads.lookup j' = some d ∧ d.frame = some c) ∨ s.recorded c = true
  kept : accepted = true → ¬ s.Reported j → s.workerJobToRenderId.lookup j = some c

/-- A `JobCompleted` handler is for a job that was dispatched, and once it is past
its lookup the job id is not in the map. -/
structure State.Reports (s : State) : Prop where
  dispatched : ∀ t th, s.completions.lookup t = some th → th.jobId ∈ s.dispatchThreads
  unregistered : ∀ j, s.Reported j → j ∉ s.workerJobToRenderId

theorem ClusterStep.reports (hR : s.sched.Reports) (hs : s.CallsOf) (h : ClusterStep env s l s') :
    s'.sched.Reports := by
  cases h with
  | @sched a s₁ sched hsends hstep =>
    have hstays : ∀ {j}, j ∈ s.sched.dispatchThreads → j ∈ sched.dispatchThreads := by
      intro j hj
      obtain ⟨d, hd⟩ := Table.exists_lookup_of_mem hj
      obtain ⟨d', hd', -⟩ := hstep.dispatched hd
      exact Table.mem_of_lookup hd'
    refine ⟨fun t th hth => ?_, ?_⟩
    · rcases hstep.completion_cases hth with ⟨rfl, -⟩ | ⟨th₀, hth₀, hjob, -⟩
      · -- a worker only reports the job of a call it received
        obtain ⟨c, hc⟩ := hsends.reported
        obtain ⟨d, -, hd, -⟩ := hs th.jobId c hc
        exact hstays (Table.mem_of_lookup hd)
      · rw [← hjob]
        exact hstays (hR.dispatched t th₀ hth₀)
    · -- a new registration is under a new id, and nobody has reported that one
      rintro j ⟨t, th, hth, rfl, hpc⟩ hin
      rcases hstep.completion_cases hth with ⟨-, htake⟩ | ⟨th₀, hth₀, hjob, hpast⟩
      · exact hpc htake
      · rcases hpast hpc with hpc₀ | hnot
        · rcases hstep.registered_cases hin with hin₀ | hnew
          · exact hR.unregistered _ ⟨t, th₀, hth₀, hjob, hpc₀⟩ hin₀
          · exact hnew (hjob ▸ hR.dispatched t th₀ hth₀)
        · exact hnot hin
  | _ => exact hR

theorem State.Reports.of_run {C : System.Condition Cluster ClusterLabel}
    (h : (cluster env).Run C tr s) : s.sched.Reports := by
  refine h.invariant (fun _ s => s.sched.Reports) ⟨?_, ?_⟩ fun hrun hR _ hs =>
    ClusterStep.reports hR (.of_run hrun) (.of_step hs)
  · intro t th hth
    cases hth
  · rintro j ⟨t, th, hth, -⟩
    cases hth

/-- **No registration is leaked by a call that failed or was reported**, in any run. -/
theorem registration_released {j : JobId} {d : DispatchThread} {accepted : Bool}
    (hrun : (cluster env).Reaches tr s) (hd : s.sched.dispatchThreads.lookup j = some d)
    (hended : d.pc = .ended accepted) : Released s.sched j d.frameJob.context accepted := by
  have hsched := Cluster.sched_reaches hrun
  have hI := State.WF.of_run hsched
  have hJ := State.JobIds.of_run hsched
  have hgone : accepted = false ∨ s.sched.Reported j → j ∉ s.sched.workerJobToRenderId := by
    rintro (rfl | hrep)
    · exact hJ.unregistered j d hd (by rw [hended]; rfl)
    · exact (State.Reports.of_run hrun).unregistered j hrep
  refine ⟨hgone, fun hout => ?_, ?_⟩
  · -- no frame is lost, so the frame is somewhere, and not under this id
    refine ((hI.dispatch_known j d hd).located hsched).imp_right (Or.imp_left ?_)
    rintro ⟨j', hj'⟩
    refine ⟨j', ?_, hj'⟩
    rintro rfl
    exact hgone hout (Table.mem_of_lookup hj')
  · -- nobody else erases the id of a call that returned OK
    rintro rfl hunreported
    have hin := (hJ.registered j d hd (by rw [hended]; rfl)).resolve_right hunreported
    obtain ⟨c, hc⟩ := Table.exists_lookup_of_mem hin
    obtain ⟨d', hd', hctx⟩ := hI.job_dispatched j c hc
    obtain rfl := Option.some.inj (hd'.symm.trans hd)
    rw [hc, hctx]

/-- The call fails before its request arrives. -/
def neverDelivered : List ClusterLabel :=
  (rendering 1).dropLast ++ [.sched (.renderJobReturned "j" false), .sched (.undoRegistration "j"),
    .sched (.requeueFrame "j"), .sched (.markDispatchOffline "j")]

theorem registration_released_neverDelivered :
    Released ((cluster sampleEnv).after neverDelivered).sched "j" ⟨"r", 0⟩ false := by
  have hrun : (cluster sampleEnv).Reaches neverDelivered _ := .after (by decide)
  have hd : ((cluster sampleEnv).after neverDelivered).sched.dispatchThreads.lookup "j" =
      some ⟨"w", "10.0.0.1:50051", ⟨"r", 0, ⟨0, 24⟩⟩, .ended false⟩ := by decide
  exact registration_released hrun hd rfl

end Pathological
