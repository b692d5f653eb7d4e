import Pathological.Scheduler.Accounting

/-!
# Finished renders

A render is finalized (`State.Finalized`) when its `addJob` has returned and its
progress entry is gone, which never changes back.

* In any run, a render whose status is COMPLETED, or whose completion a handler
  is about to publish, is finalized (`State.Settled`).
* Where every dispatch thread finds the registration it undoes, no frame of a
  finalized render is in the queue or in the job map
  (`State.Finalized.nothing_left`), so nobody writes its status any more: a
  finalized render with frames is COMPLETED, or about to be
  (`State.Finalized.terminal`), and COMPLETED is final (`completed_final`).
-/

namespace Pathological

open Framework

/-- The render's `addJob` has returned and its progress entry is gone. -/
def State.Finalized (s : State) (r : RenderId) : Prop :=
  s.submits.lookup r = some .returned ∧ s.renderProgress.lookup r = none

/-- A handler is about to write COMPLETED to the render. -/
def State.Finalizing (s : State) (r : RenderId) : Prop :=
  ∃ t c todo, s.completions.lookup t = some c ∧ c.pc = .publish todo ∧
    (r, .status .completed) ∈ todo

/-- The render has the status. -/
def State.HasStatus (s : State) (r : RenderId) (st : RenderStatus) : Prop :=
  ∃ render, s.history.lookup r = some render ∧ render.status = st

variable {env : Env} {s s' : State} {a : Label} {tr : List Label} {r : RenderId}

/-- A finalized render stays finalized. -/
theorem State.Finalized.step (hf : s.Finalized r) (hI : s.WF env) (h : Step env s a s') :
    s'.Finalized r := by
  obtain ⟨hret, hnone⟩ := hf
  refine ⟨h.returned (hI.submit_known r _ hret) hret, ?_⟩
  cases h with
  | @addJobProgress id render hpc hrender hframes =>
    -- only the render's own `addJob` creates its entry
    have hid := hI.id_eq id render hrender
    subst hid
    have hne : r ≠ render.id := by
      rintro rfl
      cases hpc.symm.trans hret
    exact (AList.lookup_insert_ne hne).trans hnone
  | @recordProgress t w j ctx link p hpc hentry hdone =>
    -- an entry written back was there
    have hne : r ≠ ctx.renderId := by
      rintro rfl
      cases hentry.symm.trans hnone
    exact (AList.lookup_insert_ne hne).trans hnone
  | @recordLast t w j ctx link p hpc hentry hdone =>
    rw [show (s.renderProgress.erase ctx.renderId).lookup r = _ from Table.lookup_erase' _ _ _]
    split
    · rfl
    · exact hnone
  | _ => exact hnone

/-- Who is about to write COMPLETED was so before, or has just recorded the last
missing frame. -/
theorem State.Finalizing.cases (h : Step env s a s') (hf : s'.Finalizing r) :
    s.Finalizing r ∨ ∃ t w j ctx link p, ctx.renderId = r ∧
      s.completions.lookup t = some ⟨w, j, .record ctx link⟩ ∧
      s.renderProgress.lookup r = some p ∧ (p.record ctx.frameIndex link).done = true ∧
      s'.renderProgress.lookup r = none ∧ s'.completions.lookup t =
        some ⟨w, j, .publish ((p.record ctx.frameIndex link).setters.map fun x => (r, x))⟩ := by
  obtain ⟨t, c, todo, hc, hpc, hmem⟩ := hf
  cases h.todo hc hpc with
  | kept _ hc₀ hpc₀ => exact Or.inl ⟨t, _, todo, hc₀, hpc₀, hmem⟩
  | nothing => cases hmem
  | @recorded w j ctx link p _ hpc₀ hentry hentry' hnew =>
    obtain ⟨x, hx, hpair⟩ := List.mem_map.mp hmem
    obtain ⟨rfl, rfl⟩ := Prod.mk.inj hpair
    cases hdone : (p.record ctx.frameIndex link).done with
    | false =>
      -- with frames missing, COMPLETED is not among the calls
      unfold RenderProgress.setters at hx
      rw [hdone] at hx
      cases List.mem_singleton.mp hx
    | true =>
      have hgone : s'.renderProgress.lookup ctx.renderId = none := by
        rw [hentry', hdone, if_pos rfl]
      exact Or.inr ⟨t, w, j, ctx, link, p, rfl, hpc₀, hentry, hdone, hgone, hnew⟩
  | rest _ hpc₀ => exact Or.inl ⟨t, _, _, hpc₀, rfl, List.mem_cons_of_mem _ hmem⟩

/-- A render is COMPLETED because it was so before, or because a handler was
about to write it. -/
theorem State.HasStatus.completed_cases (h : Step env s a s') (hst : s'.HasStatus r .completed) :
    s.HasStatus r .completed ∨ s.Finalizing r := by
  obtain ⟨render', hrender', hst⟩ := hst
  have hold : s.history.lookup r = some render' → s.HasStatus r .completed :=
    fun hr => ⟨render', hr, hst⟩
  cases h with
  | @createAccepted id payload timestamp render hnew hpayload =>
    rcases Table.lookup_insert_cases hrender' with ⟨-, rfl⟩ | ⟨-, hr⟩
    · rw [RenderRequest.status_of_ofPayload hpayload] at hst
      cases hst
    · exact Or.inl (hold hr)
  | @publish t w j id x todo hpc =>
    have hr : (s.history.modify id x.apply).lookup r = some render' := hrender'
    rw [Table.lookup_modify] at hr
    split at hr
    · next he =>
      subst he
      obtain ⟨render, hrender, rfl⟩ := Option.map_eq_some_iff.mp hr
      cases x with
      | status st =>
        -- the COMPLETED that is being written was to be written
        obtain rfl : st = .completed := hst
        exact Or.inr ⟨t, _, _, hpc, rfl, List.mem_cons_self⟩
      | _ => exact Or.inl ⟨render, hrender, hst⟩
    · exact Or.inl (hold hr)
  | @assignJob job f rest w hnew hqueue hidle =>
    have hr : (s.history.modify f.renderRequest (Setter.status .inProgress).apply).lookup r =
        some render' := hrender'
    rw [Table.lookup_modify] at hr
    split at hr
    · -- IN_PROGRESS has just been written over it
      obtain ⟨render, hrender, rfl⟩ := Option.map_eq_some_iff.mp hr
      cases hst
    · exact Or.inl (hold hr)
  | _ => exact Or.inl (hold hrender')

/-- Who is, or is about to be, COMPLETED is finalized. -/
structure State.Settled (s : State) : Prop where
  finalizing : ∀ r, s.Finalizing r → s.Finalized r
  completed : ∀ r, s.HasStatus r .completed → s.Finalized r

namespace State.Settled

variable (hI : s.WF env) (hS : s.Settled) (h : Step env s a s')

include hI hS h

theorem finalizing_step : ∀ r, s'.Finalizing r → s'.Finalized r := by
  intro r hf
  rcases hf.cases h with hf | ⟨t, w, j, ctx, link, p, rfl, hpc, -, -, hnone, -⟩
  · exact (hS.finalizing r hf).step hI h
  · obtain ⟨-, -, -, hret⟩ := hI.completion_known t _ ctx hpc rfl
    exact ⟨h.returned (hI.submit_known _ _ hret) hret, hnone⟩

theorem completed_step : ∀ r, s'.HasStatus r .completed → s'.Finalized r := by
  intro r hst
  rcases hst.completed_cases h with hst | hf
  · exact (hS.completed r hst).step hI h
  · exact (hS.finalizing r hf).step hI h

protected theorem step : s'.Settled where
  finalizing := finalizing_step hI hS h
  completed := completed_step hI hS h

end State.Settled

theorem State.Settled.initial : State.initial.Settled := by
  constructor
  · rintro r ⟨t, c, todo, hc, -⟩
    cases hc
  · rintro r ⟨render, hrender, -⟩
    cases hrender

theorem State.Settled.of_run {C : System.Condition State Label} (h : (scheduler env).Run C tr s) :
    s.Settled :=
  h.invariant (fun _ s => s.Settled) .initial fun hrun hS _ hs =>
    State.Settled.step (.of_run hrun) hS (.of_step hs)

/-! ### Finalized renders are left alone -/

/-- No frame of a finalized render is queued or registered, where every dispatch
thread finds the registration it undoes. -/
theorem State.Finalized.nothing_left (hf : s.Finalized r)
    (hrun : (scheduler env).Run UndoFindsJob tr s) :
    (∀ f ∈ s.pendingJobs, f.renderRequest ≠ r) ∧
      ∀ j c, s.workerJobToRenderId.lookup j = some c → c.renderId ≠ r := by
  have hI := State.WF.of_run hrun
  -- a frame somewhere else would be in two places
  have hone : ∀ c, s.Known c → c.renderId = r → s.pendingAt c = 0 ∧ s.registeredAt c = 0 := by
    rintro c hk rfl
    have hplaces := hk.owned.unique hrun
    have hrec : s.recorded c = true := recordedIn_of_none hf.2
    unfold State.places at hplaces
    rw [hrec, Bool.toNat_true] at hplaces
    omega
  refine ⟨fun f hmem hr => ?_, fun j c hj hr => ?_⟩
  · have hzero := (hone f.context (hI.pending_known f hmem) hr).1
    exact List.countP_eq_zero.mp hzero f hmem (FrameJob.isFor_iff.mpr rfl)
  · obtain ⟨d, hd, hctx⟩ := hI.job_dispatched j c hj
    have hzero := (hone c (hctx ▸ hI.dispatch_known j d hd) hr).2
    have hfor := Table.occ_eq_zero_iff.mp hzero j c hj
    exact absurd rfl (of_decide_eq_false hfor)

/-- COMPLETED stays while no frame of the render is queued. -/
theorem State.HasStatus.completed_step (hst : s.HasStatus r .completed)
    (hA : s.Accounting env tr) (hleft : ∀ f ∈ s.pendingJobs, f.renderRequest ≠ r)
    (h : Step env s a s') : s'.HasStatus r .completed := by
  obtain ⟨render, hrender, hcomp⟩ := hst
  cases h with
  | @createAccepted id payload timestamp render' hnew hpayload =>
    exact ⟨render, Table.lookup_insert_new hnew hrender, hcomp⟩
  | @publish t w j id x todo hpc =>
    have hlook := Table.lookup_modify s.history id r x.apply
    rw [hrender] at hlook
    split at hlook
    · refine ⟨x.apply render, hlook, ?_⟩
      cases x with
      | status st =>
        -- COMPLETED is the only status a handler writes
        obtain ⟨-, -, rfl⟩ := hA.todo_valid t _ _ id _ hpc rfl List.mem_cons_self
        rfl
      | _ => exact hcomp
    · exact ⟨render, hlook, hcomp⟩
  | @assignJob job f rest w hnew hqueue hidle =>
    -- the dispatched frame is of another render
    have hne : r ≠ f.renderRequest := (hleft f (hqueue ▸ List.mem_cons_self)).symm
    refine ⟨render, ?_, hcomp⟩
    rw [← hrender]
    exact (Table.lookup_modify _ _ _ _).trans (if_neg hne)
  | _ => exact ⟨render, hrender, hcomp⟩

/-- A handler about to write COMPLETED is so still, or has written it. -/
theorem State.Finalizing.step (hf : s.Finalizing r) (hr : r ∈ s.history) (h : Step env s a s') :
    s'.Finalizing r ∨ s'.HasStatus r .completed := by
  obtain ⟨t, c, todo, hc, hpc, hmem⟩ := hf
  -- another handler moves, or this one does, from somewhere else than its setters
  have hother : ∀ {t₀ : ThreadId} {c₀ : CompletionThread} {pc : CompletionPc},
      s.completions.lookup t₀ = some c₀ → (∀ todo, c₀.pc = .publish todo → todo = []) →
      ∃ t c todo, (s.completions.insert t₀ { c₀ with pc }).lookup t = some c ∧
        c.pc = .publish todo ∧ (r, .status .completed) ∈ todo := by
    intro t₀ c₀ pc hc₀ hnil
    have hne : t ≠ t₀ := by
      rintro rfl
      obtain rfl := Option.some.inj (hc₀.symm.trans hc)
      rw [hnil todo hpc] at hmem
      cases hmem
    exact ⟨t, c, todo, (AList.lookup_insert_ne hne).trans hc, hpc, hmem⟩
  cases h with
  | @jobCompleted t₀ worker job w hnew hfind =>
    exact Or.inl ⟨t, c, todo, Table.lookup_insert_new hnew hc, hpc, hmem⟩
  | takeJob hpc₀ => exact Or.inl (hother hpc₀ nofun)
  | takeUnknown hpc₀ => exact Or.inl (hother hpc₀ nofun)
  | buildLink hpc₀ => exact Or.inl (hother hpc₀ nofun)
  | buildLinkLost hpc₀ => exact Or.inl (hother hpc₀ nofun)
  | recordProgress hpc₀ => exact Or.inl (hother hpc₀ nofun)
  | recordLast hpc₀ => exact Or.inl (hother hpc₀ nofun)
  | recordFinalized hpc₀ => exact Or.inl (hother hpc₀ nofun)
  | @publish t₀ w j id x todo₀ hpc₀ =>
    by_cases ht : t = t₀
    · subst ht
      obtain rfl := Option.some.inj (hpc₀.symm.trans hc)
      obtain rfl := CompletionPc.publish.inj hpc
      rcases List.mem_cons.mp hmem with he | htail
      · -- this is the write
        obtain ⟨rfl, rfl⟩ := Prod.mk.inj he
        obtain ⟨render, hrender⟩ := Table.exists_lookup_of_mem hr
        refine Or.inr ⟨render.setStatus .completed, ?_, rfl⟩
        have hlook := Table.lookup_modify_self s.history r (Setter.status .completed).apply
        rw [hrender] at hlook
        exact hlook
      · exact Or.inl ⟨t, _, todo₀, AList.lookup_insert _, rfl, htail⟩
    · exact Or.inl ⟨t, c, todo, (AList.lookup_insert_ne ht).trans hc, hpc, hmem⟩
  | markWorkerIdle hpc₀ =>
    refine Or.inl (hother hpc₀ fun todo htodo => ?_)
    exact (CompletionPc.publish.inj htodo).symm
  | _ => exact Or.inl ⟨t, c, todo, hc, hpc, hmem⟩

/-- The step that finalizes a render with frames leaves its handler about to
write COMPLETED. -/
theorem Step.finalizes (hI : s.WF env) (hA : s.Accounting env tr) (h : Step env s a s')
    (hf : s'.Finalized r) (hown : s'.Owned ⟨r, 0⟩) : s.Finalized r ∨ s'.Finalizing r := by
  obtain ⟨hret, hnone⟩ := hf
  obtain ⟨render, hrender, hn, -⟩ := hown
  have hother : ∀ {id : RenderId} {pc : SubmitPc}, (r = id → False) →
      (s.submits.insert id pc).lookup r = some .returned → s.submits.lookup r = some .returned :=
    fun hne hret => (AList.lookup_insert_ne hne).symm.trans hret
  have hinsert : ∀ {id : RenderId} {p : RenderProgress},
      (s.renderProgress.insert id p).lookup r = none → s.renderProgress.lookup r = none := by
    intro id p hn
    rw [Table.lookup_insert'] at hn
    split at hn
    · cases hn
    · exact hn
  cases h with
  | @createAccepted id payload timestamp render' hnew hpayload =>
    refine Or.inl ⟨hother ?_ hret, hnone⟩
    rintro rfl
    cases (AList.lookup_insert s.submits).symm.trans hret
  | @addJobSkipped id render' hpc hrender' hframes =>
    refine Or.inl ⟨hother ?_ hret, hnone⟩
    rintro rfl
    -- a skipped render has no frame 0
    obtain rfl := Option.some.inj (hrender'.symm.trans hrender)
    unfold RenderRequest.totalFrames at hn
    omega
  | @addJobProgress id render' hpc hrender' hframes =>
    refine Or.inl ⟨hother ?_ hret, hinsert hnone⟩
    rintro rfl
    cases (AList.lookup_insert s.submits).symm.trans hret
  | @addJobQueue id render' hpc hrender' =>
    refine Or.inl ⟨hother ?_ hret, hnone⟩
    rintro rfl
    -- the queue section runs with the entry still there
    obtain ⟨_, -, -, hfresh⟩ := hI.enqueue_fresh r hpc
    cases hfresh.symm.trans hnone
  | recordProgress => exact Or.inl ⟨hret, hinsert hnone⟩
  | @recordLast t w j ctx link p hpc hentry hdone =>
    by_cases hr : r = ctx.renderId
    · -- its handler has the final setters to call
      subst hr
      obtain ⟨render', l, hrender', rfl, hbuilt, hlt, hp⟩ := hI.record_full hpc hentry
      obtain ⟨links, -, hset⟩ :=
        hp.last_setters hlt hbuilt (hA.slots_built hentry hrender') hdone
      refine Or.inr ⟨t, _, _, AList.lookup_insert _, rfl, ?_⟩
      rw [hset]
      simp [finalSetters]
    · exact Or.inl ⟨hret, (AList.lookup_erase_ne hr).symm.trans hnone⟩
  | _ => exact Or.inl ⟨hret, hnone⟩

/-- **A finalized render with frames is COMPLETED, or about to be**, in a run
where every dispatch thread finds the registration it undoes. -/
theorem State.Finalized.terminal (hrun : (scheduler env).Run UndoFindsJob tr s)
    (hf : s.Finalized r) (hown : s.Owned ⟨r, 0⟩) : s.HasStatus r .completed ∨ s.Finalizing r := by
  revert hf hown
  refine hrun.invariant (fun _ s => s.Finalized r → s.Owned ⟨r, 0⟩ →
    s.HasStatus r .completed ∨ s.Finalizing r) ?_ ?_
  · rintro - ⟨render, hrender, -⟩
    cases hrender
  · intro tr s a s' hrun ih _ hs hf' hown'
    have hI := State.WF.of_run hrun
    have hA := State.Accounting.of_run hrun
    have h := Step.of_step hs
    rcases h.finalizes hI hA hf' hown' with hf | hfin
    · -- finalized before, with the same frames
      have hown : s.Owned ⟨r, 0⟩ := by
        rcases h.owned_cases hI hown' with hown | ⟨render, hpc, -⟩
        · exact hown
        · cases hpc.symm.trans hf.1
      rcases ih hf hown with hst | hfin
      · exact Or.inl (hst.completed_step hA (hf.nothing_left hrun).1 h)
      · exact (hfin.step (hI.submit_known r _ hf.1) h).symm
    · exact Or.inr hfin

/-- **COMPLETED is final** in a run where every dispatch thread finds the
registration it undoes: the render stays COMPLETED, and none of its frames is
queued or registered. -/
theorem completed_final {tr' : List Label} (hrun : (scheduler env).Run UndoFindsJob tr s)
    (hst : s.HasStatus r .completed) (hrun' : (scheduler env).Run UndoFindsJob (tr ++ tr') s') :
    s'.HasStatus r .completed ∧ (∀ f ∈ s'.pendingJobs, f.renderRequest ≠ r) ∧
      ∀ j c, s'.workerJobToRenderId.lookup j = some c → c.renderId ≠ r := by
  have hst' : s'.HasStatus r .completed := by
    refine hrun.stable (fun s => s.HasStatus r .completed) ?_ hst hrun'
    intro tr s a s' hrun hst _ hs
    have hf := (State.Settled.of_run hrun).completed r hst
    exact hst.completed_step (.of_run hrun) (hf.nothing_left hrun).1 (.of_step hs)
  exact ⟨hst', ((State.Settled.of_run hrun').completed r hst').nothing_left hrun'⟩

end Pathological
