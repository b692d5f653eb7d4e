import Pathological.Scheduler.Steps

/-!
# Well-formed scheduler states

What holds in every reachable state whatever the environment does, and needs
no assumption on failures:

* `State.Known s c`: the frame `c` belongs to a render of the history whose
  `addJob` has returned, and its index is below the render's frame count. Once
  a frame is known it stays known (`State.Known.step`).
* `RenderProgress.Accounts p n`: the counter of a progress entry is the number
  of its filled slots and is below the frame count `n`.
* `State.WF`: every frame that is queued, registered, dispatched or held by a
  handler is known, a registered job id belongs to the dispatch thread of its
  frame, every progress entry accounts for its render, and a link in flight is
  one that was built for its frame.
-/

namespace Pathological

open Framework

variable {env : Env} {s s' : State} {a : Label}

/-! ### What submission fixes -/

/-- A render of the history stays there, with what its submission fixed. -/
theorem Step.history {r : RenderId} {render : RenderRequest} (h : Step env s a s')
    (hr : s.history.lookup r = some render) :
    ∃ render', s'.history.lookup r = some render' ∧ render'.submitted = render.submitted := by
  have hmodify : ∀ (id : RenderId) (x : Setter), ∃ render',
      (s.history.modify id x.apply).lookup r = some render' ∧
        render'.submitted = render.submitted := by
    intro id x
    rw [Table.lookup_modify, hr]
    split
    · exact ⟨x.apply render, rfl, x.apply_submitted render⟩
    · exact ⟨render, rfl, rfl⟩
  cases h with
  | @createAccepted id payload timestamp render' hnew hpayload =>
    exact ⟨render, Table.lookup_insert_new hnew hr, rfl⟩
  | publish hpc => exact hmodify _ _
  | assignJob hnew hqueue hidle => exact hmodify _ _
  | _ => exact ⟨render, hr, rfl⟩

/-- A render of the history was there before, or has just been submitted. -/
theorem Step.history_cases {r : RenderId} {render' : RenderRequest} (h : Step env s a s')
    (hr : s'.history.lookup r = some render') :
    r ∈ s.history ∨ ∃ payload timestamp, a = .createRenderRequest r payload timestamp ∧
      RenderRequest.ofPayload r payload timestamp = .ok render' := by
  have hmem : ∀ {render : RenderRequest}, s.history.lookup r = some render → r ∈ s.history :=
    fun hr => Table.mem_of_lookup hr
  have hmodify : ∀ {id : RenderId} {x : Setter},
      (s.history.modify id x.apply).lookup r = some render' → r ∈ s.history := by
    intro id x hr
    obtain ⟨render, hrender, -⟩ := Table.lookup_modify_cases hr
    exact hmem hrender
  cases h with
  | @createAccepted id payload timestamp render hnew hpayload =>
    rcases Table.lookup_insert_cases hr with ⟨rfl, rfl⟩ | ⟨-, hr⟩
    · exact Or.inr ⟨payload, timestamp, rfl, hpayload⟩
    · exact Or.inl (hmem hr)
  | publish hpc => exact Or.inl (hmodify hr)
  | assignJob hnew hqueue hidle => exact Or.inl (hmodify hr)
  | _ => exact Or.inl (hmem hr)

/-- A `createRenderRequest` handler that has answered stays answered. -/
theorem Step.returned {r : RenderId} (h : Step env s a s') (hr : r ∈ s.history)
    (hpc : s.submits.lookup r = some .returned) : s'.submits.lookup r = some .returned := by
  have hother : ∀ {id : RenderId} {pc : SubmitPc}, r ≠ id →
      (s.submits.insert id pc).lookup r = some .returned :=
    fun hne => (AList.lookup_insert_ne hne).trans hpc
  have hpending : ∀ {id : RenderId} {pc : SubmitPc}, s.submits.lookup id = some pc →
      pc ≠ .returned → r ≠ id := by
    rintro id pc hid hne rfl
    exact hne (Option.some.inj (hid.symm.trans hpc))
  cases h with
  | createAccepted hnew hpayload => exact hother fun he => hnew (he ▸ hr)
  | addJobSkipped hpc' => exact hother (hpending hpc' (by decide))
  | addJobProgress hpc' => exact hother (hpending hpc' (by decide))
  | addJobQueue hpc' => exact hother (hpending hpc' (by decide))
  | _ => exact hpc

/-- The frame belongs to a render whose `addJob` has returned, below its frame count. -/
def State.Known (s : State) (c : FrameJobContext) : Prop :=
  ∃ render, s.history.lookup c.renderId = some render ∧ c.frameIndex < render.totalFrames ∧
    s.submits.lookup c.renderId = some .returned

theorem State.Known.step {c : FrameJobContext} (hc : s.Known c) (h : Step env s a s') :
    s'.Known c := by
  obtain ⟨render, hr, hi, hpc⟩ := hc
  obtain ⟨render', hr', hsub⟩ := h.history hr
  refine ⟨render', hr', ?_, h.returned (Table.mem_of_lookup hr) hpc⟩
  rwa [RenderRequest.totalFrames_congr hsub]

/-! ### Frames of completion handlers -/

/-- The frame a completion handler holds after a step it held before, or its
lookup has just found it. -/
theorem Step.frame_cases {t : ThreadId} {th : CompletionThread} {c : FrameJobContext}
    (h : Step env s a s') (ht : s'.completions.lookup t = some th) (hf : th.pc.frame = some c) :
    (∃ th₀, s.completions.lookup t = some th₀ ∧ th₀.pc.frame = some c) ∨
      (a = .takeJob t ∧ ∃ th₀, s.completions.lookup t = some th₀ ∧
        s.workerJobToRenderId.lookup th₀.jobId = some c) := by
  have hset : ∀ {t₀ : ThreadId} {c₀ : CompletionThread} {pc : CompletionPc},
      (s.completions.insert t₀ { c₀ with pc }).lookup t = some th →
      (pc.frame = some c → ∃ th₀, s.completions.lookup t₀ = some th₀ ∧ th₀.pc.frame = some c) →
      ∃ th₀, s.completions.lookup t = some th₀ ∧ th₀.pc.frame = some c := by
    intro t₀ c₀ pc ht hpc
    rcases Table.lookup_insert_cases ht with ⟨rfl, rfl⟩ | ⟨-, ht⟩
    · exact hpc hf
    · exact ⟨th, ht, hf⟩
  cases h with
  | jobCompleted => exact Or.inl (hset ht nofun)
  | @takeJob t₀ w j ctx hpc hjob =>
    rcases Table.lookup_insert_cases ht with ⟨rfl, rfl⟩ | ⟨-, ht⟩
    · -- the lookup that finds the frame
      obtain rfl := Option.some.inj hf
      exact Or.inr ⟨rfl, _, hpc, hjob⟩
    · exact Or.inl ⟨th, ht, hf⟩
  | takeUnknown => exact Or.inl (hset ht nofun)
  | buildLink hpc hrender => exact Or.inl (hset ht fun hctx => ⟨_, hpc, hctx⟩)
  | buildLinkLost => exact Or.inl (hset ht nofun)
  | recordProgress => exact Or.inl (hset ht nofun)
  | recordLast => exact Or.inl (hset ht nofun)
  | recordFinalized => exact Or.inl (hset ht nofun)
  | publish => exact Or.inl (hset ht nofun)
  | markWorkerIdle => exact Or.inl (hset ht nofun)
  | _ => exact Or.inl ⟨th, ht, hf⟩

/-! ### Progress entries -/

namespace RenderProgress

/-- The entry has `n` slots and counts the filled ones, of which there are fewer
than `n`. -/
structure Accounts (p : RenderProgress) (n : ℕ) : Prop where
  total : p.totalFrames = n
  size : p.frameLinks.length = n
  counted : p.framesCompleted = p.frameLinks.countP Option.isSome
  below : p.framesCompleted < n

/-- Every slot of the entry is filled. -/
def Full (p : RenderProgress) (n : ℕ) : Prop :=
  p.framesCompleted = n ∧ ∀ i, i < n → ∃ l, p.frameLinks[i]? = some (some l)

variable {p : RenderProgress} {n i : ℕ} {l : String}

theorem fresh_accounts (h : 0 < n) : (fresh n).Accounts n where
  total := rfl
  size := List.length_replicate
  counted := by simp [fresh, List.countP_replicate]
  below := h

theorem fresh_frameLinks : (fresh n).frameLinks[i]? = if i < n then some none else none := by
  simp [fresh, List.getElem?_replicate]

theorem record_frameLinks (j : ℕ) :
    (p.record i (some l)).frameLinks[j]? =
      if i = j ∧ p.frameLinks[i]? = some none then some (some l) else p.frameLinks[j]? := by
  unfold record
  split
  · next h =>
    have hi := (List.getElem?_eq_some_iff.mp h).1
    rw [List.getElem?_set]
    by_cases hj : i = j
    · subst hj
      rw [if_pos rfl, if_pos hi, if_pos ⟨rfl, h⟩]
    · rw [if_neg hj, if_neg fun hc => hj hc.1]
  · next h => simp [h]

/-- A filled slot keeps its link. -/
theorem record_filled {j : ℕ} {l' : String} (h : p.frameLinks[j]? = some (some l')) :
    (p.record i (some l)).frameLinks[j]? = some (some l') := by
  rw [record_frameLinks, if_neg, h]
  rintro ⟨rfl, hnone⟩
  rw [h] at hnone
  cases hnone

/-- After recording a frame, its slot is filled. -/
theorem record_self (hi : i < p.frameLinks.length) :
    ∃ l', (p.record i (some l)).frameLinks[i]? = some (some l') := by
  rw [record_frameLinks]
  split
  · exact ⟨l, rfl⟩
  · next h =>
    obtain ⟨o, ho⟩ : ∃ o, p.frameLinks[i]? = some o := ⟨_, List.getElem?_eq_getElem hi⟩
    cases o with
    | none => exact absurd ⟨rfl, ho⟩ h
    | some l' => exact ⟨l', ho⟩

theorem record_size {link : Option String} :
    (p.record i link).frameLinks.length = p.frameLinks.length := by
  unfold record
  split
  · exact List.length_set
  · rfl

theorem record_total {link : Option String} : (p.record i link).totalFrames = p.totalFrames := by
  unfold record
  split <;> rfl

/-- The counter stays the number of filled slots. -/
theorem record_counted (h : p.framesCompleted = p.frameLinks.countP Option.isSome) :
    (p.record i (some l)).framesCompleted =
      (p.record i (some l)).frameLinks.countP Option.isSome := by
  unfold record
  split
  · next hnone =>
    obtain ⟨hi, hget⟩ := List.getElem?_eq_some_iff.mp hnone
    dsimp only
    rw [List.countP_set hi, hget, ← h]
    simp
  · exact h

/-- As many filled slots as slots: every slot is filled. -/
theorem filled_of_count {links : List (Option String)}
    (h : links.length ≤ links.countP Option.isSome) (hi : i < links.length) :
    ∃ l, links[i]? = some (some l) := by
  have hall := List.countP_eq_length.mp (le_antisymm List.countP_le_length h)
  obtain ⟨l, hl⟩ := Option.isSome_iff_exists.mp (hall _ (List.getElem_mem hi))
  exact ⟨l, by rw [List.getElem?_eq_getElem hi, hl]⟩

/-- Recording a frame either leaves an entry that accounts for the render, or
fills the last slot. -/
theorem Accounts.record (h : p.Accounts n) :
    if (p.record i (some l)).done then (p.record i (some l)).Full n
    else (p.record i (some l)).Accounts n := by
  have hcount := record_counted (i := i) (l := l) h.counted
  have hsize : (p.record i (some l)).frameLinks.length = n := record_size.trans h.size
  have htotal : (p.record i (some l)).totalFrames = n := record_total.trans h.total
  have hle : (p.record i (some l)).framesCompleted ≤ n := by
    rw [hcount, ← hsize]
    exact List.countP_le_length
  split
  · next hdone =>
    have hge : n ≤ (p.record i (some l)).framesCompleted := by
      rw [← htotal]
      exact of_decide_eq_true hdone
    refine ⟨le_antisymm hle hge, fun j hj => ?_⟩
    exact filled_of_count (by omega) (by omega)
  · next hdone =>
    have hlt : ¬ n ≤ (p.record i (some l)).framesCompleted := by
      rw [← htotal]
      exact fun hge => hdone (decide_eq_true hge)
    exact ⟨htotal, hsize, hcount, by omega⟩

/-- An entry that accounts for its render has an empty slot. -/
theorem Accounts.exists_empty (h : p.Accounts n) :
    ∃ i, i < n ∧ p.frameLinks[i]? = some none := by
  by_contra hc
  push Not at hc
  have hall : ∀ o ∈ p.frameLinks, o.isSome = true := by
    intro o ho
    obtain ⟨i, hi, rfl⟩ := List.mem_iff_getElem.mp ho
    have hne := hc i (h.size ▸ hi)
    rw [List.getElem?_eq_getElem hi] at hne
    exact Option.isSome_iff_ne_none.mpr fun hnone => hne (by rw [hnone])
  have hfull := List.countP_eq_length.mpr hall
  have hbelow := h.below
  rw [h.counted, hfull, h.size] at hbelow
  exact lt_irrefl n hbelow

end RenderProgress

/-! ### The invariant -/

/-- A progress entry belongs to a render whose `addJob` has run its progress
section, and accounts for it. -/
def State.Tracked (s : State) (r : RenderId) (p : RenderProgress) : Prop :=
  ∃ render, s.history.lookup r = some render ∧ p.Accounts render.totalFrames ∧
    (s.submits.lookup r = some .enqueue ∨ s.submits.lookup r = some .returned)

/-- The link was built for the frame. -/
def State.LinkOf (env : Env) (s : State) (c : FrameJobContext) (link : Option String) : Prop :=
  ∃ render l, s.history.lookup c.renderId = some render ∧ link = some l ∧
    BuiltLink env (render.frameKey c.frameIndex) l

/-- What holds in every reachable state, whatever fails. -/
structure State.WF (env : Env) (s : State) : Prop where
  /-- The history is keyed by the renders' own ids. -/
  id_eq : ∀ r render, s.history.lookup r = some render → render.id = r
  submit_known : ∀ r pc, s.submits.lookup r = some pc → r ∈ s.history
  /-- Between its two sections, `addJob` has created an entry with empty slots. -/
  enqueue_fresh : ∀ r, s.submits.lookup r = some .enqueue →
    ∃ render, s.history.lookup r = some render ∧ 0 < render.totalFrames ∧
      s.renderProgress.lookup r = some (.fresh render.totalFrames)
  pending_known : ∀ f ∈ s.pendingJobs, s.Known f.context
  dispatch_known : ∀ j d, s.dispatchThreads.lookup j = some d → s.Known d.frameJob.context
  /-- A registered job id has a dispatch thread, for the frame it is registered for. -/
  job_dispatched : ∀ j c, s.workerJobToRenderId.lookup j = some c →
    ∃ d, s.dispatchThreads.lookup j = some d ∧ d.frameJob.context = c
  completion_known : ∀ t c ctx, s.completions.lookup t = some c → c.pc.frame = some ctx →
    s.Known ctx
  completion_link : ∀ t w j ctx link,
    s.completions.lookup t = some ⟨w, j, .record ctx link⟩ → s.LinkOf env ctx link
  progress_tracked : ∀ r p, s.renderProgress.lookup r = some p → s.Tracked r p

theorem State.Tracked.step {r : RenderId} {p : RenderProgress} (ht : s.Tracked r p)
    (h : Step env s a s') (hpc : s.submits.lookup r = some .enqueue →
      s'.submits.lookup r = some .enqueue ∨ s'.submits.lookup r = some .returned) :
    s'.Tracked r p := by
  obtain ⟨render, hr, hp, hsub⟩ := ht
  obtain ⟨render', hr', hsub'⟩ := h.history hr
  refine ⟨render', hr', ?_, ?_⟩
  · rwa [RenderRequest.totalFrames_congr hsub']
  · rcases hsub with henq | hret
    · exact hpc henq
    · exact Or.inr (h.returned (Table.mem_of_lookup hr) hret)

theorem State.LinkOf.step {c : FrameJobContext} {link : Option String}
    (hl : s.LinkOf env c link) (h : Step env s a s') : s'.LinkOf env c link := by
  obtain ⟨render, l, hr, hlink, hbuilt⟩ := hl
  obtain ⟨render', hr', hsub⟩ := h.history hr
  refine ⟨render', l, hr', hlink, ?_⟩
  rwa [RenderRequest.frameKey_congr hsub]

/-! ### Preservation, clause by clause -/

namespace State.WF

variable (hI : s.WF env) (h : Step env s a s')

include hI h

theorem id_eq_step : ∀ r render, s'.history.lookup r = some render → render.id = r := by
  have hmodify : ∀ (id : RenderId) (x : Setter) (r : RenderId) (render : RenderRequest),
      (s.history.modify id x.apply).lookup r = some render → render.id = r := by
    intro id x r render hr
    obtain ⟨render', hr', rfl | rfl⟩ := Table.lookup_modify_cases hr
    · exact hI.id_eq r render hr'
    · have hid : (x.apply render').submitted.id = render'.submitted.id := by
        rw [x.apply_submitted]
      exact hid.trans (hI.id_eq r render' hr')
  cases h with
  | createAccepted hnew hpayload =>
    intro r render hr
    rcases Table.lookup_insert_cases hr with ⟨rfl, rfl⟩ | ⟨-, hr⟩
    · exact RenderRequest.id_of_ofPayload hpayload
    · exact hI.id_eq r render hr
  | publish hpc => exact hmodify _ _
  | assignJob hnew hqueue hidle => exact hmodify _ _
  | _ => exact hI.id_eq

theorem submit_known_step : ∀ r pc, s'.submits.lookup r = some pc → r ∈ s'.history := by
  intro r pc hr
  have hmono : r ∈ s.history → r ∈ s'.history := by
    intro hr
    obtain ⟨render, hr⟩ := Table.exists_lookup_of_mem hr
    obtain ⟨render', hr', -⟩ := h.history hr
    exact Table.mem_of_lookup hr'
  have hold : ∀ {id : RenderId} {pc' pc'' : SubmitPc}, s.submits.lookup id = some pc'' →
      (s.submits.insert id pc').lookup r = some pc → r ∈ s'.history := by
    intro id pc' pc'' hid hr
    rcases Table.lookup_insert_cases hr with ⟨rfl, -⟩ | ⟨-, hr⟩
    · exact hmono (hI.submit_known _ _ hid)
    · exact hmono (hI.submit_known _ _ hr)
  cases h with
  | createAccepted hnew hpayload =>
    rcases Table.lookup_insert_cases hr with ⟨rfl, -⟩ | ⟨-, hr⟩
    · exact (AList.mem_insert _).mpr (Or.inl rfl)
    · exact hmono (hI.submit_known _ _ hr)
  | addJobSkipped hpc => exact hold hpc hr
  | addJobProgress hpc => exact hold hpc hr
  | addJobQueue hpc => exact hold hpc hr
  | _ => exact hmono (hI.submit_known _ _ hr)

theorem enqueue_fresh_step : ∀ r, s'.submits.lookup r = some .enqueue →
    ∃ render, s'.history.lookup r = some render ∧ 0 < render.totalFrames ∧
      s'.renderProgress.lookup r = some (.fresh render.totalFrames) := by
  intro r hr
  -- outside `addJobProgress r`, the handler was there before and the entry is untouched
  have hold : s.submits.lookup r = some .enqueue →
      s'.renderProgress.lookup r = s.renderProgress.lookup r →
      ∃ render, s'.history.lookup r = some render ∧ 0 < render.totalFrames ∧
        s'.renderProgress.lookup r = some (.fresh render.totalFrames) := by
    intro hpc hsame
    obtain ⟨render, hrender, hpos, hfresh⟩ := hI.enqueue_fresh r hpc
    obtain ⟨render', hrender', hsub⟩ := h.history hrender
    have htotal := RenderRequest.totalFrames_congr hsub
    exact ⟨render', hrender', htotal ▸ hpos, by rw [hsame, hfresh, htotal]⟩
  have hne : ∀ {t : ThreadId} {w : WorkerId} {j : JobId} {ctx : FrameJobContext}
      {link : Option String}, s.completions.lookup t = some ⟨w, j, .record ctx link⟩ →
      s.submits.lookup r = some .enqueue → r ≠ ctx.renderId := by
    rintro t w j ctx link hpc henq rfl
    obtain ⟨-, -, -, hret⟩ := hI.completion_known t _ ctx hpc rfl
    rw [henq] at hret
    cases hret
  cases h with
  | createAccepted hnew hpayload =>
    rcases Table.lookup_insert_cases hr with ⟨-, he⟩ | ⟨-, hr⟩
    · cases he
    · exact hold hr rfl
  | addJobSkipped hpc =>
    rcases Table.lookup_insert_cases hr with ⟨-, he⟩ | ⟨-, hr⟩
    · cases he
    · exact hold hr rfl
  | @addJobProgress id render hpc hrender hframes =>
    have hid := hI.id_eq id render hrender
    subst hid
    rcases Table.lookup_insert_cases hr with ⟨rfl, -⟩ | ⟨hne, hr⟩
    · refine ⟨render, hrender, ?_, AList.lookup_insert _⟩
      unfold RenderRequest.totalFrames
      omega
    · exact hold hr (AList.lookup_insert_ne hne)
  | addJobQueue hpc =>
    rcases Table.lookup_insert_cases hr with ⟨-, he⟩ | ⟨-, hr⟩
    · cases he
    · exact hold hr rfl
  | recordProgress hpc hentry hdone => exact hold hr (AList.lookup_insert_ne (hne hpc hr))
  | recordLast hpc hentry hdone => exact hold hr (AList.lookup_erase_ne (hne hpc hr))
  | _ => exact hold hr rfl

theorem pending_known_step : ∀ f ∈ s'.pendingJobs, s'.Known f.context := by
  have hold : ∀ f ∈ s.pendingJobs, s'.Known f.context :=
    fun f hf => (hI.pending_known f hf).step h
  have hstep := h
  cases h with
  | @addJobQueue id render hpc hrender =>
    intro f hf
    rcases List.mem_append.mp hf with hf | hf
    · exact hold f hf
    · obtain ⟨i, hi, rfl⟩ := List.mem_map.mp hf
      have hid := hI.id_eq id render hrender
      subst hid
      exact ⟨render, hrender, List.mem_range.mp hi, AList.lookup_insert _⟩
  | assignJob hnew hqueue hidle =>
    intro f hf
    exact hold f (hqueue ▸ List.mem_cons_of_mem _ hf)
  | requeueFrame hpc =>
    intro f hf
    rcases List.mem_append.mp hf with hf | hf
    · exact hold f hf
    · obtain rfl := List.mem_singleton.mp hf
      exact (hI.dispatch_known _ _ hpc).step hstep
  | _ => exact hold

theorem dispatch_known_step : ∀ j d, s'.dispatchThreads.lookup j = some d →
    s'.Known d.frameJob.context := by
  have hold : ∀ j d, s.dispatchThreads.lookup j = some d → s'.Known d.frameJob.context :=
    fun j d hd => (hI.dispatch_known j d hd).step h
  have hstep := h
  cases h with
  | assignJob hnew hqueue hidle =>
    -- the frame taken off the queue
    refine Table.forall_insert hold ?_
    exact (hI.pending_known _ (hqueue ▸ List.mem_cons_self)).step hstep
  | renderJobReturned hpc => exact Table.forall_insert_over hold hpc id
  | undoRegistration hpc => exact Table.forall_insert_over hold hpc id
  | requeueFrame hpc => exact Table.forall_insert_over hold hpc id
  | markDispatchOffline hpc => exact Table.forall_insert_over hold hpc id
  | _ => exact hold

theorem job_dispatched_step : ∀ j c, s'.workerJobToRenderId.lookup j = some c →
    ∃ d, s'.dispatchThreads.lookup j = some d ∧ d.frameJob.context = c := by
  have hset : ∀ {job : JobId} {d₀ : DispatchThread} {pc : DispatchPc},
      s.dispatchThreads.lookup job = some d₀ → ∀ j c,
      s.workerJobToRenderId.lookup j = some c →
      ∃ d, (s.dispatchThreads.insert job { d₀ with pc }).lookup j = some d ∧
        d.frameJob.context = c := by
    intro job d₀ pc hjob j c hj
    exact Table.exists_insert_over hjob id (hI.job_dispatched j c hj)
  have herase : ∀ {job : JobId} {j : JobId} {c : FrameJobContext},
      (s.workerJobToRenderId.erase job).lookup j = some c →
      s.workerJobToRenderId.lookup j = some c :=
    fun hj => (Table.lookup_erase_cases hj).2
  cases h with
  | takeJob hpc hjob => exact fun j c hj => hI.job_dispatched j c (herase hj)
  | assignJob hnew hqueue hidle =>
    intro j c hj
    rcases Table.lookup_insert_cases hj with ⟨rfl, rfl⟩ | ⟨-, hj⟩
    · exact ⟨_, AList.lookup_insert _, rfl⟩
    · obtain ⟨d, hd, hc⟩ := hI.job_dispatched j c hj
      exact ⟨d, Table.lookup_insert_new hnew hd, hc⟩
  | renderJobReturned hpc => exact hset hpc
  | undoRegistration hpc => exact fun j c hj => hset hpc j c (herase hj)
  | requeueFrame hpc => exact hset hpc
  | markDispatchOffline hpc => exact hset hpc
  | _ => exact hI.job_dispatched

theorem completion_known_step : ∀ t c ctx, s'.completions.lookup t = some c →
    c.pc.frame = some ctx → s'.Known ctx := by
  intro t c ctx hc hf
  refine State.Known.step ?_ h
  rcases h.frame_cases hc hf with ⟨c₀, hc₀, hf₀⟩ | ⟨-, c₀, -, hjob⟩
  · exact hI.completion_known t c₀ ctx hc₀ hf₀
  · -- the job id was registered for a frame that is dispatched
    obtain ⟨d, hd, rfl⟩ := hI.job_dispatched c₀.jobId ctx hjob
    exact hI.dispatch_known c₀.jobId d hd

theorem completion_link_step : ∀ t w j ctx link,
    s'.completions.lookup t = some ⟨w, j, .record ctx link⟩ → s'.LinkOf env ctx link := by
  have hold : ∀ t w j ctx link, s.completions.lookup t = some ⟨w, j, .record ctx link⟩ →
      s'.LinkOf env ctx link :=
    fun t w j ctx link hc => (hI.completion_link t w j ctx link hc).step h
  have hset : ∀ {t₀ : ThreadId} {c₀ : CompletionThread} {pc : CompletionPc},
      (∀ ctx link, pc = .record ctx link → s'.LinkOf env ctx link) → ∀ t w j ctx link,
      (s.completions.insert t₀ { c₀ with pc }).lookup t = some ⟨w, j, .record ctx link⟩ →
      s'.LinkOf env ctx link := by
    intro t₀ c₀ pc hpc t w j ctx link hc
    rcases Table.lookup_insert_cases hc with ⟨-, he⟩ | ⟨-, hc⟩
    · exact hpc ctx link (congrArg CompletionThread.pc he).symm
    · exact hold t w j ctx link hc
  have hstep := h
  cases h with
  | jobCompleted => exact hset nofun
  | takeJob => exact hset nofun
  | takeUnknown => exact hset nofun
  | @buildLink t now w j ctx render hpc hrender =>
    refine hset fun ctx' link hrec => ?_
    obtain ⟨rfl, rfl⟩ := CompletionPc.record.inj hrec
    obtain ⟨l, hl, hbuilt⟩ := exists_buildDownloadLink env now (render.frameKey ctx.frameIndex)
    exact State.LinkOf.step ⟨render, l, hrender, hl, hbuilt⟩ hstep
  | buildLinkLost => exact hset nofun
  | recordProgress => exact hset nofun
  | recordLast => exact hset nofun
  | recordFinalized => exact hset nofun
  | publish => exact hset nofun
  | markWorkerIdle => exact hset nofun
  | _ => exact hold

theorem progress_tracked_step : ∀ r p, s'.renderProgress.lookup r = some p → s'.Tracked r p := by
  -- a handler between its two sections is only moved on to its end
  have hother : ∀ {id : RenderId} {pc : SubmitPc} {r : RenderId},
      s.submits.lookup id = some .addJob ∨ pc = .returned ∨ id ∉ s.history →
      s.submits.lookup r = some .enqueue →
      (s.submits.insert id pc).lookup r = some .enqueue ∨
        (s.submits.insert id pc).lookup r = some .returned := by
    intro id pc r hid hr
    rw [Table.lookup_insert']
    split
    · next he =>
      subst he
      rcases hid with hid | rfl | hid
      · rw [hr] at hid
        cases hid
      · exact Or.inr rfl
      · exact absurd (hI.submit_known _ _ hr) hid
    · exact Or.inl hr
  have hold : ∀ r p, s.renderProgress.lookup r = some p → (s.submits.lookup r = some .enqueue →
      s'.submits.lookup r = some .enqueue ∨ s'.submits.lookup r = some .returned) →
      s'.Tracked r p :=
    fun r p hp hpc => (hI.progress_tracked r p hp).step h hpc
  cases h with
  | createAccepted hnew hpayload =>
    exact fun r p hp => hold r p hp (hother (Or.inr (Or.inr hnew)))
  | addJobSkipped hpc => exact fun r p hp => hold r p hp (hother (Or.inl hpc))
  | @addJobProgress id render hpc hrender hframes =>
    have hid := hI.id_eq id render hrender
    subst hid
    intro r p hp
    rcases Table.lookup_insert_cases hp with ⟨rfl, rfl⟩ | ⟨-, hp⟩
    · -- the new entry has as many empty slots as the render has frames
      refine ⟨render, hrender, RenderProgress.fresh_accounts ?_, Or.inl (AList.lookup_insert _)⟩
      unfold RenderRequest.totalFrames
      omega
    · exact hold r p hp (hother (Or.inl hpc))
  | addJobQueue hpc => exact fun r p hp => hold r p hp (hother (Or.inr (Or.inl rfl)))
  | @recordProgress t w j ctx link p₀ hpc hentry hdone =>
    intro r p hp
    rcases Table.lookup_insert_cases hp with ⟨rfl, rfl⟩ | ⟨-, hp⟩
    · -- the entry of the recorded frame's render
      obtain ⟨render, hrender, hacc, hsub⟩ := hI.progress_tracked _ _ hentry
      obtain ⟨_, l, -, rfl, -⟩ := hI.completion_link t w j ctx link hpc
      have hrec := hacc.record (i := ctx.frameIndex) (l := l)
      rw [hdone] at hrec
      exact ⟨render, hrender, hrec, hsub⟩
    · exact hold r p hp Or.inl
  | recordLast hpc hentry hdone =>
    exact fun r p hp => hold r p (Table.lookup_erase_cases hp).2 Or.inl
  | _ => exact fun r p hp => hold r p hp Or.inl

/-- **Invariant preservation.** Every step keeps the state well formed. -/
protected theorem step : s'.WF env where
  id_eq := hI.id_eq_step h
  submit_known := hI.submit_known_step h
  enqueue_fresh := hI.enqueue_fresh_step h
  pending_known := hI.pending_known_step h
  dispatch_known := hI.dispatch_known_step h
  job_dispatched := hI.job_dispatched_step h
  completion_known := hI.completion_known_step h
  completion_link := hI.completion_link_step h
  progress_tracked := hI.progress_tracked_step h

end State.WF

theorem State.WF.initial (env : Env) : State.initial.WF env := by
  constructor <;> intros <;> simp_all [State.initial]

/-- **Every reachable state is well formed.** -/
theorem State.WF.of_run {C : System.Condition State Label} {tr : List Label}
    (h : (scheduler env).Run C tr s) : s.WF env :=
  h.invariant (fun _ s => s.WF env) (.initial env) fun _ hI _ hs => hI.step (.of_step hs)

end Pathological
