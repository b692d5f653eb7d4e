import Pathological.Scheduler.CompletionHandler
import Pathological.Scheduler.Conservation

/-!
# Completion accounting

What the calls of `markRenderCompleted` add up to, whatever their order:

* a slot of a progress entry is filled exactly when a call for its frame has
  reached the progress section (`Completed`), so the entry goes with the first
  call after which every frame of the render is completed;
* the calls of the setters that follow are valid for their render
  (`Setter.Valid`): in particular the list of links that is published has one
  link for each frame, built from the key of that frame (`CompleteLinks`).

`markRenderCompleted` itself, all sections in one go, is what the steps of one
handler do when nobody interleaves (`Finishes.markRenderCompleted`), so the facts
about runs are facts about sequences of calls as well.
-/

namespace Pathological

open Framework

/-- A call of `markRenderCompleted` for the frame has reached its progress section. -/
def Completed (tr : List Label) (c : FrameJobContext) : Prop :=
  ∃ t, .recordFrame t c ∈ tr

/-- The link of each frame of the render, in order. -/
structure CompleteLinks (env : Env) (render : RenderRequest) (links : List String) : Prop where
  length_eq : links.length = render.totalFrames
  built : ∀ i l, links[i]? = some l → BuiltLink env (render.frameKey i) l

/-- The setter call writes what the render's frames call for. -/
def Setter.Valid (env : Env) (render : RenderRequest) : Setter → Prop
  | .framesCompleted n => n ≤ render.totalFrames
  | .downloadLinks links => CompleteLinks env render links
  | .downloadLink link => ∃ l, link = some l ∧ BuiltLink env (render.frameKey 0) l
  | .status st => st = .completed

/-- What a render shows to its clients is nothing yet, or what its frames call for. -/
structure RenderRequest.Published (env : Env) (render : RenderRequest) : Prop where
  links : render.downloadLinks = [] ∨ CompleteLinks env render render.downloadLinks
  link : ∀ l, render.downloadLink = some l → BuiltLink env (render.frameKey 0) l

/-! ### The setters after the progress section -/

section Setters

variable {env : Env} {render render' : RenderRequest} {links : List String}

theorem CompleteLinks.congr (h : CompleteLinks env render links)
    (hsub : render'.submitted = render.submitted) : CompleteLinks env render' links where
  length_eq := by rw [h.length_eq, RenderRequest.totalFrames_congr hsub]
  built i l hl := by
    rw [RenderRequest.frameKey_congr hsub]
    exact h.built i l hl

theorem Setter.Valid.congr {x : Setter} (h : x.Valid env render)
    (hsub : render'.submitted = render.submitted) : x.Valid env render' := by
  cases x with
  | framesCompleted n =>
    unfold Valid
    rw [RenderRequest.totalFrames_congr hsub]
    exact h
  | downloadLinks links => exact CompleteLinks.congr h hsub
  | downloadLink link =>
    unfold Valid
    rw [RenderRequest.frameKey_congr hsub]
    exact h
  | status st => exact h

/-- A valid setter call keeps what the render shows as it should be. -/
theorem RenderRequest.Published.apply {x : Setter} (h : render.Published env)
    (hx : x.Valid env render) : (x.apply render).Published env := by
  have hsub := x.apply_submitted render
  have hkeep : ∀ links, render.downloadLinks = links →
      links = [] ∨ CompleteLinks env (x.apply render) links := by
    rintro links rfl
    exact h.links.imp_right fun hc => hc.congr hsub
  refine ⟨?_, ?_⟩
  · cases x with
    | downloadLinks links => exact Or.inr (CompleteLinks.congr hx hsub)
    | _ => exact hkeep _ rfl
  · intro l hl
    rw [RenderRequest.frameKey_congr hsub]
    cases x with
    | downloadLink link =>
      obtain ⟨l', rfl, hbuilt⟩ := hx
      obtain rfl := Option.some.inj hl
      exact hbuilt
    | _ => exact h.link l hl

/-- The setter calls of a handler that has finalized a render of `n` frames. -/
def finalSetters (n : ℕ) (links : List String) : List Setter :=
  [.framesCompleted n, .downloadLinks links, .downloadLink links.head?, .status .completed]

/-- The setter calls that follow a full record are the final ones. -/
theorem RenderProgress.setters_full {p : RenderProgress} {n : ℕ} (hn : 0 < n)
    (hsize : p.frameLinks.length = n) (htotal : p.totalFrames = n) (hfull : p.Full n) :
    p.setters = finalSetters n p.orderedLinks := by
  have hdone : p.done = true := decide_eq_true (by rw [htotal, hfull.1])
  -- the guard of `setDownloadLink` in the source always holds: a render has a frame 0
  have hne : p.orderedLinks ≠ [] := by
    intro hnil
    have hlen : p.orderedLinks.length = n := by rw [orderedLinks, List.length_map, hsize]
    rw [hnil, List.length_nil] at hlen
    omega
  obtain ⟨l, rest, hl⟩ := List.exists_cons_of_ne_nil hne
  unfold setters finalSetters
  rw [if_pos hdone, hl, hfull.1]
  rfl

/-- No slot of a full record falls back on the filler. -/
theorem RenderProgress.orderedLinks_complete {p : RenderProgress} (hsize :
    p.frameLinks.length = render.totalFrames) (hfull : p.Full render.totalFrames)
    (hbuilt : ∀ i l, p.frameLinks[i]? = some (some l) → BuiltLink env (render.frameKey i) l) :
    CompleteLinks env render p.orderedLinks where
  length_eq := by rw [orderedLinks, List.length_map, hsize]
  built i l hl := by
    rw [orderedLinks, List.getElem?_map] at hl
    obtain ⟨o, ho, rfl⟩ := Option.map_eq_some_iff.mp hl
    -- the slot holds a link, so `getD` reads it
    have hi : i < render.totalFrames := hsize ▸ (List.getElem?_eq_some_iff.mp ho).1
    obtain ⟨l', hl'⟩ := hfull.2 i hi
    obtain rfl := Option.some.inj (ho.symm.trans hl')
    exact hbuilt i l' hl'

/-- A built link is never the filler. -/
theorem BuiltLink.ne_empty {key link : String} (h : BuiltLink env key link) : link ≠ "" := by
  obtain ⟨now, hlink⟩ := h
  unfold buildDownloadLink at hlink
  dsimp only at hlink
  split at hlink
  · -- the fallback starts with its scheme
    obtain rfl := Option.some.inj hlink
    simp
  · next hne =>
    obtain rfl := Option.some.inj hlink
    exact fun he => hne (by rw [he]; rfl)

theorem CompleteLinks.no_filler (h : CompleteLinks env render links) : "" ∉ links := by
  intro hmem
  obtain ⟨i, hi, he⟩ := List.mem_iff_getElem.mp hmem
  exact (h.built i "" (List.getElem?_eq_some_iff.mpr ⟨hi, he⟩)).ne_empty rfl

/-- The final setters of complete links are valid. -/
theorem CompleteLinks.finalSetters_valid (h : CompleteLinks env render links)
    (hn : 0 < render.totalFrames) :
    ∀ x ∈ finalSetters render.totalFrames links, x.Valid env render := by
  -- `head?` is the link of frame 0
  obtain ⟨l, rest, rfl⟩ : ∃ l rest, links = l :: rest := by
    refine List.exists_cons_of_ne_nil ?_
    rintro rfl
    have hlen := h.length_eq
    rw [List.length_nil] at hlen
    omega
  intro x hx
  simp only [finalSetters, List.mem_cons, List.not_mem_nil, or_false] at hx
  rcases hx with rfl | rfl | rfl | rfl
  · exact le_rfl
  · exact h
  · exact ⟨l, rfl, h.built 0 l rfl⟩
  · rfl

end Setters

/-! ### The invariant -/

/-- The progress map and the published links against the labels of the run. -/
structure State.Accounting (env : Env) (tr : List Label) (s : State) : Prop where
  slot_completed : ∀ r p i l, s.renderProgress.lookup r = some p →
    p.frameLinks[i]? = some (some l) → Completed tr ⟨r, i⟩ ∧ s.LinkOf env ⟨r, i⟩ (some l)
  completed_recorded : ∀ c, Completed tr c → s.Known c ∧ s.recorded c = true
  gone_completed : ∀ r render, s.history.lookup r = some render → s.Accepted r →
    s.renderProgress.lookup r = none → ∀ i, i < render.totalFrames → Completed tr ⟨r, i⟩
  todo_valid : ∀ t c todo id x, s.completions.lookup t = some c → c.pc = .publish todo →
    (id, x) ∈ todo → ∃ render, s.history.lookup id = some render ∧ x.Valid env render
  published : ∀ r render, s.history.lookup r = some render → render.Published env

variable {env : Env} {s s' : State} {a : Label} {tr : List Label}

theorem Completed.append {c : FrameJobContext} (h : Completed tr c) : Completed (tr ++ [a]) c := by
  obtain ⟨t, ht⟩ := h
  exact ⟨t, List.mem_append_left _ ht⟩

/-- A frame completed one label later is completed already, or by that label. -/
theorem Completed.cases {c : FrameJobContext} (h : Completed (tr ++ [a]) c) :
    Completed tr c ∨ ∃ t, a = .recordFrame t c := by
  obtain ⟨t, ht⟩ := h
  rcases List.mem_append.mp ht with ht | ht
  · exact Or.inl ⟨t, ht⟩
  · exact Or.inr ⟨t, (List.mem_singleton.mp ht).symm⟩

/-- The entry of a recording handler's render, with what it records. -/
theorem State.WF.record_full (hI : s.WF env) {t : ThreadId} {w : WorkerId} {j : JobId}
    {ctx : FrameJobContext} {link : Option String} {p : RenderProgress}
    (hpc : s.completions.lookup t = some ⟨w, j, .record ctx link⟩)
    (hentry : s.renderProgress.lookup ctx.renderId = some p) :
    ∃ render l, s.history.lookup ctx.renderId = some render ∧ link = some l ∧
      BuiltLink env (render.frameKey ctx.frameIndex) l ∧ ctx.frameIndex < render.totalFrames ∧
      p.Accounts render.totalFrames := by
  obtain ⟨render, l, hrender, rfl, hbuilt⟩ := hI.completion_link t w j ctx link hpc
  obtain ⟨render₁, hrender₁, hlt, -⟩ := hI.completion_known t _ ctx hpc rfl
  obtain ⟨render₂, hrender₂, hacc, -⟩ := hI.progress_tracked _ p hentry
  obtain rfl := Option.some.inj (hrender₁.symm.trans hrender)
  obtain rfl := Option.some.inj (hrender₂.symm.trans hrender)
  exact ⟨render₂, l, hrender, rfl, hbuilt, hlt, hacc⟩

/-- The setters that follow the record of the last missing frame: the final
ones, of complete links. -/
theorem RenderProgress.Accounts.last_setters {render : RenderRequest} {p : RenderProgress} {i : ℕ}
    {l : String} (hp : p.Accounts render.totalFrames) (hi : i < render.totalFrames)
    (hbuilt : BuiltLink env (render.frameKey i) l)
    (hslots : ∀ k l', p.frameLinks[k]? = some (some l') → BuiltLink env (render.frameKey k) l')
    (hdone : (p.record i (some l)).done = true) :
    ∃ links, CompleteLinks env render links ∧
      (p.record i (some l)).setters = finalSetters render.totalFrames links := by
  have hfull := hp.record (i := i) (l := l)
  rw [if_pos hdone] at hfull
  have hsize : (p.record i (some l)).frameLinks.length = render.totalFrames :=
    RenderProgress.record_size.trans hp.size
  refine ⟨(p.record i (some l)).orderedLinks, ?_, RenderProgress.setters_full (by omega) hsize
    (RenderProgress.record_total.trans hp.total) hfull⟩
  refine RenderProgress.orderedLinks_complete hsize hfull fun k l' hl' => ?_
  -- each link is the one just recorded, or one recorded before
  rw [RenderProgress.record_frameLinks] at hl'
  split at hl'
  · next hk =>
    obtain ⟨rfl, -⟩ := hk
    obtain rfl := Option.some.inj (Option.some.inj hl')
    exact hbuilt
  · exact hslots k l' hl'

/-- The links in the entry of a render are built for its frames. -/
theorem State.Accounting.slots_built (hA : s.Accounting env tr) {r : RenderId} {p : RenderProgress}
    {render : RenderRequest} (hentry : s.renderProgress.lookup r = some p)
    (hrender : s.history.lookup r = some render) :
    ∀ k l, p.frameLinks[k]? = some (some l) → BuiltLink env (render.frameKey k) l := by
  intro k l hl
  obtain ⟨-, render', l', hrender', hl', hbuilt⟩ := hA.slot_completed r p k l hentry hl
  obtain rfl := Option.some.inj (hrender'.symm.trans hrender)
  obtain rfl := Option.some.inj hl'
  exact hbuilt

/-- A recorded frame has been completed. -/
theorem State.Accounting.recorded_only (hA : s.Accounting env tr) {c : FrameJobContext}
    (hk : s.Known c) (hrec : s.recorded c = true) : Completed tr c := by
  obtain ⟨render, hrender, hlt, hret⟩ := hk
  cases hentry : s.renderProgress.lookup c.renderId with
  | none => exact hA.gone_completed _ render hrender (Or.inr hret) hentry _ hlt
  | some p =>
    obtain ⟨l, hl⟩ := (recordedIn_of_some hentry).mp hrec
    exact (hA.slot_completed _ p _ l hentry hl).1

namespace State.Accounting

variable (hI : s.WF env) (hA : s.Accounting env tr) (h : Step env s a s')

include hI hA h

theorem slot_completed_step : ∀ r p i l, s'.renderProgress.lookup r = some p →
    p.frameLinks[i]? = some (some l) →
    Completed (tr ++ [a]) ⟨r, i⟩ ∧ s'.LinkOf env ⟨r, i⟩ (some l) := by
  have hold : ∀ r p i l, s.renderProgress.lookup r = some p →
      p.frameLinks[i]? = some (some l) →
      Completed (tr ++ [a]) ⟨r, i⟩ ∧ s'.LinkOf env ⟨r, i⟩ (some l) := by
    intro r p i l hp hl
    obtain ⟨hcomp, hlink⟩ := hA.slot_completed r p i l hp hl
    exact ⟨hcomp.append, hlink.step h⟩
  have hstep := h
  cases h with
  | @addJobProgress id render hpc hrender hframes =>
    intro r p i l hp hl
    rcases Table.lookup_insert_cases hp with ⟨-, rfl⟩ | ⟨-, hp⟩
    · -- a fresh entry has no filled slot
      rw [RenderProgress.fresh_frameLinks] at hl
      split at hl <;> cases hl
    · exact hold r p i l hp hl
  | @recordProgress t w j ctx link p₀ hpc hentry hdone =>
    intro r p i l hp hl
    rcases Table.lookup_insert_cases hp with ⟨rfl, rfl⟩ | ⟨-, hp⟩
    · obtain ⟨render, l₀, hrender, rfl, hbuilt, -, -⟩ := hI.record_full hpc hentry
      rw [RenderProgress.record_frameLinks] at hl
      split at hl
      · next hi =>
        obtain ⟨rfl, -⟩ := hi
        obtain rfl := Option.some.inj (Option.some.inj hl)
        refine ⟨⟨t, List.mem_append_right _ (List.mem_singleton_self _)⟩, ?_⟩
        exact State.LinkOf.step ⟨render, l₀, hrender, rfl, hbuilt⟩ hstep
      · exact hold _ p₀ i l hentry hl
    · exact hold r p i l hp hl
  | recordLast hpc hentry hdone =>
    exact fun r p i l hp => hold r p i l (Table.lookup_erase_cases hp).2
  | _ => exact hold

theorem completed_recorded_step : ∀ c, Completed (tr ++ [a]) c →
    s'.Known c ∧ s'.recorded c = true := by
  have hold : ∀ c, Completed tr c → s'.renderProgress = s.renderProgress →
      s'.Known c ∧ s'.recorded c = true := by
    intro c hc hsame
    obtain ⟨hk, hr⟩ := hA.completed_recorded c hc
    refine ⟨hk.step h, ?_⟩
    unfold State.recorded
    rw [hsame]
    exact hr
  -- a step that leaves the progress map alone
  have hother : (∀ t c, a ≠ .recordFrame t c) → s'.renderProgress = s.renderProgress →
      ∀ c, Completed (tr ++ [a]) c → s'.Known c ∧ s'.recorded c = true := by
    intro ha hsame c hc
    rcases hc.cases with hc | ⟨t, rfl⟩
    · exact hold c hc hsame
    · exact absurd rfl (ha t c)
  -- the frame of a recording handler, and those completed before
  have hrecord : ∀ {t : ThreadId} {w : WorkerId} {j : JobId} {ctx : FrameJobContext}
      {link : Option String}, s.completions.lookup t = some ⟨w, j, .record ctx link⟩ →
      a = .recordFrame t ctx → (∀ c, s'.recorded c = (s.recorded c || decide (ctx = c)) ∨
        ¬ s.Known c) → ∀ c, Completed (tr ++ [a]) c → s'.Known c ∧ s'.recorded c = true := by
    intro t w j ctx link hpc ha hrec c hc
    have hk : s.Known c ∧ (s.recorded c = true ∨ ctx = c) := by
      rcases hc.cases with hc | ⟨t', ha'⟩
      · obtain ⟨hk, hr⟩ := hA.completed_recorded c hc
        exact ⟨hk, Or.inl hr⟩
      · obtain ⟨-, rfl⟩ := Label.recordFrame.inj (ha.symm.trans ha')
        exact ⟨hI.completion_known t _ ctx hpc rfl, Or.inr rfl⟩
    refine ⟨hk.1.step h, ?_⟩
    rw [(hrec c).resolve_right fun hn => hn hk.1, Bool.or_eq_true, decide_eq_true_iff]
    exact hk.2
  have hstep := h
  cases h with
  | @addJobProgress id render hpc hrender hframes =>
    have hid := hI.id_eq id render hrender
    subst hid
    intro c hc
    rcases hc.cases with hc | ⟨t, ha⟩
    · obtain ⟨hk, hr⟩ := hA.completed_recorded c hc
      refine ⟨hk.step hstep, ?_⟩
      have hsame : recordedIn (s.renderProgress.insert render.id (.fresh render.totalFrames)) c =
          recordedIn s.renderProgress c :=
        recordedIn_congr (AList.lookup_insert_ne (hk.owned.ne_of_addJob hpc))
      exact hsame.trans hr
    · cases ha
  | @recordProgress t w j ctx link p hpc hentry hdone =>
    obtain ⟨render, l, hrender, rfl, -, hlt, hp⟩ := hI.record_full hpc hentry
    refine hrecord hpc rfl fun c => Or.inl ?_
    exact recordedIn_record hentry (hp.size ▸ hlt)
  | @recordLast t w j ctx link p hpc hentry hdone =>
    obtain ⟨render, l, hrender, rfl, -, hlt, hp⟩ := hI.record_full hpc hentry
    have hfull := hp.record (i := ctx.frameIndex) (l := l)
    rw [if_pos hdone] at hfull
    refine hrecord hpc rfl fun c => ?_
    -- of the frames of the render, all are recorded by now
    by_cases hk : s.Known c
    · refine Or.inl (recordedIn_erase hentry hfull fun hr => ?_)
      obtain ⟨render', hrender', hi, -⟩ := hk
      rw [hr] at hrender'
      rwa [Option.some.inj (hrender.symm.trans hrender')]
    · exact Or.inr hk
  | @recordFinalized t w j ctx link hpc hnone =>
    refine hrecord hpc rfl fun c => Or.inl ?_
    by_cases he : ctx = c
    · subst he
      have hrec : s.recorded ctx = true := recordedIn_of_none hnone
      rw [hrec, Bool.true_or]
      exact hrec
    · rw [decide_eq_false he, Bool.or_false]
      rfl
  | _ => exact hother nofun rfl

theorem gone_completed_step : ∀ r render, s'.history.lookup r = some render → s'.Accepted r →
    s'.renderProgress.lookup r = none → ∀ i, i < render.totalFrames →
    Completed (tr ++ [a]) ⟨r, i⟩ := by
  intro r render hrender hacc hnone i hi
  have hold : s.Owned ⟨r, i⟩ → s.renderProgress.lookup r = none →
      Completed (tr ++ [a]) ⟨r, i⟩ := by
    rintro ⟨render₀, hrender₀, hi₀, hacc₀⟩ hnone₀
    exact (hA.gone_completed r render₀ hrender₀ hacc₀ hnone₀ i hi₀).append
  -- the render was accepted before: a new entry is not gone
  have hown : s.Owned ⟨r, i⟩ := by
    have hown' : s'.Owned ⟨r, i⟩ := ⟨render, hrender, hi, hacc⟩
    rcases h.owned_cases hI hown' with hown | ⟨render₀, -, hr₀, -, rfl⟩
    · exact hown
    · have hid := hI.id_eq _ render₀ hr₀
      have hsome : (s.renderProgress.insert render₀.id (.fresh render₀.totalFrames)).lookup r =
          some (.fresh render₀.totalFrames) := by
        rw [hid]
        exact AList.lookup_insert _
      cases hsome.symm.trans hnone
  cases h with
  | @addJobProgress id render₀ hpc hrender₀ hframes =>
    have hid := hI.id_eq id render₀ hrender₀
    subst hid
    exact hold hown ((AList.lookup_insert_ne (hown.ne_of_addJob hpc)).symm.trans hnone)
  | @recordProgress t w j ctx link p hpc hentry hdone =>
    -- an entry that is written back is not gone
    refine hold hown ?_
    have hne : r ≠ ctx.renderId := by
      rintro rfl
      cases (AList.lookup_insert _).symm.trans hnone
    exact (AList.lookup_insert_ne hne).symm.trans hnone
  | @recordLast t w j ctx link p hpc hentry hdone =>
    by_cases hr : r = ctx.renderId
    · -- the last slot: this frame, or one filled before
      subst hr
      obtain ⟨render₀, l, hrender₀, rfl, -, hlt, hp⟩ := hI.record_full hpc hentry
      obtain rfl := Option.some.inj (hrender₀.symm.trans hrender)
      have hfull := hp.record (i := ctx.frameIndex) (l := l)
      rw [if_pos hdone] at hfull
      obtain ⟨l', hl'⟩ := hfull.2 i hi
      rw [RenderProgress.record_frameLinks] at hl'
      split at hl'
      · next heq =>
        obtain ⟨rfl, -⟩ := heq
        exact ⟨t, List.mem_append_right _ (List.mem_singleton_self _)⟩
      · exact (hA.slot_completed _ p i l' hentry hl').1.append
    · exact hold hown ((AList.lookup_erase_ne hr).symm.trans hnone)
  | _ => exact hold hown hnone

theorem todo_valid_step : ∀ t c todo id x, s'.completions.lookup t = some c →
    c.pc = .publish todo → (id, x) ∈ todo →
    ∃ render, s'.history.lookup id = some render ∧ x.Valid env render := by
  -- a valid setter stays valid while the render runs on
  have hkeep : ∀ {id : RenderId} {x : Setter},
      (∃ render, s.history.lookup id = some render ∧ x.Valid env render) →
      ∃ render, s'.history.lookup id = some render ∧ x.Valid env render := by
    rintro id x ⟨render, hrender, hx⟩
    obtain ⟨render', hrender', hsub⟩ := h.history hrender
    exact ⟨render', hrender', hx.congr hsub⟩
  intro t c todo id x hc hpc hx
  apply hkeep
  cases h.todo hc hpc with
  | kept _ hc₀ hpc₀ => exact hA.todo_valid t _ todo id x hc₀ hpc₀ hx
  | nothing => cases hx
  | @recorded w j ctx link p _ hpc₀ hentry =>
    obtain ⟨render, l, hrender, rfl, hbuilt, hlt, hp⟩ := hI.record_full hpc₀ hentry
    obtain ⟨y, hy, hpair⟩ := List.mem_map.mp hx
    obtain ⟨rfl, rfl⟩ := Prod.mk.inj hpair
    refine ⟨render, hrender, ?_⟩
    cases hdone : (p.record ctx.frameIndex (some l)).done with
    | false =>
      -- short of the last frame, the count is the only setter call
      have hacc := hp.record (i := ctx.frameIndex) (l := l)
      rw [hdone] at hacc
      unfold RenderProgress.setters at hy
      rw [hdone] at hy
      obtain rfl := List.mem_singleton.mp hy
      exact le_of_lt hacc.below
    | true =>
      -- after the last frame, the final ones
      obtain ⟨links, hlinks, hset⟩ :=
        hp.last_setters hlt hbuilt (hA.slots_built hentry hrender) hdone
      rw [hset] at hy
      exact hlinks.finalSetters_valid (by omega) y hy
  | rest _ hpc₀ => exact hA.todo_valid t _ _ id x hpc₀ rfl (List.mem_cons_of_mem _ hx)

omit hI in
theorem published_step : ∀ r render, s'.history.lookup r = some render → render.Published env := by
  have hmodify : ∀ {id : RenderId} {x : Setter},
      (∀ render, s.history.lookup id = some render → render.Published env →
        (x.apply render).Published env) → ∀ r render,
      (s.history.modify id x.apply).lookup r = some render → render.Published env := by
    intro id x hx r render hr
    rw [Table.lookup_modify] at hr
    split at hr
    · next he =>
      subst he
      obtain ⟨render₀, hrender₀, rfl⟩ := Option.map_eq_some_iff.mp hr
      exact hx render₀ hrender₀ (hA.published r render₀ hrender₀)
    · exact hA.published r render hr
  cases h with
  | createAccepted hnew hpayload =>
    intro r render hr
    rcases Table.lookup_insert_cases hr with ⟨-, rfl⟩ | ⟨-, hr⟩
    · rw [← RenderRequest.submitted_of_ofPayload hpayload]
      exact ⟨Or.inl rfl, nofun⟩
    · exact hA.published r render hr
  | @publish t w j id x todo hpc =>
    -- the call was valid when it was left to do, and the render is still the same
    refine hmodify fun render hrender hpub => hpub.apply ?_
    obtain ⟨render', hrender', hx⟩ := hA.todo_valid t _ _ id x hpc rfl List.mem_cons_self
    rwa [Option.some.inj (hrender.symm.trans hrender')]
  | assignJob hnew hqueue hidle =>
    -- a status write shows nothing new
    refine hmodify fun render hrender hpub => ?_
    exact ⟨hpub.links.imp_right fun hc => hc.congr (Setter.apply_submitted _ _), hpub.link⟩
  | _ => exact hA.published

protected theorem step : s'.Accounting env (tr ++ [a]) where
  slot_completed := slot_completed_step hI hA h
  completed_recorded := completed_recorded_step hI hA h
  gone_completed := gone_completed_step hI hA h
  todo_valid := todo_valid_step hI hA h
  published := published_step hA h

end State.Accounting

theorem State.Accounting.initial (env : Env) : State.initial.Accounting env [] := by
  constructor
  · intro r p i l hp
    cases hp
  · rintro c ⟨t, ht⟩
    cases ht
  · intro r render hrender
    cases hrender
  · intro t c todo id x hc
    cases hc
  · intro r render hrender
    cases hrender

/-- **The accounts are right in every reachable state.** -/
theorem State.Accounting.of_run {C : System.Condition State Label}
    (h : (scheduler env).Run C tr s) : s.Accounting env tr :=
  h.invariant (fun tr s => s.Accounting env tr) (.initial env) fun hrun hA _ hs =>
    State.Accounting.step (.of_run hrun) hA (.of_step hs)

/-! ### `markRenderCompleted` in one go -/

section Sequential

variable {t : ThreadId} {w : WorkerId} {j : JobId} {id : RenderId}

/-- The state without the program counters of its `JobCompleted` handlers. -/
def State.sansHandlers (s : State) : State := { s with completions := ∅ }

theorem renderProgress_of_sansHandlers {s₁ s₂ : State} (h : s₁.sansHandlers = s₂.sansHandlers) :
    s₁.renderProgress = s₂.renderProgress := by
  show s₁.sansHandlers.renderProgress = s₂.sansHandlers.renderProgress
  rw [h]

/-- The setter calls leave the progress map alone, -/
theorem foldl_applySetter_progress (xs : List Setter) :
    ∀ s : State, (xs.foldl (fun s x => s.applySetter id x) s).renderProgress =
      s.renderProgress := by
  induction xs with
  | nil => exact fun _ => rfl
  | cons x xs ih => exact fun s => ih (s.applySetter id x)

/-- and are made on the render one after the other. -/
theorem foldl_applySetter_lookup (xs : List Setter) :
    ∀ s : State, (xs.foldl (fun s x => s.applySetter id x) s).history.lookup id =
      (s.history.lookup id).map fun render => xs.foldl (fun render x => x.apply render) render := by
  induction xs with
  | nil => exact fun s => Option.map_id'.symm
  | cons x xs ih =>
    intro s
    rw [List.foldl_cons, ih]
    have hx : (s.applySetter id x).history.lookup id = (s.history.lookup id).map x.apply :=
      Table.lookup_modify_self _ _ _
    rw [hx, Option.map_map]
    rfl

/-- The label is one of the handler's own, inside its `markRenderCompleted`. -/
def InMarkRenderCompleted (t : ThreadId) (now : ℕ) (a : Label) : Prop :=
  a = .takeJob t ∨ a = .buildLink t now ∨ (∃ ctx, a = .recordFrame t ctx) ∨ a = .publish t

/-- The handler's own steps lead from `s` to the end of its
`markRenderCompleted`, in the state `s'`, program counters aside. -/
def Finishes (env : Env) (now : ℕ) (t : ThreadId) (w : WorkerId) (j : JobId) (s s' : State) :
    Prop :=
  ∃ ls s₁, (∀ a ∈ ls, InMarkRenderCompleted t now a) ∧ (scheduler env).exec s ls = some s₁ ∧
    s₁.completions.lookup t = some ⟨w, j, .publish []⟩ ∧ s₁.sansHandlers = s'.sansHandlers

variable {now : ℕ} {s₀ s₁ s₂ : State}

theorem Finishes.refl (hpc : s₁.completions.lookup t = some ⟨w, j, .publish []⟩)
    (hsame : s₁.sansHandlers = s₂.sansHandlers) : Finishes env now t w j s₁ s₂ :=
  ⟨[], s₁, fun _ ha => absurd ha List.not_mem_nil, rfl, hpc, hsame⟩

theorem Finishes.cons (hstep : Step env s₀ a s₁) (ha : InMarkRenderCompleted t now a)
    (h : Finishes env now t w j s₁ s₂) : Finishes env now t w j s₀ s₂ := by
  obtain ⟨ls, s', hls, hexec, hpc, hsame⟩ := h
  refine ⟨a :: ls, s', ?_, (System.exec_cons_of_step hstep.to_step).trans hexec, hpc, hsame⟩
  intro b hb
  rcases List.mem_cons.mp hb with rfl | hb
  · exact ha
  · exact hls b hb

/-- A handler runs its setter calls one after the other. -/
theorem Finishes.publish (xs : List Setter) : ∀ s₁ s₂ : State,
    s₁.completions.lookup t = some ⟨w, j, .publish (xs.map fun x => (id, x))⟩ →
    s₁.sansHandlers = s₂.sansHandlers →
    Finishes env now t w j s₁ (xs.foldl (fun s x => s.applySetter id x) s₂) := by
  induction xs with
  | nil => exact fun s₁ s₂ hpc hsame => .refl hpc hsame
  | cons x xs ih =>
    intro s₁ s₂ hpc hsame
    refine .cons (.publish hpc) (Or.inr (Or.inr (Or.inr rfl))) (ih _ _ (AList.lookup_insert _) ?_)
    -- both sides make the same call
    exact congrArg (fun s : State => s.applySetter id x) hsame

/-- A handler at its progress section runs to the end. -/
theorem Finishes.recordFrame {ctx : FrameJobContext} {link : Option String} {xs : List Setter}
    {s₃ : State} (hrec : s₂.recordFrame ctx link = some (xs, s₃))
    (hpc : s₁.completions.lookup t = some ⟨w, j, .record ctx link⟩)
    (hsame : s₁.sansHandlers = s₂.sansHandlers) :
    Finishes env now t w j s₁ (xs.foldl (fun s x => s.applySetter ctx.renderId x) s₃) := by
  have hlabel : InMarkRenderCompleted t now (.recordFrame t ctx) :=
    Or.inr (Or.inr (Or.inl ⟨ctx, rfl⟩))
  have hprogress := renderProgress_of_sansHandlers hsame
  unfold State.recordFrame at hrec
  cases hentry : s₂.renderProgress.lookup ctx.renderId with
  | none =>
    rw [hentry] at hrec
    cases hrec
  | some p =>
    have hentry₁ : s₁.renderProgress.lookup ctx.renderId = some p := by rw [hprogress, hentry]
    -- the entry is erased or written back, and the setter calls follow either way
    cases hdone : (p.record ctx.frameIndex link).done with
    | true =>
      simp only [hentry, hdone, if_true, Option.some.injEq, Prod.mk.injEq] at hrec
      obtain ⟨rfl, rfl⟩ := hrec
      refine .cons (.recordLast hpc hentry₁ hdone) hlabel
        (.publish _ _ _ (AList.lookup_insert _) ?_)
      exact congrArg (fun s : State =>
        { s with renderProgress := s.renderProgress.erase ctx.renderId }) hsame
    | false =>
      simp only [hentry, hdone, Bool.false_eq_true, if_false, Option.some.injEq,
        Prod.mk.injEq] at hrec
      obtain ⟨rfl, rfl⟩ := hrec
      refine .cons (.recordProgress hpc hentry₁ hdone) hlabel
        (.publish _ _ _ (AList.lookup_insert _) ?_)
      exact congrArg (fun s : State =>
        { s with renderProgress :=
            s.renderProgress.insert ctx.renderId (p.record ctx.frameIndex link) }) hsame

/-- A handler whose render is finalized already has nothing left to do. -/
theorem Finishes.finalized {ctx : FrameJobContext} {link : Option String}
    (hrec : s₂.recordFrame ctx link = none)
    (hpc : s₁.completions.lookup t = some ⟨w, j, .record ctx link⟩)
    (hsame : s₁.sansHandlers = s₂.sansHandlers) :
    Finishes env now t w j s₁ s₂ := by
  have hprogress := renderProgress_of_sansHandlers hsame
  unfold State.recordFrame at hrec
  cases hentry : s₂.renderProgress.lookup ctx.renderId with
  | none =>
    rw [← hprogress] at hentry
    exact .cons (.recordFinalized hpc hentry) (Or.inr (Or.inr (Or.inl ⟨ctx, rfl⟩)))
      (.refl (AList.lookup_insert _) hsame)
  | some p =>
    simp only [hentry] at hrec
    split at hrec <;> cases hrec

/-- **`markRenderCompleted` is what its handler does undisturbed**: from the
start of its lookup, the handler's own steps lead to the state that
`markRenderCompleted` computes. -/
theorem Finishes.markRenderCompleted (hpc : s.completions.lookup t = some ⟨w, j, .take⟩) :
    Finishes env now t w j s (s.markRenderCompleted env now j).2 := by
  have htake : InMarkRenderCompleted t now (.takeJob t) := Or.inl rfl
  have hlink : InMarkRenderCompleted t now (.buildLink t now) := Or.inr (Or.inl rfl)
  unfold State.markRenderCompleted State.takeJob
  cases hjob : s.workerJobToRenderId.lookup j with
  | none => exact .cons (.takeUnknown hpc hjob) htake (.refl (AList.lookup_insert _) rfl)
  | some ctx =>
    refine .cons (.takeJob hpc hjob) htake ?_
    dsimp only
    cases hrender : s.history.lookup ctx.renderId with
    | none =>
      exact .cons (.buildLinkLost (AList.lookup_insert _) hrender) hlink
        (.refl (AList.lookup_insert _) rfl)
    | some render =>
      refine .cons (.buildLink (AList.lookup_insert _) hrender) hlink ?_
      dsimp only
      split
      · next hrec => exact .finalized hrec (AList.lookup_insert _) rfl
      · next xs s₃ hrec => exact .recordFrame hrec (AList.lookup_insert _) rfl

end Sequential

/-! ### The accounts of one render -/

/-- The accounts of an accepted render, in the state the labels `tr` lead to. -/
structure RenderAccounts (env : Env) (tr : List Label) (s : State) (r : RenderId)
    (render : RenderRequest) : Prop where
  /-- While the entry is there, its counter is the number of filled slots, which
  is below the number of slots, one for each frame. -/
  entry : ∀ p, s.renderProgress.lookup r = some p →
    p.framesCompleted = p.frameLinks.countP Option.isSome ∧
      p.framesCompleted < render.totalFrames ∧ p.frameLinks.length = render.totalFrames
  /-- The entry is gone exactly when every frame has been completed at least once. -/
  gone_iff : s.renderProgress.lookup r = none ↔
    ∀ i, i < render.totalFrames → Completed tr ⟨r, i⟩
  /-- The step that removes the entry completes a frame, and leaves its handler
  with the complete links to publish. -/
  removal : ∀ a s', (scheduler env).step s a = some s' → s.renderProgress.lookup r ≠ none →
    s'.renderProgress.lookup r = none → ∃ t i c links, a = .recordFrame t ⟨r, i⟩ ∧
      s'.completions.lookup t = some c ∧
      c.pc = .publish ((finalSetters render.totalFrames links).map fun x => (r, x)) ∧
      CompleteLinks env render links ∧ "" ∉ links
  /-- The call of `markRenderCompleted` that removes the entry publishes them. -/
  call : ∀ now j s', (s.markRenderCompleted env now j).2 = s' →
    s.renderProgress.lookup r ≠ none → s'.renderProgress.lookup r = none →
    ∃ render', s'.history.lookup r = some render' ∧ render'.status = .completed ∧
      CompleteLinks env render render'.downloadLinks ∧ "" ∉ render'.downloadLinks ∧
      render'.downloadLink = render'.downloadLinks[0]?
  /-- What the render shows is nothing, or its complete links. -/
  shown : render.Published env

/-- The step that removes a render's entry. -/
theorem State.Accounting.removal (hI : s.WF env) (hA : s.Accounting env tr) {r : RenderId}
    {render : RenderRequest} (hrender : s.history.lookup r = some render)
    (h : Step env s a s') (hsome : s.renderProgress.lookup r ≠ none)
    (hnone : s'.renderProgress.lookup r = none) :
    ∃ t i c links, a = .recordFrame t ⟨r, i⟩ ∧ s'.completions.lookup t = some c ∧
      c.pc = .publish ((finalSetters render.totalFrames links).map fun x => (r, x)) ∧
      CompleteLinks env render links ∧ "" ∉ links := by
  have hinsert : ∀ {id : RenderId} {p : RenderProgress},
      (s.renderProgress.insert id p).lookup r ≠ none := by
    intro id p hn
    rw [Table.lookup_insert'] at hn
    split at hn
    · cases hn
    · exact hsome hn
  cases h with
  | addJobProgress => exact absurd hnone hinsert
  | recordProgress => exact absurd hnone hinsert
  | @recordLast t w j ctx link p hpc hentry hdone =>
    -- no other entry is erased
    have hr : r = ctx.renderId := by
      by_contra hne
      exact hsome ((AList.lookup_erase_ne hne).symm.trans hnone)
    subst hr
    obtain ⟨render', l, hrender', rfl, hbuilt, hlt, hp⟩ := hI.record_full hpc hentry
    obtain rfl := Option.some.inj (hrender'.symm.trans hrender)
    obtain ⟨links, hlinks, hset⟩ :=
      hp.last_setters hlt hbuilt (hA.slots_built hentry hrender) hdone
    refine ⟨t, ctx.frameIndex, _, links, rfl, AList.lookup_insert _, ?_, hlinks, hlinks.no_filler⟩
    rw [← hset]
  | _ => exact absurd hnone hsome

/-- The call that removes a render's entry. -/
theorem State.Accounting.call (hI : s.WF env) (hA : s.Accounting env tr) {r : RenderId}
    {render : RenderRequest} (hrender : s.history.lookup r = some render) (now : ℕ) (j : JobId)
    (hsome : s.renderProgress.lookup r ≠ none)
    (hnone : (s.markRenderCompleted env now j).2.renderProgress.lookup r = none) :
    ∃ render', (s.markRenderCompleted env now j).2.history.lookup r = some render' ∧
      render'.status = .completed ∧ CompleteLinks env render render'.downloadLinks ∧
      "" ∉ render'.downloadLinks ∧ render'.downloadLink = render'.downloadLinks[0]? := by
  unfold State.markRenderCompleted State.takeJob State.recordFrame at hnone ⊢
  cases hjob : s.workerJobToRenderId.lookup j with
  | none =>
    simp only [hjob] at hnone
    exact absurd hnone hsome
  | some ctx =>
    -- a registered frame is one of a render in the history
    obtain ⟨d, hd, hctx⟩ := hI.job_dispatched j ctx hjob
    obtain ⟨render₀, hrender₀, hlt, -⟩ := hI.dispatch_known j d hd
    rw [hctx] at hrender₀ hlt
    simp only [hjob, hrender₀] at hnone ⊢
    cases hentry : s.renderProgress.lookup ctx.renderId with
    | none =>
      simp only [hentry] at hnone
      exact absurd hnone hsome
    | some p =>
      simp only [hentry] at hnone ⊢
      obtain ⟨l, hl, hbuilt⟩ :=
        exists_buildDownloadLink env now (render₀.frameKey ctx.frameIndex)
      rw [hl] at hnone ⊢
      obtain ⟨render₁, hrender₁, hp, -⟩ := hI.progress_tracked _ p hentry
      obtain rfl := Option.some.inj (hrender₁.symm.trans hrender₀)
      cases hdone : (p.record ctx.frameIndex (some l)).done with
      | false =>
        simp only [hdone, Bool.false_eq_true, if_false, foldl_applySetter_progress] at hnone
        rw [Table.lookup_insert'] at hnone
        split at hnone
        · cases hnone
        · exact absurd hnone hsome
      | true =>
        simp only [hdone, if_true, foldl_applySetter_progress] at hnone ⊢
        have hr : r = ctx.renderId := by
          by_contra hne
          exact hsome ((AList.lookup_erase_ne hne).symm.trans hnone)
        subst hr
        obtain rfl := Option.some.inj (hrender₁.symm.trans hrender)
        obtain ⟨links, hlinks, hset⟩ :=
          hp.last_setters hlt hbuilt (hA.slots_built hentry hrender) hdone
        rw [hset, foldl_applySetter_lookup]
        dsimp only
        rw [hrender]
        exact ⟨_, rfl, rfl, hlinks.congr rfl, hlinks.no_filler, List.head?_eq_getElem?⟩

/-- **Completion accounting.** In every reachable state, the accounts of every
accepted render are right. -/
theorem completion_accounting {r : RenderId} {render : RenderRequest}
    (hrun : (scheduler env).Reaches tr s) (hrender : s.history.lookup r = some render)
    (hacc : s.Accepted r) : RenderAccounts env tr s r render := by
  have hI := State.WF.of_run hrun
  have hA := State.Accounting.of_run hrun
  have haccounts : ∀ p, s.renderProgress.lookup r = some p → p.Accounts render.totalFrames := by
    intro p hp
    obtain ⟨render', hrender', haccounts, -⟩ := hI.progress_tracked r p hp
    rwa [Option.some.inj (hrender.symm.trans hrender')]
  refine ⟨fun p hp => ?_, ⟨hA.gone_completed r render hrender hacc, fun hall => ?_⟩,
    fun a s' hs => hA.removal hI hrender (.of_step hs), ?_, hA.published r render hrender⟩
  · have h := haccounts p hp
    exact ⟨h.counted, h.below, h.size⟩
  · -- an entry that is still there has an empty slot, whose frame is not completed
    by_contra hsome
    obtain ⟨p, hp⟩ := Option.ne_none_iff_exists'.mp hsome
    obtain ⟨i, hi, hempty⟩ := (haccounts p hp).exists_empty
    obtain ⟨l, hl⟩ := (recordedIn_of_some hp).mp (hA.completed_recorded _ (hall i hi)).2
    cases hempty.symm.trans hl
  · rintro now j s' rfl
    exact hA.call hI hrender now j

/-- A two-frame render whose frames are completed in the order 1, 0. -/
def completedInReverse : List Label :=
  [.establishConnection 0 ⟨"10.0.0.1", "v", 50051⟩, .registerWorker 0 "v",
    .establishConnection 1 ⟨"10.0.0.2", "w", 50051⟩, .registerWorker 1 "w",
    .createRenderRequest "r" (samplePayload 2) "now", .addJobProgress "r", .addJobQueue "r",
    .assignJob "j0", .assignJob "j1",
    .jobCompleted 2 "w" "j1", .takeJob 2, .buildLink 2 0, .recordFrame 2 ⟨"r", 1⟩, .publish 2,
    .markWorkerIdle 2, .jobCompleted 3 "v" "j0", .takeJob 3, .buildLink 3 1,
    .recordFrame 3 ⟨"r", 0⟩, .publish 3, .publish 3, .publish 3, .publish 3]

theorem completion_accounting_completedInReverse :
    RenderAccounts sampleEnv completedInReverse ((scheduler sampleEnv).after completedInReverse)
      "r"
      { id := "r", status := .completed, width := 64, height := 64, framesPerSecond := 24,
        animationRuntime := 2, framesCompleted := 2, samplesPerPixel := 1,
        sceneFileUrl := "scene.gltf", createdAt := "now", outputFileName := "out",
        downloadLink := some "out_0", downloadLinks := ["out_0", "out_1"] } := by
  have hrun : (scheduler sampleEnv).Reaches completedInReverse _ := .after (by decide)
  exact completion_accounting hrun (by decide) (Or.inr (by decide))

end Pathological
