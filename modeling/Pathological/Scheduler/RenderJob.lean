import Pathological.Scheduler.Accounting

/-!
# What clients see of a render

`RenderRequest::toJson`, the record that `createRenderRequest`, `getStatus` and
`listRenders` answer with. It shows links only for a render that is COMPLETED, and
then they are there: `markRenderCompleted` writes the status last, so a handler with
COMPLETED still to write has the links still to write before it, or has written them
(`LinksFirst`).
-/

namespace Pathological

open Framework

/-- `renderStatusToString`. -/
def renderStatusToString : RenderStatus → String
  | .completed => "Completed"
  | .inProgress => "In Progress"
  | .inQueue => "In Queue"
  | .error => "Error"

theorem renderStatusToString_eq_completed {st : RenderStatus} :
    renderStatusToString st = "Completed" ↔ st = .completed := by
  cases st <;> decide

/-- What clients get of a render, `RenderJob` in the frontend. -/
structure RenderJob where
  id : RenderId
  status : String
  width : ℤ
  height : ℤ
  framesPerSecond : ℤ
  animationRuntime : ℤ
  framesCompleted : ℤ
  executionTime : ℤ
  samplesPerPixel : ℤ
  createdAt : String
  sceneFileUrl : String
  outputFilename : String
  downloadLink : Option String
  downloadLinks : List String
  deriving DecidableEq, Repr

/-- `toJson`. -/
def RenderRequest.toJson (r : RenderRequest) : RenderJob where
  id := r.id
  status := renderStatusToString r.status
  width := r.width
  height := r.height
  framesPerSecond := r.framesPerSecond
  animationRuntime := r.animationRuntime
  framesCompleted := r.framesCompleted
  executionTime := r.executionTime
  samplesPerPixel := r.samplesPerPixel
  createdAt := r.createdAt
  sceneFileUrl := r.sceneFileUrl
  outputFilename := r.outputFileName
  downloadLink := if r.status = .completed then r.downloadLink else none
  downloadLinks := if r.status = .completed then r.downloadLinks else []

/-- The record answers a client in the state: that of a render in the history. -/
def State.Answers (s : State) (job : RenderJob) : Prop :=
  ∃ r render, s.history.lookup r = some render ∧ job = render.toJson

/-! ### A completed render shows its links -/

/-- The render shows a link for each of its frames, of which there are some. -/
structure RenderRequest.Shown (env : Env) (render : RenderRequest) : Prop where
  complete : CompleteLinks env render render.downloadLinks
  nonempty : render.downloadLinks ≠ []

/-- Before COMPLETED is written to a render, its links are, or have been. -/
def LinksFirst (env : Env) (history : Table RenderId RenderRequest)
    (todo : List (RenderId × Setter)) : Prop :=
  ∀ before after id, todo = before ++ (id, .status .completed) :: after →
    (∃ links, links ≠ [] ∧ (id, .downloadLinks links) ∈ before) ∨
    ∃ render, history.lookup id = some render ∧ render.Shown env

/-- The links of every render that is COMPLETED are there, and written first where
COMPLETED is still to be written. -/
structure State.ShowsLinks (env : Env) (s : State) : Prop where
  pending : ∀ t c todo, s.completions.lookup t = some c → c.pc = .publish todo →
    LinksFirst env s.history todo
  completed : ∀ r render, s.history.lookup r = some render → render.status = .completed →
    render.Shown env

section Shown

variable {env : Env} {render : RenderRequest} {history : Table RenderId RenderRequest}
  {n : ℕ} {links : List String} {id : RenderId}

/-- A setter call keeps the links, or writes those of the same frames. -/
theorem RenderRequest.Shown.apply {x : Setter} (h : render.Shown env)
    (hx : ∀ links, x = .downloadLinks links → CompleteLinks env render links) :
    (x.apply render).Shown env := by
  have hsub := x.apply_submitted render
  cases x with
  | downloadLinks links =>
    have hlinks := hx links rfl
    refine ⟨hlinks.congr hsub, ?_⟩
    -- there are as many as before
    rw [← List.length_pos_iff]
    calc 0 < render.downloadLinks.length := List.length_pos_iff.mpr h.nonempty
      _ = render.totalFrames := h.complete.length_eq
      _ = links.length := hlinks.length_eq.symm
  | framesCompleted n => exact ⟨h.complete.congr hsub, h.nonempty⟩
  | downloadLink link => exact ⟨h.complete.congr hsub, h.nonempty⟩
  | status st => exact ⟨h.complete.congr hsub, h.nonempty⟩

theorem linksFirst_nil : LinksFirst env history [] := by
  intro before after id h
  exact absurd h (by simp)

/-- A count is written without COMPLETED, -/
theorem linksFirst_framesCompleted :
    LinksFirst env history (List.map (fun x => (id, x)) [.framesCompleted n]) := by
  intro before after id' h
  have hmem : (id', Setter.status .completed) ∈
      List.map (fun x => (id, x)) [.framesCompleted n] := by
    rw [h]
    exact List.mem_append_right _ List.mem_cons_self
  simp at hmem

/-- and the final setter calls are in this order. -/
theorem linksFirst_finalSetters (hlinks : links ≠ []) :
    LinksFirst env history ((finalSetters n links).map fun x => (id, x)) := by
  intro before after id' h
  refine .inl ⟨links, hlinks, ?_⟩
  unfold finalSetters at h
  match before with
  | [] => simp at h
  | [_] => simp at h
  | _ :: b :: before =>
    simp only [List.map_cons, List.map_nil, List.cons_append, List.cons.injEq] at h
    obtain ⟨-, rfl, h⟩ := h
    -- all calls are on one render
    have hid : (id', Setter.status .completed) ∈
        [(id, Setter.downloadLink links.head?), (id, .status .completed)] := by
      rw [h]
      exact List.mem_append_right _ List.mem_cons_self
    have hid : id' = id := by simpa using hid
    rw [hid]
    simp

end Shown

namespace State.ShowsLinks

variable {env : Env} {s s' : State} {a : Label} {tr : List Label}

/-- The links a handler has still to write are complete. -/
theorem links_valid (hA : s.Accounting env tr) {t : ThreadId} {w : WorkerId} {j : JobId}
    {id : RenderId} {x : Setter} {todo : List (RenderId × Setter)}
    (hpc : s.completions.lookup t = some ⟨w, j, .publish ((id, x) :: todo)⟩)
    {render : RenderRequest} (hrender : s.history.lookup id = some render) :
    ∀ links, x = .downloadLinks links → CompleteLinks env render links := by
  rintro links rfl
  obtain ⟨render', hrender', hx⟩ := hA.todo_valid t _ _ id _ hpc rfl List.mem_cons_self
  rwa [Option.some.inj (hrender.symm.trans hrender')]

variable (hI : s.WF env) (hA : s.Accounting env tr) (hS : s.ShowsLinks env) (h : Step env s a s')

include hA h

/-- What a render shows it goes on to show. -/
theorem shown_step {r : RenderId} (hshown : ∃ render, s.history.lookup r = some render ∧
    render.Shown env) : ∃ render, s'.history.lookup r = some render ∧ render.Shown env := by
  obtain ⟨render, hrender, hshown⟩ := hshown
  have hmodify {id : RenderId} {x : Setter} (hx : ∀ render, s.history.lookup id = some render →
      ∀ links, x = .downloadLinks links → CompleteLinks env render links) :
      ∃ render', (s.history.modify id x.apply).lookup r = some render' ∧ render'.Shown env := by
    rw [Table.lookup_modify, hrender]
    split
    · next he =>
      subst he
      exact ⟨_, rfl, hshown.apply (hx render hrender)⟩
    · exact ⟨render, rfl, hshown⟩
  cases h with
  | @createAccepted id payload timestamp render' hnew hpayload =>
    have hne : r ≠ id := by
      rintro rfl
      exact hnew (AList.lookup_isSome.mp (by rw [hrender]; rfl))
    exact ⟨render, (AList.lookup_insert_ne hne).trans hrender, hshown⟩
  | @publish t w j id x todo hpc => exact hmodify fun _ => links_valid hA hpc
  | assignJob hnew hqueue hidle => exact hmodify fun _ _ => nofun
  | _ => exact ⟨render, hrender, hshown⟩

include hI hS

theorem pending_step : ∀ t c todo, s'.completions.lookup t = some c → c.pc = .publish todo →
    LinksFirst env s'.history todo := by
  intro t c todo hc hpc
  cases h.todo hc hpc with
  | kept _ hc₀ hpc₀ =>
    intro before after id htodo
    exact (hS.pending t _ todo hc₀ hpc₀ before after id htodo).imp_right (shown_step hA h)
  | nothing => exact linksFirst_nil
  | @recorded w j ctx link p _ hpc₀ hentry =>
    cases hdone : (p.record ctx.frameIndex link).done with
    | false =>
      unfold RenderProgress.setters
      rw [hdone]
      exact linksFirst_framesCompleted
    | true =>
      obtain ⟨render, l, hrender, rfl, hbuilt, hlt, hp⟩ := hI.record_full hpc₀ hentry
      obtain ⟨links, hlinks, hsetters⟩ :=
        hp.last_setters hlt hbuilt (hA.slots_built hentry hrender) hdone
      rw [hsetters]
      apply linksFirst_finalSetters
      rw [← List.length_pos_iff, hlinks.length_eq]
      omega
  | @rest w j id₀ x₀ todo _ hpc₀ hhistory =>
    intro before after id hsplit
    have hfirst := hS.pending t _ _ hpc₀ rfl ((id₀, x₀) :: before) after id (by rw [hsplit]; rfl)
    rcases hfirst with ⟨links, hlinks, hmem⟩ | hshown
    · rcases List.mem_cons.mp hmem with heq | hmem
      · -- the links have just been written
        obtain ⟨rfl, rfl⟩ := Prod.mk.inj heq
        obtain ⟨render, hrender, hx⟩ := hA.todo_valid t _ _ id _ hpc₀ rfl List.mem_cons_self
        refine .inr ⟨(Setter.downloadLinks links).apply render, ?_,
          ⟨CompleteLinks.congr hx (Setter.apply_submitted _ _), hlinks⟩⟩
        rw [hhistory, Table.lookup_modify_self, hrender]
        rfl
      · exact .inl ⟨links, hlinks, hmem⟩
    · exact .inr (shown_step hA h hshown)

omit hI in
theorem completed_step : ∀ r render, s'.history.lookup r = some render →
    render.status = .completed → render.Shown env := by
  intro r render' hrender' hcompleted
  -- it is enough that the render has been shown before
  have hkeep (hshown : ∃ render, s.history.lookup r = some render ∧ render.Shown env) :
      render'.Shown env := by
    obtain ⟨render, hrender, hshown⟩ := shown_step hA h hshown
    rwa [Option.some.inj (hrender'.symm.trans hrender)]
  have hold (hrender : s.history.lookup r = some render') : render'.Shown env :=
    hS.completed r render' hrender hcompleted
  cases h with
  | @createAccepted id payload timestamp render hnew hpayload =>
    rcases Table.lookup_insert_cases hrender' with ⟨-, rfl⟩ | ⟨-, hrender⟩
    · rw [RenderRequest.status_of_ofPayload hpayload] at hcompleted
      cases hcompleted
    · exact hold hrender
  | @publish t w j id x todo hpc =>
    have hmodified : (s.history.modify id x.apply).lookup r = some render' := hrender'
    rw [Table.lookup_modify] at hmodified
    split at hmodified
    · next he =>
      subst he
      obtain ⟨render, hrender, rfl⟩ := Option.map_eq_some_iff.mp hmodified
      cases x with
      | status st =>
        obtain rfl : st = .completed := hcompleted
        rcases hS.pending t _ _ hpc rfl [] todo r rfl with ⟨links, -, hmem⟩ | hshown
        · cases hmem
        · exact hkeep hshown
      | _ => exact hkeep ⟨render, hrender, hS.completed r render hrender hcompleted⟩
    · exact hold hmodified
  | @assignJob job f rest w hnew hqueue hidle =>
    have hmodified : (s.history.modify f.renderRequest (Setter.status .inProgress).apply).lookup r =
        some render' := hrender'
    rw [Table.lookup_modify] at hmodified
    split at hmodified
    · obtain ⟨render, hrender, rfl⟩ := Option.map_eq_some_iff.mp hmodified
      cases hcompleted
    · exact hold hmodified
  | _ => exact hold hrender'

protected theorem step : s'.ShowsLinks env where
  pending := pending_step hI hA hS h
  completed := completed_step hA hS h

end State.ShowsLinks

section Run

variable {env : Env} {s : State} {tr : List Label}

theorem State.ShowsLinks.initial (env : Env) : State.initial.ShowsLinks env := by
  constructor
  · intro t c todo hc
    cases hc
  · intro r render hrender
    cases hrender

/-- **COMPLETED comes with the links**, in every reachable state. -/
theorem State.ShowsLinks.of_run {C : System.Condition State Label}
    (h : (scheduler env).Run C tr s) : s.ShowsLinks env :=
  h.invariant (fun _ s => s.ShowsLinks env) (.initial env) fun hrun hS _ hs =>
    State.ShowsLinks.step (.of_run hrun) (.of_run hrun) hS (.of_step hs)

/-- So a client that is answered "Completed" gets the link of each frame. -/
theorem State.Answers.complete {job : RenderJob} (hjob : s.Answers job)
    (hrun : (scheduler env).Reaches tr s) (hstatus : job.status = "Completed") :
    ∃ render : RenderRequest, job = render.toJson ∧ CompleteLinks env render job.downloadLinks ∧
      job.downloadLinks ≠ [] := by
  obtain ⟨r, render, hrender, rfl⟩ := hjob
  have hcompleted := renderStatusToString_eq_completed.mp hstatus
  have hshown := (State.ShowsLinks.of_run hrun).completed r render hrender hcompleted
  have hlinks : render.toJson.downloadLinks = render.downloadLinks := if_pos hcompleted
  rw [hlinks]
  exact ⟨render, rfl, hshown.complete, hshown.nonempty⟩

/-- The one link a client gets is that of the first frame, or there is none. -/
theorem State.Answers.link {job : RenderJob} (hjob : s.Answers job)
    (hrun : (scheduler env).Reaches tr s) :
    ∃ render : RenderRequest, job = render.toJson ∧
      ∀ link, job.downloadLink = some link → BuiltLink env (render.frameKey 0) link := by
  obtain ⟨r, render, hrender, rfl⟩ := hjob
  refine ⟨render, rfl, ?_⟩
  intro link hlink
  obtain ⟨-, hlink⟩ := Option.ite_none_right_eq_some.mp hlink
  exact ((State.Accounting.of_run hrun).published r render hrender).link link hlink

end Run

end Pathological
