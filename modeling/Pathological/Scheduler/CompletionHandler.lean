import Pathological.Scheduler.JobIds

/-!
# The steps of one `JobCompleted` handler

A handler past its `findWorkerByID` takes one step after another, each where its
program counter stands (`Step.next`), and no step of another thread moves it
(`Step.other`). The setter calls that it has still to make come with the frame that it
records, and go one by one (`Step.todo`).
-/

namespace Pathological

open Framework

/-- The `JobCompleted` handler the label is a step of, past its `findWorkerByID`. -/
def Label.completionThread : Label → Option ThreadId
  | .takeJob t | .buildLink t _ | .recordFrame t _ | .publish t | .markWorkerIdle t => some t
  | _ => none

variable {env : Env} {s s' : State} {a : Label} {t : ThreadId} {w : WorkerId} {j : JobId}

/-- The step a handler of the thread `t` takes next. -/
def CompletionPc.Next (t : ThreadId) : CompletionPc → Label → Prop
  | .take, a => a = .takeJob t
  | .link _, a => ∃ now, a = .buildLink t now
  | .record ctx _, a => a = .recordFrame t ctx
  | .publish (_ :: _), a => a = .publish t
  | .publish [], a => a = .markWorkerIdle t
  | .answered, _ => False

/-- A handler takes the step its program counter stands at. -/
theorem Step.own (h : Step env s a s') (ha : a.completionThread = some t) :
    ∃ c, s.completions.lookup t = some c ∧ c.pc.Next t a := by
  cases h with
  | takeJob hpc | takeUnknown hpc | recordProgress hpc | recordLast hpc | recordFinalized hpc
  | publish hpc | markWorkerIdle hpc =>
    obtain rfl := Option.some.inj ha
    exact ⟨_, hpc, rfl⟩
  | buildLink hpc | buildLinkLost hpc =>
    obtain rfl := Option.some.inj ha
    exact ⟨_, hpc, _, rfl⟩
  | _ => cases ha

/-- The step of a handler that stands at `pc`. -/
theorem Step.next {pc : CompletionPc} (h : Step env s a s')
    (hc : s.completions.lookup t = some ⟨w, j, pc⟩) (ha : a.completionThread = some t) :
    pc.Next t a := by
  obtain ⟨c, hc', hnext⟩ := h.own ha
  obtain rfl := Option.some.inj (hc.symm.trans hc')
  exact hnext

/-- A step of another thread leaves a handler where it stands. -/
theorem Step.other {c : CompletionThread} (h : Step env s a s')
    (ha : a.completionThread ≠ some t) (hc : s.completions.lookup t = some c) :
    s'.completions.lookup t = some c := by
  have hne : ∀ {t' : ThreadId} {c' : CompletionThread}, some t' ≠ some t →
      (s.completions.insert t' c').lookup t = some c := by
    intro t' c' hne
    rw [AList.lookup_insert_ne fun heq => hne (congrArg some heq.symm), hc]
  cases h with
  | jobCompleted hnew => exact Table.lookup_insert_new hnew hc
  | takeJob | takeUnknown | buildLink | buildLinkLost | recordProgress | recordLast
  | recordFinalized | publish | markWorkerIdle => exact hne ha
  | _ => exact hc

/-! ### The setter calls of a handler -/

/-- Where the setter calls come from that a handler has still to make after a step: another
thread has moved, there are none, it has recorded a frame, or it has made the first. -/
inductive Todo (s : State) (a : Label) (s' : State) (t : ThreadId) :
    List (RenderId × Setter) → Prop where
  | kept {c todo} (hother : a.completionThread ≠ some t)
      (hc : s.completions.lookup t = some c) (hpc : c.pc = .publish todo) : Todo s a s' t todo
  | nothing : Todo s a s' t []
  | recorded {w j ctx link p} (ha : a = .recordFrame t ctx)
      (hpc : s.completions.lookup t = some ⟨w, j, .record ctx link⟩)
      (hentry : s.renderProgress.lookup ctx.renderId = some p)
      (hentry' : s'.renderProgress.lookup ctx.renderId =
        if (p.record ctx.frameIndex link).done then none else some (p.record ctx.frameIndex link))
      (hc : s'.completions.lookup t = some ⟨w, j, .publish
        ((p.record ctx.frameIndex link).setters.map fun x => (ctx.renderId, x))⟩) :
      Todo s a s' t ((p.record ctx.frameIndex link).setters.map fun x => (ctx.renderId, x))
  | rest {w j id x todo} (ha : a = .publish t)
      (hpc : s.completions.lookup t = some ⟨w, j, .publish ((id, x) :: todo)⟩)
      (hhistory : s'.history = s.history.modify id x.apply) : Todo s a s' t todo

/-- **What a handler has still to write** is one of these. -/
theorem Step.todo {c : CompletionThread} {todo : List (RenderId × Setter)} (h : Step env s a s')
    (hc : s'.completions.lookup t = some c) (hpc : c.pc = .publish todo) :
    Todo s a s' t todo := by
  -- the handler that moves, or another one
  have hset {t₀ : ThreadId} {c₀ : CompletionThread} {pc : CompletionPc}
      (hown : ∀ t', a.completionThread = some t' → t' = t₀)
      (hc : (s.completions.insert t₀ { c₀ with pc }).lookup t = some c)
      (hnew : t = t₀ → pc = .publish todo → Todo s a s' t todo) : Todo s a s' t todo := by
    rcases Table.lookup_insert_cases hc with ⟨ht, rfl⟩ | ⟨hne, hc⟩
    · exact hnew ht hpc
    · exact .kept (fun ha => hne (hown t ha)) hc hpc
  have hown {t₀ : ThreadId} (t' : ThreadId) (ha : some t₀ = some t') : t' = t₀ :=
    (Option.some.inj ha).symm
  have hnone {t₀ : ThreadId} (_ : t = t₀) (htodo : CompletionPc.publish [] = .publish todo) :
      Todo s a s' t todo := by
    obtain rfl := CompletionPc.publish.inj htodo
    exact .nothing
  cases h with
  | jobCompleted => exact hset nofun hc nofun
  | takeJob => exact hset hown hc nofun
  | takeUnknown => exact hset hown hc hnone
  | buildLink => exact hset hown hc nofun
  | buildLinkLost => exact hset hown hc hnone
  | recordProgress hpc₀ hentry hdone =>
    apply hset hown hc
    rintro rfl htodo
    obtain rfl := CompletionPc.publish.inj htodo
    refine .recorded rfl hpc₀ hentry ?_ (AList.lookup_insert _)
    rw [hdone]
    exact AList.lookup_insert _
  | recordLast hpc₀ hentry hdone =>
    apply hset hown hc
    rintro rfl htodo
    obtain rfl := CompletionPc.publish.inj htodo
    refine .recorded rfl hpc₀ hentry ?_ (AList.lookup_insert _)
    rw [hdone]
    exact AList.lookup_erase _ _
  | recordFinalized => exact hset hown hc hnone
  | publish hpc₀ =>
    apply hset hown hc
    rintro rfl htodo
    obtain rfl := CompletionPc.publish.inj htodo
    exact .rest rfl hpc₀ rfl
  | markWorkerIdle => exact hset hown hc nofun
  | _ => exact .kept nofun hc hpc

end Pathological
