import Pathological.Scheduler.Finality
import Pathological.Cluster.Worker

/-!
# The scheduler composed with its workers

A `Cluster` is the scheduler, the worker processes by name, and the `RenderJob`
handlers by the job id they were called with. Its steps are those of the
scheduler, where a step that handles a worker's message takes it from that
worker (`Cluster.sends`), and those of the processes and handlers.

Every RPC can fail at any point, before or after its peer has acted on it: a
request need not arrive, a call can fail for the caller while its handler runs
on, and a `RenderJob` request can still arrive after its call has failed. The
one thing a caller cannot see without the peer is an OK: `RenderJob` returns OK
only when the handler did, and a worker starts its server only after the
scheduler has answered `EstablishConnection`.

Forgetting the workers, a run of the cluster is a run of the scheduler
(`Cluster.sched_run`).
-/

namespace Pathological

open Framework

/-- The scheduler and its workers. -/
structure Cluster where
  sched : State
  procs : Table WorkerId Process
  calls : Table JobId RenderCall

/-- The steps of the cluster. -/
inductive ClusterLabel where
  /-- A step of the scheduler; for a message, the worker that sent it moves too. -/
  | sched (a : Label)
  /-- A process starts under the name `info.workerId`. -/
  | boot (info : WorkerInfo)
  | process (w : WorkerId) (e : ProcessEvent)
  /-- The request of the job's dispatch thread arrives at the process `w`. -/
  | deliver (j : JobId) (w : WorkerId)
  | handler (j : JobId) (e : HandlerEvent)

namespace Cluster

def initial : Cluster := ⟨State.initial, ∅, ∅⟩

/-- The handler's process is still the one that runs it. -/
def runs (s : Cluster) (c : RenderCall) : Bool :=
  match s.procs.lookup c.worker with
  | some p => p.gen = c.gen && p.pc.running
  | none => false

/-- No handler runs in the process any more. -/
def drained (s : Cluster) (w : WorkerId) (gen : ℕ) : Bool :=
  s.calls.entries.all fun e =>
    decide (e.2.worker = w ∧ e.2.gen = gen → e.2.pc = .returned true ∨ e.2.pc = .returned false)

/-- The sender of the job's `JobCompleted` call, at `pc`. -/
def sendJobCompleted (s : Cluster) (w : WorkerId) (j : JobId) (pc : Bool → HandlerPc) :
    Option Cluster :=
  match s.calls.lookup j with
  | some c =>
    match c.pc with
    | .jobCompleted ok =>
      if c.worker = w ∧ s.runs c = true then
        some { s with calls := s.calls.insert j { c with pc := pc ok } }
      else none
    | _ => none
  | none => none

/-- The sender of the worker's `Disconnect` call. -/
def sendDisconnect (s : Cluster) (w : WorkerId) : Option Cluster :=
  match s.procs.lookup w with
  | some p =>
    if p.pc = .serving then
      some { s with procs := s.procs.insert w { p with pc := .disconnecting } }
    else none
  | none => none

/-- The workers' part of a scheduler step: for a message, the worker that sends
it; for an OK, the handler that returned it. -/
def sends (s : Cluster) : Label → Option Cluster
  | .establishConnection t info =>
    match s.procs.lookup info.workerId with
    | some p =>
      if p.info = info ∧ p.pc = .connecting then
        some { s with procs := s.procs.insert info.workerId { p with pc := .awaiting t } }
      else none
    | none => none
  | .disconnect _ w => s.sendDisconnect w
  | .disconnectUnknown w => s.sendDisconnect w
  | .jobCompleted _ w j => s.sendJobCompleted w j .awaiting
  | .jobCompletedUnknown w j => s.sendJobCompleted w j .reply
  | .renderJobReturned j true =>
    match s.calls.lookup j with
    -- any other status may come from the network
    | some c => if c.pc = .returned true then some s else none
    | none => none
  | _ => some s

/-- What the rest of the cluster has to say to an event of a process: a connected
worker has its answer, and `Shutdown` waits for the handlers. -/
def permits (s : Cluster) (w : WorkerId) (p : Process) : ProcessEvent → Bool
  | .established =>
    match p.pc with
    | .awaiting t =>
      match s.sched.connects.lookup t with
      | some ⟨_, .answered _⟩ => true
      | _ => false
    | _ => false
  | .exit => s.drained w p.gen
  | _ => true

/-- A step of the cluster. -/
def step (env : Env) (s : Cluster) : ClusterLabel → Option Cluster
  | .sched a => do
    -- the message leaves its sender in the step that handles it
    let s₁ ← s.sends a
    let sched ← s.sched.step env a
    return { s₁ with sched }
  | .boot info =>
    match s.procs.lookup info.workerId with
    | some p =>
      if p.pc = .down then
        some { s with procs := s.procs.insert info.workerId ⟨info, p.gen + 1, .connecting⟩ }
      else none
    | none => some { s with procs := s.procs.insert info.workerId ⟨info, 0, .connecting⟩ }
  | .process w e =>
    match s.procs.lookup w with
    | some p =>
      if s.permits w p e = true then
        (p.step e).map fun p => { s with procs := s.procs.insert w p }
      else none
    | none => none
  | .deliver j w =>
    match s.sched.dispatchThreads.lookup j, s.procs.lookup w with
    | some d, some p =>
      match s.sched.history.lookup d.frameJob.renderRequest with
      | some render =>
        -- whoever listens on the address gets the request, also after the call has failed
        if j ∉ s.calls ∧ p.pc.listening = true ∧
            p.info.workerIp ++ ":" ++ toString p.info.port = d.workerAddress then
          some { s with
            calls := s.calls.insert j
              { worker := w, gen := p.gen
                request := renderJobRequest render j d.frameJob.frameIndex d.frameJob.time
                status := .inProgress, uploaded := none, pc := .generateScene } }
        else none
      | none => none
    | _, _ => none
  | .handler j e =>
    match s.calls.lookup j with
    | some c =>
      -- a handler ends with its process
      if s.runs c = true then
        (c.step e).map fun c => { s with calls := s.calls.insert j c }
      else none
    | none => none

end Cluster

/-- The scheduler with its workers. -/
def cluster (env : Env) : System Cluster ClusterLabel where
  init := Cluster.initial
  step := Cluster.step env

/-! ### What a step can do -/

/-- What the workers' part of a scheduler step can be. -/
inductive Sends (s : Cluster) : Label → Cluster → Prop where
  | establish {t info p} (hp : s.procs.lookup info.workerId = some p) (hinfo : p.info = info)
      (hpc : p.pc = .connecting) :
      Sends s (.establishConnection t info)
        { s with procs := s.procs.insert info.workerId { p with pc := .awaiting t } }
  | disconnect {a w p} (ha : (∃ t, a = .disconnect t w) ∨ a = .disconnectUnknown w)
      (hp : s.procs.lookup w = some p) (hpc : p.pc = .serving) :
      Sends s a { s with procs := s.procs.insert w { p with pc := .disconnecting } }
  | jobCompleted {a w j c ok pc}
      (ha : (∃ t, a = .jobCompleted t w j) ∨ a = .jobCompletedUnknown w j)
      (hc : s.calls.lookup j = some c) (hpc : c.pc = .jobCompleted ok) (hw : c.worker = w)
      (hruns : s.runs c = true) (hnext : pc = .awaiting ok ∨ pc = .reply ok) :
      Sends s a { s with calls := s.calls.insert j { c with pc } }
  | accepted {j c} (hc : s.calls.lookup j = some c) (hpc : c.pc = .returned true) :
      Sends s (.renderJobReturned j true) s
  | silent {a} (hconnect : ∀ t info, a ≠ .establishConnection t info)
      (hdisconnect : ∀ t w, a ≠ .disconnect t w) (hunknown : ∀ w, a ≠ .disconnectUnknown w)
      (hcompleted : ∀ t w j, a ≠ .jobCompleted t w j)
      (hignored : ∀ w j, a ≠ .jobCompletedUnknown w j)
      (haccepted : ∀ j, a ≠ .renderJobReturned j true) : Sends s a s

variable {env : Env} {s s' s₁ : Cluster} {a : Label}

theorem Sends.of_sendDisconnect {w : WorkerId} (ha : (∃ t, a = .disconnect t w) ∨
    a = .disconnectUnknown w) (h : s.sendDisconnect w = some s₁) : Sends s a s₁ := by
  unfold Cluster.sendDisconnect at h
  split at h
  · next p hp =>
    split at h
    · next hpc =>
      obtain rfl := Option.some.inj h
      exact .disconnect ha hp hpc
    · cases h
  · cases h

theorem Sends.of_sendJobCompleted {w : WorkerId} {j : JobId} {pc : Bool → HandlerPc}
    (ha : (∃ t, a = .jobCompleted t w j) ∨ a = .jobCompletedUnknown w j)
    (hnext : ∀ ok, pc ok = .awaiting ok ∨ pc ok = .reply ok)
    (h : s.sendJobCompleted w j pc = some s₁) : Sends s a s₁ := by
  unfold Cluster.sendJobCompleted at h
  split at h
  · next c hc =>
    split at h
    · next ok hpc =>
      split at h
      · next hruns =>
        obtain rfl := Option.some.inj h
        exact .jobCompleted ha hc hpc hruns.1 hruns.2 (hnext ok)
      · cases h
    · cases h
  · cases h

theorem Sends.of_sends (h : s.sends a = some s₁) : Sends s a s₁ := by
  unfold Cluster.sends at h
  split at h
  · next t info =>
    split at h
    · next p hp =>
      split at h
      · next hinfo =>
        obtain rfl := Option.some.inj h
        exact .establish hp hinfo.1 hinfo.2
      · cases h
    · cases h
  · next t w => exact .of_sendDisconnect (Or.inl ⟨t, rfl⟩) h
  · next w => exact .of_sendDisconnect (Or.inr rfl) h
  · next t w j => exact .of_sendJobCompleted (Or.inl ⟨t, rfl⟩) (fun _ => Or.inl rfl) h
  · next w j => exact .of_sendJobCompleted (Or.inr rfl) (fun _ => Or.inr rfl) h
  · next j =>
    split at h
    · next c hc =>
      split at h
      · next hpc =>
        obtain rfl := Option.some.inj h
        exact .accepted hc hpc
      · cases h
    · cases h
  · next h₁ h₂ h₃ h₄ h₅ h₆ =>
    obtain rfl := Option.some.inj h
    exact .silent h₁ h₂ h₃ h₄ h₅ h₆

/-- A connected worker has its answer. -/
theorem Cluster.permits_established {w : WorkerId} {p : Process} {t : ThreadId}
    (h : s.permits w p .established = true) (hpc : p.pc = .awaiting t) :
    ∃ info st, s.sched.connects.lookup t = some ⟨info, .answered st⟩ := by
  simp only [Cluster.permits, hpc] at h
  split at h
  · next info st hc => exact ⟨info, st, hc⟩
  · cases h

/-- A process the scheduler's step has moved has just sent its request. -/
theorem Sends.proc_cases {w : WorkerId} {p : Process} (h : Sends s a s₁)
    (hp : s₁.procs.lookup w = some p) :
    s.procs.lookup w = some p ∨
      (p.pc = .disconnecting ∧ ∃ p₀, s.procs.lookup w = some p₀ ∧ p₀.info = p.info) ∨
      ∃ t, a = .establishConnection t p.info ∧ p.pc = .awaiting t ∧ p.info.workerId = w := by
  cases h with
  | @establish t info p₀ hp₀ hinfo hpc =>
    rcases Table.lookup_insert_cases hp with ⟨rfl, rfl⟩ | ⟨-, hp⟩
    · exact Or.inr (Or.inr ⟨t, by rw [hinfo], rfl, by rw [hinfo]⟩)
    · exact Or.inl hp
  | disconnect ha hp₀ hpc =>
    -- the sender waits for the answer with its server still up
    rcases Table.lookup_insert_cases hp with ⟨rfl, rfl⟩ | ⟨-, hp⟩
    · exact Or.inr (Or.inl ⟨rfl, _, hp₀, rfl⟩)
    · exact Or.inl hp
  | _ => exact Or.inl hp

/-- A job is only reported by the handler of a call for it. -/
theorem Sends.reported {t : ThreadId} {w : WorkerId} {j : JobId}
    (h : Sends s (.jobCompleted t w j) s₁) : ∃ c, s.calls.lookup j = some c := by
  cases h with
  | disconnect ha => rcases ha with ⟨_, ha⟩ | ha <;> cases ha
  | jobCompleted ha hc =>
    rcases ha with ⟨_, ha⟩ | ha
    · obtain ⟨-, -, rfl⟩ := Label.jobCompleted.inj ha
      exact ⟨_, hc⟩
    · cases ha
  | silent _ _ _ hcompleted => exact absurd rfl (hcompleted t w j)

/-- The ways a step of the cluster can go. -/
inductive ClusterStep (env : Env) (s : Cluster) : ClusterLabel → Cluster → Prop where
  | sched {a s₁ sched} (hsends : Sends s a s₁) (hstep : Step env s.sched a sched) :
      ClusterStep env s (.sched a) { s₁ with sched }
  | bootFirst {info} (hp : s.procs.lookup info.workerId = none) :
      ClusterStep env s (.boot info)
        { s with procs := s.procs.insert info.workerId ⟨info, 0, .connecting⟩ }
  | bootAgain {info p} (hp : s.procs.lookup info.workerId = some p) (hpc : p.pc = .down) :
      ClusterStep env s (.boot info)
        { s with procs := s.procs.insert info.workerId ⟨info, p.gen + 1, .connecting⟩ }
  | process {w e p p'} (hp : s.procs.lookup w = some p) (hstep : p.step e = some p')
      (hpermits : s.permits w p e = true) :
      ClusterStep env s (.process w e) { s with procs := s.procs.insert w p' }
  | deliver {j w d p render} (hd : s.sched.dispatchThreads.lookup j = some d)
      (hp : s.procs.lookup w = some p) (hlistening : p.pc.listening = true)
      (hrender : s.sched.history.lookup d.frameJob.renderRequest = some render)
      (haddress : p.info.workerIp ++ ":" ++ toString p.info.port = d.workerAddress)
      (hnew : j ∉ s.calls) :
      ClusterStep env s (.deliver j w)
        { s with
          calls := s.calls.insert j
            { worker := w, gen := p.gen
              request := renderJobRequest render j d.frameJob.frameIndex d.frameJob.time
              status := .inProgress, uploaded := none, pc := .generateScene } }
  | handler {j e c c'} (hc : s.calls.lookup j = some c) (hruns : s.runs c = true)
      (hstep : c.step e = some c') :
      ClusterStep env s (.handler j e) { s with calls := s.calls.insert j c' }

theorem ClusterStep.of_step {l : ClusterLabel} (h : (cluster env).step s l = some s') :
    ClusterStep env s l s' := by
  replace h : s.step env l = some s' := h
  cases l <;> simp only [Cluster.step] at h
  case sched a =>
    obtain ⟨s₁, hsends, h⟩ := Option.bind_eq_some_iff.mp h
    obtain ⟨sched, hstep, h⟩ := Option.bind_eq_some_iff.mp h
    obtain rfl := Option.some.inj h
    exact .sched (.of_sends hsends) (.of_step hstep)
  case boot info =>
    split at h
    · next p hp =>
      split at h
      · next hpc =>
        obtain rfl := Option.some.inj h
        exact .bootAgain hp hpc
      · cases h
    · next hp =>
      obtain rfl := Option.some.inj h
      exact .bootFirst hp
  case process w e =>
    split at h
    · next p hp =>
      split at h
      · next hpermits =>
        obtain ⟨p', hstep, rfl⟩ := Option.map_eq_some_iff.mp h
        exact .process hp hstep hpermits
      · cases h
    · cases h
  case deliver j w =>
    split at h
    · next d p hd hp =>
      split at h
      · next render hrender =>
        split at h
        · next hguard =>
          obtain rfl := Option.some.inj h
          exact .deliver hd hp hguard.2.1 hrender hguard.2.2 hguard.1
        · cases h
      · cases h
    · cases h
  case handler j e =>
    split at h
    · next c hc =>
      split at h
      · next hruns =>
        obtain ⟨c', hstep, rfl⟩ := Option.map_eq_some_iff.mp h
        exact .handler hc hruns hstep
      · cases h
    · cases h

/-! ### The scheduler's part of a run -/

/-- The scheduler's step, when the label is one. -/
def ClusterLabel.schedLabel : ClusterLabel → Option Label
  | .sched a => some a
  | _ => none

/-- The scheduler's steps of a run of the cluster. -/
def schedTrace (tr : List ClusterLabel) : List Label := tr.filterMap ClusterLabel.schedLabel

theorem schedTrace_append (tr tr' : List ClusterLabel) :
    schedTrace (tr ++ tr') = schedTrace tr ++ schedTrace tr' :=
  List.filterMap_append

/-- A condition on the scheduler's steps, for the cluster. -/
def onSched (D : System.Condition State Label) : System.Condition Cluster ClusterLabel :=
  fun tr s l =>
    match l with
    | .sched a => D (schedTrace tr) s.sched a
    | _ => True

/-- **A run of the cluster is, for the scheduler, a run of the scheduler.** -/
theorem Cluster.sched_run {C : System.Condition Cluster ClusterLabel}
    {D : System.Condition State Label} {tr : List ClusterLabel}
    (hC : ∀ {tr s a}, C tr s (.sched a) → D (schedTrace tr) s.sched a)
    (h : (cluster env).Run C tr s) : (scheduler env).Run D (schedTrace tr) s.sched := by
  refine System.Run.project Cluster.sched ClusterLabel.schedLabel rfl ?_ ?_ h
  · -- a step of the processes or the handlers is none of the scheduler's
    intro s l s' hs
    cases ClusterStep.of_step hs with
    | sched hsends hstep => exact hstep.to_step
    | bootFirst => rfl
    | bootAgain => rfl
    | process => rfl
    | deliver => rfl
    | handler => rfl
  · intro tr s l a hrun hc hl
    cases l with
    | sched b =>
      obtain rfl := Option.some.inj hl
      exact hC hc
    | _ => cases hl

theorem Cluster.sched_reaches {C : System.Condition Cluster ClusterLabel} {tr : List ClusterLabel}
    (h : (cluster env).Run C tr s) : (scheduler env).Reaches (schedTrace tr) s.sched :=
  Cluster.sched_run (fun _ => trivial) h

end Pathological
