import Mathlib.Data.Nat.Notation

/-!
# Fallible computations

Inverting and building the successful runs of computations in `Except`, and
computations that fail in one way only (`FailsOnlyWith`).
-/

namespace Framework

variable {ε α β : Type}

theorem except_bind_eq_ok {x : Except ε α} {f : α → Except ε β} {b : β} :
    (x >>= f) = .ok b ↔ ∃ a, x = .ok a ∧ f a = .ok b := by
  cases x with
  | error e => exact ⟨nofun, nofun⟩
  | ok a => exact ⟨fun h => ⟨a, rfl, h⟩, fun ⟨_, ha, h⟩ => Except.ok.inj ha ▸ h⟩

theorem except_map_eq_ok {x : Except ε α} {f : α → β} {b : β} :
    x.map f = .ok b ↔ ∃ a, x = .ok a ∧ f a = b := by
  cases x with
  | error e => exact ⟨nofun, nofun⟩
  | ok a =>
    exact ⟨fun h => ⟨a, rfl, Except.ok.inj h⟩, fun ⟨_, ha, h⟩ => Except.ok.inj ha ▸ congrArg _ h⟩

/-- A loop succeeds when each of its rounds does. -/
theorem exists_mapM {f : α → Except ε β} {l : List α} (h : ∀ a ∈ l, ∃ b, f a = .ok b) :
    ∃ bs, l.mapM f = .ok bs := by
  induction l with
  | nil => exact ⟨[], rfl⟩
  | cons a l ih =>
    obtain ⟨b, hb⟩ := h a List.mem_cons_self
    obtain ⟨bs, hbs⟩ := ih fun a' ha' => h a' (List.mem_cons_of_mem _ ha')
    refine ⟨b :: bs, ?_⟩
    rw [List.mapM_cons, hb, hbs]
    rfl

theorem mapM_eq_map {f : α → Except ε β} {g : α → β} {l : List α} (h : ∀ a ∈ l, f a = .ok (g a)) :
    l.mapM f = .ok (l.map g) := by
  induction l with
  | nil => rfl
  | cons a l ih =>
    rw [List.mapM_cons, h a List.mem_cons_self, ih fun a' ha' => h a' (List.mem_cons_of_mem _ ha')]
    rfl

theorem length_of_mapM {f : α → Except ε β} {l : List α} {bs : List β} (h : l.mapM f = .ok bs) :
    bs.length = l.length := by
  induction l generalizing bs with
  | nil =>
    rw [← Except.ok.inj h]
    rfl
  | cons a l ih =>
    rw [List.mapM_cons] at h
    obtain ⟨b, -, h⟩ := except_bind_eq_ok.mp h
    obtain ⟨bs', hbs', h⟩ := except_bind_eq_ok.mp h
    rw [← Except.ok.inj h, List.length_cons, List.length_cons, ih hbs']

/-- The result of a round stands where its argument stood. -/
theorem getElem?_of_mapM {f : α → Except ε β} {l : List α} {bs : List β} (h : l.mapM f = .ok bs)
    {i : ℕ} {a : α} (hi : l[i]? = some a) : ∃ b, bs[i]? = some b ∧ f a = .ok b := by
  induction l generalizing bs i with
  | nil => cases hi
  | cons a' l ih =>
    rw [List.mapM_cons] at h
    obtain ⟨b, hb, h⟩ := except_bind_eq_ok.mp h
    obtain ⟨bs', hbs', h⟩ := except_bind_eq_ok.mp h
    rw [← Except.ok.inj h]
    cases i with
    | zero => exact ⟨b, rfl, Option.some.inj hi ▸ hb⟩
    | succ i => exact ih hbs' hi

theorem exists_mapM_iff {f : α → Except ε β} {l : List α} :
    (∃ bs, l.mapM f = .ok bs) ↔ ∀ a ∈ l, ∃ b, f a = .ok b := by
  refine ⟨fun ⟨bs, h⟩ a ha => ?_, exists_mapM⟩
  obtain ⟨i, hi⟩ := List.mem_iff_getElem?.mp ha
  obtain ⟨b, -, hb⟩ := getElem?_of_mapM h hi
  exact ⟨b, hb⟩

/-! ### The one way to fail -/

/-- The computation fails in no other way. -/
def FailsOnlyWith (e : ε) (x : Except ε α) : Prop := ∀ e', x = .error e' → e' = e

theorem FailsOnlyWith.ok (e : ε) (a : α) : FailsOnlyWith e (.ok a) := nofun

theorem FailsOnlyWith.error (e : ε) : FailsOnlyWith e (.error e : Except ε α) :=
  fun _ h => (Except.error.inj h).symm

theorem FailsOnlyWith.bind {e : ε} {x : Except ε α} {f : α → Except ε β} (hx : FailsOnlyWith e x)
    (hf : ∀ a, x = .ok a → FailsOnlyWith e (f a)) : FailsOnlyWith e (x >>= f) := by
  cases x with
  | error e' => exact fun e'' h => hx e'' (congrArg _ (Except.error.inj h))
  | ok a => exact hf a rfl

theorem FailsOnlyWith.map {e : ε} {x : Except ε α} (hx : FailsOnlyWith e x) (f : α → β) :
    FailsOnlyWith e (x.map f) := by
  cases x with
  | error e' => exact fun e'' h => hx e'' (congrArg _ (Except.error.inj h))
  | ok a => exact .ok e (f a)

theorem FailsOnlyWith.mapM {e : ε} {f : α → Except ε β} (hf : ∀ a, FailsOnlyWith e (f a))
    (l : List α) : FailsOnlyWith e (l.mapM f) := by
  induction l with
  | nil => exact .ok e []
  | cons a l ih =>
    rw [List.mapM_cons]
    exact (hf a).bind fun b _ => ih.bind fun bs _ => .ok e (b :: bs)

/-- A computation that does not succeed fails so. -/
theorem FailsOnlyWith.eq_error {e : ε} {x : Except ε α} (hx : FailsOnlyWith e x)
    (h : ¬ ∃ a, x = .ok a) : x = .error e := by
  cases x with
  | error e' => rw [hx e' rfl]
  | ok a => exact absurd ⟨a, rfl⟩ h

/-! ### Loops with a state -/

/-- What each round of a loop keeps, the loop keeps. -/
theorem foldlM_invariant {f : β → α → Except ε β} {P : β → Prop} {l : List α}
    (hstep : ∀ a ∈ l, ∀ s s', P s → f s a = .ok s' → P s') {s s' : β} (hs : P s)
    (h : l.foldlM f s = .ok s') : P s' := by
  induction l generalizing s with
  | nil => exact Except.ok.inj h ▸ hs
  | cons a l ih =>
    rw [List.foldlM_cons] at h
    obtain ⟨s₁, hs₁, hrest⟩ := except_bind_eq_ok.mp h
    exact ih (fun a' ha' => hstep a' (List.mem_cons_of_mem _ ha'))
      (hstep a List.mem_cons_self s s₁ hs hs₁) hrest

/-- What each round of a loop appends, the loop appends. -/
theorem foldlM_appends {γ : Type} (view : β → List γ) {f : β → α → Except ε β} {emit : α → List γ}
    {l : List α} (hstep : ∀ a ∈ l, ∀ s s', f s a = .ok s' → view s' = view s ++ emit a) {s s' : β}
    (h : l.foldlM f s = .ok s') : view s' = view s ++ l.flatMap emit := by
  induction l generalizing s with
  | nil =>
    obtain rfl := Except.ok.inj h
    exact (List.append_nil _).symm
  | cons a l ih =>
    rw [List.foldlM_cons] at h
    obtain ⟨s₁, hs₁, hrest⟩ := except_bind_eq_ok.mp h
    rw [ih (fun a' ha' => hstep a' (List.mem_cons_of_mem _ ha')) hrest,
      hstep a List.mem_cons_self s s₁ hs₁, List.flatMap_cons, List.append_assoc]

end Framework
