import Mathlib.Data.List.Basic

/-!
# Overwriting

Operations on a state that are writes to parts of it, where a key says which part
(`Overwrites`): of two writes with one key the later counts, and writes with
different keys commute. So operations that write to all the parts that earlier
ones wrote to leave the state they would have left without them
(`Overwrites.forget`).
-/

namespace Framework

variable {γ σ κ : Type}

/-- The operations one after another. -/
def performAll (perform : γ → σ → σ) (cs : List γ) (s : σ) : σ :=
  cs.foldl (fun s c => perform c s) s

section PerformAll

variable (perform : γ → σ → σ)

@[simp] theorem performAll_cons (c : γ) (cs : List γ) (s : σ) :
    performAll perform (c :: cs) s = performAll perform cs (perform c s) := rfl

theorem performAll_append (cs ds : List γ) (s : σ) :
    performAll perform (cs ++ ds) s = performAll perform ds (performAll perform cs s) :=
  List.foldl_append

end PerformAll

/-- The operations write to the parts that their keys name. -/
structure Overwrites (perform : γ → σ → σ) (key : γ → κ) : Prop where
  same : ∀ c d s, key c = key d → perform d (perform c s) = perform d s
  comm : ∀ c d s, key c ≠ key d → perform d (perform c s) = perform c (perform d s)

variable {perform : γ → σ → σ} {key : γ → κ} {c : γ} {cs ds : List γ}

/-- A write is forgotten when its part is written to again. -/
theorem Overwrites.forget_one (h : Overwrites perform key) (hc : key c ∈ ds.map key) (s : σ) :
    performAll perform ds (perform c s) = performAll perform ds s := by
  induction ds generalizing s with
  | nil => cases hc
  | cons d ds ih =>
    rw [performAll_cons, performAll_cons]
    by_cases hkey : key c = key d
    · rw [h.same c d s hkey]
    · have hrest : key c ∈ ds.map key := (List.mem_cons.mp hc).resolve_left hkey
      rw [h.comm c d s hkey, ih hrest]

/-- Earlier writes are forgotten when their parts are written to again. -/
theorem Overwrites.forget (h : Overwrites perform key) (hcs : ∀ c ∈ cs, key c ∈ ds.map key)
    (s : σ) : performAll perform ds (performAll perform cs s) = performAll perform ds s := by
  induction cs generalizing s with
  | nil => rfl
  | cons c cs ih =>
    rw [performAll_cons, ih (fun c' hc' => hcs c' (List.mem_cons_of_mem _ hc')),
      h.forget_one (hcs c List.mem_cons_self)]

end Framework
