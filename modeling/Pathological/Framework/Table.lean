import Mathlib.Data.List.AList

/-!
# Finite tables

A `Table κ ν` is a finite map with unique keys, Mathlib's `AList` at a constant
family, so that a duplicated key cannot be built. What is added here is what
bookkeeping arguments need of a table:

* `Table.modify` writes through an entry that exists and does nothing
  otherwise;
* a loop of insertions, or of writes, is looked up in by its keys
  (`lookup_foldl_insert`, `lookup_foldl_modify`);
* `Table.occ p m` counts the entries whose value satisfies `p`. Inserting under
  an unused key, overwriting, and erasing change it by the values involved,
  which is what a conservation argument adds up.
-/

namespace Framework

/-- A finite map from `κ` to `ν` with unique keys. -/
abbrev Table (κ ν : Type) : Type := AList fun _ : κ => ν

namespace Table

variable {κ ν : Type} [DecidableEq κ]

/-! ### Looking up -/

theorem lookup_insert' (k k' : κ) (v : ν) (m : Table κ ν) :
    (m.insert k v).lookup k' = if k' = k then some v else m.lookup k' := by
  by_cases h : k' = k
  · subst h
    rw [if_pos rfl, AList.lookup_insert]
  · rw [if_neg h, AList.lookup_insert_ne h]

theorem lookup_erase' (k k' : κ) (m : Table κ ν) :
    (m.erase k).lookup k' = if k' = k then none else m.lookup k' := by
  by_cases h : k' = k
  · subst h
    rw [if_pos rfl, AList.lookup_erase]
  · rw [if_neg h, AList.lookup_erase_ne h]

/-- A lookup after an insertion: the inserted value, or an old one. -/
theorem lookup_insert_cases {k k' : κ} {v v' : ν} {m : Table κ ν}
    (h : (m.insert k v).lookup k' = some v') :
    (k' = k ∧ v' = v) ∨ (k' ≠ k ∧ m.lookup k' = some v') := by
  rw [lookup_insert'] at h
  split at h
  · next hk => exact Or.inl ⟨hk, (Option.some.inj h).symm⟩
  · next hk => exact Or.inr ⟨hk, h⟩

/-- What is still there after an erasure was there before. -/
theorem lookup_erase_cases {k k' : κ} {v : ν} {m : Table κ ν}
    (h : (m.erase k).lookup k' = some v) : k' ≠ k ∧ m.lookup k' = some v := by
  rw [lookup_erase'] at h
  split at h
  · cases h
  · next hk => exact ⟨hk, h⟩

theorem mem_of_lookup {k : κ} {v : ν} {m : Table κ ν} (h : m.lookup k = some v) : k ∈ m :=
  AList.lookup_isSome.mp (by rw [h]; rfl)

theorem exists_lookup_of_mem {k : κ} {m : Table κ ν} (h : k ∈ m) : ∃ v, m.lookup k = some v :=
  Option.isSome_iff_exists.mp (AList.lookup_isSome.mpr h)

/-- What holds of the entries holds of what a lookup finds. -/
theorem forall_lookup {P : κ → ν → Prop} {m : Table κ ν} (h : ∀ e ∈ m.entries, P e.1 e.2)
    (k : κ) (v : ν) (hk : m.lookup k = some v) : P k v :=
  h ⟨k, v⟩ (AList.mem_lookup_iff.mp hk)

/-! ### What an insertion keeps -/

section Insert

variable {m : Table κ ν} {k k' : κ} {v v' v₀ : ν}

/-- What holds of every entry and of the inserted one holds of every entry. -/
theorem forall_insert {P : κ → ν → Prop} (hold : ∀ k v, m.lookup k = some v → P k v)
    (hk : P k v) : ∀ k' v', (m.insert k v).lookup k' = some v' → P k' v' := by
  intro k' v' h
  rcases lookup_insert_cases h with ⟨rfl, rfl⟩ | ⟨-, h⟩
  · exact hk
  · exact hold k' v' h

/-- The same where the new value takes the property over from the old one. -/
theorem forall_insert_over {P : κ → ν → Prop} (hold : ∀ k v, m.lookup k = some v → P k v)
    (hk : m.lookup k = some v₀) (hmove : P k v₀ → P k v) :
    ∀ k' v', (m.insert k v).lookup k' = some v' → P k' v' :=
  forall_insert hold (hmove (hold k v₀ hk))

theorem ne_of_lookup (hk : k ∉ m) (h : m.lookup k' = some v') : k' ≠ k := by
  rintro rfl
  exact hk (mem_of_lookup h)

/-- An entry survives an insertion under an unused key. -/
theorem lookup_insert_new (hk : k ∉ m) (h : m.lookup k' = some v') :
    (m.insert k v).lookup k' = some v' :=
  (AList.lookup_insert_ne (ne_of_lookup hk h)).trans h

/-- An entry with a property the new value takes over from the old one survives
an overwriting. -/
theorem exists_insert_over {Q : ν → Prop} (hk : m.lookup k = some v₀) (hmove : Q v₀ → Q v)
    (h : ∃ w, m.lookup k' = some w ∧ Q w) : ∃ w, (m.insert k v).lookup k' = some w ∧ Q w := by
  obtain ⟨w, hw, hQ⟩ := h
  by_cases he : k' = k
  · subst he
    rw [Option.some.inj (hk.symm.trans hw)] at hmove
    exact ⟨v, AList.lookup_insert _, hmove hQ⟩
  · exact ⟨w, (AList.lookup_insert_ne he).trans hw, hQ⟩

/-- An entry after an overwriting comes from the entry its key had before. -/
theorem exists_of_insert_over {Q : ν → Prop} (h : (m.insert k v).lookup k' = some v')
    (hk : m.lookup k = some v₀) (hmove : v' = v → Q v₀) (hold : Q v') :
    ∃ w, m.lookup k' = some w ∧ Q w := by
  rcases lookup_insert_cases h with ⟨rfl, he⟩ | ⟨-, h⟩
  · exact ⟨v₀, hk, hmove he⟩
  · exact ⟨v', h, hold⟩

end Insert

/-! ### Writing through an entry -/

/-- Apply `f` to the value under `k`, when there is one. -/
def modify (m : Table κ ν) (k : κ) (f : ν → ν) : Table κ ν :=
  match m.lookup k with
  | some v => m.insert k (f v)
  | none => m

theorem lookup_modify (m : Table κ ν) (k k' : κ) (f : ν → ν) :
    (m.modify k f).lookup k' = if k' = k then (m.lookup k').map f else m.lookup k' := by
  unfold modify
  by_cases hk : k' = k
  · subst hk
    rw [if_pos rfl]
    cases h : m.lookup k' with
    | none => simpa using h
    | some v => simp
  · rw [if_neg hk]
    cases h : m.lookup k with
    | none => rfl
    | some v => exact AList.lookup_insert_ne hk

@[simp] theorem lookup_modify_self (m : Table κ ν) (k : κ) (f : ν → ν) :
    (m.modify k f).lookup k = (m.lookup k).map f := by
  rw [lookup_modify, if_pos rfl]

/-- A lookup after a write through an entry: an old value, or its image. -/
theorem lookup_modify_cases {m : Table κ ν} {k k' : κ} {f : ν → ν} {v' : ν}
    (h : (m.modify k f).lookup k' = some v') :
    ∃ v, m.lookup k' = some v ∧ (v' = v ∨ v' = f v) := by
  rw [lookup_modify] at h
  split at h
  · obtain ⟨v, hv, rfl⟩ := Option.map_eq_some_iff.mp h
    exact ⟨v, hv, Or.inr rfl⟩
  · exact ⟨v', h, Or.inl rfl⟩

/-! ### Writing one entry after the other -/

section Folds

variable {α : Type} {key : α → κ} {val : α → ν} {f : ν → ν} {as : List α} {k : κ} {a : α}

theorem lookup_foldl_insert_of_notMem (h : k ∉ as.map key) (m : Table κ ν) :
    (as.foldl (fun m a => m.insert (key a) (val a)) m).lookup k = m.lookup k := by
  induction as generalizing m with
  | nil => rfl
  | cons a as ih =>
    rw [List.map_cons, List.mem_cons, not_or] at h
    rw [List.foldl_cons, ih h.2, AList.lookup_insert_ne h.1]

/-- Under different keys, each value is found. -/
theorem lookup_foldl_insert (hnodup : (as.map key).Nodup) (ha : a ∈ as) (m : Table κ ν) :
    (as.foldl (fun m a => m.insert (key a) (val a)) m).lookup (key a) = some (val a) := by
  induction as generalizing m with
  | nil => cases ha
  | cons b as ih =>
    rw [List.map_cons, List.nodup_cons] at hnodup
    rw [List.foldl_cons]
    rcases List.mem_cons.mp ha with rfl | ha
    · rw [lookup_foldl_insert_of_notMem hnodup.1, AList.lookup_insert]
    · exact ih hnodup.2 ha _

/-- Where writing twice is writing once, each of the keys is written to. -/
theorem lookup_foldl_modify (hf : ∀ v, f (f v) = f v) (m : Table κ ν) :
    (as.foldl (fun m a => m.modify (key a) f) m).lookup k =
      if k ∈ as.map key then (m.lookup k).map f else m.lookup k := by
  induction as generalizing m with
  | nil => rfl
  | cons a as ih =>
    rw [List.foldl_cons, ih, lookup_modify]
    by_cases hk : k = key a
    · have hmem : k ∈ (a :: as).map key := List.mem_cons.mpr (.inl hk)
      rw [if_pos hk, if_pos hmem, Option.map_map]
      have hff : f ∘ f = f := funext hf
      rw [hff, ite_self]
    · have hmem : k ∈ (a :: as).map key ↔ k ∈ as.map key :=
        List.mem_cons.trans (or_iff_right hk)
      rw [if_neg hk, if_congr hmem rfl rfl]

end Folds

/-! ### Counting values -/

section Counting

variable {p : ν → Bool} {m : Table κ ν} {k : κ} {v w : ν}

omit [DecidableEq κ] in
/-- How many entries carry a value that satisfies `p`. -/
def occ (p : ν → Bool) (m : Table κ ν) : ℕ :=
  m.entries.countP fun e => p e.2

theorem occ_insert : occ p (m.insert k v) = occ p (m.erase k) + (p v).toNat := by
  unfold occ
  rw [AList.entries_insert, List.countP_cons]
  cases p v <;> rfl

theorem erase_of_lookup_none (h : m.lookup k = none) : m.erase k = m :=
  AList.ext (List.kerase_of_notMem_keys (AList.lookup_eq_none.mp h))

/-- Erasing takes the erased value out of the count. -/
theorem occ_erase_add (h : m.lookup k = some v) :
    occ p (m.erase k) + (p v).toNat = occ p m := by
  have hk : k ∈ m.entries.keys := mem_of_lookup h
  obtain ⟨w, l₁, l₂, -, hl, he⟩ := List.exists_of_kerase hk
  have hw : w = v := by
    have hmem : (⟨k, w⟩ : Sigma fun _ : κ => ν) ∈ m.entries := by simp [hl]
    have hlook : m.lookup k = some w := AList.mem_lookup_iff.mpr hmem
    rw [h] at hlook
    exact (Option.some.inj hlook).symm
  subst hw
  have herase : (m.erase k).entries = l₁ ++ l₂ := he
  unfold occ
  rw [herase, hl, List.countP_append, List.countP_append, List.countP_cons]
  cases p w with
  | true => simp; omega
  | false => simp

/-- Inserting under an unused key adds the value to the count. -/
theorem occ_insert_new (h : m.lookup k = none) :
    occ p (m.insert k v) = occ p m + (p v).toNat := by
  rw [occ_insert, erase_of_lookup_none h]

/-- Overwriting replaces the old value by the new one in the count. -/
theorem occ_insert_over (h : m.lookup k = some w) :
    occ p (m.insert k v) + (p w).toNat = occ p m + (p v).toNat := by
  have he := occ_erase_add (p := p) h
  rw [occ_insert]
  omega

/-- A counted value is under some key. -/
theorem occ_pos_iff : 0 < occ p m ↔ ∃ k v, m.lookup k = some v ∧ p v = true := by
  unfold occ
  rw [List.countP_pos_iff]
  constructor
  · rintro ⟨⟨k, v⟩, hmem, hp⟩
    exact ⟨k, v, AList.mem_lookup_iff.mpr hmem, hp⟩
  · rintro ⟨k, v, hl, hp⟩
    exact ⟨⟨k, v⟩, AList.mem_lookup_iff.mp hl, hp⟩

/-- Nothing is counted when no key carries a value that satisfies `p`. -/
theorem occ_eq_zero_iff : occ p m = 0 ↔ ∀ k v, m.lookup k = some v → p v = false := by
  rw [← not_iff_not, ← Ne.eq_def, ← Nat.pos_iff_ne_zero, occ_pos_iff]
  push Not
  simp

end Counting

end Table

end Framework
