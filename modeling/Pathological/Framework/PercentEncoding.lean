import Mathlib.Data.List.Basic
import Mathlib.Data.UInt

/-!
# Percent-encoding

A text is put into a URL by its UTF-8 bytes, each as it stands or as `%XX`. What is
kept as it stands is up to who encodes; whoever decodes does not need to know
(`percentDecode_percentEncode`).

An encoder that keeps `%` leaves an escape that is in the text already, and decoding
then gives another text: a shorter one, for two bytes are lost to each escape
(`length_percentDecode`).
-/

namespace Framework

/-! ### UTF-8 -/

/-- The bytes of a text. -/
def utf8 (cs : List Char) : List UInt8 := cs.flatMap String.utf8EncodeChar

/-- The text of the bytes, `none` if they are no valid UTF-8. -/
def utf8Decode (bytes : List UInt8) : Option (List Char) :=
  (String.fromUTF8? bytes.toByteArray).map String.toList

section Utf8

variable {cs cs' : List Char}

@[simp] theorem utf8_cons (c : Char) (cs : List Char) :
    utf8 (c :: cs) = String.utf8EncodeChar c ++ utf8 cs := rfl

theorem utf8Decode_utf8 (cs : List Char) : utf8Decode (utf8 cs) = some cs := by
  have hvalid : (utf8 cs).toByteArray.IsValidUTF8 := ⟨cs, rfl⟩
  have htext : String.fromUTF8 _ hvalid = String.ofList cs := by
    apply String.toByteArray_inj.mp
    rw [String.toByteArray_ofList]
    rfl
  unfold utf8Decode
  rw [String.fromUTF8?, dif_pos hvalid, htext]
  simp

theorem utf8_of_utf8Decode {bytes : List UInt8} (h : utf8Decode bytes = some cs) :
    utf8 cs = bytes := by
  obtain ⟨s, hs, rfl⟩ := Option.map_eq_some_iff.mp h
  rw [String.fromUTF8?] at hs
  obtain ⟨hvalid, hs⟩ := Option.dite_none_right_eq_some.mp hs
  obtain rfl := Option.some.inj hs
  apply List.toByteArray_inj.mp
  exact String.utf8Encode_toList

/-- A part of a text has fewer bytes. -/
theorem length_utf8_le_of_sublist (h : cs.Sublist cs') : (utf8 cs).length ≤ (utf8 cs').length := by
  induction h with
  | slnil => exact le_rfl
  | cons c _ ih => exact ih.trans (by simp)
  | cons_cons c _ ih => simpa using ih

theorem eq_of_sublist_of_length_utf8 (h : cs.Sublist cs')
    (hlength : (utf8 cs').length ≤ (utf8 cs).length) : cs = cs' := by
  induction h with
  | slnil => rfl
  | @cons cs cs' c hsub _ =>
    have hle := length_utf8_le_of_sublist hsub
    have hpos := c.utf8Size_pos
    simp only [utf8_cons, List.length_append, String.length_utf8EncodeChar] at hlength
    omega
  | @cons_cons cs cs' c _ ih =>
    simp only [utf8_cons, List.length_append] at hlength
    rw [ih (by omega)]

end Utf8

/-! ### Encoding -/

/-- A hexadecimal digit. -/
def hexDigit (n : ℕ) : Char := if n < 10 then Char.ofNat (48 + n) else Char.ofNat (55 + n)

/-- `%XX`. -/
def escape (b : UInt8) : List Char := ['%', hexDigit (b.toNat / 16), hexDigit (b.toNat % 16)]

/-- The escapes of a character's bytes. -/
def escapeChar (c : Char) : List Char := (String.utf8EncodeChar c).flatMap escape

/-- The text with every character escaped that is not to be kept. -/
def percentEncode (keep : Char → Bool) (cs : List Char) : List Char :=
  cs.flatMap fun c => if keep c then [c] else escapeChar c

/-! ### Decoding -/

/-- The value of a hexadecimal digit, of either case. -/
def hexValue (c : Char) : Option ℕ :=
  if '0' ≤ c ∧ c ≤ '9' then some (c.toNat - 48)
  else if 'A' ≤ c ∧ c ≤ 'F' then some (c.toNat - 55)
  else if 'a' ≤ c ∧ c ≤ 'f' then some (c.toNat - 87)
  else none

/-- The byte two hexadecimal digits stand for. -/
def hexByte (high low : Char) : Option UInt8 :=
  match hexValue high, hexValue low with
  | some h, some l => some (UInt8.ofNat (16 * h + l))
  | _, _ => none

/-- The bytes of a text in which `%XX` stands for a byte, `none` where a `%` is not
followed by two digits. -/
def percentDecode : List Char → Option (List UInt8)
  | [] => some []
  | '%' :: high :: low :: cs =>
    match hexByte high low with
    | some b => (percentDecode cs).map (b :: ·)
    | none => none
  | c :: cs =>
    if c = '%' then none else (percentDecode cs).map (String.utf8EncodeChar c ++ ·)

section Decoding

variable {keep : Char → Bool} {c : Char} {cs : List Char} {bytes : List UInt8}

theorem percentEncode_cons : percentEncode keep (c :: cs) =
    (if keep c then [c] else escapeChar c) ++ percentEncode keep cs := rfl

theorem percentEncode_append (keep : Char → Bool) (cs cs' : List Char) :
    percentEncode keep (cs ++ cs') = percentEncode keep cs ++ percentEncode keep cs' := by
  unfold percentEncode
  exact List.flatMap_append

theorem percentDecode_nil : percentDecode [] = some [] := rfl

theorem percentDecode_percent (high low : Char) (cs : List Char) :
    percentDecode ('%' :: high :: low :: cs) =
      (hexByte high low).bind fun b => (percentDecode cs).map (b :: ·) := by
  change (match hexByte high low with
    | some b => (percentDecode cs).map (b :: ·)
    | none => none) = _
  cases hexByte high low with
  | none => rfl
  | some b => rfl

theorem percentDecode_of_hexByte {high low : Char} {b : UInt8} (h : hexByte high low = some b) :
    percentDecode ('%' :: high :: low :: cs) = (percentDecode cs).map (b :: ·) := by
  rw [percentDecode_percent, h, Option.bind_some]

theorem percentDecode_of_not_hexByte {high low : Char} (h : hexByte high low = none) :
    percentDecode ('%' :: high :: low :: cs) = none := by
  rw [percentDecode_percent, h, Option.bind_none]

theorem percentDecode_cons (h : c ≠ '%') :
    percentDecode (c :: cs) = (percentDecode cs).map (String.utf8EncodeChar c ++ ·) := by
  rw [percentDecode, if_neg h]
  rintro high low cs' rfl
  exact absurd rfl h

theorem hexValue_hexDigit {n : ℕ} (h : n < 16) : hexValue (hexDigit n) = some n := by
  decide +revert

/-- The characters that are hexadecimal digits. -/
theorem toNat_of_hexValue (h : hexValue c ≠ none) : 48 ≤ c.toNat ∧ c.toNat ≤ 57 ∨
    65 ≤ c.toNat ∧ c.toNat ≤ 70 ∨ 97 ≤ c.toNat ∧ c.toNat ≤ 102 := by
  unfold hexValue at h
  simp only [Char.le_def, UInt32.le_iff_toNat_le] at h
  split at h
  · next hc => exact .inl hc
  · split at h
    · next hc => exact .inr (.inl hc)
    · split at h
      · next hc => exact .inr (.inr hc)
      · exact absurd rfl h

theorem mem_escapeChar {c' : Char} (h : c ∈ escapeChar c') : c = '%' ∨ hexValue c ≠ none := by
  obtain ⟨b, -, h⟩ := List.mem_flatMap.mp h
  have hb := b.toNat_lt
  simp only [escape, List.mem_cons, List.not_mem_nil, or_false] at h
  rcases h with rfl | rfl | rfl
  · exact .inl rfl
  · rw [hexValue_hexDigit (by omega)]
    exact .inr (Option.some_ne_none _)
  · rw [hexValue_hexDigit (by omega)]
    exact .inr (Option.some_ne_none _)

/-- An encoded text has what the text has, and escapes. -/
theorem mem_percentEncode (h : c ∈ percentEncode keep cs) :
    c ∈ cs ∨ c = '%' ∨ hexValue c ≠ none := by
  obtain ⟨c', hc', h⟩ := List.mem_flatMap.mp h
  split at h
  · obtain rfl := List.mem_singleton.mp h
    exact .inl hc'
  · exact .inr (mem_escapeChar h)

/-- What is in it is kept, or part of an escape. -/
theorem keep_of_mem_percentEncode (h : c ∈ percentEncode keep cs) :
    keep c = true ∨ c = '%' ∨ hexValue c ≠ none := by
  obtain ⟨c', -, h⟩ := List.mem_flatMap.mp h
  split at h
  · next hkeep =>
    obtain rfl := List.mem_singleton.mp h
    exact .inl hkeep
  · exact .inr (mem_escapeChar h)

/-- Encoding what is encoded, where escapes are kept, is encoding with less kept. -/
theorem percentEncode_percentEncode {keep' : Char → Bool} (hpercent : keep' '%' = true)
    (hhex : ∀ c, hexValue c ≠ none → keep' c = true) (cs : List Char) :
    percentEncode keep' (percentEncode keep cs) =
      percentEncode (fun c => keep c && keep' c) cs := by
  have hescape (c : Char) : percentEncode keep' (escapeChar c) = escapeChar c := by
    unfold percentEncode
    rw [List.flatMap_congr (g := fun c => [c])]
    · exact List.flatMap_singleton' _
    · intro c' hc'
      rw [if_pos]
      rcases mem_escapeChar hc' with rfl | hvalue
      · exact hpercent
      · exact hhex c' hvalue
  induction cs with
  | nil => rfl
  | cons c cs ih =>
    rw [percentEncode_cons, percentEncode_cons, percentEncode_append, ih]
    congr 1
    cases hkeep : keep c with
    | true =>
      rw [if_pos rfl, Bool.true_and, percentEncode_cons]
      exact List.append_nil _
    | false =>
      rw [if_neg Bool.false_ne_true, Bool.false_and, if_neg Bool.false_ne_true, hescape]

theorem hexByte_hexDigit (b : UInt8) :
    hexByte (hexDigit (b.toNat / 16)) (hexDigit (b.toNat % 16)) = some b := by
  have hb := b.toNat_lt
  unfold hexByte
  rw [hexValue_hexDigit (by omega), hexValue_hexDigit (by omega)]
  dsimp only
  rw [Nat.div_add_mod, UInt8.ofNat_toNat]

/-- An escape is read back. -/
theorem percentDecode_escape (b : UInt8) (cs : List Char) :
    percentDecode (escape b ++ cs) = (percentDecode cs).map (b :: ·) := by
  unfold escape
  exact percentDecode_of_hexByte (hexByte_hexDigit b)

theorem percentDecode_flatMap_escape (bytes : List UInt8) (cs : List Char) :
    percentDecode (bytes.flatMap escape ++ cs) = (percentDecode cs).map (bytes ++ ·) := by
  induction bytes with
  | nil => simp
  | cons b bytes ih =>
    rw [List.flatMap_cons, List.append_assoc, percentDecode_escape, ih, Option.map_map]
    rfl

theorem percentDecode_escapeChar (c : Char) (cs : List Char) :
    percentDecode (escapeChar c ++ cs) =
      (percentDecode cs).map (String.utf8EncodeChar c ++ ·) :=
  percentDecode_flatMap_escape (String.utf8EncodeChar c) cs

/-- What is encoded is decoded first, whatever follows it. -/
theorem percentDecode_percentEncode_append (h : ∀ c ∈ cs, keep c = true → c ≠ '%')
    (rest : List Char) :
    percentDecode (percentEncode keep cs ++ rest) = (percentDecode rest).map (utf8 cs ++ ·) := by
  induction cs with
  | nil => exact Option.map_id'.symm
  | cons c cs ih =>
    have ih := ih fun c' hc' => h c' (List.mem_cons_of_mem c hc')
    rw [percentEncode_cons, List.append_assoc]
    split
    · next hkeep =>
      rw [List.singleton_append, percentDecode_cons (h c List.mem_cons_self hkeep), ih,
        Option.map_map]
      simp [Function.comp_def]
    · rw [percentDecode_escapeChar, ih, Option.map_map]
      simp [Function.comp_def]

/-- **Decoding gives the text back**, whatever is kept but `%`. -/
theorem percentDecode_percentEncode (h : ∀ c ∈ cs, keep c = true → c ≠ '%') :
    percentDecode (percentEncode keep cs) = some (utf8 cs) := by
  have hdecode := percentDecode_percentEncode_append h []
  simpa [percentDecode_nil] using hdecode

/-! ### Escapes that are there already -/

theorem hexValue_percent : hexValue '%' = none := rfl

/-- Hexadecimal digits have one byte. -/
theorem utf8Size_of_hexValue (h : hexValue c ≠ none) : c.utf8Size = 1 := by
  rw [Char.utf8Size_eq_one_iff, UInt32.le_iff_toNat_le]
  by_contra hlarge
  apply h
  have hlt : ∀ d : Char, d.toNat ≤ 127 → ¬ c ≤ d := by
    intro d hd hle
    rw [Char.le_def, UInt32.le_iff_toNat_le] at hle
    exact hlarge (hle.trans hd)
  unfold hexValue
  rw [if_neg fun hc => hlt '9' (by decide) hc.2, if_neg fun hc => hlt 'F' (by decide) hc.2,
    if_neg fun hc => hlt 'f' (by decide) hc.2]

theorem hexByte_eq_some {high low : Char} {b : UInt8} (h : hexByte high low = some b) :
    hexValue high ≠ none ∧ hexValue low ≠ none := by
  unfold hexByte at h
  split at h
  · next hhigh hlow =>
    rw [hhigh, hlow]
    exact ⟨Option.some_ne_none _, Option.some_ne_none _⟩
  · cases h

/-- A `%` before another one is no escape, -/
theorem percentDecode_percent_percent (cs : List Char) :
    percentDecode ('%' :: '%' :: cs) = none := by
  cases cs with
  | nil => rfl
  | cons low cs => rfl

/-- nor is it with one character between. -/
theorem percentDecode_percent_cons_percent (cs : List Char) :
    percentDecode ('%' :: c :: '%' :: cs) = none := by
  have hbyte : hexByte c '%' = none := by
    unfold hexByte
    rw [hexValue_percent]
    cases hexValue c with
    | none => rfl
    | some h => rfl
  exact percentDecode_of_not_hexByte hbyte

theorem exists_escapeChar (c : Char) : ∃ cs, escapeChar c = '%' :: cs := by
  have hne : String.utf8EncodeChar c ≠ [] := by
    rw [← List.length_pos_iff, String.length_utf8EncodeChar]
    exact c.utf8Size_pos
  obtain ⟨b, bytes, hbytes⟩ := List.exists_cons_of_ne_nil hne
  unfold escapeChar
  rw [hbytes]
  exact ⟨_, rfl⟩

/-- An encoder that keeps `%` and the digits changes nothing for the decoder: what it
escapes is escaped, and what was broken is broken still. -/
theorem percentDecode_percentEncode_of_keep (hpercent : keep '%' = true)
    (hdigits : ∀ c, hexValue c ≠ none → keep c = true) (cs : List Char) :
    percentDecode (percentEncode keep cs) = percentDecode cs := by
  induction cs using percentDecode.induct with
  | case1 => rfl
  | case2 high low cs b hbyte ih =>
    obtain ⟨hhigh, hlow⟩ := hexByte_eq_some hbyte
    rw [percentEncode_cons, percentEncode_cons, percentEncode_cons, if_pos hpercent,
      if_pos (hdigits high hhigh), if_pos (hdigits low hlow)]
    rw [percentDecode_of_hexByte hbyte, ← ih]
    exact percentDecode_of_hexByte hbyte
  | case3 high low cs hbyte =>
    rw [percentDecode_of_not_hexByte hbyte, percentEncode_cons, percentEncode_cons,
      percentEncode_cons, if_pos hpercent]
    by_cases hhigh : keep high = true
    · rw [if_pos hhigh]
      by_cases hlow : keep low = true
      · rw [if_pos hlow]
        exact percentDecode_of_not_hexByte hbyte
      · obtain ⟨cs', hcs'⟩ := exists_escapeChar low
        rw [if_neg hlow, hcs']
        exact percentDecode_percent_cons_percent _
    · obtain ⟨cs', hcs'⟩ := exists_escapeChar high
      rw [if_neg hhigh, hcs']
      exact percentDecode_percent_percent _
  | case4 cs hshort =>
    rcases cs with _ | ⟨c, _ | ⟨low, cs⟩⟩
    · rw [percentEncode_cons, if_pos hpercent]
      rfl
    · rw [percentEncode_cons, percentEncode_cons, if_pos hpercent]
      by_cases hkeep : keep c = true
      · rw [if_pos hkeep]
        rfl
      · obtain ⟨cs', hcs'⟩ := exists_escapeChar c
        rw [if_neg hkeep, hcs']
        exact percentDecode_percent_percent _
    · exact absurd rfl (hshort c low cs rfl)
  | case5 c cs hshort hc ih =>
    rw [percentEncode_cons, percentDecode_cons hc, ← ih]
    split
    · exact percentDecode_cons hc
    · exact percentDecode_escapeChar c _

/-- **Two bytes are lost to each escape.** -/
theorem length_percentDecode (h : percentDecode cs = some bytes) :
    bytes.length + 2 * cs.count '%' = (utf8 cs).length := by
  induction cs using percentDecode.induct generalizing bytes with
  | case1 =>
    obtain rfl := Option.some.inj h
    rfl
  | case2 high low cs b hbyte ih =>
    rw [percentDecode_of_hexByte hbyte] at h
    obtain ⟨bytes, hbytes, rfl⟩ := Option.map_eq_some_iff.mp h
    obtain ⟨hhigh, hlow⟩ := hexByte_eq_some hbyte
    have hne {c : Char} (hc : hexValue c ≠ none) : (c == '%') = false := by
      rw [beq_eq_false_iff_ne]
      rintro rfl
      exact hc hexValue_percent
    have ih := ih hbytes
    have hsize : '%'.utf8Size = 1 := rfl
    simp only [utf8_cons, List.length_append, String.length_utf8EncodeChar, List.length_cons,
      List.count_cons, hne hhigh, hne hlow, utf8Size_of_hexValue hhigh, utf8Size_of_hexValue hlow,
      hsize, beq_self_eq_true, if_true]
    simp
    omega
  | case3 high low cs hbyte =>
    rw [percentDecode_of_not_hexByte hbyte] at h
    cases h
  | case4 cs hshort =>
    rcases cs with _ | ⟨c, _ | ⟨low, cs⟩⟩
    · cases h
    · cases h
    · exact absurd rfl (hshort c low cs rfl)
  | case5 c cs hshort hc ih =>
    rw [percentDecode_cons hc] at h
    obtain ⟨bytes, hbytes, rfl⟩ := Option.map_eq_some_iff.mp h
    have ih := ih hbytes
    rw [List.count_cons_of_ne hc, utf8_cons, List.length_append, List.length_append]
    omega

end Decoding

end Framework
