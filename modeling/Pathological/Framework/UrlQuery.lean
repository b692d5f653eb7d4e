import Pathological.Framework.PercentEncoding

/-!
# Queries

The query of a URL is a list of names with values, `name=value`, joined by `&`, in which
all but the syntax can be kept as it stands. Whoever reads it splits it first and decodes
the parts afterwards, so an encoder that escapes what the query has for syntax is
understood (`queryGet_encodeQuery`), whatever else it escapes.
-/

namespace Framework

/-! ### Reading -/

/-- The bytes of a name or a value. A `+` is a space, and a `%` that begins no escape
stands for itself. -/
def queryBytes : List Char → List UInt8
  | [] => []
  | '%' :: high :: low :: cs =>
    match hexByte high low with
    | some b => b :: queryBytes cs
    | none => String.utf8EncodeChar '%' ++ queryBytes (high :: low :: cs)
  | c :: cs => String.utf8EncodeChar (if c = '+' then ' ' else c) ++ queryBytes cs

/-- The text of a name or a value, `none` if it is no valid UTF-8. -/
def queryText (cs : List Char) : Option (List Char) := utf8Decode (queryBytes cs)

/-- The names and values, not decoded. What has no `=` is a name without a value. -/
def queryPairs (query : List Char) : List (List Char × List Char) :=
  ((query.splitOn '&').filter (· ≠ [])).map fun piece =>
    (piece.takeWhile (· ≠ '='), (piece.dropWhile (· ≠ '=')).tail)

/-- The value of the first pair with the name. -/
def queryGet (name : List Char) (query : List Char) : Option (List Char) :=
  ((queryPairs query).find? fun pair => decide (queryText pair.1 = some name)).bind
    fun pair => queryText pair.2

/-! ### Writing -/

/-- A name with its value. -/
def encodePair (keep : Char → Bool) (pair : List Char × List Char) : List Char :=
  percentEncode keep pair.1 ++ '=' :: percentEncode keep pair.2

/-- The pairs as a query. -/
def encodeQuery (keep : Char → Bool) (pairs : List (List Char × List Char)) : List Char :=
  ['&'].intercalate (pairs.map (encodePair keep))

/-- What a query has for syntax is escaped. -/
def EscapesSyntax (keep : Char → Bool) : Prop := ∀ c ∈ ['%', '+', '&', '='], keep c = false

/-! ### What is written is read -/

section Query

variable {keep : Char → Bool} {c : Char} {cs : List Char}

theorem queryBytes_cons (h : c ≠ '%') : queryBytes (c :: cs) =
    String.utf8EncodeChar (if c = '+' then ' ' else c) ++ queryBytes cs := by
  rw [queryBytes]
  rintro high low cs' rfl
  exact absurd rfl h

theorem queryBytes_escape (b : UInt8) (cs : List Char) :
    queryBytes (escape b ++ cs) = b :: queryBytes cs := by
  unfold escape
  simp only [List.cons_append, List.nil_append]
  rw [queryBytes, hexByte_hexDigit]

theorem queryBytes_escapeChar (c : Char) (cs : List Char) :
    queryBytes (escapeChar c ++ cs) = String.utf8EncodeChar c ++ queryBytes cs := by
  unfold escapeChar
  induction String.utf8EncodeChar c with
  | nil => rfl
  | cons b bytes ih =>
    rw [List.flatMap_cons, List.append_assoc, queryBytes_escape, ih]
    rfl

variable (hkeep : EscapesSyntax keep)

include hkeep

theorem queryText_percentEncode (cs : List Char) :
    queryText (percentEncode keep cs) = some cs := by
  have hbytes : queryBytes (percentEncode keep cs) = utf8 cs := by
    induction cs with
    | nil => rfl
    | cons c cs ih =>
      rw [percentEncode_cons, utf8_cons]
      split
      · next hc =>
        have hpercent : c ≠ '%' := by
          rintro rfl
          simp [hkeep '%' (by simp)] at hc
        have hplus : c ≠ '+' := by
          rintro rfl
          simp [hkeep '+' (by simp)] at hc
        rw [List.singleton_append, queryBytes_cons hpercent, if_neg hplus, ih]
      · rw [queryBytes_escapeChar, ih]
  unfold queryText
  rw [hbytes, utf8Decode_utf8]

/-- There is no syntax in what is encoded. -/
theorem notMem_percentEncode_of_escapes (hc : c ∈ ['&', '=']) : c ∉ percentEncode keep cs := by
  intro h
  have hsyntax : c ∈ ['%', '+', '&', '='] := List.mem_append_right ['%', '+'] hc
  rcases keep_of_mem_percentEncode h with hkept | rfl | hhex
  · simp [hkeep c hsyntax] at hkept
  · simp at hc
  · apply hhex
    simp only [List.mem_cons, List.not_mem_nil, or_false] at hc
    rcases hc with rfl | rfl
    · rfl
    · rfl

/-- A query falls into its pairs. -/
theorem queryPairs_encodeQuery (pairs : List (List Char × List Char)) :
    queryPairs (encodeQuery keep pairs) =
      pairs.map fun pair => (percentEncode keep pair.1, percentEncode keep pair.2) := by
  have hpieces : ((encodeQuery keep pairs).splitOn '&').filter (· ≠ []) =
      pairs.map (encodePair keep) := by
    unfold encodeQuery
    by_cases hpairs : pairs = []
    · subst hpairs
      rfl
    · rw [List.splitOn_intercalate]
      · rw [List.filter_eq_self]
        intro piece hpiece
        obtain ⟨pair, -, rfl⟩ := List.mem_map.mp hpiece
        simp [encodePair]
      · intro piece hpiece
        obtain ⟨pair, -, rfl⟩ := List.mem_map.mp hpiece
        simp only [encodePair, List.mem_append, List.mem_cons, not_or]
        exact ⟨notMem_percentEncode_of_escapes hkeep (by simp), by decide,
          notMem_percentEncode_of_escapes hkeep (by simp)⟩
      · simpa using hpairs
  unfold queryPairs
  rw [hpieces, List.map_map]
  apply List.map_congr_left
  intro pair _
  -- the first `=` is the one between name and value
  have hname : ∀ c ∈ percentEncode keep pair.1, decide (c ≠ '=') = true := by
    intro c hc
    rw [decide_eq_true_eq]
    rintro rfl
    exact notMem_percentEncode_of_escapes hkeep (by simp) hc
  simp only [Function.comp_apply, encodePair]
  rw [List.takeWhile_append_of_pos hname, List.dropWhile_append_of_pos hname]
  simp

/-- **A query is read as it was written.** -/
theorem queryGet_encodeQuery (name : List Char) (pairs : List (List Char × List Char)) :
    queryGet name (encodeQuery keep pairs) =
      (pairs.find? fun pair => decide (pair.1 = name)).map Prod.snd := by
  unfold queryGet
  rw [queryPairs_encodeQuery hkeep, List.find?_map]
  simp only [Function.comp_def, queryText_percentEncode hkeep, Option.some.injEq]
  cases pairs.find? fun pair => decide (pair.1 = name) with
  | none => rfl
  | some pair => exact queryText_percentEncode hkeep pair.2

theorem queryGet_encodeQuery_self (name value : List Char)
    (pairs : List (List Char × List Char)) :
    queryGet name (encodeQuery keep ((name, value) :: pairs)) = some value := by
  have hfirst : ((name, value) :: pairs).find? (fun pair => decide (pair.1 = name)) =
      some (name, value) := List.find?_cons_of_pos (decide_eq_true rfl)
  rw [queryGet_encodeQuery hkeep, hfirst]
  rfl

theorem queryGet_encodeQuery_of_ne {name name' : List Char} (h : name' ≠ name)
    (value : List Char) (pairs : List (List Char × List Char)) :
    queryGet name (encodeQuery keep ((name', value) :: pairs)) =
      queryGet name (encodeQuery keep pairs) := by
  have hrest : ((name', value) :: pairs).find? (fun pair => decide (pair.1 = name)) =
      pairs.find? fun pair => decide (pair.1 = name) :=
    List.find?_cons_of_neg fun heq => h (of_decide_eq_true heq)
  rw [queryGet_encodeQuery hkeep, queryGet_encodeQuery hkeep, hrest]

end Query

end Framework
