import Pathological.Framework.UrlQuery
import Pathological.Frontend.SubmitPage

/-!
# The image route

`GET /api/render-image` fetches an image from the bucket's public URL by the name it is
given. The name is trimmed and loses its first slashes, its segments are encoded, and where
a segment is `.` or `..` the URL is one of another place. What is fetched is sent on under
a file name, in a header that has no room for characters beyond Latin-1.

So a name is answered with the object stored under it, whatever the bucket holds, exactly
when nothing of the name is lost on the way and its file name can be sent
(`renderImage_serves_iff`).
-/

namespace Pathological

open Framework

/-! ### From a name to a URL -/

/-- `encodeURIComponent`. -/
def encodeURIComponent (cs : List Char) : List Char := percentEncode keptInComponent cs

/-- `encodeS3Key`. -/
def encodeS3Key (key : List Char) : List Char :=
  ['/'].intercalate ((key.splitOn '/').map encodeURIComponent)

/-- The text is fetched as it stands. -/
def isHttpUrl (raw : String) : Bool :=
  "http://".toList.isPrefixOf raw.toList || "https://".toList.isPrefixOf raw.toList

/-- The URL of a key, below that of the bucket. -/
def objectUrl (publicBase : String) (key : List Char) : String :=
  let baseUrl := publicBase.toList.rdropWhile (· = '/')
  String.ofList (baseUrl ++ '/' :: encodeS3Key key)

/-- `toS3ObjectUrl`, where `S3_PUBLIC_BASE_URL` is `publicBase`. -/
def toS3ObjectUrl (publicBase image : String) : String :=
  let raw := jsTrim image
  if isHttpUrl raw then raw else objectUrl publicBase (raw.toList.dropWhile (· = '/'))

/-! ### From a URL to an object -/

/-- The key that the URL of a bucket asks for, where the bucket's own path is `path` and
`text` follows it. It is `none` where the URL leads out of the bucket. -/
def bucketKey (path : List (List Char)) (text : List Char) : Option (List Char) :=
  match path.isPrefixOf? (pathState path [] text) with
  | some [] => none
  | some segments => decodeURIComponent (['/'].intercalate segments)
  | none => none

/-- Where the images are fetched from: `S3_PUBLIC_BASE_URL`, the segments of its path, and
the key that a request for a URL asks for, if it gets to the bucket. That is known for the
URLs of keys. -/
structure PublicUrl where
  publicBase : String
  path : List (List Char)
  objectKey : String → Option String
  objectKey_url : ∀ key, objectKey (objectUrl publicBase key) =
    (bucketKey path (encodeS3Key key)).map String.ofList

/-! ### File names -/

/-- `path.basename`. -/
def basename (name : List Char) : List Char :=
  (name.rdropWhile (· = '/')).rtakeWhile (· ≠ '/')

/-- `path.extname`: from the last dot on, unless the name begins with it or is `..`. -/
def extname (name : List Char) : List Char :=
  let base := basename name
  let stem := base.rdropWhile (· ≠ '.')
  if stem.length ≤ 1 ∨ base = ['.', '.'] then [] else '.' :: base.rtakeWhile (· ≠ '.')

/-- `getContentType`. -/
def getContentType (fileName : List Char) : String :=
  if (extname fileName).map Char.toLower = ".png".toList then "image/png"
  else "application/octet-stream"

/-- The value can be sent in a header: bytes, and no line ends. -/
def isHeaderValue (value : List Char) : Bool :=
  value.all fun c => decide (c.toNat ≤ 0xff) && !([0x00, 0x0a, 0x0d].contains c.toNat)

/-! ### `GET` -/

/-- An answer of the bucket that is OK and has a body. -/
structure RemoteImage (α : Type) where
  contentType : Option String
  body : α
  valid : ∀ value, contentType = some value → isHeaderValue value.toList = true

/-- What the route answers. -/
inductive ImageResponse (α : Type) where
  | ok (body : α) (headers : List (String × String))
  | error (status : ℕ) (message : String)
  deriving DecidableEq, Repr

/-- What is in the answer. -/
def ImageResponse.served {α : Type} : ImageResponse α → Option α
  | .ok body _ => some body
  | .error _ _ => none

/-- The name an image is sent under. -/
def fileNameForDownload (image : String) (download : Option String) : List Char :=
  match ifTruthy (download.map jsTrim) with
  | some download => basename download.toList
  | none => basename (basename image.toList)

/-- The headers of an image. -/
def imageHeaders {α : Type} (remote : RemoteImage α) (image : String) (download : Option String) :
    List (String × String) :=
  let fileName := fileNameForDownload image download
  let contentType := (ifTruthy remote.contentType).getD (getContentType fileName)
  let dispositionType := if (ifTruthy (download.map jsTrim)).isSome then "attachment" else "inline"
  [("Content-Type", contentType),
    ("Content-Disposition", dispositionType ++ "; filename=\"" ++ String.ofList fileName ++ "\""),
    ("Cache-Control", "no-store")]

/-- `GET`, of the query of its URL. -/
def renderImage {α : Type} (U : PublicUrl) (objects : String → Option (RemoteImage α))
    (query : List Char) : ImageResponse α :=
  let download := (queryGet "download".toList query).map String.ofList
  match (queryGet "image".toList query).map String.ofList with
  | none => .error 400 "Missing image name."
  | some image =>
    if jsTrim image = "" then .error 400 "Missing image name."
    else
      match (U.objectKey (toS3ObjectUrl U.publicBase image)).bind objects with
      | none => .error 404 "Rendered image not found."
      | some remote =>
        let headers := imageHeaders remote image download
        -- the constructor of the answer throws on a header that cannot be sent
        if headers.all fun header => isHeaderValue header.2.toList then .ok remote.body headers
        else .error 404 "Rendered image not found."

/-! ### Segments -/

/-- A step through a tree, where the URL parser takes one. -/
def IsDotSegment (segment : List Char) : Prop := segment = ['.'] ∨ segment = ['.', '.']

instance (segment : List Char) : Decidable (IsDotSegment segment) :=
  inferInstanceAs (Decidable (_ ∨ _))

section Component

variable {c d : Char} {cs : List Char}

/-- A character that is no letter is the lower case of itself only. -/
theorem eq_of_toLower_eq (hd : d.isLower = false) (h : c.toLower = d) : c = d := by
  replace hd : (decide (d.val ≥ 97) && decide (d.val ≤ 122)) = false := hd
  unfold Char.toLower at h
  split at h
  · next hc =>
    subst h
    simp [UInt32.le_iff_toNat_le] at hd hc
    omega
  · exact h

theorem keptInPath_of_keptInComponent (h : keptInComponent c = true) : keptInPath c = true := by
  have halphanum : c.isAlphanum = (decide (c.val ≥ 65 ∧ c.val ≤ 90) ||
      decide (c.val ≥ 97) && decide (c.val ≤ 122) ||
      decide (c.val ≥ 48) && decide (c.val ≤ 57)) := rfl
  unfold keptInComponent at h
  rw [halphanum] at h
  unfold keptInPath
  simp [UInt32.le_iff_toNat_le] at h ⊢
  omega

/-- What is in an encoded component stays as it is in a path. -/
theorem mem_encodeURIComponent (h : c ∈ encodeURIComponent cs) :
    keptInPath c = true ∧ c ≠ '/' ∧ c ≠ '?' ∧ c ≠ '#' := by
  have hkept : keptInComponent c = true ∨ c = '%' ∨ hexValue c ≠ none :=
    keep_of_mem_percentEncode h
  refine ⟨?_, ?_⟩
  · rcases hkept with hkept | rfl | hhex
    · exact keptInPath_of_keptInComponent hkept
    · decide
    · exact keptInPath_of_hexValue c hhex
  · have hnot {d : Char} (hcomponent : keptInComponent d = false) (hpercent : d ≠ '%')
        (hhex : hexValue d = none) : c ≠ d := by
      rintro rfl
      rcases hkept with hkept | hkept | hkept
      · exact Bool.false_ne_true (hcomponent.symm.trans hkept)
      · exact hpercent hkept
      · exact hkept hhex
    exact ⟨hnot (by decide) (by decide) rfl, hnot (by decide) (by decide) rfl,
      hnot (by decide) (by decide) rfl⟩

/-- The first byte is that of a dot for the dot only. -/
theorem eq_dot_of_utf8EncodeChar {bytes : List UInt8}
    (h : String.utf8EncodeChar c = 0x2e :: bytes) : c = '.' := by
  have hfirst : (String.utf8EncodeChar c).head?.map UInt8.toNat = some 46 := by
    rw [h]
    rfl
  have hval : c.val.toNat = c.toNat := rfl
  have hnat : c.toNat = 46 := by
    unfold String.utf8EncodeChar at hfirst
    dsimp only at hfirst
    rw [hval] at hfirst
    split at hfirst
    · simp at hfirst
      omega
    · split at hfirst
      · simp at hfirst
        omega
      · split at hfirst
        · simp at hfirst
          omega
        · simp at hfirst
          omega
  rw [← Char.ofNat_toNat c, hnat]

/-- A character that is escaped is not escaped as the dot is. -/
theorem exists_escapeChar_of_not_kept (h : keptInComponent c = false) :
    ∃ high low cs, escapeChar c = '%' :: high :: low :: cs ∧
      ¬ (high.toLower = '2' ∧ low.toLower = 'e') := by
  obtain ⟨b, bytes, hbytes⟩ := List.exists_cons_of_ne_nil (String.utf8EncodeChar_ne_nil (c := c))
  have hb := b.toNat_lt
  refine ⟨hexDigit (b.toNat / 16), hexDigit (b.toNat % 16), bytes.flatMap escape, ?_, ?_⟩
  · unfold escapeChar
    rw [hbytes]
    rfl
  · rintro ⟨hhigh, hlow⟩
    have htwo : ∀ n < 16, (hexDigit n).toLower = '2' → n = 2 := by decide
    have hfourteen : ∀ n < 16, (hexDigit n).toLower = 'e' → n = 14 := by decide
    have hdiv := htwo _ (by omega) hhigh
    have hmod := hfourteen _ (by omega) hlow
    obtain rfl : b = 0x2e := by
      apply UInt8.toNat_inj.mp
      show b.toNat = 46
      omega
    obtain rfl := eq_dot_of_utf8EncodeChar hbytes
    cases h

/-- What is compared with the dot segments. -/
def lowerEncoded (cs : List Char) : List Char := (encodeURIComponent cs).map Char.toLower

theorem lowerEncoded_cons (h : keptInComponent c = true) (cs : List Char) :
    lowerEncoded (c :: cs) = c.toLower :: lowerEncoded cs := by
  unfold lowerEncoded encodeURIComponent
  rw [percentEncode_cons, if_pos h]
  rfl

theorem lowerEncoded_eq_nil (h : lowerEncoded cs = []) : cs = [] := by
  cases cs with
  | nil => rfl
  | cons c cs =>
    cases hkept : keptInComponent c with
    | true =>
      rw [lowerEncoded_cons hkept] at h
      cases h
    | false =>
      obtain ⟨_, _, _, hescape, -⟩ := exists_escapeChar_of_not_kept hkept
      unfold lowerEncoded encodeURIComponent at h
      rw [percentEncode_cons, if_neg (by simp [hkept]), hescape] at h
      cases h

/-- What begins with a dot, escaped or not, does so because the text does. -/
theorem exists_eq_dot_cons {rest : List Char}
    (h : lowerEncoded cs = '.' :: rest ∨ lowerEncoded cs = '%' :: '2' :: 'e' :: rest) :
    ∃ cs', cs = '.' :: cs' ∧ lowerEncoded cs = '.' :: lowerEncoded cs' := by
  cases cs with
  | nil => rcases h with h | h <;> cases h
  | cons c cs =>
    cases hkept : keptInComponent c with
    | true =>
      rw [lowerEncoded_cons hkept] at h ⊢
      rcases h with h | h
      · obtain rfl := eq_of_toLower_eq rfl (List.cons.inj h).1
        exact ⟨cs, rfl, rfl⟩
      · -- a percent sign is not kept
        obtain rfl := eq_of_toLower_eq rfl (List.cons.inj h).1
        cases hkept
    | false =>
      obtain ⟨high, low, cs', hescape, hnot⟩ := exists_escapeChar_of_not_kept hkept
      have hlower : lowerEncoded (c :: cs) = '%' :: high.toLower :: low.toLower ::
          (cs' ++ encodeURIComponent cs).map Char.toLower := by
        unfold lowerEncoded encodeURIComponent
        rw [percentEncode_cons, if_neg (by simp [hkept]), hescape]
        rfl
      rw [hlower] at h
      rcases h with h | h
      · cases h
      · simp only [List.cons.injEq] at h
        exact absurd ⟨h.2.1, h.2.2.1⟩ hnot

/-- Encoded, the single dot is the single dot, -/
theorem isSingleDot_encode : isSingleDot (encodeURIComponent cs) = true ↔ cs = ['.'] := by
  have hdef : isSingleDot (encodeURIComponent cs) = true ↔
      lowerEncoded cs = ['.'] ∨ lowerEncoded cs = ['%', '2', 'e'] := by
    unfold isSingleDot
    rw [List.contains_iff_mem]
    exact List.mem_pair
  rw [hdef]
  constructor
  · intro h
    obtain ⟨cs', rfl, hdot⟩ := exists_eq_dot_cons h
    rw [hdot] at h
    rcases h with h | h
    · rw [lowerEncoded_eq_nil (List.cons.inj h).2]
    · cases (List.cons.inj h).1
  · rintro rfl
    exact .inl (by decide)

/-- and the double dot the double dot. -/
theorem isDoubleDot_encode : isDoubleDot (encodeURIComponent cs) = true ↔ cs = ['.', '.'] := by
  have hdef : isDoubleDot (encodeURIComponent cs) = true ↔
      ∃ rest ∈ [['.'], ['%', '2', 'e']],
        lowerEncoded cs = '.' :: rest ∨ lowerEncoded cs = '%' :: '2' :: 'e' :: rest := by
    unfold isDoubleDot
    rw [List.contains_iff_mem]
    show lowerEncoded cs ∈ [['.', '.'], ['.', '%', '2', 'e'], ['%', '2', 'e', '.'],
      ['%', '2', 'e', '%', '2', 'e']] ↔ _
    simp only [List.mem_cons, List.not_mem_nil, or_false, exists_eq_or_imp, exists_eq_left]
    tauto
  rw [hdef]
  constructor
  · rintro ⟨rest, hrest, h⟩
    obtain ⟨cs', rfl, hdot⟩ := exists_eq_dot_cons h
    rw [hdot] at h
    rcases h with h | h
    · -- what follows the first dot is a dot
      obtain rfl := (List.cons.inj h).2
      have hsingle := List.mem_pair.mp hrest
      obtain ⟨cs'', rfl, hdot'⟩ := exists_eq_dot_cons hsingle
      rw [hdot'] at hsingle
      rcases hsingle with hsingle | hsingle
      · rw [lowerEncoded_eq_nil (List.cons.inj hsingle).2]
      · cases (List.cons.inj hsingle).1
    · cases (List.cons.inj h).1
  · rintro rfl
    exact ⟨['.'], by simp, .inl (by decide)⟩

end Component

/-! ### The path of an encoded key -/

section Path

variable {path : List (List Char)} {buffer segment cs : List Char}

/-- An encoded segment is read as it is. -/
theorem pathState_append {raw : List Char} (h : ∀ c ∈ raw, keptInPath c = true ∧ c ≠ '/' ∧
    c ≠ '?' ∧ c ≠ '#') (path : List (List Char)) (buffer cs : List Char) :
    pathState path buffer (raw ++ cs) = pathState path (buffer ++ raw) cs := by
  induction raw generalizing buffer with
  | nil => simp
  | cons c raw ih =>
    obtain ⟨hkept, hslash, hquery, hfragment⟩ := h c List.mem_cons_self
    have hencode : percentEncode keptInPath [c] = [c] := by
      rw [percentEncode_cons, if_pos hkept]
      rfl
    rw [List.cons_append, pathState, if_neg (by simp [hquery, hfragment]), if_neg hslash, hencode,
      ih fun c' hc' => h c' (List.mem_cons_of_mem c hc'), List.append_assoc]
    rfl

/-- The path of an encoded key takes its segments one after another. -/
theorem pathState_encoded (path : List (List Char)) (segments : List (List Char))
    (last : List Char) :
    pathState path [] (['/'].intercalate ((segments ++ [last]).map encodeURIComponent)) =
      endPath (segments.foldl (fun path segment => pushSegment path (encodeURIComponent segment))
        path) (encodeURIComponent last) := by
  induction segments generalizing path with
  | nil =>
    have hread : pathState path [] (encodeURIComponent last ++ []) =
        pathState path ([] ++ encodeURIComponent last) [] :=
      pathState_append (fun c => mem_encodeURIComponent) path [] []
    simpa [pathState] using hread
  | cons segment segments ih =>
    have hne : (segments ++ [last]).map encodeURIComponent ≠ [] := by simp
    rw [List.cons_append, List.map_cons, List.intercalate_cons_of_ne_nil hne, List.append_assoc,
      pathState_append fun c => mem_encodeURIComponent]
    rw [List.nil_append, List.singleton_append, pathState, if_neg (by simp), if_pos rfl, ih]
    rfl

/-- The length of the text that the segments are joined to, and one. -/
def joinedLength (segments : List (List Char)) : ℕ :=
  (segments.map fun segment => segment.length + 1).sum

theorem joinedLength_append (segments segments' : List (List Char)) :
    joinedLength (segments ++ segments') = joinedLength segments + joinedLength segments' := by
  unfold joinedLength
  rw [List.map_append, List.sum_append]

theorem joinedLength_dropLast_le (segments : List (List Char)) :
    joinedLength segments.dropLast ≤ joinedLength segments := by
  rcases List.eq_nil_or_concat segments with rfl | ⟨segments, segment, rfl⟩
  · exact le_rfl
  · rw [List.concat_eq_append, List.dropLast_concat, joinedLength_append]
    exact Nat.le_add_right _ _

theorem length_intercalate {segments : List (List Char)} (h : segments ≠ []) :
    (['/'].intercalate segments).length + 1 = joinedLength segments := by
  induction segments with
  | nil => exact absurd rfl h
  | cons segment segments ih =>
    by_cases hnil : segments = []
    · subst hnil
      simp [joinedLength]
    · have ih := ih hnil
      rw [List.intercalate_cons_of_ne_nil hnil, joinedLength, List.map_cons, List.sum_cons,
        ← joinedLength, ← ih]
      simp
      omega

/-- How far the path has come from `base`, with the segments `read`: they are all there,
or there were dot segments and there is less. -/
def Walked (base path read : List (List Char)) : Prop :=
  ∃ left, path.drop base.length = left.map encodeURIComponent ∧
    ((∀ segment ∈ read, ¬ IsDotSegment segment) ∧ left = read ∧
        path = base ++ read.map encodeURIComponent ∨
      (∃ segment ∈ read, IsDotSegment segment) ∧ joinedLength left < joinedLength read)

section Walk

variable {base read : List (List Char)}

theorem Walked.refl (base : List (List Char)) : Walked base base [] :=
  ⟨[], by simp, .inl ⟨by simp, rfl, by simp⟩⟩

/-- What is left is at most what was read. -/
theorem Walked.exists_left (h : Walked base path read) : ∃ left,
    path.drop base.length = left.map encodeURIComponent ∧
      joinedLength left ≤ joinedLength read := by
  obtain ⟨left, hdrop, ⟨-, rfl, -⟩ | ⟨-, hlt⟩⟩ := h
  · exact ⟨left, hdrop, le_rfl⟩
  · exact ⟨left, hdrop, hlt.le⟩

/-- A segment that is no dot segment is added. -/
theorem Walked.push (h : Walked base path read) (hseg : ¬ IsDotSegment segment) :
    Walked base (path ++ [encodeURIComponent segment]) (read ++ [segment]) := by
  obtain ⟨left, hdrop, ⟨hread, rfl, rfl⟩ | ⟨⟨dots, hmem, hdots⟩, hlt⟩⟩ := h
  · refine ⟨left ++ [segment], ?_, .inl ⟨?_, rfl, ?_⟩⟩
    · rw [List.append_assoc, List.drop_left]
      simp
    · intro segment' hmem
      rcases List.mem_append.mp hmem with hmem | hmem
      · exact hread segment' hmem
      · rwa [List.mem_singleton.mp hmem]
    · simp
  · have hone : joinedLength [segment] = segment.length + 1 := by simp [joinedLength]
    have hdots' : ∃ segment' ∈ read ++ [segment], IsDotSegment segment' :=
      ⟨dots, List.mem_append_left _ hmem, hdots⟩
    by_cases hlong : base.length ≤ path.length
    · refine ⟨left ++ [segment], ?_, .inr ⟨hdots', ?_⟩⟩
      · rw [List.drop_append_of_le_length hlong, hdrop]
        simp
      · rw [joinedLength_append, joinedLength_append]
        omega
    · -- the path has left the bucket
      refine ⟨[], ?_, .inr ⟨hdots', ?_⟩⟩
      · rw [List.drop_eq_nil_of_le]
        · rfl
        · simp
          omega
      · rw [joinedLength_append, hone]
        simp [joinedLength]

/-- A dot segment leaves less. -/
theorem Walked.dots (h : Walked base path read) (hseg : IsDotSegment segment)
    {path' : List (List Char)} (hpath : path' = path ∨ path' = path.dropLast) :
    Walked base path' (read ++ [segment]) ∧ Walked base (path' ++ [[]]) (read ++ [segment]) := by
  obtain ⟨left, hdrop, hle⟩ : ∃ left, path'.drop base.length = left.map encodeURIComponent ∧
      joinedLength left ≤ joinedLength read := by
    obtain ⟨left, hdrop, hle⟩ := h.exists_left
    rcases hpath with rfl | rfl
    · exact ⟨left, hdrop, hle⟩
    · refine ⟨left.dropLast, ?_, (joinedLength_dropLast_le left).trans hle⟩
      rw [← List.dropLast_drop_eq_drop_dropLast, hdrop, List.map_dropLast]
  have hdots : ∃ segment' ∈ read ++ [segment], IsDotSegment segment' :=
    ⟨segment, by simp, hseg⟩
  have hlong : joinedLength read + 1 < joinedLength (read ++ [segment]) := by
    have hpos : 0 < segment.length := by
      rcases hseg with rfl | rfl <;> simp
    rw [joinedLength_append]
    simp [joinedLength, hpos]
  refine ⟨⟨left, hdrop, .inr ⟨hdots, by omega⟩⟩, ?_⟩
  -- an empty segment, if the path has not left the bucket
  have hempty : ∃ last, ([[]] : List (List Char)).drop (base.length - path'.length) =
      last.map encodeURIComponent ∧ joinedLength last ≤ 1 := by
    cases base.length - path'.length with
    | zero => exact ⟨[[]], rfl, le_rfl⟩
    | succ n => exact ⟨[], by simp, Nat.zero_le _⟩
  obtain ⟨last, hlast, hone⟩ := hempty
  refine ⟨left ++ last, ?_, .inr ⟨hdots, ?_⟩⟩
  · rw [List.drop_append, hdrop, hlast, List.map_append]
  · rw [joinedLength_append]
    omega

theorem Walked.pushSegment (h : Walked base path read) (segment : List Char) :
    Walked base (pushSegment path (encodeURIComponent segment)) (read ++ [segment]) := by
  unfold Pathological.pushSegment
  split
  · next hdouble => exact (h.dots (.inr (isDoubleDot_encode.mp hdouble)) (.inr rfl)).1
  · next hdouble =>
    split
    · next hsingle => exact (h.dots (.inl (isSingleDot_encode.mp hsingle)) (.inl rfl)).1
    · next hsingle =>
      rw [isDoubleDot_encode] at hdouble
      rw [isSingleDot_encode] at hsingle
      exact h.push (not_or.mpr ⟨hsingle, hdouble⟩)

theorem Walked.endPath (h : Walked base path read) (segment : List Char) :
    Walked base (endPath path (encodeURIComponent segment)) (read ++ [segment]) := by
  unfold Pathological.endPath
  split
  · next hdouble => exact (h.dots (.inr (isDoubleDot_encode.mp hdouble)) (.inr rfl)).2
  · next hdouble =>
    split
    · next hsingle => exact (h.dots (.inl (isSingleDot_encode.mp hsingle)) (.inl rfl)).2
    · next hsingle =>
      rw [isDoubleDot_encode] at hdouble
      rw [isSingleDot_encode] at hsingle
      exact h.push (not_or.mpr ⟨hsingle, hdouble⟩)

theorem Walked.foldl (h : Walked base path read) (segments : List (List Char)) :
    Walked base (segments.foldl (fun path segment =>
      Pathological.pushSegment path (encodeURIComponent segment)) path) (read ++ segments) := by
  induction segments generalizing path read with
  | nil => simpa using h
  | cons segment segments ih =>
    rw [List.append_cons]
    exact ih (h.pushSegment segment)

/-- The path of an encoded key. -/
theorem walked_encodeS3Key (base : List (List Char)) (key : List Char) :
    Walked base (pathState base [] (encodeS3Key key)) (key.splitOn '/') := by
  rcases List.eq_nil_or_concat (key.splitOn '/') with hnil | ⟨segments, last, hsplit⟩
  · exact absurd hnil (List.splitOn_ne_nil _ _)
  · rw [List.concat_eq_append] at hsplit
    unfold encodeS3Key
    rw [hsplit, pathState_encoded]
    exact ((Walked.refl base).foldl segments).endPath last

end Walk

/-! ### The key of an encoded key -/

/-- Segments that are encoded and joined are decoded to what they are joined to. -/
theorem decodeURIComponent_intercalate (segments : List (List Char)) :
    decodeURIComponent (['/'].intercalate (segments.map encodeURIComponent)) =
      some (['/'].intercalate segments) := by
  have hkeep {cs : List Char} : ∀ c ∈ cs, keptInComponent c = true → c ≠ '%' := by
    rintro c - hkept rfl
    cases hkept
  have hbytes : percentDecode (['/'].intercalate (segments.map encodeURIComponent)) =
      some (utf8 (['/'].intercalate segments)) := by
    induction segments with
    | nil => rfl
    | cons segment segments ih =>
      by_cases hnil : segments = []
      · subst hnil
        rw [List.map_singleton, List.intercalate_singleton, List.intercalate_singleton]
        exact percentDecode_percentEncode hkeep
      · rw [List.map_cons, List.intercalate_cons_of_ne_nil (by simpa using hnil),
          List.intercalate_cons_of_ne_nil hnil, List.append_assoc, encodeURIComponent,
          percentDecode_percentEncode_append hkeep, List.singleton_append,
          percentDecode_cons (by decide), ih]
        simp [utf8]
  unfold decodeURIComponent
  rw [hbytes]
  exact utf8Decode_utf8 _

/-- What the bucket is asked for is the key, or, if that has dot segments, something
shorter. -/
theorem bucketKey_cases (base : List (List Char)) (key : List Char) :
    (∀ segment ∈ key.splitOn '/', ¬ IsDotSegment segment) ∧
        bucketKey base (encodeS3Key key) = some key ∨
      (∃ segment ∈ key.splitOn '/', IsDotSegment segment) ∧
        ∀ key', bucketKey base (encodeS3Key key) = some key' → key'.length < key.length := by
  have hlength := length_intercalate (List.splitOn_ne_nil '/' key)
  rw [List.intercalate_splitOn] at hlength
  obtain ⟨left, hdrop, ⟨hread, rfl, hpath⟩ | ⟨hdots, hlt⟩⟩ := walked_encodeS3Key base key
  · refine .inl ⟨hread, ?_⟩
    have hsegments : base.isPrefixOf? (pathState base [] (encodeS3Key key)) =
        some ((key.splitOn '/').map encodeURIComponent) := by
      rw [List.isPrefixOf?_eq_some_iff_append_eq, hpath]
    obtain ⟨segment, segments, hsplit⟩ := List.exists_cons_of_ne_nil (List.splitOn_ne_nil '/' key)
    unfold bucketKey
    rw [hsegments]
    have hdecode := decodeURIComponent_intercalate (key.splitOn '/')
    rw [List.intercalate_splitOn] at hdecode
    rw [hsplit] at hdecode ⊢
    exact hdecode
  · refine .inr ⟨hdots, fun key' hkey' => ?_⟩
    unfold bucketKey at hkey'
    split at hkey'
    · cases hkey'
    · next segments hne hsegments =>
      rw [List.isPrefixOf?_eq_some_iff_append_eq] at hsegments
      rw [← hsegments, List.drop_left] at hdrop
      subst hdrop
      rw [decodeURIComponent_intercalate] at hkey'
      obtain rfl := Option.some.inj hkey'
      have hleft : left ≠ [] := by
        rintro rfl
        exact hne rfl
      have hjoined := length_intercalate hleft
      omega
    · cases hkey'

end Path

/-! ### What is claimed -/

/-- Nothing of the name is lost on the way to the bucket. -/
structure Fetchable (image : String) : Prop where
  trim : jsTrim image = image
  slash : image.toList.head? ≠ some '/'
  segments : ∀ segment ∈ image.toList.splitOn '/', ¬ IsDotSegment segment

/-- The query of a request for an image, to be shown or to be downloaded under a name. -/
def imageQuery (keep : Char → Bool) (image : String) (download : Option String) : List Char :=
  encodeQuery keep (("image".toList, image.toList) ::
    (download.map fun name => ("download".toList, name.toList)).toList)

/-- The route answers with what is stored under the name, whatever the bucket holds. -/
def ServesStored (α : Type) (U : PublicUrl) (keep : Char → Bool) (image : String)
    (download : Option String) : Prop :=
  ∀ objects : String → Option (RemoteImage α),
    (renderImage U objects (imageQuery keep image download)).served =
      (objects image).map RemoteImage.body

section Serves

variable {U : PublicUrl} {image : String} {download : Option String} {keep : Char → Bool}

theorem jsTrim_sublist (s : String) : (jsTrim s).toList.Sublist s.toList := by
  unfold jsTrim
  rw [String.toList_ofList]
  exact (List.rdropWhile_prefix _ _).sublist.trans (List.dropWhile_sublist _)

theorem dropWhile_slash_eq_self {cs : List Char} :
    cs.dropWhile (· = '/') = cs ↔ cs.head? ≠ some '/' := by
  rw [List.dropWhile_eq_self_iff]
  cases cs with
  | nil => simp
  | cons c cs => simp

/-- The bucket is asked for the name itself exactly if nothing of it is lost. -/
theorem objectKey_toS3ObjectUrl (U : PublicUrl) (hhttp : isHttpUrl (jsTrim image) = false) :
    U.objectKey (toS3ObjectUrl U.publicBase image) = some image ↔ Fetchable image := by
  obtain ⟨key, hkey⟩ : ∃ key, key = (jsTrim image).toList.dropWhile (· = '/') := ⟨_, rfl⟩
  have hurl : toS3ObjectUrl U.publicBase image = objectUrl U.publicBase key := by
    unfold toS3ObjectUrl
    dsimp only
    rw [if_neg (by simp [hhttp]), hkey]
  have htrim := jsTrim_sublist image
  have hstrip : key.Sublist (jsTrim image).toList := hkey ▸ List.dropWhile_sublist _
  rw [hurl, U.objectKey_url]
  constructor
  · intro h
    obtain ⟨key', hkey', rfl⟩ := Option.map_eq_some_iff.mp h
    rw [String.toList_ofList] at htrim
    rcases bucketKey_cases U.path key with ⟨hsegments, hsame⟩ | ⟨-, hshort⟩
    · obtain rfl := Option.some.inj (hsame.symm.trans hkey')
      -- what is trimmed lies between the name and what is left of it
      have htrimmed : (jsTrim (String.ofList key)).toList = key := htrim.antisymm hstrip
      refine ⟨?_, ?_, by rwa [String.toList_ofList]⟩
      · apply String.toList_injective
        rw [htrimmed, String.toList_ofList]
      · rw [String.toList_ofList, ← dropWhile_slash_eq_self]
        rw [htrimmed] at hkey
        exact hkey.symm
    · have hlt := hshort key' hkey'
      have hle := (hstrip.trans htrim).length_le
      omega
  · rintro ⟨htrimmed, hslash, hsegments⟩
    rw [htrimmed, dropWhile_slash_eq_self.mpr hslash] at hkey
    subst hkey
    rcases bucketKey_cases U.path image.toList with ⟨-, hsame⟩ | ⟨⟨segment, hmem, hdots⟩, -⟩
    · rw [hsame, Option.map_some, String.ofList_toList]
    · exact absurd hdots (hsegments segment hmem)

theorem isHeaderValue_append (value value' : List Char) :
    isHeaderValue (value ++ value') = (isHeaderValue value && isHeaderValue value') := by
  unfold isHeaderValue
  exact List.all_append

/-- The headers can be sent if the file name can. -/
theorem all_imageHeaders {α : Type} (remote : RemoteImage α) (image : String)
    (download : Option String) :
    ((imageHeaders remote image download).all fun header => isHeaderValue header.2.toList) =
      isHeaderValue (fileNameForDownload image download) := by
  have htype : isHeaderValue ((ifTruthy remote.contentType).getD
      (getContentType (fileNameForDownload image download))).toList = true := by
    cases h : ifTruthy remote.contentType with
    | none =>
      unfold getContentType
      rw [Option.getD_none]
      split
      · decide
      · decide
    | some value =>
      rw [Option.getD_some]
      exact remote.valid value (Option.filter_eq_some_iff.mp h).1
  have hdisposition (dispositionType : String) (h : isHeaderValue dispositionType.toList = true) :
      isHeaderValue (dispositionType ++ "; filename=\"" ++
        String.ofList (fileNameForDownload image download) ++ "\"").toList =
      isHeaderValue (fileNameForDownload image download) := by
    simp only [String.toList_append, isHeaderValue_append, h, String.toList_ofList]
    have hquote : isHeaderValue "; filename=\"".toList = true := by decide
    have hend : isHeaderValue "\"".toList = true := by decide
    rw [hquote, hend]
    simp
  unfold imageHeaders
  simp only [List.all_cons, List.all_nil, htype, Bool.true_and]
  rw [hdisposition]
  · simp [isHeaderValue]
  · split
    · decide
    · decide

/-- What the route makes of a request for an image that is not blank. -/
theorem renderImage_imageQuery {α : Type} (hkeep : EscapesSyntax keep)
    (hblank : jsTrim image ≠ "") (objects : String → Option (RemoteImage α)) :
    (renderImage U objects (imageQuery keep image download)).served =
      if isHeaderValue (fileNameForDownload image download) = true then
        ((U.objectKey (toS3ObjectUrl U.publicBase image)).bind objects).map RemoteImage.body
      else none := by
  have himage : (queryGet "image".toList (imageQuery keep image download)).map String.ofList =
      some image := by
    unfold imageQuery
    rw [queryGet_encodeQuery_self hkeep, Option.map_some, String.ofList_toList]
  have hdownload : (queryGet "download".toList (imageQuery keep image download)).map
      String.ofList = download := by
    have hother : "image".toList ≠ "download".toList := by decide
    unfold imageQuery
    rw [queryGet_encodeQuery_of_ne hkeep hother]
    cases download with
    | none =>
      rw [queryGet_encodeQuery hkeep]
      rfl
    | some name =>
      rw [Option.map_some, Option.toList_some, queryGet_encodeQuery_self hkeep, Option.map_some,
        String.ofList_toList]
  unfold renderImage
  rw [himage, hdownload]
  dsimp only
  rw [if_neg hblank]
  cases (U.objectKey (toS3ObjectUrl U.publicBase image)).bind objects with
  | none =>
    rw [Option.map_none, ite_self]
    rfl
  | some remote =>
    dsimp only
    rw [all_imageHeaders]
    split
    · rfl
    · rfl

end Serves

/-- A bucket for which every URL below that of the bucket is one of its keys. -/
def PublicUrl.below (publicBase : String) (path : List (List Char)) : PublicUrl where
  publicBase := publicBase
  path := path
  objectKey url :=
    match (publicBase.toList.rdropWhile (· = '/') ++ ['/']).isPrefixOf? url.toList with
    | some text => (bucketKey path text).map String.ofList
    | none => none
  objectKey_url key := by
    have hbelow : (publicBase.toList.rdropWhile (· = '/') ++ ['/']).isPrefixOf?
        (objectUrl publicBase key).toList = some (encodeS3Key key) := by
      rw [List.isPrefixOf?_eq_some_iff_append_eq]
      unfold objectUrl
      simp
    rw [hbelow]

theorem escapesSyntax_keptInComponent : EscapesSyntax keptInComponent := by
  intro c hc
  simp only [List.mem_cons, List.not_mem_nil, or_false] at hc
  rcases hc with rfl | rfl | rfl | rfl <;> rfl

/-- The bucket of a store in the cluster. -/
def clusterBucket : PublicUrl := .below "http://minio:9000/renders/" ["renders".toList]

/-- With a dot segment the request is one for another bucket. -/
example : (clusterBucket.objectKey (toS3ObjectUrl clusterBucket.publicBase "../out_0")) = none := by
  decide

example : (clusterBucket.objectKey (toS3ObjectUrl clusterBucket.publicBase "a b/./50%_0")) =
    some "a b/50%_0" := by
  decide

end Pathological
