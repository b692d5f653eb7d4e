import Pathological.Cluster.FrameKeys
import Pathological.Framework.PercentEncoding
import Pathological.Scheduler.RenderJob

/-!
# The viewer's frame names

`getFrameNames` reads the key of a frame back from its download link: the path of
the URL, what follows its last slash, percent-decoded. What cannot be read is an empty
name, and empty names are dropped.

A presigned link has the key percent-encoded in its path, and is read back unless the
key has a slash. The fallback link `s3://bucket/key` has the key as it is, and the URL
parser and the decoder take for syntax what they find there. Of completed renders the
names are the keys, in order, exactly when neither happens (`getFrameNames_iff`).
-/

namespace Pathological

open Framework

/-! ### `new URL` -/

/-- What is kept in the path of a URL, where the path percent-encode set is escaped. -/
def keptInPath (c : Char) : Bool :=
  decide (0x20 < c.toNat) && decide (c.toNat ≤ 0x7e) &&
    !([0x22, 0x23, 0x3c, 0x3e, 0x3f, 0x5e, 0x60, 0x7b, 0x7d].contains c.toNat)

/-- A single-dot segment, the dot escaped or not. -/
def isSingleDot (buffer : List Char) : Bool :=
  [".".toList, "%2e".toList].contains (buffer.map Char.toLower)

/-- A double-dot segment. -/
def isDoubleDot (buffer : List Char) : Bool :=
  ["..".toList, ".%2e".toList, "%2e.".toList, "%2e%2e".toList].contains (buffer.map Char.toLower)

/-- The path after a segment that a slash ends. -/
def pushSegment (path : List (List Char)) (buffer : List Char) : List (List Char) :=
  if isDoubleDot buffer then path.dropLast
  else if isSingleDot buffer then path
  else path ++ [buffer]

/-- The path after its last segment. For a dot segment there is an empty one. -/
def endPath (path : List (List Char)) (buffer : List Char) : List (List Char) :=
  if isDoubleDot buffer then path.dropLast ++ [[]]
  else if isSingleDot buffer then path ++ [[]]
  else path ++ [buffer]

/-- The path state of the URL parser, for a scheme that is not special. -/
def pathState (path : List (List Char)) (buffer : List Char) : List Char → List (List Char)
  | [] => endPath path buffer
  | c :: cs =>
    -- the query and the fragment are not in the path
    if c = '?' ∨ c = '#' then endPath path buffer
    else if c = '/' then pathState (pushSegment path buffer) [] cs
    else pathState path (buffer ++ percentEncode keptInPath [c]) cs

/-- `pathname`, of what follows the slash after the host. -/
def urlPathname (cs : List Char) : List Char :=
  -- tabs and newlines are removed before the URL is parsed
  let cs := cs.filter fun c => c ∉ ['\t', '\n', '\r']
  (pathState [] [] cs).flatMap fun segment => '/' :: segment

/-- A name S3 allows for a bucket: a host that is parsed as it stands. -/
def IsBucketName (bucket : String) : Prop :=
  bucket ≠ "" ∧ bucket.toList.all (fun c => c.isLower || c.isDigit || c == '.' || c == '-') = true

instance (bucket : String) : Decidable (IsBucketName bucket) :=
  inferInstanceAs (Decidable (_ ∧ _))

/-- The link `buildDownloadLink` falls back to. -/
def fallbackLink (bucket key : String) : String :=
  "s3://" ++ bucket ++ "/" ++ key

theorem toList_fallbackLink (bucket key : String) : (fallbackLink bucket key).toList =
    "s3://".toList ++ (bucket.toList ++ '/' :: key.toList) := by
  unfold fallbackLink
  simp

/-- The first slash after the scheme is the one before the key. -/
theorem dropWhile_bucket {bucket : String} (h : IsBucketName bucket) (cs : List Char) :
    (bucket.toList ++ '/' :: cs).dropWhile (· ≠ '/') = '/' :: cs := by
  have hhost : ∀ c ∈ bucket.toList, decide (c ≠ '/') = true := by
    intro c hc
    rw [decide_eq_true_eq]
    rintro rfl
    exact absurd (List.all_eq_true.mp h.2 '/' hc) (by decide)
  rw [List.dropWhile_append_of_pos hhost]
  rfl

/-- `new URL(link).pathname`, `none` where it throws. It is known for the links the
scheduler falls back to. -/
structure UrlParser where
  pathname : String → Option String
  fallback : ∀ bucket output i, IsBucketName bucket →
    pathname (fallbackLink bucket (frameKeyOf output i)) =
      some (String.ofList (urlPathname (frameKeyOf output i).toList))

/-! ### `getFrameNames` -/

/-- `decodeURIComponent`, `none` where it throws. -/
def decodeURIComponent (cs : List Char) : Option (List Char) :=
  (percentDecode cs).bind utf8Decode

/-- The name of one link. -/
def frameName (U : UrlParser) (link : String) : String :=
  match U.pathname link with
  | none => ""
  | some pathname =>
    match decodeURIComponent (pathname.toList.rtakeWhile (· ≠ '/')) with
    | none => ""
    | some name => String.ofList name

/-- `getFrameNames`. -/
def getFrameNames (U : UrlParser) (job : RenderJob) : List String :=
  (job.downloadLinks.map (frameName U)).filter (· ≠ "")

/-! ### What is claimed, and when it holds -/

/-- The names of the frames are the keys they are stored under, in order. -/
def NamesAreKeys (U : UrlParser) (job : RenderJob) : Prop :=
  getFrameNames U job = (List.range job.animationRuntime.toNat).map (frameKeyOf job.outputFilename)

/-- The path ends in the key, percent-encoded, with slashes kept and no `%` kept. -/
def EndsInKey (pathname key : String) : Prop :=
  ∃ before keep, keep '/' = true ∧ (∀ c ∈ key.toList, keep c = true → c ≠ '%') ∧
    pathname.toList = before ++ '/' :: percentEncode keep key.toList

/-- The links of the render that the SDK has signed are URLs whose paths end in the
keys. -/
def SignsKeys (U : UrlParser) (bucket : String) (job : RenderJob) : Prop :=
  ∀ i link, job.downloadLinks[i]? = some link →
    link ≠ fallbackLink bucket (frameKeyOf job.outputFilename i) →
    ∃ pathname, U.pathname link = some pathname ∧
      EndsInKey pathname (frameKeyOf job.outputFilename i)

/-- What the URL parser and the decoder take for syntax, or remove. -/
def urlSyntax : List Char := ['?', '#', '%', '\t', '\n', '\r']

/-- There is no slash in the name, and if a link is the fallback nothing else either
that it would not be read back with. -/
def ReadsBack (bucket : String) (job : RenderJob) : Prop :=
  '/' ∉ job.outputFilename.toList ∧
  ∀ i, job.downloadLinks[i]? = some (fallbackLink bucket (frameKeyOf job.outputFilename i)) →
    ∀ c ∈ urlSyntax, c ∉ job.outputFilename.toList

/-! ### The last segment of a path -/

section Path

variable {path : List (List Char)} {buffer cs : List Char}

theorem endPath_eq (path : List (List Char)) (buffer : List Char) : ∃ path',
    endPath path buffer =
      path' ++ [if isDoubleDot buffer || isSingleDot buffer then [] else buffer] := by
  unfold endPath
  cases hdouble : isDoubleDot buffer with
  | true => exact ⟨_, rfl⟩
  | false =>
    cases hsingle : isSingleDot buffer with
    | true => exact ⟨_, rfl⟩
    | false => exact ⟨_, rfl⟩

/-- Where the path ends. -/
def inPath (c : Char) : Bool := c ≠ '?' && c ≠ '#'

/-- The last segment is what follows the last slash in the path, encoded. -/
theorem pathState_eq (path : List (List Char)) {raw : List Char} (hraw : '/' ∉ raw)
    (cs : List Char) : ∃ path', pathState path (percentEncode keptInPath raw) cs = endPath path'
      (percentEncode keptInPath ((raw ++ cs.takeWhile inPath).rtakeWhile (· ≠ '/'))) := by
  induction cs generalizing path raw with
  | nil =>
    refine ⟨path, ?_⟩
    rw [List.takeWhile_nil, List.append_nil, rtakeWhile_ne_eq_self hraw]
    rfl
  | cons c cs ih =>
    unfold pathState
    by_cases hend : c = '?' ∨ c = '#'
    · have hin : ¬ inPath c = true := by
        rcases hend with rfl | rfl
        · decide
        · decide
      refine ⟨path, ?_⟩
      rw [if_pos hend, List.takeWhile_cons_of_neg hin, List.append_nil, rtakeWhile_ne_eq_self hraw]
    · have hin : inPath c = true := by
        rw [not_or] at hend
        simp [inPath, hend]
      rw [if_neg hend, List.takeWhile_cons_of_pos hin]
      by_cases hslash : c = '/'
      · subst hslash
        rw [if_pos rfl, rtakeWhile_ne_append_cons]
        exact ih (pushSegment path (percentEncode keptInPath raw)) List.not_mem_nil
      · have hraw' : '/' ∉ raw ++ [c] := by
          rw [List.mem_append, List.mem_singleton, not_or]
          exact ⟨hraw, fun h => hslash h.symm⟩
        have hnext := ih path hraw'
        rw [← List.append_cons] at hnext
        rwa [if_neg hslash, ← percentEncode_append]

theorem slash_notMem_percentEncode {keep : Char → Bool} (h : '/' ∉ cs) :
    '/' ∉ percentEncode keep cs := by
  intro hmem
  rcases mem_percentEncode hmem with hcs | hpercent | hhex
  · exact h hcs
  · exact absurd hpercent (by decide)
  · exact hhex rfl

/-- An encoder that keeps slashes encodes the segments. -/
theorem rtakeWhile_percentEncode {keep : Char → Bool} (hslash : keep '/' = true)
    (cs : List Char) : (percentEncode keep cs).rtakeWhile (· ≠ '/') =
      percentEncode keep (cs.rtakeWhile (· ≠ '/')) := by
  induction cs using List.reverseRecOn with
  | nil => rfl
  | append_singleton cs c ih =>
    rw [percentEncode_append]
    by_cases hc : c = '/'
    · subst hc
      rw [percentEncode_cons, if_pos hslash, List.rtakeWhile_concat_neg _ _ _ (by simp)]
      exact List.rtakeWhile_concat_neg _ _ _ (by simp)
    · have hsegment : '/' ∉ percentEncode keep [c] := by
        apply slash_notMem_percentEncode
        rw [List.mem_singleton]
        exact fun h => hc h.symm
      rw [rtakeWhile_ne_append _ hsegment, ih, ← percentEncode_append,
        List.rtakeWhile_concat, if_pos (decide_eq_true hc)]

/-- The part of a key that ends up as the last segment of the path, before it is encoded. -/
def lastRawSegment (cs : List Char) : List Char :=
  ((cs.filter fun c => c ∉ ['\t', '\n', '\r']).takeWhile inPath).rtakeWhile (· ≠ '/')

theorem rtakeWhile_urlPathname (cs : List Char) :
    (urlPathname cs).rtakeWhile (· ≠ '/') =
      let buffer := percentEncode keptInPath (lastRawSegment cs)
      if isDoubleDot buffer || isSingleDot buffer then [] else buffer := by
  have hslash : '/' ∉ percentEncode keptInPath (lastRawSegment cs) :=
    slash_notMem_percentEncode notMem_rtakeWhile_ne
  obtain ⟨path, hpath⟩ := pathState_eq [] List.not_mem_nil
    (cs.filter fun c => c ∉ ['\t', '\n', '\r'])
  obtain ⟨path', hend⟩ := endPath_eq path (percentEncode keptInPath (lastRawSegment cs))
  have hsegments : urlPathname cs = (path' ++ [_]).flatMap fun segment => '/' :: segment :=
    congrArg (fun path => path.flatMap fun segment => '/' :: segment) (hpath.trans hend)
  rw [hsegments, List.flatMap_append, List.flatMap_singleton, rtakeWhile_ne_append_cons]
  apply rtakeWhile_ne_eq_self
  split
  · exact List.not_mem_nil
  · exact hslash

/-- It is part of the key, and all of it only if there is no syntax in it. -/
theorem lastRawSegment_sublist (cs : List Char) : (lastRawSegment cs).Sublist cs :=
  ((List.rtakeWhile_suffix _ _).sublist.trans (List.takeWhile_sublist _)).trans
    List.filter_sublist

theorem lastRawSegment_eq_self : lastRawSegment cs = cs ↔
    ∀ c ∈ ['/', '?', '#', '\t', '\n', '\r'], c ∉ cs := by
  unfold lastRawSegment
  constructor
  · intro h c hc hmem
    rw [← h] at hmem
    have hpath := (List.rtakeWhile_suffix _ _).mem hmem
    have hkept := (List.takeWhile_sublist _).mem hpath
    have hslash := List.mem_rtakeWhile_imp hmem
    have hend := List.mem_takeWhile_imp hpath
    have hremoved := List.of_mem_filter hkept
    have hsyntax : (['/', '?', '#', '\t', '\n', '\r'].all fun c =>
        !(decide (c ≠ '/') && inPath c && decide (c ∉ ['\t', '\n', '\r']))) = true := by decide
    have hnone := List.all_eq_true.mp hsyntax c hc
    rw [hslash, hend, hremoved] at hnone
    cases hnone
  · intro h
    have hfilter : (cs.filter fun c => c ∉ ['\t', '\n', '\r']) = cs := by
      rw [List.filter_eq_self]
      intro c hc
      rw [decide_eq_true_eq]
      intro hremoved
      refine h c ?_ hc
      exact List.mem_append_right ['/', '?', '#'] hremoved
    have hpath : cs.takeWhile inPath = cs := by
      rw [List.takeWhile_eq_self_iff]
      intro c hc
      have hquery : c ≠ '?' := by
        rintro rfl
        exact h '?' (by simp) hc
      have hfragment : c ≠ '#' := by
        rintro rfl
        exact h '#' (by simp) hc
      simp [inPath, hquery, hfragment]
    rw [hfilter, hpath, rtakeWhile_ne_eq_self (h '/' List.mem_cons_self)]

end Path

/-! ### The name of one link -/

section Names

variable {U : UrlParser} {bucket output link pathname key : String} {i : ℕ}

/-- The digits of an escape are kept. -/
theorem keptInPath_of_hexValue (c : Char) (h : hexValue c ≠ none) : keptInPath c = true := by
  have hrange := toNat_of_hexValue h
  unfold keptInPath
  simp
  omega

/-- A segment with an underscore is no dot segment. -/
theorem isDotSegment_eq_false {buffer : List Char} (h : '_' ∈ buffer) :
    (isDoubleDot buffer || isSingleDot buffer) = false := by
  have hmem : '_' ∈ buffer.map Char.toLower := List.mem_map_of_mem h
  have hdouble : ∀ dots ∈ ["..".toList, ".%2e".toList, "%2e.".toList, "%2e%2e".toList],
      '_' ∉ dots := by decide
  have hsingle : ∀ dots ∈ [".".toList, "%2e".toList], '_' ∉ dots := by decide
  rw [Bool.or_eq_false_iff, isDoubleDot, isSingleDot, Bool.eq_false_iff, Bool.eq_false_iff]
  refine ⟨fun hdots => ?_, fun hdots => ?_⟩
  · exact hdouble _ (List.contains_iff_mem.mp hdots) hmem
  · exact hsingle _ (List.contains_iff_mem.mp hdots) hmem

/-- The name of a URL whose path ends in the encoded key is what follows the key's last
slash. -/
theorem frameName_of_endsInKey (hpathname : U.pathname link = some pathname)
    (h : EndsInKey pathname key) :
    frameName U link = String.ofList (key.toList.rtakeWhile (· ≠ '/')) := by
  obtain ⟨before, keep, hslash, hpercent, hends⟩ := h
  have hdecode : decodeURIComponent (pathname.toList.rtakeWhile (· ≠ '/')) =
      some (key.toList.rtakeWhile (· ≠ '/')) := by
    unfold decodeURIComponent
    rw [hends, rtakeWhile_ne_append_cons, rtakeWhile_percentEncode hslash,
      percentDecode_percentEncode]
    · exact utf8Decode_utf8 _
    · intro c hc
      exact hpercent c ((List.rtakeWhile_suffix _ _).mem hc)
  unfold frameName
  rw [hpathname]
  dsimp only
  rw [hdecode]

/-- So it is the key exactly when that has no slash. -/
theorem frameName_signed (hpathname : U.pathname link = some pathname)
    (h : EndsInKey pathname key) : frameName U link = key ↔ '/' ∉ key.toList := by
  rw [frameName_of_endsInKey hpathname h]
  constructor
  · intro hname
    rw [← hname, String.toList_ofList]
    exact notMem_rtakeWhile_ne
  · intro hslash
    rw [rtakeWhile_ne_eq_self hslash, String.ofList_toList]

/-- The name of a fallback link, for what it decodes. -/
theorem frameName_fallback_eq (hbucket : IsBucketName bucket) :
    frameName U (fallbackLink bucket (frameKeyOf output i)) =
      let buffer := percentEncode keptInPath (lastRawSegment (frameKeyOf output i).toList)
      String.ofList ((decodeURIComponent
        (if isDoubleDot buffer || isSingleDot buffer then [] else buffer)).getD []) := by
  unfold frameName
  rw [U.fallback bucket output i hbucket]
  dsimp only
  rw [String.toList_ofList, rtakeWhile_urlPathname]
  cases decodeURIComponent _ with
  | none => rfl
  | some name => rfl

/-- What is decoded is in the bytes of the text, and shorter with a `%` in it. -/
theorem decodeURIComponent_percentEncode {cs cs' : List Char}
    (h : decodeURIComponent (percentEncode keptInPath cs) = some cs') :
    (utf8 cs').length + 2 * cs.count '%' = (utf8 cs).length := by
  obtain ⟨bytes, hbytes, htext⟩ := Option.bind_eq_some_iff.mp h
  rw [percentDecode_percentEncode_of_keep rfl keptInPath_of_hexValue] at hbytes
  rw [utf8_of_utf8Decode htext]
  exact length_percentDecode hbytes

/-- The name of a fallback link is the key exactly when that has no slash and no
syntax. -/
theorem frameName_fallback (hbucket : IsBucketName bucket) :
    frameName U (fallbackLink bucket (frameKeyOf output i)) = frameKeyOf output i ↔
      ∀ c ∈ '/' :: urlSyntax, c ∉ (frameKeyOf output i).toList := by
  have hunderscore : '_' ∈ (frameKeyOf output i).toList := by
    rw [toList_frameKeyOf]
    exact List.mem_append_right _ List.mem_cons_self
  rw [frameName_fallback_eq hbucket]
  generalize frameKeyOf output i = key at hunderscore ⊢
  dsimp only
  constructor
  · intro hname
    have hname := congrArg String.toList hname
    rw [String.toList_ofList] at hname
    -- the name is not empty, so that it is what the last segment is decoded to
    have hdecode : decodeURIComponent (percentEncode keptInPath (lastRawSegment key.toList)) =
        some key.toList := by
      split at hname
      · rw [← hname] at hunderscore
        cases hunderscore
      · cases hdecode : decodeURIComponent
            (percentEncode keptInPath (lastRawSegment key.toList)) with
        | none =>
          rw [hdecode] at hname
          rw [← hname] at hunderscore
          cases hunderscore
        | some name =>
          rw [hdecode] at hname
          exact congrArg some hname
    -- and nothing of the key is lost on the way
    have hlength := decodeURIComponent_percentEncode hdecode
    have hself : lastRawSegment key.toList = key.toList :=
      eq_of_sublist_of_length_utf8 (lastRawSegment_sublist key.toList) (by omega)
    rw [hself] at hlength
    have hpercent : '%' ∉ key.toList := List.count_eq_zero.mp (by omega)
    intro c hc
    by_cases heq : c = '%'
    · rwa [heq]
    · apply lastRawSegment_eq_self.mp hself c
      simpa [urlSyntax, heq] using hc
  · intro h
    have hself : lastRawSegment key.toList = key.toList := by
      rw [lastRawSegment_eq_self]
      intro c hc
      apply h c
      simp only [urlSyntax, List.mem_cons] at hc ⊢
      tauto
    have hkept : '_' ∈ percentEncode keptInPath key.toList := by
      apply List.mem_flatMap.mpr
      exact ⟨'_', hunderscore, List.mem_singleton_self _⟩
    have hdecode : decodeURIComponent (percentEncode keptInPath key.toList) = some key.toList := by
      unfold decodeURIComponent
      rw [percentDecode_percentEncode]
      · exact utf8Decode_utf8 _
      · rintro c hc - rfl
        exact h '%' (by decide) hc
    rw [hself, isDotSegment_eq_false hkept, if_neg Bool.false_ne_true, hdecode]
    exact String.ofList_toList

/-! ### The names of all links -/

/-- No name is dropped, and each is the key, if the names are the keys. -/
theorem filter_map_eq_iff {f : String → String} {key : ℕ → String} (hkey : ∀ i, key i ≠ "")
    (links : List String) :
    (links.map f).filter (· ≠ "") = (List.range links.length).map key ↔
      ∀ i link, links[i]? = some link → f link = key i := by
  constructor
  · intro h
    have hlength : ((links.map f).filter (· ≠ "")).length = (links.map f).length := by
      rw [h]
      simp
    rw [List.length_filter_eq_length_iff, ← List.filter_eq_self] at hlength
    rw [hlength] at h
    intro i link hlink
    have hi := (List.getElem?_eq_some_iff.mp hlink).1
    have hname := congrArg (·[i]?) h
    simp only [List.getElem?_map, hlink, List.getElem?_range hi, Option.map_some] at hname
    exact Option.some.inj hname
  · intro h
    have hmap : links.map f = (List.range links.length).map key := by
      apply List.ext_getElem
      · simp
      · intro i hi hi'
        rw [List.length_map] at hi
        simpa using h i links[i] (List.getElem?_eq_getElem hi)
    rw [hmap, List.filter_eq_self]
    intro name hname
    obtain ⟨i, -, rfl⟩ := List.mem_map.mp hname
    exact decide_eq_true (hkey i)

/-- The name of a link of a render is the key unless something in the output name keeps
it from being read back. -/
theorem frameName_eq_key_iff {job : RenderJob} (hbucket : IsBucketName bucket)
    (hsigns : SignsKeys U bucket job) (hlink : job.downloadLinks[i]? = some link) :
    frameName U link = frameKeyOf job.outputFilename i ↔ '/' ∉ job.outputFilename.toList ∧
      (link = fallbackLink bucket (frameKeyOf job.outputFilename i) →
        ∀ c ∈ urlSyntax, c ∉ job.outputFilename.toList) := by
  have hmem : ∀ c ∈ '/' :: urlSyntax, c ∈ (frameKeyOf job.outputFilename i).toList ↔
      c ∈ job.outputFilename.toList := by
    intro c hc
    have hother : ('/' :: urlSyntax).all (fun c => c ≠ '_' && !c.isDigit) = true := by decide
    have hc := List.all_eq_true.mp hother c hc
    rw [Bool.and_eq_true, decide_eq_true_eq, Bool.not_eq_true'] at hc
    exact mem_frameKeyOf hc.1 hc.2
  by_cases hfallback : link = fallbackLink bucket (frameKeyOf job.outputFilename i)
  · subst hfallback
    rw [frameName_fallback hbucket]
    constructor
    · intro h
      have h : ∀ c ∈ '/' :: urlSyntax, c ∉ job.outputFilename.toList := by
        intro c hc
        rw [← hmem c hc]
        exact h c hc
      exact ⟨h '/' List.mem_cons_self, fun _ c hc => h c (List.mem_cons_of_mem _ hc)⟩
    · rintro ⟨hslash, hsyntax⟩ c hc
      rw [hmem c hc]
      rcases List.mem_cons.mp hc with rfl | hc
      · exact hslash
      · exact hsyntax rfl c hc
  · obtain ⟨pathname, hpathname, hends⟩ := hsigns i link hlink hfallback
    rw [frameName_signed hpathname hends, hmem '/' List.mem_cons_self]
    exact ⟨fun hslash => ⟨hslash, fun h => absurd h hfallback⟩, fun h => h.1⟩

end Names

section Run

variable {env : Env} {s : State} {tr : List Label} {U : UrlParser} {job : RenderJob}

/-- **The viewer's frame names are the stored keys, in order**, exactly when the output
name is one that is read back. -/
theorem getFrameNames_iff (hrun : (scheduler env).Reaches tr s) (hjob : s.Answers job)
    (hstatus : job.status = "Completed") (hbucket : IsBucketName env.bucketName)
    (hsigns : SignsKeys U env.bucketName job) :
    NamesAreKeys U job ↔ ReadsBack env.bucketName job := by
  obtain ⟨render, rfl, hcomplete, hne⟩ := hjob.complete hrun hstatus
  have hlength : render.toJson.downloadLinks.length = render.toJson.animationRuntime.toNat :=
    hcomplete.length_eq
  unfold NamesAreKeys getFrameNames
  rw [← hlength, filter_map_eq_iff (frameKeyOf_ne_empty _)]
  constructor
  · intro h
    have hnames {i : ℕ} {link : String} (hlink : render.toJson.downloadLinks[i]? = some link) :=
      (frameName_eq_key_iff hbucket hsigns hlink).mp (h i link hlink)
    refine ⟨?_, fun i hlink => (hnames hlink).2 rfl⟩
    -- there is a frame whose name shows the slash
    have hfirst := List.getElem?_eq_getElem (List.length_pos_iff.mpr hne)
    exact (hnames hfirst).1
  · rintro ⟨hslash, hsyntax⟩ i link hlink
    apply (frameName_eq_key_iff hbucket hsigns hlink).mpr
    refine ⟨hslash, ?_⟩
    rintro rfl
    exact hsyntax i hlink

end Run

/-- The parser for URLs with a host and a path. -/
def hostUrls : UrlParser where
  pathname link :=
    match ((link.toList.dropWhile (· ≠ ':')).drop "://".length).dropWhile (· ≠ '/') with
    | [] => none
    | _ :: path => some (String.ofList (urlPathname path))
  fallback bucket output i hbucket := by
    rw [toList_fallbackLink]
    show (match (bucket.toList ++ '/' :: (frameKeyOf output i).toList).dropWhile (· ≠ '/') with
      | [] => none
      | _ :: path => some (String.ofList (urlPathname path))) = _
    rw [dropWhile_bucket hbucket]

/-- A render of one frame, with this output name, that is completed. -/
def completedAs (output : String) : List Label :=
  [.establishConnection 0 ⟨"10.0.0.1", "v", 50051⟩, .registerWorker 0 "v",
    .createRenderRequest "r" { samplePayload 1 with outputFilename := .ok output } "now",
    .addJobProgress "r", .addJobQueue "r", .assignJob "j", .jobCompleted 2 "v" "j", .takeJob 2,
    .buildLink 2 1, .recordFrame 2 ⟨"r", 0⟩, .publish 2, .publish 2, .publish 2, .publish 2]

/-- The environment of a scheduler that signs links at the moment 0, and then no more. -/
def signsOnce : Env where
  createLink now key :=
    if now = 0 then "https://bucket.s3.amazonaws.com/" ++ key ++ "?X-Amz-Expires=1200" else ""
  bucketName := "bucket"

theorem getFrameNames_iff_completedInReverse :
    ∃ job : RenderJob, ((scheduler signsOnce).after completedInReverse).Answers job ∧
      job.downloadLinks =
        ["s3://bucket/out_0", "https://bucket.s3.amazonaws.com/out_1?X-Amz-Expires=1200"] ∧
      getFrameNames hostUrls job = ["out_0", "out_1"] ∧
      (NamesAreKeys hostUrls job ↔ ReadsBack "bucket" job) := by
  have hrun : (scheduler signsOnce).Reaches completedInReverse _ := .after (by decide)
  have hjob : ((scheduler signsOnce).after completedInReverse).Answers (RenderRequest.toJson
      { id := "r", status := .completed, width := 64, height := 64, framesPerSecond := 24,
        animationRuntime := 2, framesCompleted := 2, samplesPerPixel := 1,
        sceneFileUrl := "scene.gltf", createdAt := "now", outputFileName := "out",
        downloadLink := some "s3://bucket/out_0",
        downloadLinks :=
          ["s3://bucket/out_0", "https://bucket.s3.amazonaws.com/out_1?X-Amz-Expires=1200"] }) :=
    ⟨"r", _, by decide, rfl⟩
  refine ⟨_, hjob, rfl, by decide, ?_⟩
  apply getFrameNames_iff hrun hjob rfl (by decide)
  intro i link hlink hsigned
  match i, hlink with
  | 0, rfl => exact absurd rfl hsigned
  | 1, rfl =>
    refine ⟨"/out_1", by decide, [], fun c => c ≠ '%', by decide, ?_, by decide⟩
    intro c _ hkeep
    exact of_decide_eq_true hkeep

/-- The key of the render "a/b" has a slash, and its frame is listed as "b_0". -/
theorem not_namesAreKeys :
    ∃ job : RenderJob, (scheduler signsOnce).Reaches (completedAs "a/b")
        ((scheduler signsOnce).after (completedAs "a/b")) ∧
      ((scheduler signsOnce).after (completedAs "a/b")).Answers job ∧
      job.status = "Completed" ∧ IsBucketName signsOnce.bucketName ∧
      SignsKeys hostUrls signsOnce.bucketName job ∧
      job.downloadLinks = ["s3://bucket/a/b_0"] ∧ getFrameNames hostUrls job = ["b_0"] ∧
      ¬ NamesAreKeys hostUrls job := by
  refine ⟨RenderRequest.toJson
    { id := "r", status := .completed, width := 64, height := 64, framesPerSecond := 24,
      animationRuntime := 1, framesCompleted := 1, samplesPerPixel := 1,
      sceneFileUrl := "scene.gltf", createdAt := "now", outputFileName := "a/b",
      downloadLink := some "s3://bucket/a/b_0", downloadLinks := ["s3://bucket/a/b_0"] },
    .after (by decide), ⟨"r", _, by decide, rfl⟩, rfl, by decide, ?_, rfl,
    by decide, ?_⟩
  · intro i link hlink hsigned
    match i, hlink with
    | 0, rfl => exact absurd rfl hsigned
  · unfold NamesAreKeys
    decide

end Pathological
