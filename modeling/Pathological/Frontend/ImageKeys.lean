import Pathological.Frontend.FrameNames

/-!
# The submit page's image keys

`resolveApiImageUrl` takes the key of a render's image from its download link. While
there is none it makes a key out of the output name and the number of frames `n`,
and this is the key of no frame: those are numbered from 0 to `n - 1`. So the page asks
only for frames that exist when there is a link, or when the name is blank and the page
asks for nothing (`resolveApiImageUrl_iff`).
-/

namespace Pathological

open Framework

/-! ### `resolveApiImageUrl` -/

/-- White space and line ends, as `trim` has them. -/
def isJsSpace (c : Char) : Bool :=
  [0x09, 0x0a, 0x0b, 0x0c, 0x0d, 0x20, 0xa0, 0x1680, 0x2028, 0x2029, 0x202f, 0x205f, 0x3000,
    0xfeff].contains c.toNat || (decide (0x2000 ≤ c.toNat) && decide (c.toNat ≤ 0x200a))

/-- `trim`. -/
def jsTrim (s : String) : String :=
  String.ofList ((s.toList.dropWhile isJsSpace).rdropWhile isJsSpace)

/-- `toFileName`. -/
def toFileName (value : String) : String :=
  String.ofList (value.toList.rtakeWhile (· ≠ '/'))

/-- `normalizeDownloadKey`, `none` for `null`. -/
def normalizeDownloadKey (downloadLink : String) : Option String :=
  let raw := jsTrim downloadLink
  match "s3://".toList.isPrefixOf? raw.toList with
  | some withoutScheme =>
    match withoutScheme.dropWhile (· ≠ '/') with
    | [] => none
    | _ :: key => some (String.ofList key)
  -- whether it is a URL or not
  | none => some raw

/-- The value, unless it is `null` or empty. -/
def ifTruthy (value : Option String) : Option String :=
  value.filter (· ≠ "")

/-- `resolveApiImageUrl`, of a number of frames that is an integer. -/
def resolveApiImageUrl (outputFilename : String) (downloadLink : Option String)
    (animationRuntime : ℤ) : Option String :=
  match ifTruthy ((ifTruthy downloadLink).bind normalizeDownloadKey) with
  | some key => some key
  | none =>
    let base := jsTrim (toFileName outputFilename)
    if base = "" then none else some (base ++ "_" ++ toString animationRuntime)

/-! ### What is claimed -/

/-- The page asks for nothing, or for the key of a frame of the render. -/
def AsksForFrame (job : RenderJob) : Prop :=
  ∀ key, resolveApiImageUrl job.outputFilename job.downloadLink job.animationRuntime = some key →
    ∃ i < job.animationRuntime.toNat, key = frameKeyOf job.outputFilename i

/-- A link of the scheme `s3`, which the SDK does not sign. -/
def IsS3Link (link : String) : Prop := "s3://".toList <+: link.toList

/-! ### The key of the page -/

section Keys

variable {bucket output : String} {i : ℕ} {cs : List Char}

/-- A text that begins and ends with something else than white space is not trimmed. -/
theorem jsTrim_eq_self {s : String} {c : Char} (hs : s.toList = c :: cs)
    (hfirst : isJsSpace c = false) (hlast : ∀ h, isJsSpace (s.toList.getLast h) = false) :
    jsTrim s = s := by
  have hdrop : s.toList.dropWhile isJsSpace = s.toList := by
    rw [hs, List.dropWhile_cons_of_neg (by simp [hfirst])]
  have hrdrop : s.toList.rdropWhile isJsSpace = s.toList := by
    rw [List.rdropWhile_eq_self_iff]
    intro h
    simp [hlast h]
  unfold jsTrim
  rw [hdrop, hrdrop, String.ofList_toList]

theorem isJsSpace_of_isDigit {c : Char} (h : c.isDigit = true) : isJsSpace c = false := by
  have hrange : 48 ≤ c.toNat ∧ c.toNat ≤ 57 := by
    simpa [Char.isDigit, UInt32.le_iff_toNat_le] using h
  unfold isJsSpace
  simp
  omega

/-- A key ends in a digit. -/
theorem isJsSpace_getLast_frameKeyOf (cs : List Char)
    (h : cs ++ (frameKeyOf output i).toList ≠ []) :
    isJsSpace ((cs ++ (frameKeyOf output i).toList).getLast h) = false := by
  have hsplit : cs ++ (frameKeyOf output i).toList =
      (cs ++ output.toList ++ ['_']) ++ Nat.toDigits 10 i := by
    rw [toList_frameKeyOf]
    simp
  have hlast : (cs ++ (frameKeyOf output i).toList).getLast h ∈ Nat.toDigits 10 i := by
    simp only [hsplit]
    rw [List.getLast_append_of_ne_nil _ Nat.toDigits_ne_nil]
    exact List.getLast_mem _
  exact isJsSpace_of_isDigit (Nat.isDigit_of_mem_toDigits (by decide) (by decide) hlast)

theorem jsTrim_fallbackLink (bucket output : String) (i : ℕ) :
    jsTrim (fallbackLink bucket (frameKeyOf output i)) =
      fallbackLink bucket (frameKeyOf output i) := by
  have hlink : (fallbackLink bucket (frameKeyOf output i)).toList =
      ("s3://".toList ++ bucket.toList ++ ['/']) ++ (frameKeyOf output i).toList := by
    rw [toList_fallbackLink]
    simp
  apply jsTrim_eq_self (hlink.trans rfl) rfl
  intro h
  simp only [hlink]
  exact isJsSpace_getLast_frameKeyOf _ _

theorem normalizeDownloadKey_fallback (hbucket : IsBucketName bucket) :
    normalizeDownloadKey (fallbackLink bucket (frameKeyOf output i)) =
      some (frameKeyOf output i) := by
  have hscheme : "s3://".toList.isPrefixOf? (fallbackLink bucket (frameKeyOf output i)).toList =
      some (bucket.toList ++ '/' :: (frameKeyOf output i).toList) := by
    rw [List.isPrefixOf?_eq_some_iff_append_eq, toList_fallbackLink]
  unfold normalizeDownloadKey
  rw [jsTrim_fallbackLink]
  dsimp only
  rw [hscheme]
  dsimp only
  rw [dropWhile_bucket hbucket]
  exact congrArg some String.ofList_toList

theorem toFileName_eq_self (h : '/' ∉ output.toList) : toFileName output = output := by
  unfold toFileName
  rw [rtakeWhile_ne_eq_self h, String.ofList_toList]

/-- Without a link the key is made of the output name and the number of frames. -/
theorem resolveApiImageUrl_none (h : '/' ∉ output.toList) (n : ℕ) :
    resolveApiImageUrl output none n =
      if jsTrim output = "" then none else some (frameKeyOf (jsTrim output) n) := by
  unfold resolveApiImageUrl
  rw [toFileName_eq_self h]
  rfl

/-- With the fallback link it is the key of the link. -/
theorem resolveApiImageUrl_fallback (hbucket : IsBucketName bucket) (output' : String) (n : ℤ) :
    resolveApiImageUrl output' (some (fallbackLink bucket (frameKeyOf output i))) n =
      some (frameKeyOf output i) := by
  have hlink : fallbackLink bucket (frameKeyOf output i) ≠ "" := by
    intro h
    have hlist := congrArg String.toList h
    rw [toList_fallbackLink] at hlist
    cases hlist
  have htruthy {value : String} (h : value ≠ "") : ifTruthy (some value) = some value :=
    Option.filter_some_pos (decide_eq_true h)
  unfold resolveApiImageUrl
  rw [htruthy hlink, Option.bind_some, normalizeDownloadKey_fallback hbucket,
    htruthy (frameKeyOf_ne_empty output i)]

end Keys

section Run

variable {env : Env} {s : State} {tr : List Label} {job : RenderJob}

/-- The link of a record that the SDK has not signed is the fallback for the first frame. -/
theorem State.Answers.fallback (hjob : s.Answers job) (hrun : (scheduler env).Reaches tr s)
    (hsdk : ∀ now key, ¬ IsS3Link (env.createLink now key)) {link : String}
    (hlink : job.downloadLink = some link) (hs3 : IsS3Link link) :
    link = fallbackLink env.bucketName (frameKeyOf job.outputFilename 0) := by
  obtain ⟨render, rfl, hbuilt⟩ := hjob.link hrun
  obtain ⟨now, hnow⟩ := hbuilt link hlink
  unfold buildDownloadLink at hnow
  dsimp only at hnow
  split at hnow
  · exact (Option.some.inj hnow).symm
  · obtain rfl := Option.some.inj hnow
    exact absurd hs3 (hsdk now _)

/-- **The page asks only for frames that exist** exactly when there is a link, or the
name is blank. -/
theorem resolveApiImageUrl_iff (hrun : (scheduler env).Reaches tr s) (hjob : s.Answers job)
    (hframes : 0 < job.animationRuntime) (hslash : '/' ∉ job.outputFilename.toList)
    (hbucket : IsBucketName env.bucketName)
    (hsdk : ∀ now key, ¬ IsS3Link (env.createLink now key))
    (hlink : ∀ link, job.downloadLink = some link → IsS3Link link) :
    AsksForFrame job ↔ job.downloadLink ≠ none ∨ jsTrim job.outputFilename = "" := by
  obtain ⟨n, hn⟩ := Int.eq_ofNat_of_zero_le hframes.le
  unfold AsksForFrame
  rw [hn, Int.toNat_natCast]
  cases hdownload : job.downloadLink with
  | some link =>
    rw [hjob.fallback hrun hsdk hdownload (hlink link hdownload),
      resolveApiImageUrl_fallback hbucket]
    refine iff_of_true ?_ (.inl (Option.some_ne_none _))
    intro key hkey
    exact ⟨0, by omega, (Option.some.inj hkey).symm⟩
  | none =>
    rw [resolveApiImageUrl_none hslash]
    by_cases hblank : jsTrim job.outputFilename = ""
    · rw [if_pos hblank]
      exact iff_of_true nofun (.inr hblank)
    · rw [if_neg hblank]
      refine iff_of_false ?_ ?_
      · intro h
        obtain ⟨i, hi, hkey⟩ := h _ rfl
        -- the index asked for is the number of frames
        have hindex := (frameKeyOf_inj.mp hkey).2
        omega
      · rw [not_or]
        exact ⟨fun h => h rfl, hblank⟩

end Run

/-- Links signed for the web are not of the scheme `s3`. -/
theorem not_isS3Link_signsOnce (now : ℕ) (key : String) :
    ¬ IsS3Link (signsOnce.createLink now key) := by
  unfold signsOnce IsS3Link
  dsimp only
  split
  · rw [String.toList_append, String.toList_append]
    intro h
    exact absurd (List.cons_prefix_cons.mp h).1 (by decide)
  · decide

theorem resolveApiImageUrl_iff_completedAs :
    ∃ job : RenderJob, ((scheduler signsOnce).after (completedAs "out")).Answers job ∧
      job.downloadLink = some "s3://bucket/out_0" ∧
      resolveApiImageUrl job.outputFilename job.downloadLink job.animationRuntime = some "out_0" ∧
      (AsksForFrame job ↔ job.downloadLink ≠ none ∨ jsTrim job.outputFilename = "") := by
  have hrun : (scheduler signsOnce).Reaches (completedAs "out") _ := .after (by decide)
  have hjob : ((scheduler signsOnce).after (completedAs "out")).Answers (RenderRequest.toJson
      { id := "r", status := .completed, width := 64, height := 64, framesPerSecond := 24,
        animationRuntime := 1, framesCompleted := 1, samplesPerPixel := 1,
        sceneFileUrl := "scene.gltf", createdAt := "now", outputFileName := "out",
        downloadLink := some "s3://bucket/out_0", downloadLinks := ["s3://bucket/out_0"] }) :=
    ⟨"r", _, by decide, rfl⟩
  refine ⟨_, hjob, rfl, by decide, ?_⟩
  apply resolveApiImageUrl_iff hrun hjob (by decide) (by decide) (by decide) not_isS3Link_signsOnce
  intro link hlink
  obtain rfl := Option.some.inj hlink
  exact ⟨"bucket/out_0".toList, rfl⟩

/-- A render of one frame is submitted. -/
def oneFrameSubmitted : List Label :=
  [.createRenderRequest "r" (samplePayload 1) "now", .addJobProgress "r", .addJobQueue "r"]

/-- The page asks for its frame 1, and there is the frame 0 only. -/
theorem not_asksForFrame :
    ∃ job : RenderJob, (scheduler signsOnce).Reaches oneFrameSubmitted
        ((scheduler signsOnce).after oneFrameSubmitted) ∧
      ((scheduler signsOnce).after oneFrameSubmitted).Answers job ∧
      job.animationRuntime = 1 ∧ job.outputFilename = "out" ∧ job.downloadLink = none ∧
      resolveApiImageUrl job.outputFilename job.downloadLink job.animationRuntime = some "out_1" ∧
      ¬ AsksForFrame job := by
  refine ⟨RenderRequest.toJson
    { id := "r", width := 64, height := 64, framesPerSecond := 24, animationRuntime := 1,
      samplesPerPixel := 1, sceneFileUrl := "scene.gltf", createdAt := "now",
      outputFileName := "out" },
    .after (by decide), ⟨"r", _, by decide, rfl⟩, rfl, rfl, rfl,
    by decide, ?_⟩
  intro h
  obtain ⟨i, hi, hkey⟩ := h "out_1" (by decide)
  obtain rfl : i = 0 := by
    have hone : i < 1 := hi
    omega
  exact absurd hkey (by decide)

end Pathological
