import Pathological.Cluster.Bucket
import Pathological.Frontend.FrameViewer
import Pathological.Frontend.RenderImage

/-!
# From the bucket to the screen

What `ViewRendersPage` shows comes a long way. A frame is uploaded under a key, the scheduler
builds a link from the key, the page reads a name back from the link and asks the image route
for it, and the route asks the bucket. On the way the key is written and read four times: in
the path of a link, in the query of a request, in the path of the bucket's URL, and in a
header. The output names that come through everywhere are `Viewable`.

The page, the route and the scheduler each see a state of their own. The records on the page
are of earlier moments, each of a different one maybe (`AnsweredIn`), while the bucket is that
of now. It does not matter: the frames of a render are listed only when all of them have been
completed, and what is stored under a key from then on is that frame, even if another worker
uploads it again. So while the viewer is open it shows the frame of its index, and the image
and the file behind it are pictures of that frame (`viewer_shows_frames`).
-/

namespace Pathological

open Framework

/-! ### What the page requests -/

/-- The source of a frame's image. -/
def imageSrc (name : String) : String :=
  "/api/render-image?image=" ++ String.ofList (encodeURIComponent name.toList)

/-- What "Download Frame" links to. -/
def downloadHref (name : String) : String :=
  let encoded := String.ofList (encodeURIComponent name.toList)
  "/api/render-image?image=" ++ encoded ++ "&download=" ++ encoded ++ ".png"

/-- What is kept in the query of a URL, where the special-query percent-encode set is
escaped. -/
def keptInQuery (c : Char) : Bool :=
  decide (0x20 < c.toNat) && decide (c.toNat ≤ 0x7e) &&
    !([0x22, 0x23, 0x27, 0x3c, 0x3e].contains c.toNat)

/-- The query of a URL, as it is requested. -/
def urlQuery (url : String) : List Char :=
  -- spaces around the URL are stripped, and tabs and newlines removed
  let isSpace := fun c : Char => decide (c.toNat ≤ 0x20)
  let cs := ((url.toList.dropWhile isSpace).rdropWhile isSpace).filter
    fun c => c ∉ ['\t', '\n', '\r']
  percentEncode keptInQuery ((cs.takeWhile (· ≠ '#')).dropWhile (· ≠ '?')).tail

/-- What is kept in the query that the page requests. -/
def keptInRequest (c : Char) : Bool := keptInComponent c && keptInQuery c

section Request

variable {cs raw : List Char}

theorem escapesSyntax_keptInRequest : EscapesSyntax keptInRequest := by
  intro c hc
  unfold keptInRequest
  rw [escapesSyntax_keptInComponent c hc, Bool.false_and]

/-- The digits of an escape are kept. -/
theorem keptInQuery_of_hexValue (c : Char) (h : hexValue c ≠ none) : keptInQuery c = true := by
  have hrange := toNat_of_hexValue h
  unfold keptInQuery
  simp
  omega

/-- An encoded component, in a query. -/
theorem percentEncode_encodeURIComponent (cs : List Char) :
    percentEncode keptInQuery (encodeURIComponent cs) = percentEncode keptInRequest cs :=
  percentEncode_percentEncode rfl keptInQuery_of_hexValue cs

/-- The character is neither removed from a URL nor ends its query. -/
def staysInUrl (c : Char) : Bool := decide (0x20 < c.toNat) && decide (c ≠ '#')

theorem all_staysInUrl_encodeURIComponent (cs : List Char) :
    (encodeURIComponent cs).all staysInUrl = true := by
  rw [List.all_eq_true]
  intro c hc
  obtain ⟨hkept, -, -, hfragment⟩ := mem_encodeURIComponent hc
  unfold keptInPath at hkept
  simp at hkept
  unfold staysInUrl
  simp [hkept, hfragment]

/-- The query of a request to the image route. -/
theorem urlQuery_renderImage (hraw : raw.all staysInUrl = true) :
    urlQuery (String.ofList ("/api/render-image?".toList ++ raw)) =
      percentEncode keptInQuery raw := by
  obtain ⟨url, hurl⟩ : ∃ url, url = "/api/render-image?".toList ++ raw := ⟨_, rfl⟩
  have hstays : ∀ c ∈ url, 0x20 < c.toNat ∧ c ≠ '#' := by
    have hall : url.all staysInUrl = true := by
      rw [hurl, List.all_append, hraw, Bool.and_true]
      decide
    intro c hc
    simpa [staysInUrl] using List.all_eq_true.mp hall c hc
  have hspace : ∀ c ∈ url, ¬ decide (c.toNat ≤ 0x20) = true := by
    intro c hc
    simpa using (hstays c hc).1
  -- nothing of the URL is stripped, removed or cut off before it is encoded
  have hdrop : url.dropWhile (fun c => decide (c.toNat ≤ 0x20)) = url := by
    rw [List.dropWhile_eq_self_iff]
    intro h
    exact hspace _ (List.getElem_mem h)
  have hrdrop : url.rdropWhile (fun c => decide (c.toNat ≤ 0x20)) = url := by
    rw [List.rdropWhile_eq_self_iff]
    intro h
    exact hspace _ (List.getLast_mem h)
  have hfilter : url.filter (fun c => c ∉ ['\t', '\n', '\r']) = url := by
    rw [List.filter_eq_self]
    intro c hc
    rw [decide_eq_true_eq]
    intro hmem
    have hcontrol : ['\t', '\n', '\r'].all (fun c => decide (c.toNat ≤ 0x20)) = true := rfl
    exact hspace c hc (List.all_eq_true.mp hcontrol c hmem)
  have hfragment : url.takeWhile (· ≠ '#') = url := by
    rw [List.takeWhile_eq_self_iff]
    intro c hc
    exact decide_eq_true (hstays c hc).2
  unfold urlQuery
  dsimp only
  rw [String.toList_ofList, ← hurl, hdrop, hrdrop, hfilter, hfragment, hurl]
  rfl

/-- The query of an image's source asks for the image, -/
theorem urlQuery_imageSrc (name : String) :
    urlQuery (imageSrc name) = imageQuery keptInRequest name none := by
  have hsrc : imageSrc name = String.ofList ("/api/render-image?".toList ++
      ("image=".toList ++ encodeURIComponent name.toList)) := by
    apply String.toList_injective
    unfold imageSrc
    simp only [String.toList_append, String.toList_ofList, ← List.append_assoc]
    rfl
  have hstays : ("image=".toList ++ encodeURIComponent name.toList).all staysInUrl = true := by
    rw [List.all_append, all_staysInUrl_encodeURIComponent, Bool.and_true]
    decide
  calc urlQuery (imageSrc name)
      = percentEncode keptInQuery ("image=".toList ++ encodeURIComponent name.toList) := by
        rw [hsrc, urlQuery_renderImage hstays]
    _ = "image=".toList ++ percentEncode keptInRequest name.toList := by
        rw [percentEncode_append, percentEncode_encodeURIComponent]
        rfl
    _ = imageQuery keptInRequest name none := by
        unfold imageQuery encodeQuery
        rw [Option.map_none, Option.toList_none, List.map_singleton, List.intercalate_singleton]
        rfl

/-- and that of the download link asks for it as a file. -/
theorem urlQuery_downloadHref (name : String) :
    urlQuery (downloadHref name) = imageQuery keptInRequest name (some (name ++ ".png")) := by
  obtain ⟨raw, hraw⟩ : ∃ raw, raw = "image=".toList ++ encodeURIComponent name.toList ++
      "&download=".toList ++ encodeURIComponent name.toList ++ ".png".toList := ⟨_, rfl⟩
  have hhref : downloadHref name = String.ofList ("/api/render-image?".toList ++ raw) := by
    apply String.toList_injective
    unfold downloadHref
    simp only [String.toList_append, String.toList_ofList, hraw, ← List.append_assoc]
    rfl
  have hstays : raw.all staysInUrl = true := by
    simp only [hraw, List.all_append, all_staysInUrl_encodeURIComponent, Bool.and_true]
    decide
  calc urlQuery (downloadHref name)
      = percentEncode keptInQuery raw := by rw [hhref, urlQuery_renderImage hstays]
    _ = "image=".toList ++ percentEncode keptInRequest name.toList ++ "&download=".toList ++
          percentEncode keptInRequest name.toList ++ ".png".toList := by
        simp only [hraw, percentEncode_append, percentEncode_encodeURIComponent]
        rfl
    _ = imageQuery keptInRequest name (some (name ++ ".png")) := by
        -- the page adds the extension to the encoded name, which comes to the same
        have hextension : percentEncode keptInRequest (name ++ ".png").toList =
            percentEncode keptInRequest name.toList ++ ".png".toList := by
          rw [String.toList_append, percentEncode_append]
          rfl
        unfold imageQuery encodeQuery
        rw [Option.map_some, Option.toList_some, List.map_cons, List.map_singleton,
          List.intercalate_cons_of_ne_nil (List.cons_ne_nil _ _), List.intercalate_singleton]
        unfold encodePair
        dsimp only
        rw [hextension]
        simp only [List.append_assoc, List.cons_append]
        rfl

end Request

/-! ### Names that come through -/

/-- Frames with this output name are listed under their keys, and nothing of a key is lost on
the way to the bucket. -/
structure Viewable (output : String) : Prop where
  slash : '/' ∉ output.toList
  plain : ∀ c ∈ urlSyntax, c ∉ output.toList
  space : ∀ c, output.toList.head? = some c → isJsSpace c = false
  header : isHeaderValue output.toList = true

theorem basename_eq_self {name : List Char} (h : '/' ∉ name) : basename name = name := by
  have hdrop : name.rdropWhile (· = '/') = name := by
    rw [List.rdropWhile_eq_self_iff]
    intro hne hlast
    rw [decide_eq_true_eq] at hlast
    exact h (hlast ▸ List.getLast_mem hne)
  unfold basename
  rw [hdrop, rtakeWhile_ne_eq_self h]

/-- There is an underscore in every key. -/
theorem underscore_mem_frameKeyOf (output : String) (i : ℕ) :
    '_' ∈ (frameKeyOf output i).toList := by
  rw [toList_frameKeyOf]
  exact List.mem_append_right _ List.mem_cons_self

theorem isHeaderValue_of_isDigit {value : List Char} (h : ∀ c ∈ value, c.isDigit = true) :
    isHeaderValue value = true := by
  unfold isHeaderValue
  rw [List.all_eq_true]
  intro c hc
  have hrange : 48 ≤ c.toNat ∧ c.toNat ≤ 57 := by
    simpa [Char.isDigit, UInt32.le_iff_toNat_le] using h c hc
  simp
  omega

namespace Viewable

variable {output : String} (h : Viewable output) (i : ℕ)

include h

theorem slash_notMem_key : '/' ∉ (frameKeyOf output i).toList := by
  rw [mem_frameKeyOf (by decide) (by decide)]
  exact h.slash

theorem isHeaderValue_key : isHeaderValue (frameKeyOf output i).toList = true := by
  have hindex : isHeaderValue (Nat.toDigits 10 i) = true :=
    isHeaderValue_of_isDigit fun c hc => Nat.isDigit_of_mem_toDigits (by decide) (by decide) hc
  rw [toList_frameKeyOf, isHeaderValue_append, h.header, Bool.true_and]
  exact hindex

/-- A key begins with no space. -/
theorem exists_key_eq_cons : ∃ c cs, (frameKeyOf output i).toList = c :: cs ∧
    isJsSpace c = false := by
  rw [toList_frameKeyOf]
  cases hname : output.toList with
  | nil => exact ⟨'_', _, rfl, rfl⟩
  | cons c cs => exact ⟨c, _, rfl, h.space c (by rw [hname]; rfl)⟩

theorem jsTrim_key : jsTrim (frameKeyOf output i) = frameKeyOf output i := by
  obtain ⟨c, cs, hkey, hfirst⟩ := h.exists_key_eq_cons i
  exact jsTrim_eq_self hkey hfirst fun hne => isJsSpace_getLast_frameKeyOf [] hne

theorem jsTrim_file : jsTrim (frameKeyOf output i ++ ".png") = frameKeyOf output i ++ ".png" := by
  obtain ⟨c, cs, hkey, hfirst⟩ := h.exists_key_eq_cons i
  have hfile : (frameKeyOf output i ++ ".png").toList = c :: (cs ++ ".png".toList) := by
    rw [String.toList_append, hkey]
    rfl
  apply jsTrim_eq_self hfile hfirst
  intro hne
  have hlast : (frameKeyOf output i ++ ".png").toList.getLast hne = 'g' := by
    simp only [String.toList_append]
    rw [List.getLast_append_of_ne_nil _ (by decide)]
    rfl
  rw [hlast]
  rfl

theorem fetchable_key : Fetchable (frameKeyOf output i) where
  trim := h.jsTrim_key i
  slash := by
    intro hhead
    exact h.slash_notMem_key i (List.mem_of_mem_head? hhead)
  segments := by
    rw [List.splitOn_eq_singleton (h.slash_notMem_key i)]
    intro segment hsegment
    obtain rfl := List.mem_singleton.mp hsegment
    have hunderscore := underscore_mem_frameKeyOf output i
    rintro (hdot | hdots)
    · rw [hdot] at hunderscore
      exact absurd hunderscore (by decide)
    · rw [hdots] at hunderscore
      exact absurd hunderscore (by decide)

/-- A key without slashes is no URL. -/
theorem isHttpUrl_key : isHttpUrl (jsTrim (frameKeyOf output i)) = false := by
  have hnot {scheme : List Char} (hscheme : '/' ∈ scheme) :
      scheme.isPrefixOf (frameKeyOf output i).toList = false := by
    rw [Bool.eq_false_iff]
    intro hbegins
    have hbegins := List.isPrefixOf_iff_prefix.mp hbegins
    exact h.slash_notMem_key i (hbegins.subset hscheme)
  unfold isHttpUrl
  rw [h.jsTrim_key, hnot (by decide), hnot (by decide)]
  rfl

/-- A file name without slashes is kept, whether it is sent or made of the key. -/
theorem isHeaderValue_fileName {download : Option String}
    (hdownload : download = none ∨ download = some (frameKeyOf output i ++ ".png")) :
    isHeaderValue (fileNameForDownload (frameKeyOf output i) download) = true := by
  have hkey := basename_eq_self (h.slash_notMem_key i)
  unfold fileNameForDownload
  rcases hdownload with rfl | rfl
  · show isHeaderValue (basename (basename (frameKeyOf output i).toList)) = true
    rw [hkey, hkey]
    exact h.isHeaderValue_key i
  · have hne : frameKeyOf output i ++ ".png" ≠ "" := by
      intro hempty
      have hlist := congrArg String.toList hempty
      rw [String.toList_append] at hlist
      exact List.append_ne_nil_of_right_ne_nil _ (by decide) hlist
    have htruthy : ifTruthy ((some (frameKeyOf output i ++ ".png")).map jsTrim) =
        some (frameKeyOf output i ++ ".png") := by
      rw [Option.map_some, h.jsTrim_file]
      exact Option.filter_some_pos (decide_eq_true hne)
    rw [htruthy]
    dsimp only
    rw [String.toList_append, basename_eq_self, isHeaderValue_append, h.isHeaderValue_key]
    · decide
    · rw [List.mem_append, not_or]
      exact ⟨h.slash_notMem_key i, by decide⟩

variable {α : Type} (P : PublicUrl) (objects : String → Option (RemoteImage α))

theorem served_imageQuery {download : Option String}
    (hdownload : download = none ∨ download = some (frameKeyOf output i ++ ".png")) :
    (renderImage P objects (imageQuery keptInRequest (frameKeyOf output i) download)).served =
      (objects (frameKeyOf output i)).map RemoteImage.body := by
  have hblank : jsTrim (frameKeyOf output i) ≠ "" := by
    rw [h.jsTrim_key]
    exact frameKeyOf_ne_empty output i
  have hobject := (objectKey_toS3ObjectUrl P (h.isHttpUrl_key i)).mpr (h.fetchable_key i)
  rw [renderImage_imageQuery escapesSyntax_keptInRequest hblank,
    if_pos (h.isHeaderValue_fileName i hdownload), hobject]
  rfl

/-- The image of a frame is the object under its key, -/
theorem served_imageSrc :
    (renderImage P objects (urlQuery (imageSrc (frameKeyOf output i)))).served =
      (objects (frameKeyOf output i)).map RemoteImage.body := by
  rw [urlQuery_imageSrc]
  exact h.served_imageQuery i P objects (.inl rfl)

/-- and so is the file that is downloaded. -/
theorem served_downloadHref :
    (renderImage P objects (urlQuery (downloadHref (frameKeyOf output i)))).served =
      (objects (frameKeyOf output i)).map RemoteImage.body := by
  rw [urlQuery_downloadHref]
  exact h.served_imageQuery i P objects (.inr rfl)

end Viewable

/-! ### What is listed -/

/-- The record has answered a client, at some moment of the run. -/
def AnsweredIn (env : Env) (tr : List ClusterLabel) (job : RenderJob) : Prop :=
  ∃ tr₁ s₁, tr₁ <+: tr ∧ (cluster env).Reaches tr₁ s₁ ∧ s₁.sched.Answers job

/-- The links that the SDK signs for frames are URLs whose paths end in the keys, if those
have no slashes. -/
def SdkSigns (U : UrlParser) (env : Env) : Prop :=
  ∀ now output i, '/' ∉ output.toList → env.createLink now (frameKeyOf output i) ≠ "" →
    ∃ pathname, U.pathname (env.createLink now (frameKeyOf output i)) = some pathname ∧
      EndsInKey pathname (frameKeyOf output i)

/-- The keys of the render's frames, in order. -/
def RenderRequest.film (render : RenderRequest) : List String :=
  (List.range render.totalFrames).map render.frameKey

section Listed

variable {env : Env} {U : UrlParser} {C : System.Condition Cluster ClusterLabel} {s s₁ : Cluster}
  {tr tr₁ : List ClusterLabel} {render render₁ : RenderRequest} {r : RenderId} {job : RenderJob}

theorem RenderRequest.film_congr (h : render.submitted = render₁.submitted) :
    render.film = render₁.film := by
  unfold RenderRequest.film
  rw [totalFrames_congr h, frameKey_congr h]

/-- A render that shows its links is listed with its film. -/
theorem RenderRequest.Shown.getFrameNames_eq (hshown : render.Shown env)
    (hstatus : render.status = .completed) (hviewable : Viewable render.outputFileName)
    (hbucket : IsBucketName env.bucketName) (hsigns : SdkSigns U env) :
    getFrameNames U render.toJson = render.film := by
  have hlinks : render.toJson.downloadLinks = render.downloadLinks := if_pos hstatus
  have hsdk : SignsKeys U env.bucketName render.toJson := by
    intro i link hlink hsigned
    rw [hlinks] at hlink
    obtain ⟨now, hnow⟩ := hshown.complete.built i link hlink
    unfold buildDownloadLink at hnow
    dsimp only at hnow
    split at hnow
    · obtain rfl := Option.some.inj hnow
      exact absurd rfl hsigned
    -- the SDK has signed the link
    · next hne =>
      obtain rfl := Option.some.inj hnow
      have hsigned : env.createLink now (frameKeyOf render.outputFileName i) ≠ "" := by
        simpa [RenderRequest.frameKey_eq] using hne
      exact hsigns now _ i hviewable.slash hsigned
  unfold getFrameNames RenderRequest.film
  rw [hlinks, ← hshown.complete.length_eq]
  apply (filter_map_eq_iff (frameKeyOf_ne_empty render.outputFileName) _).mpr
  intro i link hlink
  rw [← hlinks] at hlink
  exact (frameName_eq_key_iff hbucket hsdk hlink).mpr ⟨hviewable.slash, fun _ => hviewable.plain⟩

/-- A render that a client has heard of is in the history from then on. -/
theorem Cluster.history_of_prefix (hrun : (cluster env).Run C tr s) (hbefore : tr₁ <+: tr)
    (hrun₁ : (cluster env).Reaches tr₁ s₁)
    (hrender₁ : s₁.sched.history.lookup r = some render₁) : ∃ render,
      s.sched.history.lookup r = some render ∧ render.submitted = render₁.submitted := by
  obtain ⟨tr₂, rfl⟩ := hbefore
  have hsched := Cluster.sched_reaches hrun
  rw [schedTrace_append] at hsched
  refine (Cluster.sched_reaches hrun₁).stable (fun s => ∃ render,
    s.history.lookup r = some render ∧ render.submitted = render₁.submitted) ?_
    ⟨render₁, hrender₁, rfl⟩ hsched
  rintro tr s l s' - ⟨render, hrender, hsub⟩ - hs
  obtain ⟨render', hrender', hsub'⟩ := (Step.of_step hs).history hrender
  exact ⟨render', hrender', hsub'.trans hsub⟩

/-- What a client has been told of the render: nothing of its frames, or its film, and then
they were completed. -/
theorem AnsweredIn.frames (hjob : AnsweredIn env tr job) (hrun : (cluster env).Run C tr s)
    (hrender : s.sched.history.lookup job.id = some render)
    (hviewable : Viewable render.outputFileName) (hbucket : IsBucketName env.bucketName)
    (hsigns : SdkSigns U env) : getFrameNames U job = [] ∨
      getFrameNames U job = render.film ∧
        ∀ i, i < render.totalFrames → Completed (schedTrace tr) ⟨job.id, i⟩ := by
  obtain ⟨tr₁, s₁, hbefore, hrun₁, r, render₁, hrender₁, rfl⟩ := hjob
  have hsched₁ := Cluster.sched_reaches hrun₁
  obtain rfl : render₁.id = r := (State.WF.of_run hsched₁).id_eq r render₁ hrender₁
  obtain ⟨render', hrender', hsub⟩ := Cluster.history_of_prefix hrun hbefore hrun₁ hrender₁
  obtain rfl := Option.some.inj (hrender'.symm.trans hrender)
  by_cases hstatus : render₁.status = .completed
  · have hshown := (State.ShowsLinks.of_run hsched₁).completed _ render₁ hrender₁ hstatus
    have hname : render'.submitted.outputFileName = render₁.submitted.outputFileName := by
      rw [hsub]
    replace hviewable : Viewable render₁.outputFileName := hname ▸ hviewable
    refine .inr ⟨?_, fun i hi => ?_⟩
    · rw [RenderRequest.film_congr hsub]
      exact hshown.getFrameNames_eq hstatus hviewable hbucket hsigns
    · rw [RenderRequest.totalFrames_congr hsub] at hi
      obtain ⟨t, ht⟩ := State.frame_completed hsched₁ hrender₁ hstatus hi
      obtain ⟨tr₂, rfl⟩ := hbefore
      refine ⟨t, ?_⟩
      rw [schedTrace_append]
      exact List.mem_append_left _ ht
  · -- there are no links without COMPLETED
    refine .inl ?_
    have hlinks : render₁.toJson.downloadLinks = [] := if_neg hstatus
    unfold getFrameNames
    rw [hlinks]
    rfl

end Listed

/-! ### What is shown -/

/-- The page shows the render's frame `i`, of its film, and both the image and the download
link are answered with the picture of that frame. -/
structure ViewerShows {α : Type} (U : UrlParser) (P : PublicUrl)
    (objects : String → Option (RemoteImage α)) (picture : RenderJobRequest → α) (v : Viewer)
    (render : RenderRequest) (i : ℕ) : Prop where
  frame : v.ShowsOne U render.film (render.frameKey i)
  index_eq : v.frameIndex = i
  served : ∃ request : RenderJobRequest, request.AsksFor render i ∧
    (renderImage P objects (urlQuery (imageSrc (v.currentFrame U)))).served =
      some (picture request) ∧
    (renderImage P objects (urlQuery (downloadHref (v.currentFrame U)))).served =
      some (picture request)

/-- The environment of a scheduler that signs links at the moment 0, with the keys escaped,
and then no more. -/
def signsEscaped : Env where
  createLink now key :=
    let path := percentEncode (fun c => keptInComponent c || decide (c = '/')) key.toList
    if now = 0 then
      "https://bucket.s3.amazonaws.com/" ++ String.ofList path ++ "?X-Amz-Expires=1200"
    else ""
  bucketName := "bucket"

/-- The path of a key without slashes is one segment. -/
theorem urlPathname_encodeURIComponent {key query : List Char} (hunderscore : '_' ∈ key)
    (hquery : query.filter (fun c => c ∉ ['\t', '\n', '\r']) = query) :
    urlPathname (encodeURIComponent key ++ '?' :: query) = '/' :: encodeURIComponent key := by
  have hfilter : (encodeURIComponent key ++ '?' :: query).filter
      (fun c => c ∉ ['\t', '\n', '\r']) = encodeURIComponent key ++ '?' :: query := by
    rw [List.filter_append, List.filter_cons_of_pos (by decide), hquery, List.filter_eq_self.mpr]
    intro c hc
    rw [decide_eq_true_eq]
    intro hremoved
    have hlost : ['\t', '\n', '\r'].all (fun c => !keptInPath c) = true := rfl
    have hnot := List.all_eq_true.mp hlost c hremoved
    rw [(mem_encodeURIComponent hc).1] at hnot
    cases hnot
  have hdots : (isDoubleDot (encodeURIComponent key) || isSingleDot (encodeURIComponent key)) =
      false := by
    apply isDotSegment_eq_false
    exact List.mem_flatMap.mpr ⟨'_', hunderscore, List.mem_singleton_self _⟩
  obtain ⟨hdouble, hsingle⟩ := Bool.or_eq_false_iff.mp hdots
  unfold urlPathname
  dsimp only
  rw [hfilter, pathState_append fun c => mem_encodeURIComponent, List.nil_append, pathState,
    if_pos (.inl rfl), endPath, hdouble, hsingle]
  simp

theorem pathname_signed (cs : List Char) : hostUrls.pathname
    ("https://bucket.s3.amazonaws.com/" ++ String.ofList cs ++ "?X-Amz-Expires=1200") =
      some (String.ofList (urlPathname (cs ++ "?X-Amz-Expires=1200".toList))) := by
  unfold hostUrls
  dsimp only
  simp only [String.toList_append, String.toList_ofList]
  rfl

theorem sdkSigns_signsEscaped : SdkSigns hostUrls signsEscaped := by
  intro now output i hslash hsigned
  obtain ⟨key, hkey⟩ : ∃ key, key = (frameKeyOf output i).toList := ⟨_, rfl⟩
  have hunderscore : '_' ∈ key := hkey ▸ underscore_mem_frameKeyOf output i
  have hkeep : percentEncode (fun c => keptInComponent c || decide (c = '/')) key =
      encodeURIComponent key := by
    apply List.flatMap_congr
    intro c hc
    have hne : c ≠ '/' := by
      rintro rfl
      rw [hkey, mem_frameKeyOf (by decide) (by decide)] at hc
      exact hslash hc
    simp [hne]
  unfold signsEscaped at hsigned ⊢
  dsimp only at hsigned ⊢
  rw [← hkey] at hsigned ⊢
  by_cases hnow : now = 0
  · rw [if_pos hnow]
    have hquery : "?X-Amz-Expires=1200".toList = '?' :: "X-Amz-Expires=1200".toList := rfl
    refine ⟨_, pathname_signed _, [], fun c => keptInComponent c || decide (c = '/'), rfl, ?_, ?_⟩
    · rintro c - hkept rfl
      cases hkept
    · rw [String.toList_ofList, ← hkey, hkeep, hquery,
        urlPathname_encodeURIComponent hunderscore (by decide)]
      rfl
  · rw [if_neg hnow] at hsigned
    exact absurd rfl hsigned

/-- The process `w` renders the frame of the job, and its key is signed at the moment
`now`. -/
def renders (job : JobId) (t : ThreadId) (i now : ℕ) : List ClusterLabel :=
  [.handler job .generateScene, .handler job (.putObject true), .handler job .remove,
    .handler job .updateJobStatus, .sched (.jobCompleted t "w" job), .sched (.takeJob t),
    .sched (.buildLink t now), .sched (.recordFrame t ⟨"r", i⟩)]

/-- A render of two frames is completed. -/
def twoRendered : List ClusterLabel :=
  rendering 2 ++ renders "j" 1 0 0 ++ [.sched (.publish 1), .sched (.markWorkerIdle 1),
    .sched (.assignJob "k"), .deliver "k" "w"] ++ renders "k" 2 1 1 ++
    [.sched (.publish 2), .sched (.publish 2), .sched (.publish 2), .sched (.publish 2)]

theorem twoRendered_run : (cluster signsEscaped).Run OnlyUploadedTaken twoRendered
    ((cluster signsEscaped).after twoRendered) := by
  have hrun : ((cluster signsEscaped).restrict fun s l => s.takesUploaded l = true).Reaches
      twoRendered _ := .after (by decide)
  have hchecked : (cluster signsEscaped).Run OnlyUploadedTaken twoRendered _ :=
    hrun.of_restrict.mono fun _ _ _ h => Cluster.onlyUploadedTaken_of_check h
  rwa [← hchecked.after_eq] at hchecked

/-- Its record. The second link is the fallback. -/
def twoRenderedJob : RenderRequest where
  id := "r"
  status := .completed
  width := 64
  height := 64
  framesPerSecond := 24
  animationRuntime := 2
  framesCompleted := 2
  samplesPerPixel := 1
  sceneFileUrl := "scene.gltf"
  createdAt := "now"
  outputFileName := "out"
  downloadLink := some "https://bucket.s3.amazonaws.com/out_0?X-Amz-Expires=1200"
  downloadLinks :=
    ["https://bucket.s3.amazonaws.com/out_0?X-Amz-Expires=1200", "s3://bucket/out_1"]

/-- The render is opened, and "Prev" leads to the last frame. Then an answer from before the
render was submitted arrives, and after it another one. -/
def steppedBack : List ViewerLabel :=
  [.loaded [twoRenderedJob.toJson], .viewOutput "r", .stepFrame false, .loaded [],
    .loaded [twoRenderedJob.toJson]]

/-- The bucket of a cluster. -/
def Cluster.images (s : Cluster) (tr : List ClusterLabel) (key : String) :
    Option (RemoteImage RenderJobRequest) :=
  (s.stored tr key).map fun request => ⟨none, request, nofun⟩

end Pathological
