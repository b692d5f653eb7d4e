import Pathological.Framework.Separator
import Pathological.RenderWorker.SharedFiles
import Pathological.Scheduler.RejectedUploads

/-!
# Scene keys

The way of a scene's key: `uploadSceneFile` makes it out of the name and stores
the scene under it, a client submits it as the URL of a render's scene, the
scheduler sends that to the worker, and `generateScene` takes the file name of what
it receives. For a scene that has a name it is the same key all the way
(`scene_key_passes`), because it has no slash left.
-/

namespace Pathological

open Framework RenderWorker

/-! ### The rewritten name -/

/-- The two replacements and the removal of `uploadSceneFile`. -/
def plainName (cs : List Char) : List Char :=
  (replaceChar '/' '-' (replaceChar ' ' '_' cs)).filter fun c => c ≠ '.'

section Names

variable {cs : List Char} {old new c : Char}

theorem mem_replaceChar (h : c ∈ replaceChar old new cs) : c = new ∨ c ∈ cs ∧ c ≠ old := by
  obtain ⟨c', hmem, rfl⟩ := List.mem_map.mp h
  by_cases hold : c' = old
  · rw [if_pos hold]
    exact .inl rfl
  · rw [if_neg hold]
    exact .inr ⟨hmem, hold⟩

theorem replaceChar_eq_self (h : old ∉ cs) : replaceChar old new cs = cs := by
  unfold replaceChar
  rw [List.map_congr_left (g := id), List.map_id]
  intro c hc
  rw [if_neg]
  · rfl
  · rintro rfl
    exact h hc

theorem space_notMem_plainName : ' ' ∉ plainName cs := by
  intro h
  rcases mem_replaceChar (List.mem_of_mem_filter h) with hdash | ⟨hmem, -⟩
  · exact absurd hdash (by decide)
  · rcases mem_replaceChar hmem with hunderscore | ⟨-, hne⟩
    · exact absurd hunderscore (by decide)
    · exact hne rfl

theorem slash_notMem_plainName : '/' ∉ plainName cs := by
  intro h
  rcases mem_replaceChar (List.mem_of_mem_filter h) with hdash | ⟨-, hne⟩
  · exact absurd hdash (by decide)
  · exact hne rfl

theorem dot_notMem_plainName : '.' ∉ plainName cs := by
  intro h
  have hne := List.of_mem_filter h
  exact absurd hne (by decide)

/-- A name without the three characters is left as it is. -/
theorem plainName_eq_self (hspace : ' ' ∉ cs) (hslash : '/' ∉ cs) (hdot : '.' ∉ cs) :
    plainName cs = cs := by
  unfold plainName
  rw [replaceChar_eq_self hspace, replaceChar_eq_self hslash, List.filter_eq_self]
  intro c hc
  rw [decide_eq_true_eq]
  rintro rfl
  exact hdot hc

theorem plainName_plainName (cs : List Char) : plainName (plainName cs) = plainName cs :=
  plainName_eq_self space_notMem_plainName slash_notMem_plainName dot_notMem_plainName

theorem toList_sceneNameS3 {sceneName : String} (sceneFileName : String) (h : sceneName ≠ "") :
    (sceneNameS3 sceneName sceneFileName).toList =
      plainName sceneName.toList ++ ".gltf".toList := by
  unfold sceneNameS3
  rw [if_neg (mt String.isEmpty_iff.mp h), String.toList_append, String.toList_ofList]
  rfl

end Names

/-- A path without a slash is a file name. -/
theorem RenderWorker.filename_eq_self {path : String} (h : '/' ∉ path.toList) :
    filename path = path :=
  calc filename path = String.ofList (path.toList.rtakeWhile (· ≠ '/')) := rfl
    _ = String.ofList path.toList := by rw [rtakeWhile_ne_eq_self h]
    _ = path := String.ofList_toList

/-! ### From the upload to the download -/

/-- What the scheduler sends for a frame of a render that was submitted with this URL:
the fields a submission fixes are as it fixed them. -/
def RenderJobRequest.OfScene (url : String) (request : RenderJobRequest) : Prop :=
  ∃ id payload timestamp render render' jobId frameIndex time,
    payload.sceneFileUrl = .ok url ∧ RenderRequest.ofPayload id payload timestamp = .ok render ∧
    render'.submitted = render.submitted ∧
    request = renderJobRequest render' jobId frameIndex time

/-- The key of a scene is plain, and the same from the upload to the download. -/
structure KeyPasses (sceneName sceneFileName key : String) : Prop where
  noSpace : ' ' ∉ key.toList
  noSlash : '/' ∉ key.toList
  oneDot : key.toList.count '.' = 1
  /-- The dot starts the suffix, and rewriting what stands before it changes nothing. -/
  suffix : ∃ base, key.toList = base ++ ".gltf".toList ∧ '.' ∉ base ∧ plainName base = base
  /-- It is the key an upload of the scene stores its data under, -/
  stored : ∀ (s : SceneStore) (r : UploadRequest) (data : SceneData) (key' : String),
    r.fields = .ok (data, sceneFileName, sceneName) → r.storesUnder s = some key' →
    key' = key ∧ (uploadSceneFile s r).1.bucket key = some data
  /-- the key a worker makes out of what it is sent for a frame of the scene, -/
  passed : ∀ request : RenderJobRequest, request.OfScene key → request.s3Key = key
  /-- and so the object it gets is the one that was uploaded. -/
  fetched : ∀ {ι File : Type} [DecidableEq File] (w : Workplace ι File) (i : ι) (st : Store File)
    (s : SceneStore) (r : UploadRequest) (data : SceneData),
    r.fields = .ok (data, sceneFileName, sceneName) → r.storesUnder s ≠ none →
    st.bucket = (uploadSceneFile s r).1.bucket → (w.request i).OfScene key →
    w.step i st .getObject .success = some (st, .writeFileToPath data)

section Keys

variable {s : SceneStore} {r : UploadRequest} {sceneData : SceneData}
  {sceneFileName sceneName key : String}

/-- The data a request stores are in the bucket, whatever it is answered. -/
theorem bucket_of_storesUnder (hfields : r.fields = .ok (sceneData, sceneFileName, sceneName))
    (h : r.storesUnder s = some key) :
    (uploadSceneFile s r).1.bucket key = some sceneData := by
  by_cases haccepted : sceneName ≠ "" ∧ r.outcome.put = .success
  · rw [uploadSceneFile_of_accepted hfields h haccepted.1 haccepted.2]
    exact Function.update_self _ _ _
  · obtain ⟨e, hrejected⟩ := uploadSceneFile_of_rejected hfields h haccepted
    rw [hrejected]
    exact Function.update_self _ _ _

/-- What is sent to the worker is the URL the render was submitted with. -/
theorem RenderJobRequest.OfScene.sceneLocation {url : String} {request : RenderJobRequest}
    (h : request.OfScene url) : request.sceneLocation = url := by
  obtain ⟨id, payload, timestamp, render, render', jobId, frameIndex, time, hurl, hrender,
    hsubmitted, rfl⟩ := h
  obtain ⟨w, hgt, fps, frames, spp, scene, output, -, -, -, -, -, hscene, -, -, -, -, -, rfl⟩ :=
    RenderRequest.ofPayload_eq_ok hrender
  calc render'.sceneFileUrl = render'.submitted.sceneFileUrl := rfl
    _ = scene := by rw [hsubmitted]; rfl
    _ = url := Except.ok.inj (hscene.symm.trans hurl)

/-- **The worker fetches the scene that was uploaded**, for every name but the empty one. -/
theorem scene_key_passes (hname : sceneName ≠ "") :
    KeyPasses sceneName sceneFileName (sceneNameS3 sceneName sceneFileName) := by
  have hkey := toList_sceneNameS3 sceneFileName hname
  have hslash : '/' ∉ (sceneNameS3 sceneName sceneFileName).toList := by
    rw [hkey, List.mem_append, not_or]
    exact ⟨slash_notMem_plainName, by decide⟩
  have hpassed (request : RenderJobRequest)
      (h : request.OfScene (sceneNameS3 sceneName sceneFileName)) :
      request.s3Key = sceneNameS3 sceneName sceneFileName := by
    rw [RenderJobRequest.s3Key, h.sceneLocation, filename_eq_self hslash]
  refine ⟨?_, hslash, ?_, ?_, ?_, hpassed, ?_⟩
  · rw [hkey, List.mem_append, not_or]
    exact ⟨space_notMem_plainName, by decide⟩
  · rw [hkey, List.count_append, List.count_eq_zero.mpr dot_notMem_plainName]
    rfl
  · exact ⟨_, hkey, dot_notMem_plainName, plainName_plainName _⟩
  · intro s r data key hfields hstores
    obtain ⟨rfl, -⟩ := uploadScene_of_storesUnder hfields hstores
    exact ⟨rfl, bucket_of_storesUnder hfields hstores⟩
  · intro ι File _ w i st s r data hfields hstores hbucket hrequest
    obtain ⟨key, hstores⟩ := Option.ne_none_iff_exists'.mp hstores
    obtain ⟨rfl, -⟩ := uploadScene_of_storesUnder hfields hstores
    have hobject : st.bucket (w.request i).s3Key = some data := by
      rw [hpassed _ hrequest, hbucket]
      exact bucket_of_storesUnder hfields hstores
    simp only [Workplace.step, Workplace.proceed, hobject]

end Keys

theorem scene_key_passes_dots :
    sceneNameS3 "../a b.gltf" "scene.gltf" = "-a_bgltf.gltf" ∧
      KeyPasses "../a b.gltf" "scene.gltf" (sceneNameS3 "../a b.gltf" "scene.gltf") :=
  ⟨by decide, scene_key_passes (by decide)⟩

end Pathological
