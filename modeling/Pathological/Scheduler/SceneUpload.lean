import Pathological.Framework.System
import Pathological.Framework.Table

/-!
# Uploaded scenes

`RequestController::uploadSceneFile` with `SceneList` and `Scheduler::uploadScene`:
the list of scenes, the objects of the bucket, and a request at a time, as the
HTTP server handles them. What the file system and S3 answer is part of the label.

Whether a scene may be added is decided by its name, and where its data go by
`sceneNameS3`, which rewrites the name and is not injective. So the scenes keep
their objects (`scenes_kept`) in a run in which no request stores its data under
the key of a listed scene, and otherwise they do not (`not_scenesKept`).
-/

namespace Pathological

open Framework

/-- The bytes of a file or of an object. -/
abbrev SceneData := List UInt8

/-! ### Requests -/

/-- The fields `uploadSceneFile` reads from the JSON payload. Each is what
`asString` returns, or the text of the exception the conversion throws. -/
structure ScenePayload where
  sceneData : Except String SceneData
  sceneFileName : Except String String
  sceneName : Except String String

/-- How `PutObject` ends. A call that fails may have stored the object. -/
inductive PutOutcome where
  | success
  | failedStored
  | failed
  deriving DecidableEq, Repr

/-- What the file system and S3 answer while an upload is handled. -/
structure UploadOutcome where
  /-- `temp_directory_path` does not throw, -/
  tempDirectory : Bool
  /-- and the file in it can be written. -/
  tempFile : Bool
  put : PutOutcome
  deriving DecidableEq, Repr

/-- A request, its payload `none` where it is no JSON. -/
structure UploadRequest where
  payload : Option ScenePayload
  outcome : UploadOutcome

/-! ### The key of a scene -/

/-- `std::replace`. -/
def replaceChar (old new : Char) (cs : List Char) : List Char :=
  cs.map fun c => if c = old then new else c

/-- The key a scene is stored under. -/
def sceneNameS3 (sceneName sceneFileName : String) : String :=
  if sceneName.isEmpty then sceneFileName
  else
    let cs := replaceChar ' ' '_' sceneName.toList
    let cs := replaceChar '/' '-' cs
    String.ofList (cs.filter fun c => c ≠ '.') ++ ".gltf"

/-! ### `SceneList` and the bucket -/

/-- The scenes of `SceneList`, each name with its key, and the objects of the bucket. -/
structure SceneStore where
  scenes : Table String String
  bucket : String → Option SceneData

namespace SceneStore

/-- `findSceneByKey`. -/
def findSceneByKey (s : SceneStore) (sceneName : String) : String :=
  (s.scenes.lookup sceneName).getD ""

/-- `addScene`. -/
def addScene (s : SceneStore) (sceneName sceneFileName : String) : SceneStore × Bool :=
  if sceneName.isEmpty || sceneFileName.isEmpty then (s, false)
  -- `emplace` leaves an entry that is there as it is
  else if sceneName ∈ s.scenes then (s, true)
  else ({ s with scenes := s.scenes.insert sceneName sceneFileName }, true)

/-- An object put into the bucket, over the one that is there. -/
def setObject (s : SceneStore) (key : String) (data : SceneData) : SceneStore :=
  { s with bucket := Function.update s.bucket key (some data) }

/-- `putObject`, with `overwriteExisting` set. -/
def putObject (s : SceneStore) (key : String) (data : SceneData) :
    PutOutcome → SceneStore × Bool
  | .success => (s.setObject key data, true)
  | .failedStored => (s.setObject key data, false)
  | .failed => (s, false)

/-- `Scheduler::uploadScene`. -/
def uploadScene (s : SceneStore) (data : SceneData) (sceneUrl : String) (o : UploadOutcome) :
    SceneStore × Bool :=
  if !o.tempDirectory then (s, false)
  -- `out << data` fails when there is nothing to write
  else if !o.tempFile || data.isEmpty then (s, false)
  else s.putObject sceneUrl data o.put

end SceneStore

/-- The fields in the order they are converted. -/
def UploadRequest.fields (r : UploadRequest) : Except String (SceneData × String × String) :=
  match r.payload with
  | none => .error "Bad/malformed payload"
  | some payload => do
    let sceneData ← payload.sceneData
    let sceneFileName ← payload.sceneFileName
    let sceneName ← payload.sceneName
    pure (sceneData, sceneFileName, sceneName)

/-- `uploadSceneFile`: answered 201 with the list of scenes, or 400 with the text
of an exception. -/
def uploadSceneFile (s : SceneStore) (r : UploadRequest) :
    SceneStore × Except String (Table String String) :=
  match r.fields with
  | .error e => (s, .error e)
  | .ok (sceneData, sceneFileName, sceneName) =>
    let key := sceneNameS3 sceneName sceneFileName
    if (s.findSceneByKey sceneName).isEmpty = false then
      (s, .error "A scene with this name already exists")
    else
      let (s, uploaded) := s.uploadScene sceneData key r.outcome
      if !uploaded then (s, .error "Failed to upload to S3 bucket")
      else
        let (s, listUpdated) := s.addScene sceneName key
        if !listUpdated then (s, .error "Internal scene list failed to update")
        else (s, .ok s.scenes)

/-- The requests that are handled, one after the other, over the bucket the
scheduler finds when it starts. -/
def sceneUploads (bucket : String → Option SceneData) : System SceneStore UploadRequest where
  init := ⟨∅, bucket⟩
  step s r := some (uploadSceneFile s r).1

/-! ### What is claimed, and when it holds -/

/-- The data the request carries. -/
def UploadRequest.sceneData (r : UploadRequest) : Option SceneData :=
  r.fields.toOption.map Prod.fst

/-- The request listed the scene: before it the scene was not listed, after it it is. -/
def ListedBy (bucket : String → Option SceneData) (tr : List UploadRequest) (sceneName : String)
    (r : UploadRequest) : Prop :=
  ∃ tr₁, tr₁ ++ [r] <+: tr ∧
    ((sceneUploads bucket).after tr₁).scenes.lookup sceneName = none ∧
    ((sceneUploads bucket).after (tr₁ ++ [r])).scenes.lookup sceneName ≠ none

/-- Scenes do not overwrite each other. -/
structure ScenesKept (bucket : String → Option SceneData) (tr : List UploadRequest)
    (s : SceneStore) : Prop where
  /-- Distinct scenes have distinct keys. -/
  keys : ∀ name name' key, s.scenes.lookup name = some key → s.scenes.lookup name' = some key →
    name = name'
  /-- A listed scene was listed by a request, -/
  listed : ∀ name key, s.scenes.lookup name = some key → ∃ r, ListedBy bucket tr name r
  /-- and the object under its key is what that request carried. -/
  objects : ∀ name key r, s.scenes.lookup name = some key → ListedBy bucket tr name r →
    ∃ data, r.sceneData = some data ∧ s.bucket key = some data

/-- The key S3 stores the data of the request under, `none` where it stores nothing:
the payload is malformed, the name taken, the data empty, or an I/O call fails. -/
def UploadRequest.storesUnder (r : UploadRequest) (s : SceneStore) : Option String :=
  match r.fields with
  | .error _ => none
  | .ok (sceneData, sceneFileName, sceneName) =>
    if (s.findSceneByKey sceneName).isEmpty && r.outcome.tempDirectory && r.outcome.tempFile
        && !sceneData.isEmpty && r.outcome.put ≠ .failed then
      some (sceneNameS3 sceneName sceneFileName)
    else none

/-- The request stores nothing, or not under the key of a listed scene. -/
def StoresApart : System.Condition SceneStore UploadRequest := fun _ s r =>
  ∀ key, r.storesUnder s = some key → ∀ name, s.scenes.lookup name ≠ some key

/-! ### What a request does -/

section Requests

variable {s : SceneStore} {r : UploadRequest}

/-- An upload fails without a trace, or puts the data into the bucket. -/
theorem SceneStore.uploadScene_spec (s : SceneStore) (data : SceneData) (sceneUrl : String)
    (o : UploadOutcome) :
    s.uploadScene data sceneUrl o = (s, false) ∨
    (o.tempDirectory = true ∧ o.tempFile = true ∧ data.isEmpty = false ∧ o.put ≠ .failed ∧
      ∃ uploaded, s.uploadScene data sceneUrl o = (s.setObject sceneUrl data, uploaded)) := by
  unfold uploadScene
  split
  · exact Or.inl rfl
  · next hdirectory =>
    split
    · exact Or.inl rfl
    · next hfile =>
      rw [Bool.or_eq_true, not_or] at hfile
      have hdirectory : o.tempDirectory = true := by simpa using hdirectory
      have htemp : o.tempFile = true := by simpa using hfile.1
      have hdata : data.isEmpty = false := Bool.eq_false_iff.mpr hfile.2
      cases hput : o.put with
      | failed => exact Or.inl rfl
      | success => exact Or.inr ⟨hdirectory, htemp, hdata, nofun, true, rfl⟩
      | failedStored => exact Or.inr ⟨hdirectory, htemp, hdata, nofun, false, rfl⟩

/-- `addScene` enters a new scene, or does nothing. -/
theorem SceneStore.addScene_spec (s : SceneStore) (sceneName sceneFileName : String) :
    (s.addScene sceneName sceneFileName).1 = s ∨
    (sceneName ∉ s.scenes ∧ (s.addScene sceneName sceneFileName).1 =
      { s with scenes := s.scenes.insert sceneName sceneFileName }) := by
  unfold addScene
  split
  · exact Or.inl rfl
  · split
    · exact Or.inl rfl
    · next hnew => exact Or.inr ⟨hnew, rfl⟩

/-- A request changes nothing, or stores its data under its key, and lists a new
scene or none. -/
theorem uploadSceneFile_cases (s : SceneStore) (r : UploadRequest) :
    (uploadSceneFile s r).1 = s ∨
    ∃ sceneData sceneFileName sceneName key,
      r.fields = .ok (sceneData, sceneFileName, sceneName) ∧ r.storesUnder s = some key ∧
      ((uploadSceneFile s r).1 = s.setObject key sceneData ∨
        sceneName ∉ s.scenes ∧ (uploadSceneFile s r).1 =
          { s.setObject key sceneData with scenes := s.scenes.insert sceneName key }) := by
  unfold uploadSceneFile UploadRequest.storesUnder
  cases hfields : r.fields with
  | error e => exact Or.inl rfl
  | ok fields =>
    obtain ⟨sceneData, sceneFileName, sceneName⟩ := fields
    dsimp only
    split
    · exact Or.inl rfl
    · next hfree =>
      have hfree : (s.findSceneByKey sceneName).isEmpty = true := by simpa using hfree
      rcases s.uploadScene_spec sceneData (sceneNameS3 sceneName sceneFileName) r.outcome with
        hnot | ⟨hdirectory, hfile, hdata, hput, uploaded, hupload⟩
      · rw [hnot]
        exact Or.inl rfl
      · refine Or.inr ⟨sceneData, sceneFileName, sceneName, sceneNameS3 sceneName sceneFileName,
          rfl, ?_, ?_⟩
        · rw [if_pos]
          simp [hfree, hdirectory, hfile, hdata, hput]
        · rw [hupload]
          cases uploaded with
          | false => exact Or.inl rfl
          | true =>
            -- whatever the answer, `addScene` has done what it does
            have hadd := SceneStore.addScene_spec
              (s.setObject (sceneNameS3 sceneName sceneFileName) sceneData) sceneName
              (sceneNameS3 sceneName sceneFileName)
            dsimp only
            rw [if_neg (by simp)]
            generalize SceneStore.addScene _ sceneName _ = added at hadd ⊢
            obtain ⟨s', listUpdated⟩ := added
            cases listUpdated with
            | false => exact hadd
            | true => exact hadd

end Requests

/-! ### Scenes do not overwrite each other -/

section Run

variable {bucket : String → Option SceneData} {tr : List UploadRequest} {s s' : SceneStore}
  {r : UploadRequest} {name : String}

/-- A request that lists a scene is an earlier one, or the last. -/
theorem ListedBy.snoc_cases {r' : UploadRequest} (h : ListedBy bucket (tr ++ [r]) name r') :
    ListedBy bucket tr name r' ∨
    r' = r ∧ ((sceneUploads bucket).after tr).scenes.lookup name = none := by
  obtain ⟨tr₁, hprefix, hbefore, hafter⟩ := h
  rcases List.prefix_concat_iff.mp hprefix with heq | hprefix
  · obtain ⟨rfl, hr⟩ := List.append_inj' heq rfl
    exact Or.inr ⟨List.singleton_inj.mp hr, hbefore⟩
  · exact Or.inl ⟨tr₁, hprefix, hbefore, hafter⟩

theorem ListedBy.snoc (h : ListedBy bucket tr name r) (r' : UploadRequest) :
    ListedBy bucket (tr ++ [r']) name r := by
  obtain ⟨tr₁, hprefix, hbefore, hafter⟩ := h
  exact ⟨tr₁, hprefix.trans (List.prefix_append _ _), hbefore, hafter⟩

/-- Every request is answered. -/
theorem sceneUploads_reaches (tr : List UploadRequest) :
    (sceneUploads bucket).Reaches tr ((sceneUploads bucket).after tr) := by
  refine .after ?_
  generalize (sceneUploads bucket).init = s
  induction tr generalizing s with
  | nil => rfl
  | cons r tr ih => exact ih (uploadSceneFile s r).1

/-- A scene stays listed. -/
theorem lookup_of_uploadSceneFile (h : s.scenes.lookup name ≠ none) :
    (uploadSceneFile s r).1.scenes.lookup name ≠ none := by
  rcases uploadSceneFile_cases s r with hsame | ⟨_, _, sceneName, key, -, -, hsame | ⟨-, hadded⟩⟩
  · rwa [hsame]
  · rwa [hsame]
  · rw [hadded]
    show (s.scenes.insert sceneName key).lookup name ≠ none
    rw [Table.lookup_insert']
    split
    · exact Option.some_ne_none _
    · exact h

/-- So what a request has listed is listed. -/
theorem ListedBy.lookup (h : ListedBy bucket tr name r) :
    ((sceneUploads bucket).after tr).scenes.lookup name ≠ none := by
  obtain ⟨tr₁, ⟨later, rfl⟩, -, hlisted⟩ := h
  refine System.Run.stable (fun s => s.scenes.lookup name ≠ none) ?_
    (sceneUploads_reaches (tr₁ ++ [r])) hlisted (sceneUploads_reaches _)
  intro tr s r' s' _ hname _ hs
  obtain rfl := Option.some.inj hs
  exact lookup_of_uploadSceneFile hname

/-- A request under the condition keeps the scenes. -/
theorem ScenesKept.step (hkept : ScenesKept bucket tr s)
    (hrun : (sceneUploads bucket).Reaches tr s) (hC : StoresApart tr s r)
    (hs : (sceneUploads bucket).step s r = some s') : ScenesKept bucket (tr ++ [r]) s' := by
  have hafter : (sceneUploads bucket).after tr = s := hrun.after_eq
  have hafter' : (sceneUploads bucket).after (tr ++ [r]) = s' := (hrun.snoc trivial hs).after_eq
  obtain rfl : (uploadSceneFile s r).1 = s' := Option.some.inj hs
  -- a scene that was listed before is one that an earlier request listed
  have hearlier {name key r'} (hname : s.scenes.lookup name = some key)
      (h : ListedBy bucket (tr ++ [r]) name r') : ListedBy bucket tr name r' := by
    rcases h.snoc_cases with h | ⟨-, hnone⟩
    · exact h
    · rw [hafter, hname] at hnone
      cases hnone
  rcases uploadSceneFile_cases s r with hsame | ⟨data, fileName, sceneName, key, hfields, hkey, h⟩
  · rw [hsame]
    refine ⟨hkept.keys, fun name key hname => ?_, fun name key r' hname hlisted => ?_⟩
    · obtain ⟨r', hr'⟩ := hkept.listed name key hname
      exact ⟨r', hr'.snoc r⟩
    · exact hkept.objects name key r' hname (hearlier hname hlisted)
  · have hdata : r.sceneData = some data := by
      unfold UploadRequest.sceneData
      rw [hfields]
      rfl
    -- the object put is none of a listed scene
    have hobject {name key' r'} (hname : s.scenes.lookup name = some key')
        (h : ListedBy bucket (tr ++ [r]) name r') :
        ∃ data', r'.sceneData = some data' ∧ (s.setObject key data).bucket key' = some data' := by
      have hne : key' ≠ key := by
        rintro rfl
        exact hC key' hkey name hname
      obtain ⟨data', hdata', hbucket⟩ := hkept.objects name key' r' hname (hearlier hname h)
      exact ⟨data', hdata', (Function.update_of_ne hne _ _).trans hbucket⟩
    rcases h with hsame | ⟨hnew, hadded⟩
    · rw [hsame]
      refine ⟨hkept.keys, fun name key' hname => ?_, fun name key' r' hname hlisted => ?_⟩
      · obtain ⟨r', hr'⟩ := hkept.listed name key' hname
        exact ⟨r', hr'.snoc r⟩
      · exact hobject hname hlisted
    · have hnone : s.scenes.lookup sceneName = none := AList.lookup_eq_none.mpr hnew
      rw [hadded] at hafter' ⊢
      refine ⟨fun name name' key' hname hname' => ?_, fun name key' hname => ?_,
        fun name key' r' hname hlisted => ?_⟩
      · rcases Table.lookup_insert_cases hname with ⟨rfl, rfl⟩ | ⟨-, hold⟩
        · rcases Table.lookup_insert_cases hname' with ⟨rfl, -⟩ | ⟨-, hold'⟩
          · rfl
          · exact absurd hold' (hC _ hkey name')
        · rcases Table.lookup_insert_cases hname' with ⟨rfl, rfl⟩ | ⟨-, hold'⟩
          · exact absurd hold (hC _ hkey name)
          · exact hkept.keys name name' key' hold hold'
      · rcases Table.lookup_insert_cases hname with ⟨rfl, rfl⟩ | ⟨-, hold⟩
        · -- the new scene is listed by this request
          refine ⟨r, tr, List.prefix_refl _, ?_, ?_⟩
          · rw [hafter, hnone]
          · rw [hafter', hname]
            exact Option.some_ne_none _
        · obtain ⟨r', hr'⟩ := hkept.listed name key' hold
          exact ⟨r', hr'.snoc r⟩
      · rcases Table.lookup_insert_cases hname with ⟨rfl, rfl⟩ | ⟨-, hold⟩
        · have hlast : r' = r := by
            rcases hlisted.snoc_cases with hbefore | ⟨hr, -⟩
            · exact absurd (by rw [hafter, hnone]) hbefore.lookup
            · exact hr
          subst hlast
          exact ⟨data, hdata, Function.update_self _ _ _⟩
        · exact hobject hold hlisted

/-- **Scenes never overwrite each other**, in every run in which no request stores
its data under the key of a listed scene. -/
theorem scenes_kept (hrun : (sceneUploads bucket).Run StoresApart tr s) :
    ScenesKept bucket tr s := by
  refine hrun.invariant (fun tr s => ScenesKept bucket tr s) ⟨?_, ?_, ?_⟩ ?_
  · intro name name' key hname
    rw [show (sceneUploads bucket).init.scenes.lookup name = none from rfl] at hname
    cases hname
  · intro name key hname
    rw [show (sceneUploads bucket).init.scenes.lookup name = none from rfl] at hname
    cases hname
  · intro name key r hname
    rw [show (sceneUploads bucket).init.scenes.lookup name = none from rfl] at hname
    cases hname
  · intro tr s r s' hrun hkept hC hs
    exact hkept.step hrun.reaches hC hs

end Run

/-- A scene with this name and these data, uploaded from the file `scene.gltf`. -/
def uploadOf (sceneName : String) (sceneData : SceneData) : UploadRequest :=
  ⟨some ⟨.ok sceneData, .ok "scene.gltf", .ok sceneName⟩, ⟨true, true, .success⟩⟩

/-- The scenes "a b" and "c". -/
def twoScenes : List UploadRequest := [uploadOf "a b" [1]] ++ [uploadOf "c" [2]]

theorem scenes_kept_twoScenes :
    ∃ s, (sceneUploads fun _ => none).Run StoresApart twoScenes s ∧
      s.scenes.lookup "a b" = some "a_b.gltf" ∧ s.bucket "a_b.gltf" = some [1] ∧
      s.scenes.lookup "c" = some "c.gltf" ∧ s.bucket "c.gltf" = some [2] ∧
      ScenesKept (fun _ => none) twoScenes s := by
  have hnone : (sceneUploads fun _ => none).Run StoresApart []
      ((sceneUploads fun _ => none).after []) := .nil
  have hfirst := hnone.after_snoc (uploadOf "a b" [1])
    (fun key _ name => (Option.some_ne_none key).symm) rfl
  have hsecond := hfirst.after_snoc (uploadOf "c" [2]) (fun key hkey name hname => ?_) rfl
  · exact ⟨_, hsecond, by decide, by decide, by decide,
      by decide, scenes_kept hsecond⟩
  · have hne : "a_b.gltf" = key := Table.forall_lookup
      (P := fun _ v => "a_b.gltf" = v) (by decide) name key hname
    rw [← hne] at hkey
    exact absurd hkey (by decide)

/-- Two names have one key: the second upload replaces the first scene's object, and
both scenes are listed with it. And a request without a name is rejected, but its
data replace the object under the key that its file's name is. -/
theorem not_scenesKept :
    (∃ s, (sceneUploads fun _ => none).Reaches [uploadOf "a b" [1], uploadOf "a_b" [2]] s ∧
      s.scenes.lookup "a b" = some "a_b.gltf" ∧ s.scenes.lookup "a_b" = some "a_b.gltf" ∧
      s.bucket "a_b.gltf" = some [2] ∧
      ¬ ScenesKept (fun _ => none) [uploadOf "a b" [1], uploadOf "a_b" [2]] s) ∧
    ∃ s, (sceneUploads fun _ => none).Reaches [uploadOf "scene" [1], uploadOf "" [2]] s ∧
      (uploadSceneFile ((sceneUploads fun _ => none).after [uploadOf "scene" [1]])
        (uploadOf "" [2])).2 = .error "Internal scene list failed to update" ∧
      s.scenes.lookup "scene" = some "scene.gltf" ∧ s.bucket "scene.gltf" = some [2] ∧
      ¬ ScenesKept (fun _ => none) [uploadOf "scene" [1], uploadOf "" [2]] s := by
  constructor
  · refine ⟨_, .after rfl, by decide, by decide, by decide, ?_⟩
    intro hkept
    have heq := hkept.keys "a b" "a_b" "a_b.gltf" (by decide) (by decide)
    exact absurd heq (by decide)
  · refine ⟨_, .after rfl, by rfl, by decide, by decide, ?_⟩
    intro hkept
    obtain ⟨data, hdata, hobject⟩ := hkept.objects "scene" "scene.gltf" (uploadOf "scene" [1])
      (by decide) ⟨[], ⟨[uploadOf "" [2]], rfl⟩, by decide, by decide⟩
    rw [← hdata] at hobject
    exact absurd hobject (by decide)

end Pathological
