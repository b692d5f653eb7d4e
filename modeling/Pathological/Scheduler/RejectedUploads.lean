import Pathological.Scheduler.SceneUpload

/-!
# Rejected uploads

`uploadSceneFile` looks whether the name is taken before it stores the scene, and
whether there is a name after it. So a request without a name is answered with 400
when its data are in the bucket already, as is one for which S3 reports a failure but
has stored the object.

In every other case an upload that is rejected changes nothing, and one that is
accepted adds a scene and puts its object under the key that is listed
(`upload_atomic`).
-/

namespace Pathological

open Framework

/-! ### What is claimed, and when it holds -/

/-- The request adds a scene that was not listed, and puts its data into the bucket,
under the key the list has for it. -/
structure AddsScene (s s' : SceneStore) (r : UploadRequest) (name key : String)
    (data : SceneData) : Prop where
  carried : r.sceneData = some data
  new : s.scenes.lookup name = none
  listed : s'.scenes = s.scenes.insert name key
  stored : s'.bucket = Function.update s.bucket key (some data)

/-- Answered with 400, the request changes nothing; answered with 201, it adds a
scene. -/
def UploadAtomic (s : SceneStore) (r : UploadRequest) : Prop :=
  match uploadSceneFile s r with
  | (s', .error _) => s' = s
  | (s', .ok scenes) => scenes = s'.scenes ∧ ∃ name key data, AddsScene s s' r name key data

/-- The scene name of the request, `none` where the payload is malformed. -/
def UploadRequest.sceneName (r : UploadRequest) : Option String :=
  r.fields.toOption.map fun fields => fields.2.2

/-- What S3 stores for the request is stored for good. The call succeeds and the
request has the name of a new scene, or else the object under the key is as it was. -/
def StoresForGood (s : SceneStore) (r : UploadRequest) : Prop :=
  ∀ key name, r.storesUnder s = some key → r.sceneName = some name →
    if name ≠ "" ∧ r.outcome.put = .success then s.scenes.lookup name = none
    else s.bucket key = r.sceneData

/-! ### The cases of a request -/

section Requests

variable {s : SceneStore} {r : UploadRequest} {sceneData : SceneData}
  {sceneFileName sceneName key : String}

theorem sceneNameS3_ne_empty (h : sceneName ≠ "") : sceneNameS3 sceneName sceneFileName ≠ "" := by
  unfold sceneNameS3
  rw [if_neg (mt String.isEmpty_iff.mp h)]
  intro hempty
  have hlist := congrArg String.toList hempty
  rw [String.toList_append] at hlist
  exact List.append_ne_nil_of_right_ne_nil _ (by decide) hlist

theorem fields_of_storesUnder (h : r.storesUnder s = some key) :
    ∃ fields, r.fields = .ok fields := by
  unfold UploadRequest.storesUnder at h
  cases hfields : r.fields with
  | error e =>
    rw [hfields] at h
    cases h
  | ok fields => exact ⟨fields, rfl⟩

/-- A request that stores nothing is rejected, and changes nothing. -/
theorem uploadSceneFile_of_storesNothing (h : r.storesUnder s = none) :
    ∃ e, uploadSceneFile s r = (s, .error e) := by
  unfold UploadRequest.storesUnder at h
  unfold uploadSceneFile
  cases hfields : r.fields with
  | error e => exact ⟨e, rfl⟩
  | ok fields =>
    obtain ⟨sceneData, sceneFileName, sceneName⟩ := fields
    rw [hfields] at h
    dsimp only at h ⊢
    split
    · exact ⟨_, rfl⟩
    · next hfree =>
      have hfree : (s.findSceneByKey sceneName).isEmpty = true := by simpa using hfree
      rcases s.uploadScene_spec sceneData (sceneNameS3 sceneName sceneFileName) r.outcome with
        hnot | ⟨hdirectory, hfile, hdata, hput, -⟩
      · rw [hnot]
        exact ⟨_, rfl⟩
      · rw [if_pos] at h
        · cases h
        · simp [hfree, hdirectory, hfile, hdata, hput]

/-- A request that stores its data under a key is one whose upload puts the object. -/
theorem uploadScene_of_storesUnder (hfields : r.fields = .ok (sceneData, sceneFileName, sceneName))
    (h : r.storesUnder s = some key) :
    sceneNameS3 sceneName sceneFileName = key ∧ (s.findSceneByKey sceneName).isEmpty = true ∧
      r.outcome.put ≠ .failed ∧
      s.uploadScene sceneData key r.outcome = s.putObject key sceneData r.outcome.put := by
  unfold UploadRequest.storesUnder at h
  rw [hfields] at h
  dsimp only at h
  obtain ⟨hstores, hkey⟩ := Option.ite_none_right_eq_some.mp h
  simp only [Bool.and_eq_true, decide_eq_true_eq, Bool.not_eq_true'] at hstores
  obtain ⟨⟨⟨⟨hfree, hdirectory⟩, hfile⟩, hdata⟩, hput⟩ := hstores
  refine ⟨Option.some.inj hkey, hfree, hput, ?_⟩
  rw [SceneStore.uploadScene, hdirectory, hfile, hdata]
  rfl

/-- Without a name, or when S3 reports a failure, the request is rejected with its
data stored. -/
theorem uploadSceneFile_of_rejected
    (hfields : r.fields = .ok (sceneData, sceneFileName, sceneName))
    (h : r.storesUnder s = some key) (hnot : ¬ (sceneName ≠ "" ∧ r.outcome.put = .success)) :
    ∃ e, uploadSceneFile s r = (s.setObject key sceneData, .error e) := by
  obtain ⟨rfl, hfree, hput, hupload⟩ := uploadScene_of_storesUnder hfields h
  unfold uploadSceneFile
  rw [hfields]
  dsimp only
  rw [hfree, if_neg Bool.true_eq_false.mp, hupload]
  cases hoc : r.outcome.put with
  | failed => exact absurd hoc hput
  | failedStored => exact ⟨"Failed to upload to S3 bucket", rfl⟩
  | success =>
    have hempty : sceneName = "" := by
      by_contra hname
      exact hnot ⟨hname, hoc⟩
    subst hempty
    exact ⟨"Internal scene list failed to update", rfl⟩

/-- With a name and a key, `addScene` succeeds. -/
theorem SceneStore.addScene_eq (s : SceneStore) (hname : sceneName ≠ "") (hkey : key ≠ "") :
    s.addScene sceneName key =
      let scenes := if sceneName ∈ s.scenes then s.scenes else s.scenes.insert sceneName key
      ({ s with scenes }, true) := by
  have hnonempty : ¬ (sceneName.isEmpty || key.isEmpty) = true := by
    rw [Bool.or_eq_true, String.isEmpty_iff, String.isEmpty_iff, not_or]
    exact ⟨hname, hkey⟩
  unfold addScene
  rw [if_neg hnonempty]
  split
  · rfl
  · rfl

/-- Otherwise it is accepted, and `emplace` enters the scene. -/
theorem uploadSceneFile_of_accepted
    (hfields : r.fields = .ok (sceneData, sceneFileName, sceneName))
    (h : r.storesUnder s = some key) (hname : sceneName ≠ "")
    (hsuccess : r.outcome.put = .success) :
    uploadSceneFile s r =
      let scenes := if sceneName ∈ s.scenes then s.scenes else s.scenes.insert sceneName key
      ({ s.setObject key sceneData with scenes }, .ok scenes) := by
  obtain ⟨rfl, hfree, -, hupload⟩ := uploadScene_of_storesUnder hfields h
  unfold uploadSceneFile
  rw [hfields]
  dsimp only
  rw [hfree, if_neg Bool.true_eq_false.mp, hupload, hsuccess]
  simp only [SceneStore.putObject,
    SceneStore.addScene_eq _ hname (sceneNameS3_ne_empty hname)]
  rfl

/-- The same data put over an object leave the bucket as it is. -/
theorem setObject_eq_self (s : SceneStore) (key : String) (data : SceneData) :
    s.setObject key data = s ↔ s.bucket key = some data := by
  constructor
  · intro h
    rw [← h]
    exact Function.update_self key (some data) s.bucket
  · intro h
    rw [SceneStore.setObject, ← h, Function.update_eq_self]

/-- **An upload is atomic exactly when what S3 stores is stored for good.** -/
theorem upload_atomic : UploadAtomic s r ↔ StoresForGood s r := by
  unfold UploadAtomic StoresForGood
  cases hstores : r.storesUnder s with
  | none =>
    obtain ⟨e, hrejected⟩ := uploadSceneFile_of_storesNothing hstores
    rw [hrejected]
    exact iff_of_true rfl nofun
  | some key =>
    obtain ⟨⟨sceneData, sceneFileName, sceneName⟩, hfields⟩ := fields_of_storesUnder hstores
    have hdata : r.sceneData = some sceneData := by
      rw [UploadRequest.sceneData, hfields]
      rfl
    have hname : r.sceneName = some sceneName := by
      rw [UploadRequest.sceneName, hfields]
      rfl
    have hgood : (∀ key' name, some key = some key' → r.sceneName = some name →
        if name ≠ "" ∧ r.outcome.put = .success then s.scenes.lookup name = none
        else s.bucket key' = r.sceneData) ↔
        if sceneName ≠ "" ∧ r.outcome.put = .success then s.scenes.lookup sceneName = none
        else s.bucket key = some sceneData := by
      rw [hdata, hname]
      constructor
      · exact fun h => h key sceneName rfl rfl
      · rintro h key' name ⟨⟩ ⟨⟩
        exact h
    rw [hgood]
    by_cases haccepted : sceneName ≠ "" ∧ r.outcome.put = .success
    · rw [if_pos haccepted,
        uploadSceneFile_of_accepted hfields hstores haccepted.1 haccepted.2]
      by_cases hlisted : sceneName ∈ s.scenes
      · -- the scene stays as it is, and none is added
        rw [if_pos hlisted, AList.lookup_eq_none]
        refine iff_of_false ?_ (not_not_intro hlisted)
        rintro ⟨-, name, key', data, -, hnew, hinsert, -⟩
        dsimp only at hinsert
        rw [hinsert, Table.lookup_insert', if_pos rfl] at hnew
        cases hnew
      · have hnew := AList.lookup_eq_none.mpr hlisted
        rw [if_neg hlisted]
        exact iff_of_true ⟨rfl, sceneName, key, sceneData, hdata, hnew, rfl, rfl⟩ hnew
    · obtain ⟨e, hrejected⟩ := uploadSceneFile_of_rejected hfields hstores haccepted
      rw [if_neg haccepted, hrejected]
      exact setObject_eq_self s key sceneData

end Requests

/-- A request without a name is rejected, but its data are in the bucket. -/
theorem not_uploadAtomic :
    (uploadSceneFile ⟨∅, fun _ => none⟩ (uploadOf "" [1])).2 =
        .error "Internal scene list failed to update" ∧
      (uploadSceneFile ⟨∅, fun _ => none⟩ (uploadOf "" [1])).1.bucket "scene.gltf" = some [1] ∧
      ¬ UploadAtomic ⟨∅, fun _ => none⟩ (uploadOf "" [1]) := by
  refine ⟨rfl, rfl, fun hatomic => ?_⟩
  have hbucket := congrArg (fun s => s.bucket "scene.gltf") hatomic
  exact absurd hbucket (by decide)

end Pathological
