import Mathlib.Data.Fintype.Basic
import Pathological.Cluster.Worker
import Pathological.Framework.Threads

/-!
# Frames rendered side by side

`RenderJob` handlers that share a working directory, whether they serve one
worker's calls or belong to workers started from one directory, as threads over
the directory's files and the bucket. A handler downloads its scene to
`temp_<key>`, loads that file, writes its image to the output path of its
request, and uploads what is there: both paths are the same for every frame of a
render. The object under each job's key is the image of that job
(`frames_kept`), in a run that leaves each file as it is from the moment a
handler writes it until that handler reads it, and in which every image is
written and uploaded; in general it is not (`not_framesKept`).

`FrameHandler.Faithful` carries it, an assertion about one handler and the
store: what the handler has still to read is what it wrote, and what it has
uploaded is its own image.
-/

namespace Pathological

open Framework

namespace RenderWorker

/-! ### Paths and keys -/

/-- `std::filesystem::path(path).filename()`: what follows the last slash. -/
def filename (path : String) : String :=
  String.ofList (path.toList.reverse.takeWhile (· ≠ '/')).reverse

end RenderWorker

/-- The key `generateScene` downloads. -/
def RenderJobRequest.s3Key (r : RenderJobRequest) : String :=
  RenderWorker.filename r.sceneLocation

/-- Where `generateScene` downloads it to. -/
def RenderJobRequest.localGltfPath (r : RenderJobRequest) : String :=
  "temp_" ++ r.s3Key

namespace RenderWorker

/-! ### The handlers -/

/-- The content of a file or of an object. -/
abbrev Contents := List UInt8

/-- The calls that share a working directory: the request of each, the file of
the directory that a path names, and the PNG that a request and a scene file
give, `none` where loading, building or tracing throws. -/
structure Workplace (ι File : Type) where
  request : ι → RenderJobRequest
  resolve : String → File
  render : RenderJobRequest → Contents → Option Contents

/-- The files of the working directory, and the objects of the bucket. -/
structure Store (File : Type) where
  files : File → Option Contents
  bucket : String → Option Contents

/-- Where a `RenderJob` handler stands, with what it has in memory: the scene it
downloaded, the scene file it loaded, the image it rendered. -/
inductive FrameHandler where
  /-- About to ask for the object. -/
  | getObject
  /-- The response is there, to be written to `localGltfPath`. -/
  | writeFileToPath (scene : Contents)
  /-- The file's size is to be compared with the response's. -/
  | fileSize (scene : Contents)
  | fromGltf (scene : Contents)
  /-- About to render, and to write the image to the output path. -/
  | saveImage (scene loaded : Contents)
  /-- About to remove the scene file. -/
  | cleanUp (scene image : Contents)
  | putObject (scene image : Contents)
  /-- About to remove the output file. -/
  | remove (scene image : Contents)
  /-- Returned OK. -/
  | completed (scene image : Contents)
  /-- Returned INTERNAL. -/
  | failed
  deriving DecidableEq, Repr

/-- How a call that does I/O ends: it does what it is for, it says that it has
not, or it throws. -/
inductive Outcome where
  | success
  | failure
  | exception
  deriving DecidableEq, Repr

section Workplace

variable {ι File : Type} [DecidableEq File] (w : Workplace ι File)

/-- `temp_<key>` of the call `i`. -/
def Workplace.sceneFile (i : ι) : File := w.resolve (w.request i).localGltfPath

/-- The output path of the call `i`. -/
def Workplace.outputFile (i : ι) : File := w.resolve (w.request i).outputName

/-- A file written, or removed. -/
def Store.setFile (st : Store File) (file : File) (content : Option Contents) : Store File :=
  { st with files := Function.update st.files file content }

/-- An object put into the bucket, over the one that is there. -/
def Store.setObject (st : Store File) (key : String) (content : Contents) : Store File :=
  { st with bucket := Function.update st.bucket key (some content) }

/-- A step of a handler whose I/O call returns, with or without success. -/
def Workplace.proceed (i : ι) (st : Store File) (ok : Bool) :
    FrameHandler → Option (Store File × FrameHandler)
  | .getObject =>
    match st.bucket (w.request i).s3Key, ok with
    | some scene, true => some (st, .writeFileToPath scene)
    -- "failed to download scene file from S3"
    | _, _ => some (st, .failed)
  | .writeFileToPath scene =>
    if ok then some (st.setFile (w.sceneFile i) (some scene), .fileSize scene)
    else some (st, .failed)
  | .fileSize scene =>
    match st.files (w.sceneFile i) with
    | some content =>
      if content.length = scene.length then some (st, .fromGltf scene) else some (st, .failed)
    | none => some (st, .failed)
  | .fromGltf scene =>
    match st.files (w.sceneFile i) with
    | some content => some (st, .saveImage scene content)
    | none => some (st, .failed)
  | .saveImage scene loaded =>
    match w.render (w.request i) loaded with
    -- the result of `stbi_write_png` is not looked at
    | some image =>
      some (if ok then st.setFile (w.outputFile i) (some image) else st, .cleanUp scene image)
    | none => some (st, .failed)
  -- a file that is not there need not be removed, a removal that fails throws
  | .cleanUp scene image =>
    if ok then some (st.setFile (w.sceneFile i) none, .putObject scene image)
    else some (st, .failed)
  | .putObject scene image =>
    -- nor is that of `putObject`; without a file to read the request has no body
    let body := (st.files (w.outputFile i)).getD []
    some (if ok then st.setObject (w.request i).jobName body else st, .remove scene image)
  | .remove scene image =>
    if ok then some (st.setFile (w.outputFile i) none, .completed scene image)
    else some (st, .failed)
  | .completed _ _ | .failed => none

/-- A step of a handler. Whatever is thrown ends in its catch branch. -/
def Workplace.step (i : ι) (st : Store File) (h : FrameHandler) :
    Outcome → Option (Store File × FrameHandler)
  | .success => w.proceed i st true h
  | .failure => w.proceed i st false h
  | .exception =>
    match h with
    | .completed _ _ | .failed => none
    | _ => some (st, .failed)

/-- The keys nobody renders to, where scenes are put. -/
def Workplace.SceneKey : Type := { key : String // ∀ i, (w.request i).jobName ≠ key }

/-- The handlers over the directory and the bucket they find. From outside,
scenes are put into the bucket. -/
def Workplace.handlers (st : Store File) :
    Threads ι (Store File) FrameHandler Outcome (w.SceneKey × Contents) where
  shared := st
  start _ := .getObject
  step := w.step
  outside st put := some (st.setObject put.1.val put.2)

/-! ### What is claimed, and when it holds -/

/-- The object under the job's key is the image that job rendered, from the scene
it downloaded. -/
def Workplace.ObjectKept (st : Store File) (i : ι) (scene image : Contents) : Prop :=
  w.render (w.request i) scene = some image ∧ st.bucket (w.request i).jobName = some image

omit [DecidableEq File] in
/-- After any two handlers succeed, the object of each is kept. -/
def Workplace.FramesKept (s : Threads.Config ι (Store File) FrameHandler) : Prop :=
  ∀ i j, i ≠ j → ∀ scene image scene' image', s.thread i = .completed scene image →
    s.thread j = .completed scene' image' →
    w.ObjectKept s.shared i scene image ∧ w.ObjectKept s.shared j scene' image'

/-- The file a handler has written and has still to read. -/
def Workplace.toRead (i : ι) : FrameHandler → Option File
  | .fileSize _ | .fromGltf _ => some (w.sceneFile i)
  | .cleanUp _ _ | .putObject _ _ => some (w.outputFile i)
  | _ => none

/-- The file a handler is about to write, with its new content, `none` where it
removes the file. -/
def Workplace.toWrite (i : ι) : FrameHandler → Option (File × Option Contents)
  | .writeFileToPath scene => some (w.sceneFile i, some scene)
  | .saveImage _ loaded =>
    (w.render (w.request i) loaded).map fun image => (w.outputFile i, some image)
  | .cleanUp _ _ => some (w.sceneFile i, none)
  | .remove _ _ => some (w.outputFile i, none)
  | _ => none

/-- The I/O whose result the handler does not look at. -/
def FrameHandler.unchecked : FrameHandler → Bool
  | .saveImage _ _ | .putObject _ _ => true
  | _ => false

/-- No step changes a file that a handler has written and has still to read, and
no image fails to be written or uploaded. -/
def Workplace.Undisturbed (s : Threads.Config ι (Store File) FrameHandler) :
    Threads.Turn ι Outcome (w.SceneKey × Contents) → Prop
  | .thread i .success => ∀ write ∈ w.toWrite i (s.thread i), ∀ j,
      w.toRead j (s.thread j) = some write.1 → s.shared.files write.1 = write.2
  | .thread i .failure => (s.thread i).unchecked = false
  | _ => True

/-! ### Frames do not mix -/

variable {w} {st st' : Store File} {h h' : FrameHandler} {i j : ι} {o : Outcome}

theorem Store.setFile_self (file : File) (content : Option Contents) :
    (st.setFile file content).files file = content := Function.update_self _ _ _

omit [DecidableEq File] in
theorem Store.setObject_self (key : String) (content : Contents) :
    (st.setObject key content).bucket key = some content := Function.update_self _ _ _

omit [DecidableEq File] in
theorem Store.setObject_of_ne {key key' : String} (content : Contents) (hne : key' ≠ key) :
    (st.setObject key content).bucket key' = st.bucket key' := Function.update_of_ne hne _ _

/-- A file that was to be left as it is and has been written is as it was. -/
theorem Store.setFile_kept {file file' : File} {content : Option Contents}
    (h : file' = file → st.files file = content) :
    (st.setFile file content).files file' = st.files file' := by
  by_cases heq : file' = file
  · rw [heq, Store.setFile_self, h heq]
  · exact Function.update_of_ne heq _ _

/-- What is true of a handler that nobody disturbs: the file it has still to read
is the one it wrote, it has loaded what it downloaded, and its object is the image
it rendered. -/
def FrameHandler.Faithful (w : Workplace ι File) (i : ι) (st : Store File) : FrameHandler → Prop
  | .fileSize scene | .fromGltf scene => st.files (w.sceneFile i) = some scene
  | .saveImage scene loaded => loaded = scene
  | .cleanUp scene image | .putObject scene image =>
    w.render (w.request i) scene = some image ∧ st.files (w.outputFile i) = some image
  | .remove scene image | .completed scene image => w.ObjectKept st i scene image
  | .getObject | .writeFileToPath _ | .failed => True

omit [DecidableEq File] in
/-- The assertion is about the file the handler has still to read, and the object
under its key. -/
theorem FrameHandler.Faithful.of_store (hfaith : h.Faithful w i st)
    (hfiles : ∀ file, w.toRead i h = some file → st'.files file = st.files file)
    (hbucket : st'.bucket (w.request i).jobName = st.bucket (w.request i).jobName) :
    h.Faithful w i st' := by
  cases h with
  | fileSize scene => exact (hfiles _ rfl).trans hfaith
  | fromGltf scene => exact (hfiles _ rfl).trans hfaith
  | cleanUp scene image => exact ⟨hfaith.1, (hfiles _ rfl).trans hfaith.2⟩
  | putObject scene image => exact ⟨hfaith.1, (hfiles _ rfl).trans hfaith.2⟩
  | remove scene image => exact ⟨hfaith.1, hbucket.trans hfaith.2⟩
  | completed scene image => exact ⟨hfaith.1, hbucket.trans hfaith.2⟩
  | saveImage scene loaded => exact hfaith
  | getObject => trivial
  | writeFileToPath scene => trivial
  | failed => trivial

/-- The steps of a handler, one constructor for each way a call goes on. -/
inductive Workplace.Step (w : Workplace ι File) (i : ι) (st : Store File) :
    FrameHandler → Outcome → Store File → FrameHandler → Prop where
  | fails {h : FrameHandler} {o : Outcome} : w.Step i st h o st .failed
  | getObject {scene : Contents} (hobj : st.bucket (w.request i).s3Key = some scene) :
      w.Step i st .getObject .success st (.writeFileToPath scene)
  | writeFileToPath {scene : Contents} :
      w.Step i st (.writeFileToPath scene) .success (st.setFile (w.sceneFile i) (some scene))
        (.fileSize scene)
  | fileSize {scene : Contents} {o : Outcome} : w.Step i st (.fileSize scene) o st (.fromGltf scene)
  | fromGltf {scene content : Contents} {o : Outcome}
      (hfile : st.files (w.sceneFile i) = some content) :
      w.Step i st (.fromGltf scene) o st (.saveImage scene content)
  | saveImage {scene loaded image : Contents}
      (hrender : w.render (w.request i) loaded = some image) :
      w.Step i st (.saveImage scene loaded) .success (st.setFile (w.outputFile i) (some image))
        (.cleanUp scene image)
  | saveImageUnwritten {scene loaded image : Contents} :
      w.Step i st (.saveImage scene loaded) .failure st (.cleanUp scene image)
  | cleanUp {scene image : Contents} :
      w.Step i st (.cleanUp scene image) .success (st.setFile (w.sceneFile i) none)
        (.putObject scene image)
  | putObject {scene image : Contents} :
      w.Step i st (.putObject scene image) .success
        (st.setObject (w.request i).jobName ((st.files (w.outputFile i)).getD []))
        (.remove scene image)
  | putObjectLost {scene image : Contents} :
      w.Step i st (.putObject scene image) .failure st (.remove scene image)
  | remove {scene image : Contents} :
      w.Step i st (.remove scene image) .success (st.setFile (w.outputFile i) none)
        (.completed scene image)

/-- A step whose call returns is one of those. -/
theorem Workplace.Step.of_proceed {ok : Bool}
    (hs : w.proceed i st ok h = some (st', h')) :
    w.Step i st h (if ok then .success else .failure) st' h' := by
  cases h <;> simp only [Workplace.proceed] at hs
  case getObject =>
    split at hs
    · next scene hobj =>
      obtain ⟨rfl, rfl⟩ := Prod.mk.inj (Option.some.inj hs)
      exact .getObject hobj
    · obtain ⟨rfl, rfl⟩ := Prod.mk.inj (Option.some.inj hs)
      exact .fails
  case fileSize scene =>
    split at hs
    · split at hs
      · obtain ⟨rfl, rfl⟩ := Prod.mk.inj (Option.some.inj hs)
        exact .fileSize
      · obtain ⟨rfl, rfl⟩ := Prod.mk.inj (Option.some.inj hs)
        exact .fails
    · obtain ⟨rfl, rfl⟩ := Prod.mk.inj (Option.some.inj hs)
      exact .fails
  case fromGltf scene =>
    split at hs
    · next content hfile =>
      obtain ⟨rfl, rfl⟩ := Prod.mk.inj (Option.some.inj hs)
      exact .fromGltf hfile
    · obtain ⟨rfl, rfl⟩ := Prod.mk.inj (Option.some.inj hs)
      exact .fails
  case saveImage scene loaded =>
    split at hs
    · next image hrender =>
      obtain ⟨rfl, rfl⟩ := Prod.mk.inj (Option.some.inj hs)
      cases ok with
      | true => exact .saveImage hrender
      | false => exact .saveImageUnwritten
    · obtain ⟨rfl, rfl⟩ := Prod.mk.inj (Option.some.inj hs)
      exact .fails
  case putObject scene image =>
    obtain ⟨rfl, rfl⟩ := Prod.mk.inj (Option.some.inj hs)
    cases ok with
    | true => exact .putObject
    | false => exact .putObjectLost
  case completed => cases hs
  case failed => cases hs
  -- what is left writes or removes a file, or fails
  all_goals
    cases ok with
    | true =>
      obtain ⟨rfl, rfl⟩ := Prod.mk.inj (Option.some.inj hs)
      constructor
    | false =>
      obtain ⟨rfl, rfl⟩ := Prod.mk.inj (Option.some.inj hs)
      exact .fails

theorem Workplace.Step.of_step (hs : w.step i st h o = some (st', h')) :
    w.Step i st h o st' h' := by
  cases o with
  | success =>
    have hs : w.proceed i st true h = some (st', h') := hs
    exact of_proceed hs
  | failure =>
    have hs : w.proceed i st false h = some (st', h') := hs
    exact of_proceed hs
  | exception =>
    simp only [Workplace.step] at hs
    split at hs
    · cases hs
    · cases hs
    · obtain ⟨rfl, rfl⟩ := Prod.mk.inj (Option.some.inj hs)
      exact .fails

/-- Where the handler stands among the steps of `RenderCall.step`, which takes
`generateScene` as one. -/
def FrameHandler.pc : FrameHandler → HandlerPc
  | .getObject | .writeFileToPath _ | .fileSize _ | .fromGltf _ | .saveImage _ _ | .cleanUp _ _ =>
    .generateScene
  | .putObject _ _ => .putObject
  | .remove _ _ => .remove
  | .completed _ _ => .updateJobStatus true
  | .failed => .updateJobStatus false

/-- A step here is a step of the handler as the scheduler's side sees it, or one
inside `generateScene`. -/
theorem Workplace.Step.refines {c : RenderCall} (hs : w.Step i st h o st' h')
    (hc : c.pc = h.pc) : h'.pc = h.pc ∨ ∃ e c', c.step e = some c' ∧ c'.pc = h'.pc := by
  cases hs with
  | fails =>
    by_cases htry : c.pc.inTry = true
    · exact Or.inr ⟨.throw, _, if_pos htry, rfl⟩
    · rw [hc] at htry
      -- the one handler outside its try block has failed already
      cases h with
      | failed => exact Or.inl rfl
      | _ => exact absurd rfl htry
  | cleanUp => exact Or.inr ⟨.generateScene, _, if_pos hc, rfl⟩
  | putObject => exact Or.inr ⟨.putObject true, _, if_pos hc, rfl⟩
  | putObjectLost => exact Or.inr ⟨.putObject false, _, if_pos hc, rfl⟩
  | remove => exact Or.inr ⟨.remove, _, if_pos hc, rfl⟩
  | _ => exact Or.inl rfl

/-- What a step does to the store: nothing, the one write that `toWrite`
announces, or an upload under the handler's own key. -/
theorem Workplace.Step.store (hs : w.Step i st h o st' h') :
    st' = st ∨
      (o = .success ∧ ∃ write ∈ w.toWrite i h, st' = st.setFile write.1 write.2) ∨
      ∃ body, st' = st.setObject (w.request i).jobName body := by
  cases hs with
  | writeFileToPath => exact Or.inr (Or.inl ⟨rfl, _, rfl, rfl⟩)
  | saveImage hrender =>
    exact Or.inr (Or.inl ⟨rfl, _, Option.map_eq_some_iff.mpr ⟨_, hrender, rfl⟩, rfl⟩)
  | cleanUp => exact Or.inr (Or.inl ⟨rfl, _, rfl, rfl⟩)
  | remove => exact Or.inr (Or.inl ⟨rfl, _, rfl, rfl⟩)
  | putObject => exact Or.inr (Or.inr ⟨_, rfl⟩)
  | _ => exact Or.inl rfl

/-- A handler's own step keeps its assertion: it reads what it wrote, it uploads
the image it rendered, and it removes its scene file without removing the image. -/
theorem FrameHandler.Faithful.step (hfaith : h.Faithful w i st) (hs : w.Step i st h o st' h')
    (hwrite : o = .success → ∀ write ∈ w.toWrite i h, w.toRead i h = some write.1 →
      st.files write.1 = write.2)
    (hio : o = .failure → h.unchecked = false) : h'.Faithful w i st' := by
  cases hs with
  | fails => trivial
  | getObject hobj => trivial
  | writeFileToPath => exact Store.setFile_self _ _
  | fileSize => exact hfaith
  | fromGltf hfile => exact Option.some.inj (hfile.symm.trans hfaith)
  | saveImage hrender =>
    obtain rfl := hfaith
    exact ⟨hrender, Store.setFile_self _ _⟩
  | saveImageUnwritten => exact absurd (hio rfl) nofun
  | cleanUp =>
    refine ⟨hfaith.1, ?_⟩
    rw [Store.setFile_kept fun heq => hwrite rfl _ rfl (congrArg some heq)]
    exact hfaith.2
  | putObject =>
    refine ⟨hfaith.1, ?_⟩
    rw [Store.setObject_self, hfaith.2, Option.getD_some]
  | putObjectLost => exact absurd (hio rfl) nofun
  | remove => exact hfaith

/-- Another handler's step keeps it, when that leaves the file to be read as it is
and uploads under another key. -/
theorem FrameHandler.Faithful.step_other {hj : FrameHandler} (hfaith : hj.Faithful w j st)
    (hs : w.Step i st h o st' h') (hkey : (w.request j).jobName ≠ (w.request i).jobName)
    (hwrite : o = .success → ∀ write ∈ w.toWrite i h, w.toRead j hj = some write.1 →
      st.files write.1 = write.2) : hj.Faithful w j st' := by
  rcases hs.store with rfl | ⟨ho, write, hmem, rfl⟩ | ⟨body, rfl⟩
  · exact hfaith
  · refine hfaith.of_store (fun file hread => ?_) rfl
    refine Store.setFile_kept fun heq => hwrite ho write hmem ?_
    rw [hread, heq]
  · exact hfaith.of_store (fun _ _ => rfl) (Store.setObject_of_ne _ hkey)

variable [DecidableEq ι] {s : Threads.Config ι (Store File) FrameHandler}
  {tr : List (Threads.Turn ι Outcome (w.SceneKey × Contents))}

/-- Throughout an undisturbed run, the assertion holds of every handler. -/
theorem Workplace.faithful_of_run
    (hkeys : ∀ i j, i ≠ j → (w.request i).jobName ≠ (w.request j).jobName)
    (hrun : (w.handlers st).system.Run (fun _ => w.Undisturbed) tr s) (i : ι) :
    (s.thread i).Faithful w i s.shared := by
  refine Threads.Run.threads_invariant (T := w.handlers st) (FrameHandler.Faithful w)
    (fun _ => trivial) ?_ ?_ ?_ hrun i
  · intro tr s i o st' h' hall hC hs
    refine (hall i).step (.of_step hs) ?_ ?_
    · rintro rfl write hmem hread
      exact hC write hmem i hread
    · rintro rfl
      exact hC
  · intro tr s i j o st' h' hall hji hC hs
    refine (hall j).step_other (.of_step hs) (hkeys j i hji) ?_
    rintro rfl write hmem hread
    exact hC write hmem j hread
  · intro tr s j put st' hall hC hs
    -- scenes are put under keys of their own
    obtain rfl := Option.some.inj hs
    exact (hall j).of_store (fun _ _ => rfl) (Store.setObject_of_ne _ (put.1.property j))

/-- **Frames rendered side by side do not mix**, in every undisturbed run. -/
theorem frames_kept (w : Workplace ι File)
    (hkeys : ∀ i j, i ≠ j → (w.request i).jobName ≠ (w.request j).jobName) {st : Store File}
    {tr : List (Threads.Turn ι Outcome (w.SceneKey × Contents))}
    {s : Threads.Config ι (Store File) FrameHandler}
    (hrun : (w.handlers st).system.Run (fun _ => w.Undisturbed) tr s) : w.FramesKept s := by
  have hkept : ∀ i scene image, s.thread i = .completed scene image →
      w.ObjectKept s.shared i scene image := by
    intro i scene image hpc
    have hfaith := Workplace.faithful_of_run hkeys hrun i
    rwa [hpc] at hfaith
  intro i j _ scene image scene' image' hi hj
  exact ⟨hkept i scene image hi, hkept j scene' image' hj⟩

instance Workplace.decidableUndisturbed [Fintype ι] :
    ∀ l, Decidable (w.Undisturbed s l)
  | .thread i .success => inferInstanceAs (Decidable (∀ write ∈ w.toWrite i (s.thread i),
      ∀ j, w.toRead j (s.thread j) = some write.1 → s.shared.files write.1 = write.2))
  | .thread i .failure => inferInstanceAs (Decidable ((s.thread i).unchecked = false))
  | .thread _ .exception => isTrue trivial
  | .outside _ => isTrue trivial

end Workplace

/-! ### Two frames of one render -/

/-- The first two frames of a render; the image tells the time it shows. -/
def twoFrames : Workplace (Fin 2) String where
  request i :=
    { sceneLocation := "scene.glb", outputName := "out", width := 64, height := 64, samples := 1,
      time := ⟨i, 24⟩, jobId := "job_" ++ toString i, frameIndex := i }
  resolve := id
  render r scene := some (scene ++ [UInt8.ofNat r.time.num])

/-- An empty directory, and the scene in the bucket. -/
def sceneUploaded : Store String where
  files _ := none
  bucket key := if key = "scene.glb" then some [7] else none

/-- The handlers move in this order, and all goes well. -/
def inOrder (is : List (Fin 2)) :
    List (Threads.Turn (Fin 2) Outcome (twoFrames.SceneKey × Contents)) :=
  is.map fun i => .thread i .success

/-- One frame after the other: each object is the image of its own frame. -/
theorem frames_kept_inTurn :
    ∃ s, (twoFrames.handlers sceneUploaded).system.Reaches
        (inOrder (List.replicate 8 0 ++ List.replicate 8 1)) s ∧
      s.thread 0 = .completed [7] [7, 0] ∧ s.thread 1 = .completed [7] [7, 1] ∧
      twoFrames.FramesKept s := by
  have hkeys : ∀ i j, i ≠ j → (twoFrames.request i).jobName ≠ (twoFrames.request j).jobName := by
    decide
  have hrun : ((twoFrames.handlers sceneUploaded).system.restrict twoFrames.Undisturbed).Reaches
      (inOrder (List.replicate 8 0 ++ List.replicate 8 1)) _ := .after (by decide)
  exact ⟨_, hrun.of_restrict.reaches, by decide, by decide,
    frames_kept twoFrames hkeys hrun.of_restrict⟩

/-- Side by side, the second frame's image is written over the first's before that
is uploaded, and both objects are the second frame's. -/
theorem not_framesKept :
    ∃ tr s, (twoFrames.handlers sceneUploaded).system.Reaches tr s ∧ ¬ twoFrames.FramesKept s := by
  refine ⟨inOrder [0, 0, 0, 0, 0, 1, 1, 1, 1, 1, 0, 0, 1, 1, 0, 1], _,
    .after (by decide), fun h => ?_⟩
  have h0 := (h 0 1 (by decide) [7] [7, 0] [7] [7, 1] (by decide) (by decide)).1
  exact absurd h0.2 (by decide)

end RenderWorker

end Pathological
