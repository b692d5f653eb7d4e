import Mathlib
import Pathological.RenderWorker.SharedFiles

/-!
# What a frame leaves behind

`RenderJob` with `generateScene`, and every way in which the calls they make can reply or
throw. The scene is downloaded to `temp_<key>` inside `generateScene`, the image is written
there too and removed in `RenderJob`; both removals are statements after the ones that can
throw, and the catch branches remove nothing. So a frame leaves nothing exactly when it
fails before the scene file is created, or comes past the removal of the scene file and does
not throw in the upload (`leaves_nothing_iff`). `JobCompleted` is sent once on every path.
-/

namespace Pathological.RenderWorker

open Std.Do

set_option mvcgen.warning false

/-! ### The calls a frame makes -/

/-- What a handler has changed: the files of its working directory, its job's entry, the
`JobCompleted` calls it has sent. -/
structure Local (File : Type) where
  files : File → Option Contents
  status : JobStatus
  reports : ℕ
  /-- It has written its image. The handler itself does not remember this. -/
  saved : Bool

/-- How the calls of a frame reply. One that throws gives the text of the exception; an
exception between two calls counts as the second one's. -/
structure Replies where
  /-- The constructor of `S3Manager`. -/
  s3Manager : Except String Unit
  /-- The response to `GetObject`, the body and the `Content-Length`, none for an error. -/
  getObject : Except String (Option (Contents × ℤ))
  /-- `is_open` of the file the response is written to. -/
  isOpen : Bool
  /-- What writing the body leaves in the file, and `good` of the stream. -/
  write : Contents → Contents × Bool
  fileSize : Except String Unit
  vulkanContext : Except String Unit
  fromGltf : Except String Unit
  updateAnimation : Except String Unit
  build : Except String Unit
  pathTracer : Except String Unit
  render : Except String Unit
  /-- What `stbi_write_png` leaves in the file, none where it cannot open it. -/
  saveImage : Except String (Option Contents)
  waitIdle : Except String Unit
  putObject : Except String Bool

/-- The status `RenderJob` returns. -/
inductive GrpcStatus where
  | ok
  | internal (message : String)
  deriving DecidableEq, Repr

/-- A call of `RenderJob`: its request, the file of the working directory that a path names,
and the replies. -/
structure FrameCall (File : Type) where
  request : RenderJobRequest
  resolve : String → File
  replies : Replies

/-- The code of a handler, which can throw. -/
abbrev Handler (File : Type) := ExceptT String (StateM (Local File))

section Code

variable {File : Type} [DecidableEq File]

def reply {α : Type} (r : Except String α) : Handler File α :=
  match r with
  | .ok a => pure a
  | .error e => throw e

/-- The local state with a file written, or removed. -/
def Local.setFile (st : Local File) (file : File) (content : Option Contents) : Local File :=
  { st with files := Function.update st.files file content }

namespace FrameCall

variable (c : FrameCall File)

/-- `temp_<key>`. -/
def sceneFile : File := c.resolve c.request.localGltfPath

/-- The output path. -/
def outputFile : File := c.resolve c.request.outputName

/-! ### `s3_manager.cpp` -/

def fileSize (file : File) : Handler File ℤ := do
  reply c.replies.fileSize
  match (← get).files file with
  | some content => return content.length
  | none => throw "file_size: No such file or directory"

def writeFileToPath (file : File) (body : Contents) (expectedLen : ℤ) : Handler File Bool := do
  if c.replies.isOpen = false then
    return false
  -- opening creates the file, or empties it
  modify fun st => st.setFile file (some (c.replies.write body).1)
  if (c.replies.write body).2 = false then
    return false
  if 0 ≤ expectedLen then
    let actualLen ← c.fileSize file
    if actualLen ≠ expectedLen then
      return false
  return true

def getObject (localFile : File) : Handler File Bool := do
  match ← reply c.replies.getObject with
  | none => return false
  | some (body, objectLen) => c.writeFileToPath localFile body objectLen

/-! ### `render_worker.cpp` -/

/-- `PathTracer::saveImage`. -/
def saveImage : Handler File Unit := do
  match ← reply c.replies.saveImage with
  | some image => modify fun st => { st.setFile c.outputFile (some image) with saved := true }
  -- the result of `stbi_write_png` is not looked at
  | none => return

/-- The block of `generateScene` that has the `VulkanContext`. -/
def traceScene : Handler File Unit := do
  reply c.replies.vulkanContext
  reply c.replies.fromGltf
  reply c.replies.updateAnimation
  reply c.replies.build
  reply c.replies.pathTracer
  reply c.replies.render
  c.saveImage
  reply c.replies.waitIdle

/-- `generateScene`; its own catch branch throws again. -/
def generateScene : Handler File Unit := do
  reply c.replies.s3Manager
  if (← c.getObject c.sceneFile) = false then
    throw ("failed to download scene file from S3: " ++ c.request.s3Key)
  c.traceScene
  -- removed where it exists
  modify fun st => st.setFile c.sceneFile none

/-! ### `render_server.cpp` -/

/-- `UpdateJobStatus` and `JobCompleted`, which logs the outcome of its call. -/
def report (status : JobStatus) : Handler File Unit :=
  modify fun st => { st with status, reports := st.reports + 1 }

/-- `RenderJob`, after the job has been added. -/
def renderJob : Handler File GrpcStatus := do
  try
    c.generateScene
    -- whether the upload succeeded is not looked at
    let _ ← reply c.replies.putObject
    modify fun st => st.setFile c.outputFile none
    report .completed
    pure .ok
  catch message =>
    report .error
    pure (.internal message)

end FrameCall

end Code

/-! ### What is claimed, and when it holds -/

section Claim

variable {File : Type} [DecidableEq File]

/-- A handler that has added its job, in the directory it finds. -/
def Local.start (files : File → Option Contents) : Local File where
  files := files
  status := .inProgress
  reports := 0
  saved := false

namespace FrameCall

variable (c : FrameCall File)

/-- What the handler returns, and what it leaves behind. -/
def returned (files : File → Option Contents) : Except String GrpcStatus × Local File :=
  c.renderJob.run.run (.start files)

/-- **A frame leaves no local files**: when the handler has returned, the scene file is not
there, nor is the image if it has been written, and one `JobCompleted` has been sent. -/
structure LeavesNothing (result : Except String GrpcStatus × Local File) : Prop where
  returned : ∃ status, result.1 = .ok status
  sceneFile : result.2.files c.sceneFile = none
  image : result.2.saved = true → result.2.files c.outputFile = none
  reported : result.2.reports = 1

omit [DecidableEq File] in
/-- The handler returns, after it has sent one `JobCompleted` for the status it returns. -/
structure Reported (result : Except String GrpcStatus × Local File) : Prop where
  returned : ∃ status, result.1 = .ok status ∧ (status = .ok ↔ result.2.status = .completed)
  reported : result.2.reports = 1

/-- The download comes to write the scene file. -/
def Opened : Prop :=
  (∃ body len, c.replies.getObject = .ok (some (body, len))) ∧ c.replies.isOpen = true

/-- The body is written, and has the length it should have. -/
def Stored (body : Contents) (len : ℤ) : Prop :=
  (c.replies.write body).2 = true ∧ (0 ≤ len → c.replies.fileSize = .ok () ∧
    ((c.replies.write body).1.length : ℤ) = len)

/-- `getObject` returns true. -/
def Downloaded : Prop :=
  (∃ body len, c.replies.getObject = .ok (some (body, len)) ∧ c.Stored body len) ∧
    c.replies.isOpen = true

/-- The frame creates its scene file. -/
def Created : Prop := c.replies.s3Manager = .ok () ∧ c.Opened

/-- Nothing throws while there is a `VulkanContext`. -/
def Traced : Prop :=
  c.replies.vulkanContext = .ok () ∧ c.replies.fromGltf = .ok () ∧
    c.replies.updateAnimation = .ok () ∧ c.replies.build = .ok () ∧
    c.replies.pathTracer = .ok () ∧ c.replies.render = .ok () ∧
    (∃ image, c.replies.saveImage = .ok image) ∧ c.replies.waitIdle = .ok ()

/-- Nothing throws before the scene file is removed. -/
def Rendered : Prop := c.replies.s3Manager = .ok () ∧ c.Downloaded ∧ c.Traced

/-- The frame fails before it creates its scene file, where none was there; or it removes
the file, and comes to remove the image unless there is none, or the two are one file. -/
def CleansUp (files : File → Option Contents) : Prop :=
  (¬ c.Created ∧ files c.sceneFile = none) ∨
    (c.Rendered ∧ ((∃ uploaded, c.replies.putObject = .ok uploaded) ∨
      c.replies.saveImage = .ok none ∨ c.sceneFile = c.outputFile))

end FrameCall

/-! ### Each function, on each of its exits -/

omit [DecidableEq File] in
/-- A run of a handler from a state ends as its triple says. -/
theorem Handler.of_triple {α : Type} {x : Handler File α} {st : Local File}
    {Q : Except String α × Local File → Prop}
    (h : ⦃fun s => ⌜s = st⌝⦄ x
      ⦃post⟨fun a s => ⌜Q (.ok a, s)⌝, fun e s => ⌜Q (.error e, s)⌝⟩⦄) :
    Q (x.run.run st) := by
  have hwp := h st rfl
  apply StateM.of_wp_run_eq rfl Q
  rw [WP.ExceptT_run]
  exact fun _ => hwp

namespace Local

/-- The file is there, and nothing else has changed. -/
def Leaves (st s : Local File) (file : File) : Prop :=
  ∃ content, s = st.setFile file (some content)

/-- The state with the image written, if it has been. -/
def saveImage (st : Local File) (c : FrameCall File) : Option Contents → Local File
  | some image => { st.setFile c.outputFile (some image) with saved := true }
  | none => st

variable {c : FrameCall File} {st s : Local File} {file : File}

@[simp] theorem setFile_self (st : Local File) (file : File) (content : Option Contents) :
    (st.setFile file content).files file = content := Function.update_self _ _ _

@[simp] theorem setFile_reports (st : Local File) (file : File) (content : Option Contents) :
    (st.setFile file content).reports = st.reports := rfl

@[simp] theorem setFile_saved (st : Local File) (file : File) (content : Option Contents) :
    (st.setFile file content).saved = st.saved := rfl

theorem setFile_eq_none {file' : File} (h : st.files file = none) :
    (st.setFile file' none).files file = none := by
  by_cases hfile : file = file'
  · rw [hfile, setFile_self]
  · exact (Function.update_of_ne hfile _ _).trans h

@[simp] theorem leaves_setFile (st : Local File) (file : File) (content : Contents) :
    st.Leaves (st.setFile file (some content)) file := ⟨content, rfl⟩

theorem Leaves.reports_eq (h : st.Leaves s file) : s.reports = st.reports := by
  obtain ⟨content, rfl⟩ := h
  rfl

theorem Leaves.saved_eq (h : st.Leaves s file) : s.saved = st.saved := by
  obtain ⟨content, rfl⟩ := h
  rfl

theorem Leaves.files_ne_none (h : st.Leaves s file) : s.files file ≠ none := by
  obtain ⟨content, rfl⟩ := h
  simp

@[simp] theorem saveImage_reports (st : Local File) (image : Option Contents) :
    (st.saveImage c image).reports = st.reports := by
  cases image <;> rfl

@[simp] theorem saveImage_none (st : Local File) : st.saveImage c none = st := rfl

@[simp] theorem saveImage_some_saved (st : Local File) (image : Contents) :
    (st.saveImage c (some image)).saved = true := rfl

/-- Nothing that is written removes a file. -/
theorem saveImage_files_ne_none (h : st.files file ≠ none) (image : Option Contents) :
    (st.saveImage c image).files file ≠ none := by
  cases image with
  | none => exact h
  | some image =>
    by_cases hfile : file = c.outputFile
    · rw [hfile]
      simp [saveImage]
    · simpa [saveImage, setFile, hfile] using h

end Local

variable {c : FrameCall File} {st : Local File}

namespace FrameCall

omit [DecidableEq File] in
@[spec] theorem fileSize_spec (file : File) :
    ⦃fun s => ⌜s = st⌝⦄ c.fileSize file
    ⦃post⟨fun size s => ⌜s = st ∧ c.replies.fileSize = .ok () ∧
        ∃ content, st.files file = some content ∧ size = content.length⌝,
      fun _ s => ⌜s = st ∧ (c.replies.fileSize = .ok () → st.files file = none)⌝⟩⦄ := by
  mvcgen [fileSize, reply]
  all_goals simp_all

@[spec] theorem writeFileToPath_spec (file : File) (body : Contents) (len : ℤ) :
    ⦃fun s => ⌜s = st⌝⦄ c.writeFileToPath file body len
    ⦃post⟨fun ok s => ⌜(c.replies.isOpen = false ∧ ok = false ∧ s = st) ∨
        (c.replies.isOpen = true ∧ st.Leaves s file ∧ (ok = true ↔ c.Stored body len))⌝,
      fun _ s => ⌜c.replies.isOpen = true ∧ st.Leaves s file ∧ ¬ c.Stored body len⌝⟩⦄ := by
  mvcgen [writeFileToPath]
  -- not opened; not written; two lengths, one length; no length; none asked for
  all_goals simp_all +zetaDelta [Stored]

@[spec] theorem getObject_spec (file : File) :
    ⦃fun s => ⌜s = st⌝⦄ c.getObject file
    ⦃post⟨fun ok s => ⌜(¬ c.Opened ∧ ok = false ∧ s = st) ∨
        (c.Opened ∧ st.Leaves s file ∧ (ok = true ↔ c.Downloaded))⌝,
      fun _ s => ⌜(¬ c.Opened ∧ s = st) ∨ (c.Opened ∧ st.Leaves s file ∧ ¬ c.Downloaded)⌝⟩⦄ := by
  mvcgen [getObject, reply]
  case vc2.h_1.h_2.post.success =>
    rintro (⟨hclosed, hok, hs⟩ | ⟨hopen, hs, hok⟩)
    · simp_all [Opened]
    · simp_all [Opened, Downloaded]
  all_goals simp_all [Opened, Downloaded]

@[spec] theorem saveImage_spec :
    ⦃fun s => ⌜s = st⌝⦄ c.saveImage
    ⦃post⟨fun _ s => ⌜∃ image, c.replies.saveImage = .ok image ∧ s = st.saveImage c image⌝,
      fun _ s => ⌜s = st ∧ ∀ image, c.replies.saveImage ≠ .ok image⌝⟩⦄ := by
  mvcgen [saveImage, reply]
  all_goals simp_all +zetaDelta [Local.saveImage]

@[spec] theorem traceScene_spec :
    ⦃fun s => ⌜s = st⌝⦄ c.traceScene
    ⦃post⟨fun _ s => ⌜c.Traced ∧ ∃ image, c.replies.saveImage = .ok image ∧
        s = st.saveImage c image⌝,
      fun _ s => ⌜¬ c.Traced ∧ ∃ image, s = st.saveImage c image⌝⟩⦄ := by
  mvcgen [traceScene, reply]
  case vc1 hwait _ hsaved =>
    obtain ⟨image, himage, rfl⟩ := hsaved
    exact ⟨by simp_all [Traced], image, himage, by simp_all⟩
  case vc2 hwait _ hsaved =>
    obtain ⟨image, himage, rfl⟩ := hsaved
    exact ⟨by simp_all [Traced], image, by simp_all⟩
  case vc3 =>
    intro hs hthrown
    exact ⟨by simp_all [Traced], none, hs.trans ‹_›⟩
  -- before the image is saved
  all_goals exact ⟨by simp_all [Traced], none, ‹_›⟩

omit [DecidableEq File] in
theorem Downloaded.opened (h : c.Downloaded) : c.Opened := by
  obtain ⟨⟨body, len, hbody, -⟩, hopen⟩ := h
  exact ⟨⟨body, len, hbody⟩, hopen⟩

@[spec] theorem generateScene_spec :
    ⦃fun s => ⌜s = st⌝⦄ c.generateScene
    ⦃post⟨fun _ s => ⌜c.Rendered ∧ ∃ s₁ image, st.Leaves s₁ c.sceneFile ∧
        c.replies.saveImage = .ok image ∧ s = (s₁.saveImage c image).setFile c.sceneFile none⌝,
      fun _ s => ⌜¬ c.Rendered ∧ ((¬ c.Created ∧ s = st) ∨
        (c.Created ∧ ∃ s₁ image, st.Leaves s₁ c.sceneFile ∧ s = s₁.saveImage c image))⌝⟩⦄ := by
  mvcgen [generateScene, reply]
  all_goals subst_vars
  case vc1 hs3 _ _ hdownload =>
    -- `getObject` has returned false
    rcases hdownload with ⟨hclosed, -, rfl⟩ | ⟨hopen, hleaves, hok⟩
    · exact ⟨fun h => hclosed h.2.1.opened, .inl ⟨fun h => hclosed h.2, rfl⟩⟩
    · have hnot : ¬ c.Downloaded := fun h => by simp [h] at hok
      exact ⟨fun h => hnot h.2.1, .inr ⟨⟨hs3, hopen⟩, _, none, hleaves, rfl⟩⟩
  case vc2 hs3 _ _ htrue _ hdownload _ _ htraced _ =>
    rcases hdownload with ⟨-, hfalse, -⟩ | ⟨hopen, hleaves, hok⟩
    · exact absurd hfalse htrue
    · obtain ⟨htraced, image, himage, rfl⟩ := htraced
      have hdownloaded := hok.mp (Bool.eq_true_of_not_eq_false htrue)
      exact ⟨⟨hs3, hdownloaded, htraced⟩, _, image, hleaves, himage, rfl⟩
  case vc3 hs3 _ _ htrue _ hdownload _ _ =>
    -- an exception leaves the block with the `VulkanContext`
    rintro hnot ⟨image, rfl⟩
    rcases hdownload with ⟨-, hfalse, -⟩ | ⟨hopen, hleaves, -⟩
    · exact absurd hfalse htrue
    · exact ⟨fun h => hnot h.2.2, .inr ⟨⟨hs3, hopen⟩, _, image, hleaves, rfl⟩⟩
  case vc4 hs3 _ _ =>
    rintro (⟨hclosed, rfl⟩ | ⟨hopen, hleaves, hnot⟩)
    · exact ⟨fun h => hclosed h.2.1.opened, .inl ⟨fun h => hclosed h.2, rfl⟩⟩
    · exact ⟨fun h => hnot h.2.1, .inr ⟨⟨hs3, hopen⟩, _, none, hleaves, rfl⟩⟩
  case vc5 => simp_all [Rendered, Created]

omit [DecidableEq File] in
@[spec] theorem report_spec (status : JobStatus) :
    ⦃fun s => ⌜s = st⌝⦄ report status
    ⦃post⟨fun _ s => ⌜s = { st with status, reports := st.reports + 1 }⌝, fun _ _ => ⌜False⌝⟩⦄ := by
  mvcgen [report]
  all_goals simp_all +zetaDelta

omit [DecidableEq File] in
/-- Of a handler that has reported, the files are what is left to see. -/
theorem Reported.leavesNothing_iff {result : Except String GrpcStatus × Local File} {p : Prop}
    (h : Reported result) (hfiles : result.2.files c.sceneFile = none ∧
      (result.2.saved = true → result.2.files c.outputFile = none) ↔ p) :
    Reported result ∧ (c.LeavesNothing result ↔ p) := by
  refine ⟨h, fun hnothing => hfiles.mp ⟨hnothing.sceneFile, hnothing.image⟩, fun hp => ?_⟩
  obtain ⟨hscene, himage⟩ := hfiles.mpr hp
  obtain ⟨status, hstatus, -⟩ := h.returned
  exact ⟨⟨status, hstatus⟩, hscene, himage, h.reported⟩

omit [DecidableEq File] in
theorem Rendered.created (h : c.Rendered) : c.Created := ⟨h.1, h.2.1.opened⟩

/-- A rendered image is still there when the scene file is removed, if it is not that file. -/
theorem files_outputFile_eq_none (s : Local File) (image : Contents) :
    ((s.saveImage c (some image)).setFile c.sceneFile none).files c.outputFile = none ↔
      c.sceneFile = c.outputFile := by
  by_cases hfile : c.outputFile = c.sceneFile
  · simp [hfile]
  · simp [Local.saveImage, Local.setFile, hfile, Ne.symm hfile]

theorem renderJob_spec (files : File → Option Contents) :
    ⦃fun s => ⌜s = .start files⌝⦄ c.renderJob
    ⦃post⟨fun status s => ⌜Reported (.ok status, s) ∧
        (c.LeavesNothing (.ok status, s) ↔ c.CleansUp files)⌝,
      fun e s => ⌜Reported (.error e, s) ∧
        (c.LeavesNothing (.error e, s) ↔ c.CleansUp files)⌝⟩⦄ := by
  mvcgen [renderJob, reply]
  case vc1 hstart _ _ hscene uploaded hput _ _ _ hs =>
    -- both files are removed
    obtain ⟨hrendered, s₁, image, hleaves, himage, rfl⟩ := hscene
    obtain rfl := hs
    obtain rfl := hstart
    refine Reported.leavesNothing_iff ⟨⟨_, rfl, by simp⟩, ?_⟩ (iff_of_true ⟨?_, fun _ => ?_⟩ ?_)
    · simp +zetaDelta [hleaves.reports_eq, Local.start]
    · exact Local.setFile_eq_none (Local.setFile_self _ _ _)
    · exact Local.setFile_self _ _ _
    · exact .inr ⟨hrendered, .inl ⟨_, hput⟩⟩
  case vc2 hstart _ _ hscene e hput _ _ hs =>
    -- the upload throws, after the scene file has been removed
    obtain ⟨hrendered, s₁, image, hleaves, himage, rfl⟩ := hscene
    obtain rfl := hs
    obtain rfl := hstart
    have hcleans : c.CleansUp files ↔
        c.replies.saveImage = .ok none ∨ c.sceneFile = c.outputFile := by
      simp [CleansUp, hrendered, hrendered.created, hput]
    refine Reported.leavesNothing_iff ⟨⟨_, rfl, by simp⟩, ?_⟩ ?_
    · simp [hleaves.reports_eq, Local.start]
    · rw [hcleans, himage]
      cases image with
      | none => simp [hleaves.saved_eq, Local.start]
      | some image => simp [files_outputFile_eq_none]
  case vc3 hstart e _ hscene _ _ hs =>
    obtain rfl := hs
    obtain rfl := hstart
    obtain ⟨hnot, ⟨hcreated, rfl⟩ | ⟨hcreated, s₁, image, hleaves, rfl⟩⟩ := hscene
    · refine Reported.leavesNothing_iff ⟨⟨_, rfl, by simp⟩, rfl⟩ ?_
      simp [CleansUp, hnot, hcreated, Local.start]
    · -- nothing removes the scene file any more
      have hthere := Local.saveImage_files_ne_none (c := c) hleaves.files_ne_none image
      refine Reported.leavesNothing_iff ⟨⟨_, rfl, by simp⟩, ?_⟩ ?_
      · simp [hleaves.reports_eq, Local.start]
      · simp [CleansUp, hnot, hcreated, hthere]

/-- `JobCompleted` is sent once, whatever fails. -/
theorem reported_once (c : FrameCall File) (files : File → Option Contents) :
    Reported (c.returned files) :=
  (Handler.of_triple (Q := fun result => Reported result ∧
    (c.LeavesNothing result ↔ c.CleansUp files)) (renderJob_spec files)).1

/-- **A frame leaves nothing behind exactly when it cleans up.** -/
theorem leaves_nothing_iff (c : FrameCall File) (files : File → Option Contents) :
    c.LeavesNothing (c.returned files) ↔ c.CleansUp files :=
  (Handler.of_triple (Q := fun result => Reported result ∧
    (c.LeavesNothing result ↔ c.CleansUp files)) (renderJob_spec files)).2

end FrameCall

end Claim

/-- A frame whose scene can be downloaded but not parsed. -/
def unparsableScene : FrameCall String where
  request :=
    { sceneLocation := "scene.gltf", outputName := "out", width := 64, height := 64, samples := 1
      time := ⟨0, 1⟩, jobId := "j", frameIndex := 0 }
  resolve := id
  replies :=
    { s3Manager := .ok (), getObject := .ok (some ([0x7b], 1)), isOpen := true
      write := fun body => (body, true), fileSize := .ok (), vulkanContext := .ok ()
      fromGltf := .error "Failed to load glTF file"
      updateAnimation := .ok (), build := .ok (), pathTracer := .ok (), render := .ok ()
      saveImage := .ok (some [0x89]), waitIdle := .ok (), putObject := .ok true }

theorem not_leavesNothing :
    (unparsableScene.returned fun _ => none).2.files "temp_scene.gltf" = some [0x7b] ∧
      ¬ unparsableScene.LeavesNothing (unparsableScene.returned fun _ => none) := by
  have hleft : (unparsableScene.returned fun _ => none).2.files "temp_scene.gltf" =
      some [0x7b] := by decide
  refine ⟨hleft, fun h => ?_⟩
  have hnone : (unparsableScene.returned fun _ => none).2.files "temp_scene.gltf" = none :=
    h.sceneFile
  rw [hleft] at hnone
  cases hnone

end Pathological.RenderWorker
