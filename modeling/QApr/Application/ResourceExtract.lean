import QApr.Application.Startup
import Mathlib.Logic.Function.Basic

/-!
# The extraction of the resources

`resourceExtract` of the mobile application copies the resources of the root directory into
the setting directory, at every start of a debug build.  A file that is already there is
left as it is, so what a file holds is decided by the first start that could create it and
by what the user does to it.
-/

namespace QApr.Application

open QApr.Qt QApr.Library

/-- The bytes of a file. -/
abbrev FileData := List UInt8

/-- What the extraction sees of the file system. -/
structure Disk where
  /-- Whether the setting directory exists. -/
  settingDir : Bool
  files : QString → Option FileData

/-- A file in the root of the resources; without content it cannot be opened. -/
structure ResourceInfo where
  fileName : QString
  content : Option FileData
  deriving DecidableEq, Repr

/-- `QDir::entryInfoList` of the root of the resources. -/
structure ResourceDir where
  entryInfoList : List ResourceInfo
  nodup : (entryInfoList.map ResourceInfo.fileName).Nodup

/-- What the operating system lets one start do. -/
structure Permissions where
  mkpath : Bool
  /-- Whether a file that does not exist can be opened for writing. -/
  openDst : QString → Bool
  /-- How many bytes `QFile::write` can write to a file. -/
  room : QString → Nat

/-- The path of a resource in the setting directory. -/
def fileDst (applicationSettingDir : QString) (info : ResourceInfo) : QString :=
  applicationSettingDir ++ '/' :: info.fileName

/-- The body of the loop of `resourceExtract`. -/
def extractFile (permissions : Permissions) (applicationSettingDir : QString) (disk : Disk)
    (info : ResourceInfo) : Disk :=
  let path := fileDst applicationSettingDir info
  match disk.files path, info.content with
  | some _, _ => disk
  | none, none => disk
  | none, some data =>
      if permissions.openDst path then
        { disk with files :=
            Function.update disk.files path (some (data.take (permissions.room path))) }
      else disk

/-- The directory, made if it does not exist. -/
def makeSettingDir (permissions : Permissions) (disk : Disk) : Disk :=
  { disk with settingDir := disk.settingDir || permissions.mkpath }

/-- `resourceExtract`. -/
def resourceExtract (permissions : Permissions) (applicationSettingDir : QString)
    (dir : ResourceDir) (disk : Disk) : Disk :=
  let disk := makeSettingDir permissions disk
  if !disk.settingDir then disk
  else dir.entryInfoList.foldl (extractFile permissions applicationSettingDir) disk

/-- What happens to the disk: a start of the application as a debug build, or an edit of a
file, which may create it or remove it. -/
inductive DiskEvent where
  | start (permissions : Permissions)
  | edit (path : QString) (data : Option FileData)

section Runs

variable (applicationSettingDir : QString) (dir : ResourceDir)

/-- The disk after an event. -/
def DiskEvent.apply (disk : Disk) : DiskEvent → Disk
  | .start permissions => resourceExtract permissions applicationSettingDir dir disk
  | .edit path data => { disk with files := Function.update disk.files path data }

/-- The disk after a run. -/
def Disk.run (disk : Disk) (events : List DiskEvent) : Disk :=
  events.foldl (DiskEvent.apply applicationSettingDir dir) disk

/-- The resource that is extracted to a path. -/
def ResourceDir.source (path : QString) : Option FileData :=
  (dir.entryInfoList.find? fun info => fileDst applicationSettingDir info = path).bind
    ResourceInfo.content

/-- One file alone: the directory and what the file holds. -/
structure DiskCell where
  settingDir : Bool
  data : Option FileData
  deriving DecidableEq, Repr

/-- The file after an event. -/
def DiskCell.apply (path : QString) (cell : DiskCell) : DiskEvent → DiskCell
  | .start permissions =>
      let settingDir := cell.settingDir || permissions.mkpath
      let extracted :=
        if settingDir && permissions.openDst path then
          (dir.source applicationSettingDir path).map (List.take (permissions.room path))
        else none
      ⟨settingDir, cell.data.or extracted⟩
  | .edit edited data => ⟨cell.settingDir, if path = edited then data else cell.data⟩

/-- The file after a run. -/
def DiskCell.run (path : QString) (cell : DiskCell) (events : List DiskEvent) : DiskCell :=
  events.foldl (DiskCell.apply applicationSettingDir dir path) cell

end Runs

/-- One file of a disk. -/
def Disk.cell (disk : Disk) (path : QString) : DiskCell := ⟨disk.settingDir, disk.files path⟩

/-! ## One start -/

theorem fileDst_injective (applicationSettingDir : QString) {left right : ResourceInfo}
    (same : fileDst applicationSettingDir left = fileDst applicationSettingDir right) :
    left.fileName = right.fileName := by
  simpa [fileDst] using same

section Start

variable {permissions : Permissions} {applicationSettingDir : QString} {path : QString}

@[simp] theorem settingDir_extractFile (disk : Disk) (info : ResourceInfo) :
    (extractFile permissions applicationSettingDir disk info).settingDir = disk.settingDir := by
  rw [extractFile]
  split
  · rfl
  · rfl
  · split <;> rfl

/-- A file that is not the destination of the resource. -/
theorem files_extractFile_of_ne (disk : Disk) {info : ResourceInfo}
    (other : fileDst applicationSettingDir info ≠ path) :
    (extractFile permissions applicationSettingDir disk info).files path = disk.files path := by
  rw [extractFile]
  split
  · rfl
  · rfl
  · split
    · exact Function.update_of_ne (Ne.symm other) _ _
    · rfl

/-- The destination of the resource. -/
theorem files_extractFile_self (disk : Disk) {info : ResourceInfo}
    (same : fileDst applicationSettingDir info = path) :
    (extractFile permissions applicationSettingDir disk info).files path =
      (disk.files path).or
        (if permissions.openDst path then info.content.map (List.take (permissions.room path))
          else none) := by
  subst same
  rw [extractFile]
  cases present : disk.files (fileDst applicationSettingDir info) with
  | some data => simp [present]
  | none =>
      cases content : info.content with
      | none => simp [present]
      | some data =>
          cases allowed : permissions.openDst (fileDst applicationSettingDir info) with
          | false => simp [present]
          | true => simp

theorem settingDir_extractFiles (infos : List ResourceInfo) (disk : Disk) :
    (infos.foldl (extractFile permissions applicationSettingDir) disk).settingDir =
      disk.settingDir := by
  induction infos generalizing disk with
  | nil => rfl
  | cons info rest ih => rw [List.foldl_cons, ih, settingDir_extractFile]

/-- A file that is the destination of no resource. -/
theorem files_extractFiles_of_forall_ne {infos : List ResourceInfo} (disk : Disk)
    (others : ∀ info ∈ infos, fileDst applicationSettingDir info ≠ path) :
    (infos.foldl (extractFile permissions applicationSettingDir) disk).files path =
      disk.files path := by
  induction infos generalizing disk with
  | nil => rfl
  | cons info rest ih =>
      have ⟨other, restOthers⟩ := List.forall_mem_cons.mp others
      rw [List.foldl_cons, ih _ restOthers, files_extractFile_of_ne disk other]

/-- The loop leaves a file that exists, and creates a missing one from its resource. -/
theorem files_extractFiles {infos : List ResourceInfo} (disk : Disk)
    (nodup : (infos.map ResourceInfo.fileName).Nodup) :
    (infos.foldl (extractFile permissions applicationSettingDir) disk).files path =
      (disk.files path).or
        (if permissions.openDst path then
          ((infos.find? fun info => fileDst applicationSettingDir info = path).bind
            ResourceInfo.content).map (List.take (permissions.room path))
        else none) := by
  induction infos generalizing disk with
  | nil => simp
  | cons info rest ih =>
      have ⟨fresh, restNodup⟩ := List.nodup_cons.mp nodup
      rw [List.foldl_cons]
      by_cases same : fileDst applicationSettingDir info = path
      · have others : ∀ other ∈ rest, fileDst applicationSettingDir other ≠ path := by
          intro other member equal
          have sameName := fileDst_injective applicationSettingDir (same.trans equal.symm)
          exact fresh (sameName ▸ List.mem_map_of_mem member)
        rw [files_extractFiles_of_forall_ne _ others, files_extractFile_self disk same]
        simp [same]
      · rw [ih _ restNodup, files_extractFile_of_ne disk same]
        simp [same]

/-- A start, seen at one file. -/
theorem cell_resourceExtract (dir : ResourceDir) (disk : Disk) :
    (resourceExtract permissions applicationSettingDir dir disk).cell path =
      (disk.cell path).apply applicationSettingDir dir path (.start permissions) := by
  rw [resourceExtract, DiskCell.apply, Disk.cell, Disk.cell]
  cases made : (disk.settingDir || permissions.mkpath) with
  | false => simp [makeSettingDir, made]
  | true =>
      simp only [makeSettingDir, made, Bool.not_true, Bool.false_eq_true, if_false,
        Bool.true_and, settingDir_extractFiles, files_extractFiles _ dir.nodup]
      rfl

end Start

/-! ## Runs -/

section Runs

variable (applicationSettingDir : QString) (dir : ResourceDir)

theorem cell_apply (disk : Disk) (path : QString) (event : DiskEvent) :
    (event.apply applicationSettingDir dir disk).cell path =
      (disk.cell path).apply applicationSettingDir dir path event := by
  cases event with
  | start permissions => exact cell_resourceExtract dir disk
  | edit edited data => simp [DiskEvent.apply, DiskCell.apply, Disk.cell, Function.update_apply]

/-- Through every run of starts and edits, a file depends only on its own resource and on
the edits of it: the whole extraction acts on each file as if it were alone. -/
theorem cell_run (disk : Disk) (path : QString) (events : List DiskEvent) :
    (disk.run applicationSettingDir dir events).cell path =
      (disk.cell path).run applicationSettingDir dir path events := by
  induction events generalizing disk with
  | nil => rfl
  | cons event rest ih =>
      rw [Disk.run, List.foldl_cons, ← Disk.run, ih, cell_apply]
      rfl

/-- A start can extract a resource to the path. -/
structure CanExtract (disk : Disk) (permissions : Permissions) (path : QString)
    (data : FileData) : Prop where
  directory : disk.settingDir = true ∨ permissions.mkpath = true
  writable : permissions.openDst path = true
  source : dir.source applicationSettingDir path = some data

/-- The event is an edit of the path. -/
def DiskEvent.Edits (path : QString) : DiskEvent → Prop
  | .start _ => False
  | .edit edited _ => edited = path

/-- A file that exists holds the same through starts and edits of other files. -/
theorem data_run_of_some {path : QString} {events : List DiskEvent} {cell : DiskCell}
    {data : FileData} (present : cell.data = some data)
    (untouched : ∀ event ∈ events, ¬event.Edits path) :
    (cell.run applicationSettingDir dir path events).data = some data := by
  induction events generalizing cell with
  | nil => exact present
  | cons event rest ih =>
      have ⟨notEdited, restUntouched⟩ := List.forall_mem_cons.mp untouched
      rw [DiskCell.run, List.foldl_cons]
      apply ih _ restUntouched
      cases event with
      | start permissions => simp [DiskCell.apply, present]
      | edit edited data =>
          have other : path ≠ edited := fun same => notEdited same.symm
          simp [DiskCell.apply, other, present]

variable {applicationSettingDir dir}

/-- After a start that can extract it the file is there, whatever follows but edits of it. -/
theorem files_run_of_start {disk : Disk} {after : List DiskEvent} {permissions : Permissions}
    {path : QString} {data : FileData}
    (extracts : CanExtract applicationSettingDir dir disk permissions path data)
    (untouched : ∀ event ∈ after, ¬event.Edits path) :
    (disk.run applicationSettingDir dir (.start permissions :: after)).files path =
      some ((disk.files path).getD (data.take (permissions.room path))) := by
  have started : (((DiskEvent.start permissions).apply applicationSettingDir dir disk).cell
      path).data = some ((disk.files path).getD (data.take (permissions.room path))) := by
    have directory : (disk.settingDir || permissions.mkpath) = true := by
      simpa using extracts.directory
    rw [cell_apply, DiskCell.apply]
    cases content : disk.files path with
    | none => simp [Disk.cell, content, directory, extracts.writable, extracts.source]
    | some old => simp [Disk.cell, content]
  have kept := data_run_of_some applicationSettingDir dir started untouched
  rw [← cell_run] at kept
  exact kept

theorem run_append (disk : Disk) (before after : List DiskEvent) :
    disk.run applicationSettingDir dir (before ++ after) =
      (disk.run applicationSettingDir dir before).run applicationSettingDir dir after :=
  List.foldl_append

/-- The first start that can extract a missing file decides what it holds, be it only a
part of the resource: no later start changes it. -/
theorem files_of_extracted {disk : Disk} {before after : List DiskEvent}
    {permissions : Permissions} {path : QString} {data : FileData}
    (extracts : CanExtract applicationSettingDir dir (disk.run applicationSettingDir dir before)
      permissions path data)
    (untouched : ∀ event ∈ after, ¬event.Edits path) :
    (disk.run applicationSettingDir dir (before ++ .start permissions :: after)).files path =
      some (((disk.run applicationSettingDir dir before).files path).getD
        (data.take (permissions.room path))) := by
  rw [run_append]
  exact files_run_of_start extracts untouched

/-- A full disk cuts the file at the first start, and the second start leaves it so. -/
theorem files_of_extracted_cut :
    let dir : ResourceDir := ⟨[⟨"settings.json".toList, some [123, 125]⟩], by decide⟩
    let full : Permissions := ⟨true, fun _ => true, fun _ => 1⟩
    let roomy : Permissions := ⟨true, fun _ => true, fun _ => 100⟩
    let disk : Disk := ⟨false, fun _ => none⟩
    (disk.run "home".toList dir [.start full, .start roomy]).files
      "home/settings.json".toList = some [123] := by
  intro dir full roomy disk
  exact @files_of_extracted "home".toList dir disk [] [.start roomy] full
    "home/settings.json".toList [123, 125] ⟨Or.inr rfl, rfl, by decide⟩
    (by simp [DiskEvent.Edits])

end Runs

end QApr.Application
