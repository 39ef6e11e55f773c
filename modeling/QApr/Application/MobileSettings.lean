import QApr.Application.ResourceExtract
import QApr.Library.Simulation
import QApr.Library.Text

/-!
# The server settings of the mobile application

`settings_SERVER` looks for files once and returns what it has found ever after, also when
it has found none.  A debug build extracts one of these files at its start.
-/

namespace QApr.Application

open QApr.Qt QApr.Library

/-- The names from which `settings_SERVER` makes its paths. -/
structure ServerPaths where
  /-- `qApp->applicationFilePath()`. -/
  applicationFilePath : QString
  /-- `qApp->applicationName()`. -/
  applicationName : QString
  /-- `qAppName()`. -/
  appName : QString
  settingsHomeDir : QString
  settingsServerFile : QString

namespace ServerPaths

variable (chars : CharTable) (paths : ServerPaths)

/-- `*applicationSettingDir`, as the constructor of `ApplicationPvt` sets it. -/
def applicationSettingDir : QString :=
  paths.settingsHomeDir ++ '/' :: chars.toLower paths.applicationName

/-- The file beside the program. -/
def beside : QString := paths.applicationFilePath ++ ".json".toList

/-- The file in the setting directory. -/
def extracted : QString := paths.applicationSettingDir chars ++ '/' :: paths.settingsServerFile

/-- The file of the second block. -/
def nested : QString :=
  paths.settingsHomeDir ++ '/' :: paths.appName ++ '/' :: paths.settingsServerFile ++
    ".json".toList

/-- The list that `settings_SERVER` makes of the files that exist. -/
def findFiles (present : QString → Bool) : List QString :=
  let settingsFile := if !present paths.beside then paths.extracted chars else paths.beside
  [settingsFile, paths.nested].filter present

/-- The file beside the program takes the place of the extracted one. -/
theorem mem_findFiles {present : QString → Bool}
    (exists_extracted : present (paths.extracted chars) = true) :
    paths.beside ∈ paths.findFiles chars present ∨
      paths.extracted chars ∈ paths.findFiles chars present := by
  cases found : present paths.beside with
  | true => exact Or.inl (by simp [findFiles, found])
  | false => exact Or.inr (by simp [findFiles, found, exists_extracted])

end ServerPaths

/-- The disk and the field `_settings_SERVER`, which no list leaves null. -/
structure ServerState where
  disk : Disk
  settingsServer : Option (List QString)

/-- What happens while the application runs. -/
inductive ServerEvent where
  | disk (event : DiskEvent)
  | settingsServer

section Runs

variable (chars : CharTable) (paths : ServerPaths) (dir : ResourceDir)

/-- Whether a file exists. -/
def Disk.present (disk : Disk) (path : QString) : Bool := (disk.files path).isSome

/-- `ApplicationPvt::settings_SERVER`. -/
def settingsServer (state : ServerState) : ServerState × List QString :=
  match state.settingsServer with
  | some files => (state, files)
  | none =>
      let vList := paths.findFiles chars state.disk.present
      ({ state with settingsServer := some vList }, vList)

/-- The application among the changes of the disk; calls of `settings_SERVER` are answered. -/
def serverMachine : Machine ServerState ServerEvent (Option (List QString)) where
  step state
    | .disk event =>
        ({ state with
            disk := event.apply (paths.applicationSettingDir chars) dir state.disk }, none)
    | .settingsServer =>
        ((settingsServer chars paths state).1, some (settingsServer chars paths state).2)

/-- The disk after some events. -/
def ServerPaths.diskAfter (disk : Disk) (events : List DiskEvent) : Disk :=
  disk.run (paths.applicationSettingDir chars) dir events

/-- The answers of an application whose first call comes after some events. -/
def served (disk : Disk) (before : List DiskEvent) (later : List ServerEvent) :
    List (Option (List QString)) :=
  (serverMachine chars paths dir).answers ⟨disk, none⟩
    (before.map .disk ++ .settingsServer :: later)

/-- What the callers of `settings_SERVER` can rely on. -/
structure ServedOnce : Prop where
  /-- All are told what the first one has found. -/
  first : ∀ disk before later files, some files ∈ served chars paths dir disk before later →
    files = paths.findFiles chars (paths.diskAfter chars dir disk before).present
  /-- A file that a start before the first call has extracted is found for good. -/
  extracted : ∀ disk earlier permissions data, CanExtract (paths.applicationSettingDir chars) dir
      (paths.diskAfter chars dir disk earlier) permissions (paths.extracted chars) data →
    ∀ between, (∀ event ∈ between, ¬event.Edits (paths.extracted chars)) →
      ∀ later files, some files ∈
        served chars paths dir disk (earlier ++ .start permissions :: between) later →
      paths.beside ∈ files ∨ paths.extracted chars ∈ files

end Runs

section Proof

variable {chars : CharTable} {paths : ServerPaths} {dir : ResourceDir}

/-- The changes before the first call are not answered. -/
theorem answers_changes (state : ServerState) (changes : List DiskEvent) :
    (serverMachine chars paths dir).answers state (changes.map .disk) =
      changes.map fun _ => none := by
  induction changes generalizing state with
  | nil => rfl
  | cons change rest ih =>
      rw [List.map_cons, Machine.answers, ih, List.map_cons]
      rfl

theorem after_changes (disk : Disk) (changes : List DiskEvent) :
    (serverMachine chars paths dir).after ⟨disk, none⟩ (changes.map .disk) =
      ⟨paths.diskAfter chars dir disk changes, none⟩ := by
  induction changes generalizing disk with
  | nil => rfl
  | cons change rest ih => exact ih _

/-- A list that is stored is every later answer. -/
theorem answers_of_stored {state : ServerState} {stored : List QString}
    (isStored : state.settingsServer = some stored) {later : List ServerEvent}
    {files : List QString}
    (answer : some files ∈ (serverMachine chars paths dir).answers state later) :
    files = stored := by
  induction later generalizing state with
  | nil => contradiction
  | cons event rest ih =>
      cases event with
      | disk change =>
          have stays : ((serverMachine chars paths dir).step state
              (.disk change)).1.settingsServer = some stored := isStored
          rcases List.mem_cons.mp answer with this | restAnswer
          · contradiction
          · exact ih stays restAnswer
      | settingsServer =>
          have answered : settingsServer chars paths state = (state, stored) := by
            rw [settingsServer, isStored]
          rw [Machine.answers, serverMachine] at answer
          dsimp only at answer
          rw [answered] at answer
          rcases List.mem_cons.mp answer with this | restAnswer
          · exact Option.some.inj this
          · exact ih isStored restAnswer

theorem files_of_served {disk : Disk} {before : List DiskEvent} {later : List ServerEvent}
    {files : List QString} (answer : some files ∈ served chars paths dir disk before later) :
    files = paths.findFiles chars (paths.diskAfter chars dir disk before).present := by
  rw [served, Machine.answers_append, answers_changes, after_changes] at answer
  rcases List.mem_append.mp answer with earlier | now
  · simp at earlier
  · rcases List.mem_cons.mp now with this | rest
    · exact Option.some.inj this
    · exact answers_of_stored rfl rest

end Proof

/-- For all names, resources and runs. -/
theorem servedOnce (chars : CharTable) (paths : ServerPaths) (dir : ResourceDir) :
    ServedOnce chars paths dir where
  first _ _ _ _ := files_of_served
  extracted := by
    intro disk earlier permissions data extracts between untouched later files answer
    rw [files_of_served answer]
    apply paths.mem_findFiles chars
    have content := files_run_of_start extracts untouched
    rw [ServerPaths.diskAfter, run_append, Disk.present]
    rw [ServerPaths.diskAfter] at content
    rw [content]
    rfl

end QApr.Application
