import QApr.Application.StartLock
import Mathlib.Data.List.Induction

/-!
# The files of the settings

`ApplicationPvt::resourceSettings` looks for the files of the settings until it has found
some, under names that it computes once.  The module says which files it returns after any
sequence of calls, between which the application name, the files and the settings change.
-/

namespace QApr.Application

open QApr.Qt QApr.Library

/-- `QStm::SettingFile` for files of type `File`. -/
structure SettingFileLibrary (File : Type) where
  new : File
  setting : File → List QString
  envs : File → List QString
  /-- The setter `setting`. -/
  setSetting : File → List QString → File
  envsAdd : File → List QString → File
  clear : File → File

/-- The setters of `QStm::SettingFile` do what their names say. -/
structure SettingFileLibrary.Lawful {File : Type} (library : SettingFileLibrary File) :
    Prop where
  setting_new : library.setting library.new = []
  envs_new : library.envs library.new = []
  setting_setSetting : ∀ file files, library.setting (library.setSetting file files) = files
  envs_setSetting : ∀ file files, library.envs (library.setSetting file files) = library.envs file
  setting_envsAdd : ∀ file files,
    library.setting (library.envsAdd file files) = library.setting file
  envs_envsAdd : ∀ file files,
    library.envs (library.envsAdd file files) = library.envs file ++ files
  setting_clear : ∀ file, library.setting (library.clear file) = []
  envs_clear : ∀ file, library.envs (library.clear file) = []

/-- The macros `QAPR_APP_TESTS` and `QT_DEBUG`. -/
inductive BuildMode where
  | release
  | debug
  | tests
  deriving DecidableEq, Repr

/-- What a call of `resourceSettings` finds. -/
structure ResourceCall where
  /-- `qApp->applicationName()`. -/
  applicationName : QString
  /-- `QFile::exists`. -/
  present : QString → Bool
  /-- `settings.envFile()`. -/
  envFile : QString

/-- The field `settingFile` and the static variable `__listFileNames`. -/
structure ResourceState (File : Type) where
  settingFile : File
  listFileNames : Option (List QString)

section Scan

variable (chars : CharTable) (mode : BuildMode)

/-- The initial value of `__listFileNames`. -/
def listFileNames (applicationName : QString) : List QString :=
  match mode with
  | .release => [chars.toLower applicationName, "application".toList]
  | .debug =>
      ["application".toList, chars.toLower applicationName, "application-development".toList]
  | .tests =>
      ["application".toList, chars.toLower applicationName, "application-test.json".toList]

/-- `__listPaths`. -/
def listPaths : List QString := [":".toList, ":/qapr".toList]

/-- `__fileFormatSetting.arg(path,fileName,ext)`. -/
def fileFormatSetting (path fileName ext : QString) : QString :=
  path ++ "/".toList ++ fileName ++ "-settings.".toList ++ ext

/-- The lambda `findFile`, for a value of `__listFileNames`. -/
def findFile (names : List QString) (present : QString → Bool) (ext : QString) :
    List QString :=
  listPaths.flatMap fun path =>
    (names.map fun fileName => fileFormatSetting path fileName ext).filter present

variable {File : Type} (library : SettingFileLibrary File)

/-- `ApplicationPvt::resourceSettings`; the file that it returns is left in the field. -/
def resourceSettings (state : ResourceState File) (call : ResourceCall) : ResourceState File :=
  if !(library.setting state.settingFile).isEmpty then state
  else
    let names := state.listFileNames.getD (listFileNames chars mode call.applicationName)
    let fileSetting := findFile names call.present "json".toList
    let fileEnv := findFile names call.present "env".toList ++ [call.envFile]
    if fileSetting.isEmpty then ⟨library.clear state.settingFile, some names⟩
    else
      ⟨library.envsAdd (library.setSetting state.settingFile fileSetting) fileEnv, some names⟩

/-- A sequence of calls. -/
def resourceRun (calls : List ResourceCall) : ResourceState File :=
  calls.foldl (resourceSettings chars mode library) ⟨library.new, none⟩

end Scan

/-! ## What the calls return -/

section Expected

variable (chars : CharTable) (mode : BuildMode)

/-- The names under which all calls look, from the application name at the first one. -/
def namesOf (calls : List ResourceCall) : List QString :=
  match calls with
  | [] => []
  | first :: _ => listFileNames chars mode first.applicationName

/-- The files that a call finds, when there are settings among them. -/
def foundBy (names : List QString) (call : ResourceCall) : Option SettingFile :=
  if (findFile names call.present "json".toList).isEmpty then none
  else some ⟨findFile names call.present "json".toList,
    findFile names call.present "env".toList ++ [call.envFile]⟩

/-- The files that the first successful call of a sequence finds. -/
def firstFound (calls : List ResourceCall) : SettingFile :=
  (calls.findSome? (foundBy (namesOf chars mode calls))).getD ⟨[], []⟩

variable {File : Type} (library : SettingFileLibrary File)

/-- The settings of a sequence of calls are those of the first one that has found any. -/
structure FirstFound (calls : List ResourceCall) : Prop where
  setting : library.setting (resourceRun chars mode library calls).settingFile =
    (firstFound chars mode calls).setting
  envs : library.envs (resourceRun chars mode library calls).settingFile =
    (firstFound chars mode calls).envs
  /-- All files but the one of `settings.envFile()`, which is not looked for, were there at the
  call that has found them. -/
  existed : library.setting (resourceRun chars mode library calls).settingFile ≠ [] →
    ∃ call ∈ calls, ∃ envs,
      library.envs (resourceRun chars mode library calls).settingFile = envs ++ [call.envFile] ∧
        ∀ file ∈ library.setting (resourceRun chars mode library calls).settingFile ++ envs,
          call.present file = true
  /-- Settings that were found stay, whatever happens to the files. -/
  stays : library.setting (resourceRun chars mode library calls).settingFile ≠ [] →
    ∀ later, resourceRun chars mode library (calls ++ later) =
      resourceRun chars mode library calls

end Expected

section Proof

variable {chars : CharTable} {mode : BuildMode} {calls : List ResourceCall}

theorem foundBy_eq_some {names : List QString} {call : ResourceCall} {found : SettingFile}
    (finds : foundBy names call = some found) :
    found.setting ≠ [] ∧ found = ⟨findFile names call.present "json".toList,
      findFile names call.present "env".toList ++ [call.envFile]⟩ := by
  unfold foundBy at finds
  split at finds
  next => contradiction
  next some =>
      cases finds
      refine ⟨?_, rfl⟩
      simpa using some

/-- Every file that is found exists. -/
theorem present_of_mem_findFile {present : QString → Bool} {ext file : QString}
    (member : file ∈ findFile names present ext) : present file = true := by
  unfold findFile at member
  rcases List.mem_flatMap.mp member with ⟨path, _, listed⟩
  exact (List.mem_filter.mp listed).2

/-- The names do not change after the first call. -/
theorem namesOf_snoc (last : ResourceCall) (some : calls ≠ []) :
    namesOf chars mode (calls ++ [last]) = namesOf chars mode calls := by
  cases calls with
  | nil => contradiction
  | cons first rest => rfl

theorem firstFound_nil : firstFound chars mode [] = ⟨[], []⟩ := rfl

/-- A further call finds nothing new, or is the first one to find settings. -/
theorem firstFound_snoc (last : ResourceCall) :
    firstFound chars mode (calls ++ [last]) =
      if (firstFound chars mode calls).setting = [] then
        (foundBy (namesOf chars mode (calls ++ [last])) last).getD ⟨[], []⟩
      else firstFound chars mode calls := by
  cases calls with
  | nil => simp [firstFound]
  | cons first rest =>
      have same := @namesOf_snoc chars mode (first :: rest) last (by simp)
      unfold firstFound
      rw [same, List.findSome?_append]
      cases earlier : (first :: rest).findSome? (foundBy (namesOf chars mode (first :: rest))) with
      | none => simp
      | some found =>
          rcases List.exists_of_findSome?_eq_some earlier with ⟨call, _, finds⟩
          simp [(foundBy_eq_some finds).1]

/-- Where no settings were found, the environment files are dropped as well. -/
theorem firstFound_of_setting_eq_nil (empty : (firstFound chars mode calls).setting = []) :
    firstFound chars mode calls = ⟨[], []⟩ := by
  unfold firstFound at empty ⊢
  cases finds : calls.findSome? (foundBy (namesOf chars mode calls)) with
  | none => rfl
  | some found =>
      rcases List.exists_of_findSome?_eq_some finds with ⟨call, _, foundEq⟩
      rw [finds] at empty
      exact absurd empty (foundBy_eq_some foundEq).1

variable {File : Type} {library : SettingFileLibrary File}

/-- What a run has latched: the names, and the files that it has found. -/
structure ResourceState.Latched (library : SettingFileLibrary File) (chars : CharTable)
    (mode : BuildMode) (calls : List ResourceCall) (state : ResourceState File) : Prop where
  setting : library.setting state.settingFile = (firstFound chars mode calls).setting
  envs : library.envs state.settingFile = (firstFound chars mode calls).envs
  names : calls ≠ [] → state.listFileNames = some (namesOf chars mode calls)
  fresh : calls = [] → state.listFileNames = none

theorem ResourceState.latched_new (lawful : library.Lawful) :
    ResourceState.Latched library chars mode [] ⟨library.new, none⟩ where
  setting := lawful.setting_new
  envs := lawful.envs_new
  names := by simp
  fresh := by simp

/-- The names that a call uses. -/
theorem ResourceState.Latched.names_eq {state : ResourceState File}
    (latched : state.Latched library chars mode calls) (call : ResourceCall) :
    state.listFileNames.getD (Application.listFileNames chars mode call.applicationName) =
      namesOf chars mode (calls ++ [call]) := by
  cases calls with
  | nil =>
      rw [latched.fresh rfl]
      rfl
  | cons first rest =>
      rw [latched.names (by simp), namesOf_snoc _ (by simp)]
      rfl

/-- One call. -/
theorem ResourceState.Latched.call (lawful : library.Lawful) {state : ResourceState File}
    (latched : state.Latched library chars mode calls) (call : ResourceCall) :
    (resourceSettings chars mode library state call).Latched library chars mode
      (calls ++ [call]) := by
  unfold resourceSettings
  rw [latched.setting, latched.names_eq call]
  cases empty : (firstFound chars mode calls).setting with
  | cons file files =>
      have kept : firstFound chars mode (calls ++ [call]) = firstFound chars mode calls := by
        rw [firstFound_snoc, empty]
        rfl
      have some : calls ≠ [] := by
        rintro rfl
        rw [firstFound_nil] at empty
        contradiction
      refine ⟨?_, ?_, ?_, by simp⟩
      · rw [kept]
        exact latched.setting
      · rw [kept]
        exact latched.envs
      · intro _
        rw [namesOf_snoc call some]
        exact latched.names some
  | nil =>
      have next : firstFound chars mode (calls ++ [call]) =
          (foundBy (namesOf chars mode (calls ++ [call])) call).getD ⟨[], []⟩ := by
        rw [firstFound_snoc, if_pos empty]
      -- Without settings there are no environment files either.
      have noEnvs : library.envs state.settingFile = [] := by
        rw [latched.envs, firstFound_of_setting_eq_nil empty]
      simp only [List.isEmpty_nil, Bool.not_true, Bool.false_eq_true, if_false]
      split
      next none =>
          refine ⟨?_, ?_, fun _ => rfl, by simp⟩
          · rw [next, foundBy, if_pos none]
            exact lawful.setting_clear _
          · rw [next, foundBy, if_pos none]
            exact lawful.envs_clear _
      next some =>
          refine ⟨?_, ?_, fun _ => rfl, by simp⟩
          · rw [next, foundBy, if_neg some]
            exact (lawful.setting_envsAdd _ _).trans (lawful.setting_setSetting _ _)
          · rw [next, foundBy, if_neg some]
            rw [lawful.envs_envsAdd, lawful.envs_setSetting, noEnvs]
            rfl

theorem latched_resourceRun (lawful : library.Lawful) (calls : List ResourceCall) :
    (resourceRun chars mode library calls).Latched library chars mode calls := by
  induction calls using List.reverseRecOn with
  | nil => exact ResourceState.latched_new lawful
  | append_singleton earlier last ih =>
      rw [resourceRun, List.foldl_append]
      exact ih.call lawful last

/-- Once settings were found, no call changes anything. -/
theorem foldl_of_found {state : ResourceState File} (found : library.setting state.settingFile ≠ [])
    (later : List ResourceCall) :
    later.foldl (resourceSettings chars mode library) state = state := by
  induction later with
  | nil => rfl
  | cons call later ih =>
      have unchanged : resourceSettings chars mode library state call = state := by
        unfold resourceSettings
        cases files : library.setting state.settingFile with
        | nil => exact absurd files found
        | cons => rfl
      rw [List.foldl_cons, unchanged, ih]

/-- Every sequence of calls returns the files of the first successful one. -/
theorem resourceSettings_firstFound (lawful : library.Lawful) (calls : List ResourceCall) :
    FirstFound chars mode library calls where
  setting := (latched_resourceRun lawful calls).setting
  envs := (latched_resourceRun lawful calls).envs
  existed := by
    have latched := @latched_resourceRun chars mode File library lawful calls
    rw [latched.setting, latched.envs, firstFound]
    intro some
    cases finds : calls.findSome? (foundBy (namesOf chars mode calls)) with
    | none => simp [finds] at some
    | some found =>
        rcases List.exists_of_findSome?_eq_some finds with ⟨call, isCall, foundEq⟩
        rw [Option.getD_some, (foundBy_eq_some foundEq).2]
        refine ⟨call, isCall, _, rfl, ?_⟩
        intro file member
        rcases List.mem_append.mp member with inSettings | inEnvs
        · exact present_of_mem_findFile inSettings
        · exact present_of_mem_findFile inEnvs
  stays := by
    intro found later
    rw [resourceRun, List.foldl_append]
    exact foldl_of_found found later

end Proof

/-- `QStm::SettingFile` as two lists. -/
def SettingFileLibrary.lists : SettingFileLibrary SettingFile where
  new := ⟨[], []⟩
  setting := SettingFile.setting
  envs := SettingFile.envs
  setSetting file files := { file with setting := files }
  envsAdd file files := { file with envs := file.envs ++ files }
  clear _ := ⟨[], []⟩

theorem SettingFileLibrary.lawful_lists : SettingFileLibrary.lists.Lawful where
  setting_new := rfl
  envs_new := rfl
  setting_setSetting _ _ := rfl
  envs_setSetting _ _ := rfl
  setting_envsAdd _ _ := rfl
  envs_envsAdd _ _ := rfl
  setting_clear _ := rfl
  envs_clear _ := rfl

/-- The first call finds nothing, the second one a file under the old application name, and
the third one would find another. -/
def renamedCalls : List ResourceCall :=
  [⟨"Shop".toList, fun _ => false, []⟩,
    ⟨"Store".toList, fun file => file = ":/shop-settings.json".toList, []⟩,
    ⟨"Store".toList, fun file => file = ":/application-settings.json".toList, []⟩]

theorem firstFound_renamedCalls :
    FirstFound .ascii .release .lists renamedCalls ∧
      (resourceRun .ascii .release .lists renamedCalls).settingFile.setting =
        [":/shop-settings.json".toList] := by
  have first := @resourceSettings_firstFound .ascii .release SettingFile .lists
    SettingFileLibrary.lawful_lists renamedCalls
  refine ⟨first, ?_⟩
  decide

end QApr.Application
