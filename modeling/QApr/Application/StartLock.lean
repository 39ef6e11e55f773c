import QApr.Application.Startup
import QApr.Library.Gate
import QApr.Library.Text

/-!
# The start lock

`lockedMutex` is created locked, and `startSettings` unlocks it in its last statement.
`Application::lockedWait` passes through it.  The module follows the mutex through
`startSettings`, with the calls to other libraries as parameters.
-/

namespace QApr.Application

open QApr.Qt QApr.Library

/-- `QMutex`, with the number of times it was unlocked. -/
structure QMutex where
  locked : Bool
  unlocks : Nat
  deriving DecidableEq, Repr

/-- `QMutex::unlock`. -/
def QMutex.unlock (mutex : QMutex) : QMutex := ⟨false, mutex.unlocks + 1⟩

/-- `makeLockedMutex`. -/
def makeLockedMutex : QMutex := ⟨true, 0⟩

/-- The files of `QStm::SettingFile`. -/
structure SettingFile where
  setting : List QString
  envs : List QString
  deriving DecidableEq, Repr

/-- `QStm::SettingBase` of a service, as `envsRemote` reads it. -/
structure ServiceSetting where
  enabled : Bool
  name : QString
  deriving DecidableEq, Repr

/-- What `startSettings` calls, and the types of the objects that it loads. -/
structure StartLibrary (Settings ConnectionManager Envs : Type) where
  chars : CharTable
  toVariantObject : QString → QVariant
  vMerge : QVariantHash → QVariant → QVariant
  /-- `QStm::SettingManager::load`. -/
  load : SettingManager → QVariantHash → Bool × SettingManager
  /-- `QStm::SettingManager::setting`; `none` is the null pointer. -/
  setting : SettingManager → QString → Option ServiceSetting
  setValues : Settings → QVariantHash → Settings
  name : Settings → QString
  /-- `QOrm::ConnectionManager::load`. -/
  loadConnections : ConnectionManager → QVariantHash → Bool × ConnectionManager
  reset : Envs → Envs
  systemEnvs : Envs → QVariantHash → Envs
  customEnvs : Envs → QVariant → Envs
  /-- The body of the response to `GET /settings/setting`; `none` is no response. -/
  call : ServiceSetting → QString → Option QVariant

/-- What the startup changes. -/
structure StartState (Settings ConnectionManager Envs : Type) where
  globals : Globals
  settings : Settings
  connectionManager : ConnectionManager
  envs : Envs
  applicationName : QString
  lockedMutex : QMutex

section Start

variable {Settings ConnectionManager Envs : Type}
  (library : StartLibrary Settings ConnectionManager Envs)

/-- The files of a list, merged. -/
def StartLibrary.merged (files : List QString) : QVariantHash :=
  (files.map library.toVariantObject).foldl (fun hash v => (library.vMerge hash v).toHash) []

namespace StartState

variable (state : StartState Settings ConnectionManager Envs)

/-- `i.manager().load`. -/
def loadManager (vSettings : QVariantHash) :
    Bool × StartState Settings ConnectionManager Envs :=
  let (loaded, manager) := library.load state.globals.instance.manager vSettings
  (loaded, { state with globals := Application.startSettings manager state.globals })

/-- `i.settings().setValues`, then `i.connectionManager().load`. -/
def loadApplication (vSettings : QVariantHash) :
    Bool × StartState Settings ConnectionManager Envs :=
  let vConnection := (QVariantHash.value vSettings "connection".toList).toHash
  let (loaded, connectionManager) :=
    library.loadConnections state.connectionManager vConnection
  (loaded, { state with
    settings := library.setValues state.settings vSettings
    connectionManager })

/-- `setApplicationName` with the name in the settings, if there is one. -/
def nameApplication : StartState Settings ConnectionManager Envs :=
  let name := library.name state.settings
  if !name.isEmpty then { state with applicationName := name } else state

/-- `envsRemote`; `none` aborts the process. -/
def envsRemote : Option (QVariant × StartState Settings ConnectionManager Envs) :=
  match library.setting state.globals.instance.manager "environments".toList with
  | none => some (.invalid, state)
  | some settings =>
      if !settings.enabled then some (.invalid, state)
      else
        let state := state.nameApplication library
        let settingName := library.chars.trimmed (library.chars.toLower settings.name)
        if settingName.isEmpty then some (.invalid, state)
        else if !settings.enabled then some (.invalid, state)
        else (library.call settings settingName).map fun body => (body, state)

/-- The block of `startSettings` that loads the environments. -/
def loadEnvs (vEnvs : QVariantHash) :
    Option (StartState Settings ConnectionManager Envs) := do
  let envs :=
    if vEnvs.isEmpty then state.envs
    else library.customEnvs (library.systemEnvs (library.reset state.envs) vEnvs) (.hash vEnvs)
  let (remote, state) ← envsRemote library { state with envs }
  return { state with envs := library.customEnvs state.envs remote }

/-- `startSettings` with the files of `resourceSettings()`; `none` aborts the process. -/
def startSettings (settingFile : SettingFile) :
    Option (StartState Settings ConnectionManager Envs) :=
  let vSettings := library.merged settingFile.setting
  let (managerLoaded, state) := state.loadManager library vSettings
  if !managerLoaded then some state
  else
    let (connectionsLoaded, state) := state.loadApplication library vSettings
    if !connectionsLoaded then some state
    else do
      let state ← state.loadEnvs library (library.merged settingFile.envs)
      return { state with lockedMutex := state.lockedMutex.unlock }

end StartState

/-- A thread that calls `lockedWait`. -/
abbrev Thread := Nat

/-- The startup has unlocked the mutex once, and no thread that waits for it later is
blocked forever. -/
structure Released (lockedMutex : QMutex) : Prop where
  once : lockedMutex.unlocks = 1
  lockedWait : Gate.Passable Thread lockedMutex.locked

/-- Both loads of the settings succeed. -/
structure Loads (settingFile : SettingFile)
    (state : StartState Settings ConnectionManager Envs) : Prop where
  manager :
    (library.load state.globals.instance.manager (library.merged settingFile.setting)).1 = true
  connections :
    (library.loadConnections state.connectionManager
      (QVariantHash.value (library.merged settingFile.setting)
        "connection".toList).toHash).1 = true

end Start

section Release

variable {Settings ConnectionManager Envs : Type}
  {library : StartLibrary Settings ConnectionManager Envs}
  {state after : StartState Settings ConnectionManager Envs}

/-- What `envsRemote` leaves alone. -/
def Kept (state after : StartState Settings ConnectionManager Envs) : Prop :=
  after.lockedMutex = state.lockedMutex ∧ after.globals = state.globals

theorem nameApplication_kept (state : StartState Settings ConnectionManager Envs) :
    Kept state (state.nameApplication library) := by
  unfold StartState.nameApplication
  dsimp only
  split <;> exact ⟨rfl, rfl⟩

theorem envsRemote_kept {body : QVariant}
    (returns : state.envsRemote library = some (body, after)) : Kept state after := by
  unfold StartState.envsRemote at returns
  split at returns
  case h_1 =>
    cases returns
    exact ⟨rfl, rfl⟩
  case h_2 settings _ =>
    split at returns
    case isTrue =>
      cases returns
      exact ⟨rfl, rfl⟩
    case isFalse =>
      dsimp only at returns
      split at returns
      case isTrue =>
        cases returns
        exact nameApplication_kept state
      case isFalse =>
        have ⟨_, _, ends⟩ := Option.map_eq_some_iff.mp returns
        cases ends
        exact nameApplication_kept state

/-- The environments are loaded without the mutex. -/
theorem loadEnvs_kept {vEnvs : QVariantHash}
    (returns : state.loadEnvs library vEnvs = some after) : Kept state after := by
  unfold StartState.loadEnvs at returns
  have ⟨⟨body, remote⟩, loaded, ends⟩ := Option.bind_eq_some_iff.mp returns
  have kept := envsRemote_kept loaded
  cases ends
  exact kept

/-- The startup unlocks the mutex at its end, which it reaches only if both loads
succeed; the manager that it loads is that of `Application.startSettings`. -/
theorem startSettings_spec {settingFile : SettingFile}
    (returns : state.startSettings library settingFile = some after) :
    (Loads library settingFile state → after.lockedMutex = state.lockedMutex.unlock) ∧
    (¬Loads library settingFile state → after.lockedMutex = state.lockedMutex) ∧
    after.globals = startSettings
      (library.load state.globals.instance.manager (library.merged settingFile.setting)).2
      state.globals := by
  simp only [StartState.startSettings] at returns
  split at returns
  case isTrue failed =>
    cases returns
    refine ⟨fun loads => ?_, fun _ => rfl, rfl⟩
    have managerLoaded : (StartState.loadManager library _ _).1 = true := loads.manager
    rw [managerLoaded] at failed
    contradiction
  case isFalse managerLoaded =>
    split at returns
    case isTrue failed =>
      cases returns
      refine ⟨fun loads => ?_, fun _ => rfl, rfl⟩
      have connectionsLoaded : (StartState.loadApplication library
          (state.loadManager library (library.merged settingFile.setting)).2 _).1 = true :=
        loads.connections
      rw [connectionsLoaded] at failed
      contradiction
    case isFalse connectionsLoaded =>
      have ⟨loaded, loadsEnvs, ends⟩ := Option.bind_eq_some_iff.mp returns
      have ⟨sameMutex, sameGlobals⟩ := loadEnvs_kept loadsEnvs
      cases ends
      refine ⟨fun _ => congrArg QMutex.unlock sameMutex, fun notLoads => ?_, sameGlobals⟩
      apply absurd _ notLoads
      constructor
      · simpa [StartState.loadManager] using managerLoaded
      · simpa [StartState.loadApplication, StartState.loadManager] using connectionsLoaded

theorem not_released_makeLockedMutex : ¬Released makeLockedMutex := by
  intro released
  cases released.once

theorem released_unlock : Released makeLockedMutex.unlock :=
  ⟨rfl, Gate.passable_free⟩

/-- A startup that returns has released the lock exactly when both loads succeed. -/
theorem released_iff (created : state.lockedMutex = makeLockedMutex)
    {settingFile : SettingFile}
    (returns : state.startSettings library settingFile = some after) :
    Released after.lockedMutex ↔ Loads library settingFile state := by
  have ⟨unlocks, keeps, _⟩ := startSettings_spec returns
  rw [created] at unlocks keeps
  constructor
  · intro released
    by_contra notLoads
    rw [keeps notLoads] at released
    exact not_released_makeLockedMutex released
  · intro loads
    rw [unlocks loads]
    exact released_unlock

end Release

/-- A library whose calls load nothing and succeed as given. -/
def StartLibrary.loading (managerLoads connectionsLoad : Bool) : StartLibrary Unit Unit Unit where
  chars := CharTable.ascii
  toVariantObject _ := .hash []
  vMerge hash _ := .hash hash
  load manager _ := (managerLoads, manager)
  setting _ _ := none
  setValues settings _ := settings
  name _ := []
  loadConnections manager _ := (connectionsLoad, manager)
  reset envs := envs
  systemEnvs envs _ := envs
  customEnvs envs _ := envs
  call _ _ := none

/-- The state before the startup, with the start lock just created. -/
def StartState.created : StartState Unit Unit Unit :=
  ⟨.initial, (), (), (), [], makeLockedMutex⟩

theorem loads_loading : Loads (.loading true true) ⟨[], []⟩ StartState.created := ⟨rfl, rfl⟩

/-- With settings that load, the startup releases the lock. -/
theorem released_of_loading :
    ∃ after, StartState.created.startSettings (.loading true true) ⟨[], []⟩ = some after ∧
      Released after.lockedMutex :=
  ⟨_, rfl, (@released_iff _ _ _ _ .created _ rfl _ rfl).mpr loads_loading⟩

/-- Where the manager does not load, every later `lockedWait` is blocked. -/
theorem not_released_of_failed_load :
    ∃ after, StartState.created.startSettings (.loading false true) ⟨[], []⟩ = some after ∧
      after.lockedMutex.unlocks = 0 ∧ ¬Gate.Passable Thread after.lockedMutex.locked :=
  ⟨_, rfl, rfl, Gate.not_passable_locked⟩

end QApr.Application
