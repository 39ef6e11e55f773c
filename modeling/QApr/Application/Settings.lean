import QApr.Application.Host
import QApr.Library.LastWriter
import QApr.Library.Runs

/-!
# Settings of the application

`Settings` keeps four properties, each with a setter and a reset.  The setter of the
environment file compares with the version and writes the version.  The module compares
what the properties return with the values that were set for them, over all sequences
of setters and resets.
-/

namespace QApr.Application

open QApr.Library

/-- The fields of `SettingsPvt`. -/
structure SettingsPvt where
  name : List Char
  host : HostPvt
  version : List Char
  envFile : List Char

/-- The argument of `setHost`: null, the host of these settings or another one. -/
inductive HostArgument where
  | null
  | own
  | other (host : HostPvt)

/-- A setter or a reset. -/
inductive SettingsCall where
  | setName (newName : List Char)
  | resetName
  | setHost (newHost : HostArgument)
  | resetHost
  | setVersion (newVersion : List Char)
  | resetVersion
  | setEnvFile (newVersion : List Char)
  | resetEnvFile

/-- A property of `Settings`. -/
inductive SettingsProperty where
  | name
  | host
  | version
  | envFile
  deriving DecidableEq, Repr

/-- The property that a call is about. -/
def SettingsCall.property : SettingsCall → SettingsProperty
  | .setName _ | .resetName => .name
  | .setHost _ | .resetHost => .host
  | .setVersion _ | .resetVersion => .version
  | .setEnvFile _ | .resetEnvFile => .envFile

/-- What the settings use of other libraries. -/
structure SettingsLibrary where
  chars : CharTable
  network : Network
  /-- `clear` of `QStm::ObjectWrapper`. -/
  clear : HostPvt → HostPvt
  /-- `readFrom` of `QStm::ObjectWrapper`. -/
  readFrom : HostPvt → HostPvt → HostPvt

/-- A host that is cleared forgets its values, and takes those of the host it is read
from. -/
structure SettingsLibrary.Copies (library : SettingsLibrary) : Prop where
  clear : ∀ host other, Host.read library.network (library.clear host) =
    Host.read library.network (library.clear other)
  readFrom : ∀ host other, Host.read library.network (library.readFrom (library.clear host) other) =
    Host.read library.network other

namespace SettingsPvt

variable (library : SettingsLibrary) (settings : SettingsPvt)

/-- The settings after their construction. -/
def new : SettingsPvt := ⟨[], .new library.network, [], []⟩

/-- `Settings::setName`. -/
def setName (newName : List Char) : SettingsPvt :=
  if settings.name = newName then settings
  else { settings with name := library.chars.trimmed newName }

/-- `Settings::resetName`. -/
def resetName : SettingsPvt := settings.setName library []

/-- `Settings::resetHost`. -/
def resetHost : SettingsPvt := { settings with host := library.clear settings.host }

/-- `Settings::setHost`, which clears the host before it reads the other one. -/
def setHost (newHost : HostArgument) : SettingsPvt :=
  let settings := { settings with host := library.clear settings.host }
  match newHost with
  | .null => settings
  | .own => { settings with host := library.readFrom settings.host settings.host }
  | .other host => { settings with host := library.readFrom settings.host host }

/-- `Settings::setVersion`. -/
def setVersion (newVersion : List Char) : SettingsPvt :=
  if settings.version = newVersion then settings else { settings with version := newVersion }

/-- `Settings::resetVersion`. -/
def resetVersion : SettingsPvt := settings.setVersion []

/-- `Settings::setEnvFile`, which writes the version. -/
def setEnvFile (newVersion : List Char) : SettingsPvt :=
  if settings.version = newVersion then settings else { settings with version := newVersion }

/-- `Settings::resetEnvFile`. -/
def resetEnvFile : SettingsPvt := settings.setEnvFile []

/-- A call. -/
def call : SettingsCall → SettingsPvt
  | .setName newName => settings.setName library newName
  | .resetName => settings.resetName library
  | .setHost newHost => settings.setHost library newHost
  | .resetHost => settings.resetHost library
  | .setVersion newVersion => settings.setVersion newVersion
  | .resetVersion => settings.resetVersion
  | .setEnvFile newVersion => settings.setEnvFile newVersion
  | .resetEnvFile => settings.resetEnvFile

/-- A sequence of calls. -/
def run (calls : List SettingsCall) : SettingsPvt := calls.foldl (call library) settings

/-- Both settings return the same value for a property, whose texts go through the
parser of environment placeholders. -/
def SameRead (parse : List Char → List Char) (other : SettingsPvt) : SettingsProperty → Prop
  | .name => parse settings.name = parse other.name
  | .host => Host.read library.network settings.host = Host.read library.network other.host
  | .version => parse settings.version = parse other.version
  | .envFile => parse settings.envFile = parse other.envFile

end SettingsPvt

/-! ## What should be read -/

section Expected

variable (library : SettingsLibrary)

/-- The name that a call sets. -/
def nameSet : SettingsCall → Option (List Char)
  | .setName newName => some (library.chars.trimmed newName)
  | .resetName => some []
  | _ => none

/-- The version that a call sets. -/
def versionSet : SettingsCall → Option (List Char)
  | .setVersion newVersion => some newVersion
  | .resetVersion => some []
  | _ => none

/-- The environment file that a call sets. -/
def envFileSet : SettingsCall → Option (List Char)
  | .setEnvFile newVersion => some newVersion
  | .resetEnvFile => some []
  | _ => none

/-- The host argument of a call, where a reset sets no host. -/
def hostSet : SettingsCall → Option HostArgument
  | .setHost newHost => some newHost
  | .resetHost => some .null
  | _ => none

/-- The host whose values a call sets; the host that is set to itself keeps them. -/
def hostCarried : SettingsCall → Option HostPvt
  | .setHost (.other host) => some host
  | .setHost .null | .resetHost => some (library.clear (.new library.network))
  | _ => none

/-- The last version that was set. -/
def lastVersion (calls : List SettingsCall) : List Char := (lastWritten versionSet calls).getD []

/-- The last environment file that was set. -/
def lastEnvFile (calls : List SettingsCall) : List Char := (lastWritten envFileSet calls).getD []

/-- The last host that was set. -/
def lastHost (calls : List SettingsCall) : HostPvt :=
  (lastWritten (hostCarried library) calls).getD (.new library.network)

/-- After a sequence of calls every property returns the last value that was set for it,
and no call changes what another property returns. -/
structure Independent (parse : List Char → List Char) (calls : List SettingsCall) : Prop where
  name : parse ((SettingsPvt.new library).run library calls).name =
    parse ((lastWritten (nameSet library) calls).getD [])
  version : parse ((SettingsPvt.new library).run library calls).version =
    parse (lastVersion calls)
  envFile : parse ((SettingsPvt.new library).run library calls).envFile =
    parse (lastEnvFile calls)
  host : Host.read library.network ((SettingsPvt.new library).run library calls).host =
    Host.read library.network (lastHost library calls)
  frame : ∀ before call after, calls = before ++ call :: after →
    ∀ property, property ≠ call.property →
      (((SettingsPvt.new library).run library before).call library call).SameRead library parse
        ((SettingsPvt.new library).run library before) property

/-- The calls that go astray are without effect: a value set for the environment file
parses like the version before it, and like no file if it is the last one; and the
settings' own host is set last only where it is as good as cleared. -/
structure Harmless (parse : List Char → List Char) (calls : List SettingsCall) : Prop where
  version : ∀ before call after, calls = before ++ call :: after →
    ∀ newVersion ∈ envFileSet call, parse newVersion = parse (lastVersion before)
  envFile : parse (lastEnvFile calls) = parse []
  host : lastWritten hostSet calls = some .own →
    Host.read library.network (lastHost library calls) =
      Host.read library.network (library.clear (.new library.network))

end Expected

/-! ## What is read -/

section Read

variable {library : SettingsLibrary} {parse : List Char → List Char}

open SettingsPvt

theorem run_snoc (settings : SettingsPvt) (calls : List SettingsCall) (last : SettingsCall) :
    settings.run library (calls ++ [last]) = (settings.run library calls).call library last := by
  rw [run, List.foldl_append]
  rfl

/-! ### What the calls change -/

/-- Whatever its guard finds, `setName` changes only the name. -/
theorem setName_eq (settings : SettingsPvt) (newName : List Char) :
    settings.setName library newName =
      { settings with
        name := if settings.name = newName then newName else library.chars.trimmed newName } := by
  unfold setName
  split
  next same => rw [← same]
  next => rfl

/-- The guard of `setVersion` does not matter. -/
theorem setVersion_eq (settings : SettingsPvt) (newVersion : List Char) :
    settings.setVersion newVersion = { settings with version := newVersion } := by
  unfold setVersion
  split
  next same => rw [← same]
  next => rfl

/-- The setter of the environment file is that of the version. -/
theorem setEnvFile_eq (settings : SettingsPvt) (newVersion : List Char) :
    settings.setEnvFile newVersion = { settings with version := newVersion } :=
  setVersion_eq settings newVersion

/-- The host whose values `setHost` leaves; the settings' own one was cleared before. -/
def hostPut (library : SettingsLibrary) : HostArgument → HostPvt
  | .other host => host
  | _ => library.clear (.new library.network)

/-- `setHost` changes only the host. -/
theorem setHost_eq (copies : library.Copies) (settings : SettingsPvt)
    (newHost : HostArgument) :
    ∃ host, settings.setHost library newHost = { settings with host } ∧
      Host.read library.network host = Host.read library.network (hostPut library newHost) := by
  cases newHost with
  | null => exact ⟨_, rfl, copies.clear _ _⟩
  | own => exact ⟨_, rfl, (copies.readFrom _ _).trans (copies.clear _ _)⟩
  | other host => exact ⟨_, rfl, copies.readFrom _ _⟩

/-- What a call changes: the calls about the environment file change the version. -/
structure CallSpec (library : SettingsLibrary) (settings : SettingsPvt) (last : SettingsCall)
    (after : SettingsPvt) : Prop where
  name : after.name = (nameSet library last).getD settings.name
  version : after.version = ((versionSet last).or (envFileSet last)).getD settings.version
  envFile : after.envFile = settings.envFile
  host : Host.read library.network after.host =
    ((hostSet last).map fun newHost => Host.read library.network (hostPut library newHost)).getD
      (Host.read library.network settings.host)

theorem call_spec (copies : library.Copies) {settings : SettingsPvt}
    (trimmed : library.chars.trimmed settings.name = settings.name) (last : SettingsCall) :
    CallSpec library settings last (settings.call library last) := by
  -- A name that is equal to the stored one is trimmed itself.
  have guarded (newName : List Char) :
      (if settings.name = newName then newName else library.chars.trimmed newName) =
        library.chars.trimmed newName := by
    split
    next same => rw [← same, trimmed]
    next => rfl
  cases last with
  | setName newName =>
      rw [call, setName_eq, guarded]
      exact ⟨rfl, rfl, rfl, rfl⟩
  | resetName =>
      rw [call, resetName, setName_eq, guarded]
      exact ⟨library.chars.trimmed_nil, rfl, rfl, rfl⟩
  | setHost newHost =>
      rcases setHost_eq copies settings newHost with ⟨host, changes, values⟩
      rw [call, changes]
      exact ⟨rfl, rfl, rfl, values⟩
  | resetHost => exact ⟨rfl, rfl, rfl, copies.clear _ _⟩
  | setVersion newVersion =>
      rw [call, setVersion_eq]
      exact ⟨rfl, rfl, rfl, rfl⟩
  | resetVersion =>
      rw [call, resetVersion, setVersion_eq]
      exact ⟨rfl, rfl, rfl, rfl⟩
  | setEnvFile newVersion =>
      rw [call, setEnvFile_eq]
      exact ⟨rfl, rfl, rfl, rfl⟩
  | resetEnvFile =>
      rw [call, resetEnvFile, setEnvFile_eq]
      exact ⟨rfl, rfl, rfl, rfl⟩

/-! ### What is left after a run -/

/-- The settings after some calls. -/
structure RunSpec (library : SettingsLibrary) (calls : List SettingsCall)
    (settings : SettingsPvt) : Prop where
  name : settings.name = (lastWritten (nameSet library) calls).getD []
  trimmed : library.chars.trimmed settings.name = settings.name
  envFile : settings.envFile = []
  host : Host.read library.network settings.host =
    ((lastWritten hostSet calls).map fun newHost =>
      Host.read library.network (hostPut library newHost)).getD
        (Host.read library.network (.new library.network))

theorem run_spec (copies : library.Copies) (calls : List SettingsCall) :
    RunSpec library calls ((new library).run library calls) := by
  induction calls using List.reverseRecOn with
  | nil => exact ⟨rfl, library.chars.trimmed_nil, rfl, rfl⟩
  | append_singleton earlier last ih =>
      have spec := call_spec copies ih.trimmed last
      rw [run_snoc]
      constructor
      · rw [spec.name, ih.name, lastWritten_snoc]
        cases nameSet library last <;> rfl
      · rw [spec.name]
        cases set : nameSet library last with
        | none => exact ih.trimmed
        | some newName =>
            cases last <;> cases set
            · exact library.chars.trimmed_trimmed _
            · exact library.chars.trimmed_nil
      · rw [spec.envFile, ih.envFile]
      · rw [spec.host, ih.host, lastWritten_snoc]
        cases hostSet last <;> rfl

/-- The last host, except where the settings' own one was set. -/
theorem lastHost_eq (calls : List SettingsCall)
    (notOwn : lastWritten hostSet calls ≠ some .own) :
    lastHost library calls =
      ((lastWritten hostSet calls).map (hostPut library)).getD (.new library.network) := by
  induction calls using List.reverseRecOn with
  | nil => rfl
  | append_singleton earlier last ih =>
      rw [lastWritten_snoc] at notOwn
      rw [lastHost, lastWritten_snoc, lastWritten_snoc]
      cases last with
      | setHost newHost =>
          cases newHost with
          | own => exact absurd rfl notOwn
          | _ => rfl
      | resetHost => rfl
      | _ => exact ih notOwn

/-- The host is the last one that was set, unless that was the settings' own one and is
not as good as cleared. -/
theorem read_host_run_iff (copies : library.Copies) (calls : List SettingsCall) :
    Host.read library.network ((new library).run library calls).host =
        Host.read library.network (lastHost library calls) ↔
      (lastWritten hostSet calls = some .own →
        Host.read library.network (lastHost library calls) =
          Host.read library.network (library.clear (.new library.network))) := by
  rw [(run_spec copies calls).host]
  by_cases own : lastWritten hostSet calls = some .own
  · simp only [own, forall_const]
    exact eq_comm
  · rw [lastHost_eq calls own]
    apply iff_of_true
    · cases lastWritten hostSet calls <;> rfl
    · intro isOwn
      exact absurd isOwn own

/-! ### The version -/

theorem lastVersion_snoc (earlier : List SettingsCall) (last : SettingsCall) :
    lastVersion (earlier ++ [last]) = (versionSet last).getD (lastVersion earlier) := by
  rw [lastVersion, lastWritten_snoc]
  cases versionSet last <;> rfl

/-- The version is read as the last one that was set. -/
def VersionFollows (library : SettingsLibrary) (parse : List Char → List Char)
    (calls : List SettingsCall) : Prop :=
  parse ((new library).run library calls).version = parse (lastVersion calls)

/-- A call about the environment file that is read as the version before it. -/
def KeepsVersion (parse : List Char → List Char) (version : List Char) (last : SettingsCall) :
    Prop :=
  ∀ newVersion ∈ envFileSet last, parse newVersion = parse version

theorem VersionFollows.snoc (copies : library.Copies) {earlier : List SettingsCall}
    (follows : VersionFollows library parse earlier) {last : SettingsCall}
    (keeps : KeepsVersion parse (lastVersion earlier) last) :
    VersionFollows library parse (earlier ++ [last]) := by
  have spec := call_spec copies (run_spec copies earlier).trimmed last
  rw [VersionFollows, run_snoc, spec.version, lastVersion_snoc]
  cases versionSet last with
  | some newVersion => rfl
  | none =>
      cases set : envFileSet last with
      | none => exact follows
      | some newVersion => exact keeps newVersion set

/-- It makes no difference whether the version is the stored one or the last that was
set. -/
theorem keepsVersion_iff (copies : library.Copies) (calls : List SettingsCall) :
    ((∀ before last after, calls = before ++ last :: after →
        KeepsVersion parse ((new library).run library before).version last) ↔
      ∀ before last after, calls = before ++ last :: after →
        KeepsVersion parse (lastVersion before) last) ∧
    ((∀ before last after, calls = before ++ last :: after →
        KeepsVersion parse (lastVersion before) last) →
      VersionFollows library parse calls) := by
  induction calls using List.reverseRecOn with
  | nil => exact ⟨iff_of_true forall_split_nil forall_split_nil, fun _ => rfl⟩
  | append_singleton earlier last ih =>
      have ⟨same, follows⟩ := ih
      rw [forall_split_snoc, forall_split_snoc, same]
      constructor
      · apply and_congr_right
        intro keeps
        rw [KeepsVersion, KeepsVersion, follows keeps]
      · intro ⟨keeps, keepsLast⟩
        exact (follows keeps).snoc copies keepsLast

/-- A call leaves the other properties alone exactly if it keeps the version. -/
theorem frame_iff (copies : library.Copies) {settings : SettingsPvt}
    (trimmed : library.chars.trimmed settings.name = settings.name) (last : SettingsCall) :
    (∀ property, property ≠ last.property →
        (settings.call library last).SameRead library parse settings property) ↔
      KeepsVersion parse settings.version last := by
  have spec := call_spec copies trimmed last
  constructor
  · intro frame newVersion set
    have same := frame .version (by cases last <;> cases set <;> exact SettingsProperty.noConfusion)
    rw [SameRead, spec.version] at same
    cases last <;> cases set <;> exact same
  · intro keeps property other
    cases property with
    | name =>
        have unset : nameSet library last = none := by cases last <;> trivial
        rw [SameRead, spec.name, unset, Option.getD_none]
    | host =>
        have unset : hostSet last = none := by cases last <;> trivial
        rw [SameRead, spec.host, unset, Option.map_none, Option.getD_none]
    | version =>
        have unset : versionSet last = none := by cases last <;> trivial
        rw [SameRead, spec.version, unset, Option.none_or]
        cases set : envFileSet last with
        | none => rfl
        | some newVersion => exact keeps newVersion set
    | envFile => rw [SameRead, spec.envFile]

/-- The properties are independent exactly if the calls that go astray are harmless. -/
theorem independent_iff (copies : library.Copies) (parse : List Char → List Char)
    (calls : List SettingsCall) :
    Independent library parse calls ↔ Harmless library parse calls := by
  have spec := run_spec copies calls
  have ⟨same, follows⟩ := @keepsVersion_iff library parse copies calls
  have frames := fun before last =>
    @frame_iff library parse copies _ (run_spec copies before).trimmed last
  constructor
  · intro independent
    constructor
    · apply same.mp
      intro before last after split
      exact (frames before last).mp (independent.frame before last after split)
    · rw [← independent.envFile, spec.envFile]
    · exact (read_host_run_iff copies calls).mp independent.host
  · intro harmless
    constructor
    · rw [spec.name]
    · exact follows harmless.version
    · rw [spec.envFile, harmless.envFile]
    · exact (read_host_run_iff copies calls).mpr harmless.host
    · intro before last after split
      exact (frames before last).mpr (same.mpr harmless.version before last after split)

end Read

/-- The reset of every host property, and the reading of every one from another host. -/
def SettingsLibrary.ascii : SettingsLibrary where
  chars := CharTable.ascii
  network := ⟨"http".toList, "localhost".toList, 80⟩
  clear _ := ⟨"http".toList, [], -1, [], []⟩
  readFrom _ other := Host.read ⟨"http".toList, "localhost".toList, 80⟩ other

theorem copies_ascii : SettingsLibrary.ascii.Copies :=
  ⟨fun _ _ => rfl, fun _ other => Host.read_read _ other⟩

/-- An environment file that is set is not returned, and becomes the version. -/
theorem not_independent_envFile :
    ¬Independent .ascii id [.setEnvFile "prod.env".toList] := by
  intro independent
  have envFile := independent.envFile
  revert envFile
  decide

/-- Without an environment file the properties are independent. -/
theorem independent_name_version :
    Independent .ascii id [.setName " api ".toList, .setVersion "1.0".toList, .resetName] := by
  apply (independent_iff copies_ascii id _).mpr
  constructor
  · simp only [forall_split_cons]
    exact ⟨by decide, by decide, by decide, forall_split_nil⟩
  · rfl
  · intro own
    contradiction

end QApr.Application
