import QApr.Application.ResourceExtract
import QApr.Library.DoubleChecked

/-!
# The start of the mobile application

`init` runs `initApp` behind a double-checked `initCheck`.  It is called when Qt starts, and
by every `Application::instance` that finds `initCheck` unset, from any thread.
-/

namespace QApr.Application

open QApr.Qt QApr.Library Relation

/-- What `init` changes. -/
structure InitState where
  disk : Disk
  initCheck : Bool

/-- A call of `init`, or of `instance`, which looks at `initCheck` once more. -/
inductive InitCall where
  | ofInstance
  | init
  deriving DecidableEq, Repr

/-- The checks without the lock that follow the first one. -/
def InitCall.checks : InitCall → Nat
  | .init => 0
  | .ofInstance => 1

section Init

variable (debug : Bool) (permissions : Permissions) (applicationSettingDir : QString)
  (dir : ResourceDir)

/-- A pass of the loop of `resourceExtract`, which is not reached without the directory. -/
def extractStep (info : ResourceInfo) (disk : Disk) : Disk :=
  if !disk.settingDir then disk
  else extractFile permissions applicationSettingDir disk info

/-- `initApp`, action by action: a release build has none. -/
def initApp : List (Disk → Disk) :=
  if debug then
    makeSettingDir permissions ::
      dir.entryInfoList.map (extractStep permissions applicationSettingDir)
  else []

/-- The disk that `initApp` leaves. -/
def initialised (disk : Disk) : Disk :=
  if debug then resourceExtract permissions applicationSettingDir dir disk else disk

/-- An action of `initApp`, which leaves `initCheck` as it is. -/
def InitState.onDisk (action : Disk → Disk) (state : InitState) : InitState :=
  { state with disk := action state.disk }

/-- `initCheck=true`. -/
def InitState.setInitCheck (state : InitState) : InitState := { state with initCheck := true }

/-- The body of `init` under the lock. -/
def initBody : List (InitState → InitState) :=
  (initApp debug permissions applicationSettingDir dir).map InitState.onDisk ++
    [InitState.setInitCheck]

/-- The code of `init` and `instance`. -/
def initCode {ι : Type} (calls : ι → InitCall) :
    Initialiser ι InitState (List (InitState → InitState)) :=
  .ofActions (fun party => (calls party).checks) InitState.initCheck
    (initBody debug permissions applicationSettingDir dir)

/-- A run of calls of `init` and `instance`, with the actions of the body that were taken and
the call that took each of them. -/
def InitRecord {ι : Type} [DecidableEq ι] (calls : ι → InitCall) (disk : Disk) :
    CallWorld ι InitState (List (InitState → InitState)) → List (ι × (InitState → InitState)) →
      Prop :=
  Initialiser.Recorded (fun party => (calls party).checks) InitState.initCheck
    (initBody debug permissions applicationSettingDir dir) ⟨disk, false⟩

/-- `initApp` is run once, whatever calls there are and however they interleave. -/
structure InitialisedOnce {ι : Type} [DecidableEq ι] (calls : ι → InitCall) (disk : Disk) :
    Prop where
  /-- One call takes the actions of the body, in their order and each of them once. -/
  once : ∀ world taken, InitRecord debug permissions applicationSettingDir dir calls disk world
    taken → (∀ left ∈ taken, ∀ right ∈ taken, left.1 = right.1) ∧
      (∃ rest, taken.map Prod.snd ++ rest =
        initBody debug permissions applicationSettingDir dir) ∧
      world.store = Initialiser.runActions ⟨disk, false⟩ (taken.map Prod.snd)
  /-- Whatever is taken is written down. -/
  recorded : ∀ world, (initCode debug permissions applicationSettingDir dir calls).Reachable
    ⟨disk, false⟩ world → ∃ taken,
      InitRecord debug permissions applicationSettingDir dir calls disk world taken
  /-- A call returns after all of it. -/
  complete : ∀ world, (initCode debug permissions applicationSettingDir dir calls).Reachable
    ⟨disk, false⟩ world → ∀ party early, world.phase party = .returned early →
      world.store = ⟨initialised debug permissions applicationSettingDir dir disk, true⟩
  /-- No call is locked out. -/
  returns : ∀ world, (initCode debug permissions applicationSettingDir dir calls).Reachable
    ⟨disk, false⟩ world → ∀ party, ∃ after early,
      ReflTransGen (initCode debug permissions applicationSettingDir dir calls).Step
        world after ∧ after.phase party = .returned early

end Init

/-! ## The actions of the body -/

section Body

variable {debug : Bool} {permissions : Permissions} {applicationSettingDir : QString}
  {dir : ResourceDir}

theorem runActions_onDisk (actions : List (Disk → Disk)) (state : InitState) :
    Initialiser.runActions state (actions.map InitState.onDisk) =
      ⟨Initialiser.runActions state.disk actions, state.initCheck⟩ := by
  induction actions generalizing state with
  | nil => rfl
  | cons action rest ih =>
      rw [List.map_cons, Initialiser.runActions_cons]
      exact ih (state.onDisk action)

/-- Without the directory the loop is not reached. -/
theorem runActions_extractStep_of_missing {disk : Disk} (missing : disk.settingDir = false)
    (infos : List ResourceInfo) :
    Initialiser.runActions disk
      (infos.map (extractStep permissions applicationSettingDir)) = disk := by
  induction infos with
  | nil => rfl
  | cons info rest ih =>
      have skips : extractStep permissions applicationSettingDir info disk = disk := by
        simp [extractStep, missing]
      rw [List.map_cons, Initialiser.runActions_cons, skips]
      exact ih

theorem runActions_extractStep_of_made {disk : Disk} (made : disk.settingDir = true)
    (infos : List ResourceInfo) :
    Initialiser.runActions disk (infos.map (extractStep permissions applicationSettingDir)) =
      infos.foldl (extractFile permissions applicationSettingDir) disk := by
  induction infos generalizing disk with
  | nil => rfl
  | cons info rest ih =>
      have extracts : extractStep permissions applicationSettingDir info disk =
          extractFile permissions applicationSettingDir disk info := by
        simp [extractStep, made]
      rw [List.map_cons, Initialiser.runActions_cons, List.foldl_cons, extracts]
      exact ih (by rw [settingDir_extractFile, made])

/-- The actions of `initApp` make up `resourceExtract`. -/
theorem runActions_initApp (disk : Disk) :
    Initialiser.runActions disk (initApp debug permissions applicationSettingDir dir) =
      initialised debug permissions applicationSettingDir dir disk := by
  cases debug with
  | false => rfl
  | true =>
      rw [initApp, initialised, if_pos rfl, if_pos rfl, Initialiser.runActions_cons,
        resourceExtract]
      cases made : (makeSettingDir permissions disk).settingDir with
      | false => simp [made, runActions_extractStep_of_missing]
      | true => simp [made, runActions_extractStep_of_made]

/-- The whole body. -/
theorem runActions_initBody (disk : Disk) :
    Initialiser.runActions ⟨disk, false⟩ (initBody debug permissions applicationSettingDir dir) =
      ⟨initialised debug permissions applicationSettingDir dir disk, true⟩ := by
  rw [initBody, Initialiser.runActions_append, runActions_onDisk, runActions_initApp]
  rfl

/-- A part of the body is a part of `initApp`, or all of the body. -/
theorem split_initBody {done rest : List (InitState → InitState)}
    (split : done ++ rest = initBody debug permissions applicationSettingDir dir) :
    rest = [] ∨ ∃ actions others,
      initApp debug permissions applicationSettingDir dir = actions ++ others ∧
        done = actions.map InitState.onDisk := by
  cases rest using List.reverseRecOn with
  | nil => exact Or.inl rfl
  | append_singleton earlier last =>
      rw [initBody, ← List.append_assoc] at split
      have ⟨onDisk, _⟩ := List.append_inj' split rfl
      have ⟨actions, others, whole, same, _⟩ := List.append_eq_map_iff.mp onDisk
      exact Or.inr ⟨actions, others, whole, same.symm⟩

/-- `initCheck` is set by the last action. -/
theorem initCheck_of_unfinished {done rest : List (InitState → InitState)} (disk : Disk)
    (split : done ++ rest = initBody debug permissions applicationSettingDir dir)
    (unfinished : rest ≠ []) :
    (Initialiser.runActions ⟨disk, false⟩ done).initCheck = false := by
  obtain finished | ⟨actions, _, _, same⟩ := split_initBody split
  · exact absurd finished unfinished
  · rw [same, runActions_onDisk]

end Body

/-- Whatever threads call `init` and `instance`, one of them runs `initApp`, and only once; a
call returns after it, and every call can return. -/
theorem initialisedOnce (debug : Bool) (permissions : Permissions)
    (applicationSettingDir : QString) (dir : ResourceDir) {ι : Type} [DecidableEq ι]
    (calls : ι → InitCall) (disk : Disk) :
    InitialisedOnce debug permissions applicationSettingDir dir calls disk := by
  have readies : (Initialiser.runActions ⟨disk, false⟩
      (initBody debug permissions applicationSettingDir dir)).initCheck = true := by
    rw [runActions_initBody]
  constructor
  · intro world taken recorded
    have ⟨rest, accounted⟩ := Initialiser.Recorded.accounted recorded readies
    exact ⟨accounted.alone, ⟨rest, accounted.split⟩, accounted.store⟩
  · intro world reachable
    exact Initialiser.exists_recorded reachable
  · intro world reachable party early returned
    rw [← runActions_initBody]
    exact Initialiser.complete_of_returned readies reachable
      (fun _ _ split unfinished => initCheck_of_unfinished disk split unfinished) returned
  · intro world reachable party
    exact Initialiser.returns_of_reachable readies reachable party

end QApr.Application
