import QApr.Application.CircuitBreaker

/-!
# Startup of the application

The startup function constructs the application, loads the settings, and then fills
`circuitBreakerSettings`; the circuit breaker of the application copies that hash
when it is constructed.  The module follows the settings through the startup and
`Application::exec`.
-/

namespace QApr.Application

open QApr.Qt

abbrev QString := List Char

/-- `QStm::SettingManager`, as the bodies that `settingBody` returns. -/
abbrev SettingManager := QString → QVariantHash

/-- The fields of `ApplicationPvt` that the circuit breaker depends on. -/
structure ApplicationPvt where
  manager : SettingManager
  circuitBreaker : CircuitBreakerPvt

/-- The globals `staticInstance` and `circuitBreakerSettings`. -/
structure Globals where
  /-- `none` until the application is constructed. -/
  staticInstance : Option ApplicationPvt
  circuitBreakerSettings : QVariantHash

/-- The globals before the startup. -/
def Globals.initial : Globals := ⟨none, []⟩

/-- The constructor of `ApplicationPvt`. -/
def ApplicationPvt.new (circuitBreakerSettings : QVariantHash) : ApplicationPvt where
  manager := fun _ => []
  circuitBreaker := .new circuitBreakerSettings

/-- `*staticInstance`, which is constructed at its first use. -/
def Globals.instance (globals : Globals) : ApplicationPvt :=
  globals.staticInstance.getD (.new globals.circuitBreakerSettings)

/-- `startSettings`, where it succeeds in loading the settings. -/
def startSettings (loaded : SettingManager) (globals : Globals) : Globals :=
  { globals with staticInstance := some { globals.instance with manager := loaded } }

/-- `__circuit_breaker`. -/
def circuitBreakerName : QString := "circuit-breaker".toList

/-- `startCircuitBreaker`. -/
def startCircuitBreaker (globals : Globals) : Globals where
  staticInstance := some globals.instance
  circuitBreakerSettings := globals.instance.manager circuitBreakerName

/-- `startUp`. -/
def startUp (loaded : SettingManager) (globals : Globals) : Globals :=
  startCircuitBreaker (startSettings loaded globals)

section Exec

variable (fromHash : QVariantHash → SettingBase)

/-- `ApplicationPvt::circuitBreakerStart`. -/
def ApplicationPvt.circuitBreakerStart (application : ApplicationPvt)
    (circuitBreakerSettings : QVariantHash) : ApplicationPvt :=
  if !(QVariantHash.value circuitBreakerSettings "enabled".toList).toBool then application
  else { application with circuitBreaker := (application.circuitBreaker.start fromHash).1 }

/-- `Application::exec`, up to the event loop. -/
def exec (globals : Globals) : ApplicationPvt :=
  globals.instance.circuitBreakerStart fromHash globals.circuitBreakerSettings

/-- The circuit breaker once the event loop of the application starts. -/
def breakerAtExec (loaded : SettingManager) : CircuitBreakerPvt :=
  (exec fromHash (startUp loaded .initial)).circuitBreaker

/-- The body of the circuit breaker asks for one: it is enabled and has a limit. -/
def Configured (body : QVariantHash) : Prop :=
  (fromHash body).enabled = true ∧ 0 < (fromHash body).activityLimit

instance (body : QVariantHash) : Decidable (Configured fromHash body) :=
  inferInstanceAs (Decidable (_ ∧ _))

/-- The breaker has a timer and the configured limit where its body asks for one, and
no timer elsewhere. -/
structure ArmedAsConfigured (loaded : SettingManager) : Prop where
  armed : Configured fromHash (loaded circuitBreakerName) →
    (breakerAtExec fromHash loaded).timerBreaker = some true ∧
      (breakerAtExec fromHash loaded).settingService.activityLimit =
        (fromHash (loaded circuitBreakerName)).activityLimit
  idle : ¬Configured fromHash (loaded circuitBreakerName) →
    (breakerAtExec fromHash loaded).timerBreaker = none

/-- A hash without an activity limit is read as one that sets none. -/
def ReadsLimit : Prop :=
  ∀ hash, QVariantHash.contains hash "activityLimit".toList = false →
    (fromHash hash).activityLimit ≤ 0

end Exec

section Armed

variable {fromHash : QVariantHash → SettingBase}

/-- The application is constructed before its settings are loaded, so its circuit
breaker has a copy of the empty hash. -/
theorem instance_startUp (loaded : SettingManager) :
    (startUp loaded .initial).instance = ⟨loaded, .new []⟩ :=
  rfl

/-- A breaker without settings does not start. -/
theorem start_new (reads : ReadsLimit fromHash) :
    ((CircuitBreakerPvt.new []).start fromHash).1.timerBreaker = none := by
  by_contra started
  have positive := ((CircuitBreakerPvt.new []).start_spec.2.2 started).2
  exact absurd (reads [] rfl) (Int.not_le.mpr positive)

/-- Whatever the settings say, the breaker has no timer. -/
theorem breakerAtExec_idle (reads : ReadsLimit fromHash) (loaded : SettingManager) :
    (breakerAtExec fromHash loaded).timerBreaker = none := by
  rw [breakerAtExec, exec, instance_startUp, ApplicationPvt.circuitBreakerStart]
  split
  · rfl
  · exact start_new reads

/-- The breaker is armed as configured exactly when its body asks for none. -/
theorem armedAsConfigured_iff (reads : ReadsLimit fromHash) (loaded : SettingManager) :
    ArmedAsConfigured fromHash loaded ↔ ¬Configured fromHash (loaded circuitBreakerName) := by
  have idle := breakerAtExec_idle reads loaded
  constructor
  · intro armed configured
    rw [(armed.armed configured).1] at idle
    contradiction
  · intro notConfigured
    exact ⟨fun configured => absurd configured notConfigured, fun _ => idle⟩

end Armed

/-- Settings read by their keys, with the values of absent keys false and zero. -/
def settingsByKey (hash : QVariantHash) : SettingBase where
  enabled := (QVariantHash.value hash "enabled".toList).toBool
  activityLimit :=
    match QVariantHash.value hash "activityLimit".toList with
    | .longLong value => value
    | _ => 0
  memoryLimit := 0

theorem readsLimit_settingsByKey : ReadsLimit settingsByKey := by
  intro hash absent
  have missing : QVariantHash.find hash "activityLimit".toList = none := by
    simpa [QVariantHash.contains] using absent
  simp only [settingsByKey, QVariantHash.value, missing]
  exact Int.le_refl 0

/-- Settings with the given body for the circuit breaker. -/
def breakerBody (enabled : Bool) (limit : Int) : SettingManager :=
  fun _ => [("enabled".toList, .bool enabled), ("activityLimit".toList, .longLong limit)]

/-- A breaker configured with a limit of one minute is not armed. -/
theorem not_armedAsConfigured_minute :
    ¬ArmedAsConfigured settingsByKey (breakerBody true 60000) := by
  intro armed
  have timer := (armed.armed (by decide)).1
  revert timer
  decide

theorem armedAsConfigured_disabled :
    ArmedAsConfigured settingsByKey (breakerBody false 60000) :=
  (armedAsConfigured_iff readsLimit_settingsByKey (breakerBody false 60000)).mpr (by decide)

end QApr.Application
