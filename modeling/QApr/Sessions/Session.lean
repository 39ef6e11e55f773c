import Mathlib.Data.Finmap
import Mathlib.Data.List.Induction

/-!
# Sessions per thread

`Session::init` binds a session to the one that `static_session_instance` holds for
its thread.  Sessions are never freed, so a pointer to a session is its position in
the order of construction.
-/

namespace QApr.Sessions

/-- A pointer to a session, as a position in the order of construction. -/
abbrev SessionPtr := Nat

/-- The fields of `Session` that `init` uses; `none` is the null pointer. -/
structure Session (QThread : Type) where
  sessionThread : QThread
  session : Option SessionPtr
  deriving DecidableEq

/-- The constructor of `Session` on a thread. -/
def Session.new {QThread : Type} (currentThread : QThread) : Session QThread :=
  ⟨currentThread, none⟩

/-- `StaticSessionInstances`, whose values may be null. -/
abbrev StaticSessionInstances (QThread : Type) := Finmap fun _ : QThread => Option SessionPtr

section Init

variable {QThread : Type} [DecidableEq QThread]

/-- `QHash::value`; the value of a missing key is null. -/
def value (instances : StaticSessionInstances QThread)
    (thread : QThread) : Option SessionPtr :=
  (instances.lookup thread).join

/-- `Session::init`. -/
def Session.init (self : Session QThread) (instances : StaticSessionInstances QThread) :
    Session QThread × StaticSessionInstances QThread :=
  let session := value instances self.sessionThread
  if self.session.isSome then (self, instances)
  else
    let self := { self with session := value instances self.sessionThread }
    if self.session.isSome then (self, instances)
    else
      -- The local variable `session` hides the member.
      let instances := instances.insert self.sessionThread session
      ({ self with session := value instances self.sessionThread }, instances)

end Init

/-- `static_session_instance` and the sessions constructed so far. -/
structure SessionStore (QThread : Type) where
  instances : StaticSessionInstances QThread
  sessions : List (Session QThread)

/-- A call by the program. -/
inductive SessionCall (QThread : Type) where
  /-- `Session()` on a thread. -/
  | construct (currentThread : QThread)
  /-- `init()` of a session. -/
  | init (self : SessionPtr)
  deriving DecidableEq

section Calls

variable {QThread : Type} [DecidableEq QThread]

/-- No session exists before the first call. -/
def SessionStore.empty : SessionStore QThread := ⟨∅, []⟩

/-- The effect of a call; there is no session behind a pointer that was not
constructed. -/
def SessionStore.call (state : SessionStore QThread) : SessionCall QThread → SessionStore QThread
  | .construct currentThread => { state with sessions := state.sessions ++ [.new currentThread] }
  | .init self =>
      match state.sessions[self]? with
      | none => state
      | some session =>
          let (after, instances) := session.init state.instances
          { instances, sessions := state.sessions.set self after }

/-- The state after a sequence of calls. -/
def SessionStore.run (calls : List (SessionCall QThread)) : SessionStore QThread :=
  calls.foldl SessionStore.call .empty

/-- A session that was constructed before one of its `init()` calls. -/
def Initialised (calls : List (SessionCall QThread)) (self : SessionPtr) : Prop :=
  ∃ before after, calls = before ++ .init self :: after ∧
    self < (SessionStore.run before).sessions.length

/-- The registry keeps one session for each thread: the initialised sessions of a
thread refer to one object, those of different threads to different ones, and no
binding changes. -/
structure PerThread (calls : List (SessionCall QThread)) : Prop where
  bound : ∀ self session, Initialised calls self →
    (SessionStore.run calls).sessions[self]? = some session → session.session ≠ none
  same : ∀ left right leftSession rightSession, Initialised calls left →
    Initialised calls right → (SessionStore.run calls).sessions[left]? = some leftSession →
    (SessionStore.run calls).sessions[right]? = some rightSession →
    leftSession.sessionThread = rightSession.sessionThread →
    leftSession.session = rightSession.session
  apart : ∀ left right leftSession rightSession, Initialised calls left →
    Initialised calls right → (SessionStore.run calls).sessions[left]? = some leftSession →
    (SessionStore.run calls).sessions[right]? = some rightSession →
    leftSession.sessionThread ≠ rightSession.sessionThread →
    leftSession.session ≠ rightSession.session
  stable : ∀ before after (self : SessionPtr) session pointer, calls = before ++ after →
    (SessionStore.run before).sessions[self]? = some session →
    session.session = some pointer → ∃ later,
      (SessionStore.run calls).sessions[self]? = some later ∧ later.session = some pointer

/-! ## Nothing is ever bound -/

/-- Every value of the registry and every session pointer is null. -/
structure SessionStore.Unbound (state : SessionStore QThread) : Prop where
  instances : ∀ thread, value state.instances thread = none
  sessions : ∀ session ∈ state.sessions, session.session = none

omit [DecidableEq QThread] in
theorem new_session (currentThread : QThread) : (Session.new currentThread).session = none :=
  rfl

theorem value_insert_none {instances : StaticSessionInstances QThread}
    (unbound : ∀ thread, value instances thread = none) (key thread : QThread) :
    value (instances.insert key none) thread = none := by
  unfold value
  by_cases same : thread = key
  · rw [same, Finmap.lookup_insert]
    rfl
  · rw [Finmap.lookup_insert_of_ne _ same]
    exact unbound thread

/-- `init` inserts the null pointer it has read and reads it back. -/
theorem unbound_init {instances : StaticSessionInstances QThread}
    (unbound : ∀ thread, value instances thread = none) {self : Session QThread}
    (null : self.session = none) :
    (self.init instances).1.session = none ∧
      ∀ thread, value (self.init instances).2 thread = none := by
  have inserted := value_insert_none unbound self.sessionThread
  simp only [Session.init, null, unbound, Option.isSome_none, Bool.false_eq_true,
    ↓reduceIte]
  exact ⟨inserted _, inserted⟩

theorem SessionStore.Unbound.call {state : SessionStore QThread} (unbound : state.Unbound)
    (call : SessionCall QThread) : (state.call call).Unbound := by
  cases call with
  | construct currentThread =>
      refine ⟨unbound.instances, ?_⟩
      intro session member
      rcases List.mem_append.mp member with old | new
      · exact unbound.sessions session old
      · rw [List.mem_singleton.mp new, new_session]
  | init self =>
      cases found : state.sessions[self]? with
      | none =>
          simp only [SessionStore.call, found]
          exact unbound
      | some session =>
          simp only [SessionStore.call, found]
          have ⟨null, stillUnbound⟩ := unbound_init unbound.instances
            (unbound.sessions session (List.mem_of_getElem? found))
          refine ⟨stillUnbound, ?_⟩
          intro other member
          rcases List.mem_or_eq_of_mem_set member with old | rfl
          · exact unbound.sessions other old
          · exact null

theorem unbound_run (calls : List (SessionCall QThread)) : (SessionStore.run calls).Unbound := by
  induction calls using List.reverseRecOn with
  | nil => exact ⟨fun _ => rfl, by simp [SessionStore.run, SessionStore.empty]⟩
  | append_singleton earlier call ih =>
      rw [SessionStore.run, List.foldl_append]
      exact ih.call call

/-! ## When the promise is kept -/

theorem length_le_call (state : SessionStore QThread) (call : SessionCall QThread) :
    state.sessions.length ≤ (state.call call).sessions.length := by
  cases call with
  | construct currentThread => simp [SessionStore.call]
  | init self =>
      cases found : state.sessions[self]? <;> simp [SessionStore.call, found]

theorem length_le_foldl (state : SessionStore QThread) (calls : List (SessionCall QThread)) :
    state.sessions.length ≤ (calls.foldl SessionStore.call state).sessions.length := by
  induction calls generalizing state with
  | nil => exact Nat.le_refl _
  | cons call rest ih => exact Nat.le_trans (length_le_call state call) (ih _)

/-- An initialised session still exists at the end. -/
theorem Initialised.exists_session {calls : List (SessionCall QThread)} {self : SessionPtr}
    (initialised : Initialised calls self) :
    ∃ session, (SessionStore.run calls).sessions[self]? = some session := by
  rcases initialised with ⟨before, after, rfl, constructed⟩
  have kept := length_le_foldl (SessionStore.run before) (.init self :: after)
  rw [SessionStore.run, List.foldl_append]
  exact ⟨_, List.getElem?_eq_getElem (Nat.lt_of_lt_of_le constructed kept)⟩

/-- The registry keeps its promise exactly as long as no session is initialised:
`init` leaves every session without one. -/
theorem perThread_iff (calls : List (SessionCall QThread)) :
    PerThread calls ↔ ∀ self, ¬Initialised calls self := by
  constructor
  · intro perThread self initialised
    have ⟨session, found⟩ := initialised.exists_session
    have null := (unbound_run calls).sessions session (List.mem_of_getElem? found)
    exact perThread.bound self session initialised found null
  · intro never
    constructor
    · intro self _ initialised
      exact absurd initialised (never self)
    · intro left _ _ _ initialised
      exact absurd initialised (never left)
    · intro left _ _ _ initialised
      exact absurd initialised (never left)
    · intro before _ _ session pointer _ found established
      have null := (unbound_run before).sessions session (List.mem_of_getElem? found)
      rw [null] at established
      contradiction

end Calls

/-- One session on one thread, initialised once. -/
theorem not_perThread_init : ¬PerThread [SessionCall.construct 0, .init 0] := by
  intro perThread
  apply perThread.bound 0 ⟨0, none⟩ ⟨[.construct 0], [], rfl, by decide⟩ _ rfl
  decide

end QApr.Sessions
