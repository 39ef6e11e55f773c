import QApr.Application.Host
import QApr.Library.LastWriter
import QApr.Library.Simulation

/-!
# Hosts over time

The getters of `Host` store the defaults that they return, and the setters compare with
what is stored.  Seen through its getters, a host is nevertheless a record of five values
that only the setters change, and no change goes without its signal.
-/

namespace QApr.Application

open QApr.Qt QApr.Library

/-- The properties of `Host`. -/
inductive HostProperty where
  | protocol
  | hostName
  | port
  | headers
  | basePath
  deriving DecidableEq, Repr

/-- A hash in the order in which `QHashIterator` visits its entries. -/
structure IteratedHash where
  hash : QVariantHash
  entries : List (List Char × QVariant)
  iterates : ∀ key value, (key, value) ∈ entries ↔ QVariantHash.find hash key = some value

/-- The values of a hash under all keys. -/
abbrev HashValues := List Char → Option QVariant

/-- A call on a `Host`. -/
inductive HostCall where
  | isValid
  | isEmpty
  | protocol
  | setProtocol (newProtocol : QByteArray)
  | resetProtocol
  | hostName
  | setHostName (newHostName : QByteArray)
  | resetHostName
  | port
  | setPort (newPort : Int)
  | resetPort
  | headers
  | setHeaders (newHeaders : QVariantHash)
  | addHeaders (newHeaders : IteratedHash)
  | resetHeaders
  | basePath
  | setBasePath (newBasePath : QByteArray)
  | resetBasePath

/-- Whether a call is one of a setter. -/
def HostCall.writes : HostCall → Bool
  | isValid | isEmpty | protocol | hostName | port | headers | basePath => false
  | setProtocol _ | resetProtocol | setHostName _ | resetHostName | setPort _ | resetPort
  | setHeaders _ | addHeaders _ | resetHeaders | setBasePath _ | resetBasePath => true

/-- What a call returns. -/
inductive HostValue where
  | void
  | bool (value : Bool)
  | bytes (value : QByteArray)
  | int (value : Int)
  | hash (values : HashValues)

namespace Host

section Calls

-- `same` is `operator==` of `QVariantHash`, which compares the values under all keys.
variable (network : Network) (same : HashValues → HashValues → Bool) (p : HostPvt)

/-- The host after `hostName()`. -/
def storeHostName : HostPvt := { p with hostName := hostName network p }

/-- The host after `port()`. -/
def storePort : HostPvt := { p with port := port network p }

/-- The host after `basePath()`. -/
def storeBasePath : HostPvt := { p with basePath := basePath p }

/-- `Host::isValid`. -/
def isValid : HostPvt × Bool :=
  if !(protocol network p).isEmpty then (p, true)
  else
    let p := storeHostName network p
    if !p.hostName.isEmpty then (p, true)
    else
      let p := storeBasePath p
      if !p.basePath.isEmpty then (p, true)
      else if !(headers p).isEmpty then (p, true)
      else (p, false)

/-- `Host::isEmpty`, all of whose branches return `true`. -/
def isEmpty : HostPvt × Bool :=
  if !(protocol network p).isEmpty then (p, true)
  else
    let p := storeHostName network p
    if !p.hostName.isEmpty then (p, true)
    else
      let p := storePort network p
      if p.port > 0 then (p, true)
      else
        let p := storeBasePath p
        if !p.basePath.isEmpty then (p, true) else (p, true)

/-- The body of the setters: a new value is stored and signalled. -/
def assign (unchanged : Bool) (property : HostProperty) (changed : HostPvt) :
    HostPvt × Option HostProperty :=
  if unchanged then (p, none) else (changed, some property)

/-- `Host::setProtocol`. -/
def setProtocol (newProtocol : QByteArray) : HostPvt × Option HostProperty :=
  assign p (decide (p.protocol = newProtocol)) .protocol { p with protocol := newProtocol }

/-- `Host::setHostName`. -/
def setHostName (newHostName : QByteArray) : HostPvt × Option HostProperty :=
  assign p (decide (p.hostName = newHostName)) .hostName { p with hostName := newHostName }

/-- `Host::setPort`. -/
def setPort (newPort : Int) : HostPvt × Option HostProperty :=
  assign p (decide (p.port = newPort)) .port { p with port := newPort }

/-- `Host::setHeaders`. -/
def setHeaders (newHeaders : QVariantHash) : HostPvt × Option HostProperty :=
  assign p (same (QVariantHash.find p.headers) (QVariantHash.find newHeaders)) .headers
    { p with headers := newHeaders }

/-- `Host::addHeaders`. -/
def addHeaders (newHeaders : IteratedHash) : HostPvt × Option HostProperty :=
  ({ p with
      headers := newHeaders.entries.foldl
        (fun headers entry => QVariantHash.insert headers entry.1 entry.2) p.headers },
    some .headers)

/-- `Host::setBasePath`. -/
def setBasePath (newBasePath : QByteArray) : HostPvt × Option HostProperty :=
  assign p (decide (p.basePath = newBasePath)) .basePath { p with basePath := newBasePath }

/-- The host after a call, what the call returns, and the signal that it emits. -/
def call : HostCall → HostPvt × HostValue × Option HostProperty
  | .isValid => ((isValid network p).1, .bool (isValid network p).2, none)
  | .isEmpty => ((isEmpty network p).1, .bool (isEmpty network p).2, none)
  | .protocol => (p, .bytes (protocol network p), none)
  | .setProtocol newProtocol => write (setProtocol p newProtocol)
  | .resetProtocol => write (setProtocol p "http".toList)
  | .hostName => (storeHostName network p, .bytes (hostName network p), none)
  | .setHostName newHostName => write (setHostName p newHostName)
  | .resetHostName => write (setHostName p [])
  | .port => (storePort network p, .int (port network p), none)
  | .setPort newPort => write (setPort p newPort)
  | .resetPort => write (setPort p (-1))
  | .headers => (p, .hash (QVariantHash.find (headers p)), none)
  | .setHeaders newHeaders => write (setHeaders same p newHeaders)
  | .addHeaders newHeaders => write (addHeaders p newHeaders)
  | .resetHeaders => write (setHeaders same p [])
  | .basePath => (storeBasePath p, .bytes (basePath p), none)
  | .setBasePath newBasePath => write (setBasePath p newBasePath)
  | .resetBasePath => write (setBasePath p [])
where
  write (result : HostPvt × Option HostProperty) : HostPvt × HostValue × Option HostProperty :=
    (result.1, .void, result.2)

/-- A host as a machine. -/
def machine : Machine HostPvt HostCall HostValue where
  step p hostCall := ((call network same p hostCall).1, (call network same p hostCall).2.1)

end Calls

end Host

/-! ## The values of a host -/

/-- The values that the getters of a host return. -/
@[ext] structure HostView where
  protocol : QByteArray
  hostName : QByteArray
  port : Int
  headers : HashValues
  basePath : QByteArray

namespace HostView

variable (network : Network) (same : HashValues → HashValues → Bool) (view : HostView)

/-- The value of a property. -/
def value : HostProperty → HostValue
  | .protocol => .bytes view.protocol
  | .hostName => .bytes view.hostName
  | .port => .int view.port
  | .headers => .hash view.headers
  | .basePath => .bytes view.basePath

def setProtocol (newProtocol : QByteArray) : HostView :=
  { view with protocol := if isBlank newProtocol then network.httpProtocol else newProtocol }

def setHostName (newHostName : QByteArray) : HostView :=
  { view with hostName := if newHostName.isEmpty then network.localhost else newHostName }

def setPort (newPort : Int) : HostView :=
  { view with port := if newPort ≤ 0 then network.httpPortDefault else newPort }

def setHeaders (newHeaders : QVariantHash) : HostView :=
  if same view.headers (QVariantHash.find newHeaders) then view
  else { view with headers := QVariantHash.find newHeaders }

/-- The new headers are put over the old ones. -/
def addHeaders (newHeaders : QVariantHash) : HostView :=
  { view with headers := fun key => (QVariantHash.find newHeaders key).or (view.headers key) }

def setBasePath (newBasePath : QByteArray) : HostView :=
  { view with basePath := if isBlank newBasePath then ['/'] else newBasePath }

/-- A call: getters change nothing, and both checks say yes of every host. -/
def call : HostCall → HostView × HostValue
  | .isValid | .isEmpty => (view, .bool true)
  | .protocol => (view, view.value .protocol)
  | .setProtocol newProtocol => (view.setProtocol network newProtocol, .void)
  | .resetProtocol => (view.setProtocol network "http".toList, .void)
  | .hostName => (view, view.value .hostName)
  | .setHostName newHostName => (view.setHostName network newHostName, .void)
  | .resetHostName => (view.setHostName network [], .void)
  | .port => (view, view.value .port)
  | .setPort newPort => (view.setPort network newPort, .void)
  | .resetPort => (view.setPort network (-1), .void)
  | .headers => (view, view.value .headers)
  | .setHeaders newHeaders => (view.setHeaders same newHeaders, .void)
  | .addHeaders newHeaders => (view.addHeaders newHeaders.hash, .void)
  | .resetHeaders => (view.setHeaders same [], .void)
  | .basePath => (view, view.value .basePath)
  | .setBasePath newBasePath => (view.setBasePath newBasePath, .void)
  | .resetBasePath => (view.setBasePath [], .void)

/-- The record of values as a machine. -/
def machine : Machine HostView HostCall HostValue := ⟨call network same⟩

end HostView

/-- The values of a host. -/
def Host.view (network : Network) (p : HostPvt) : HostView where
  protocol := Host.protocol network p
  hostName := Host.hostName network p
  port := Host.port network p
  headers := QVariantHash.find p.headers
  basePath := Host.basePath p

/-- A host is the record of the values that its getters return. -/
structure HostFaithful (network : Network) (same : HashValues → HashValues → Bool) : Prop where
  answers : ∀ p calls, (Host.machine network same).answers p calls =
    (HostView.machine network same).answers (Host.view network p) calls
  /-- Getters change no value, although they store defaults. -/
  silent : ∀ p calls,
    Host.view network ((Host.machine network same).after p (calls.filter HostCall.writes)) =
      Host.view network ((Host.machine network same).after p calls)
  /-- A value that a call changes is signalled by the call. -/
  notified : ∀ p hostCall property,
    (Host.view network (Host.call network same p hostCall).1).value property ≠
        (Host.view network p).value property →
      (Host.call network same p hostCall).2.2 = some property

section Proof

variable {network : Network} {same : HashValues → HashValues → Bool} {p : HostPvt}

namespace Host

/-! ## The getters -/

@[simp] theorem view_storeHostName : view network (storeHostName network p) = view network p := by
  have stored : hostName network (storeHostName network p) = hostName network p := by
    unfold storeHostName hostName
    split <;> simp_all
  exact HostView.ext rfl stored rfl rfl rfl

@[simp] theorem view_storePort : view network (storePort network p) = view network p := by
  have stored : port network (storePort network p) = port network p := by
    unfold storePort port
    split <;> simp_all
  exact HostView.ext rfl rfl stored rfl rfl

@[simp] theorem view_storeBasePath : view network (storeBasePath p) = view network p := by
  have stored : basePath (storeBasePath p) = basePath p := by
    unfold storeBasePath basePath
    split <;> simp_all
  exact HostView.ext rfl rfl rfl rfl stored

/-- There is always a base path. -/
theorem basePath_ne_nil : basePath p ≠ [] := by
  unfold basePath
  split
  next => exact List.cons_ne_nil _ _
  next visible =>
    intro empty
    rw [empty] at visible
    exact visible rfl

theorem view_isValid : view network (isValid network p).1 = view network p := by
  unfold isValid
  dsimp only
  split
  · rfl
  split
  · exact view_storeHostName
  split
  · rw [view_storeBasePath, view_storeHostName]
  split <;> rw [view_storeBasePath, view_storeHostName]

/-- The base path makes every host valid. -/
theorem isValid_snd : (isValid network p).2 = true := by
  have path : (storeBasePath (storeHostName network p)).basePath.isEmpty = false := by
    rw [List.isEmpty_eq_false_iff]
    exact basePath_ne_nil
  unfold isValid
  dsimp only
  split
  · rfl
  split
  · rfl
  rw [path]
  rfl

theorem view_isEmpty : view network (isEmpty network p).1 = view network p := by
  unfold isEmpty
  dsimp only
  split
  · rfl
  split
  · exact view_storeHostName
  split
  · rw [view_storePort, view_storeHostName]
  split <;> rw [view_storeBasePath, view_storePort, view_storeHostName]

theorem isEmpty_snd : (isEmpty network p).2 = true := by
  unfold isEmpty
  dsimp only
  repeat' split
  all_goals rfl

/-! ## The setters -/

section Assign

variable {unchanged : Bool} {property : HostProperty} {changed : HostPvt}

/-- A setter that compares with the stored value always stores the new one. -/
theorem assign_fst (keeps : unchanged = true → changed = p) :
    (assign p unchanged property changed).1 = changed := by
  unfold assign
  split
  next isSame => exact (keeps isSame).symm
  next => rfl

/-- A setter stores nothing without its signal. -/
theorem assign_cases : assign p unchanged property changed = (p, none) ∨
    assign p unchanged property changed = (changed, some property) := by
  unfold assign
  split
  · exact Or.inl rfl
  · exact Or.inr rfl

end Assign

theorem view_setProtocol (newProtocol : QByteArray) :
    view network (setProtocol p newProtocol).1 =
      (view network p).setProtocol network newProtocol := by
  rw [setProtocol, assign_fst]
  · rfl
  · intro isSame
    rw [← of_decide_eq_true isSame]

theorem view_setHostName (newHostName : QByteArray) :
    view network (setHostName p newHostName).1 =
      (view network p).setHostName network newHostName := by
  rw [setHostName, assign_fst]
  · rfl
  · intro isSame
    rw [← of_decide_eq_true isSame]

theorem view_setPort (newPort : Int) :
    view network (setPort p newPort).1 = (view network p).setPort network newPort := by
  rw [setPort, assign_fst]
  · rfl
  · intro isSame
    rw [← of_decide_eq_true isSame]

theorem view_setBasePath (newBasePath : QByteArray) :
    view network (setBasePath p newBasePath).1 =
      (view network p).setBasePath newBasePath := by
  rw [setBasePath, assign_fst]
  · rfl
  · intro isSame
    rw [← of_decide_eq_true isSame]

theorem view_setHeaders (newHeaders : QVariantHash) :
    view network (setHeaders same p newHeaders).1 =
      (view network p).setHeaders same newHeaders := by
  have headersEq : (view network p).headers = QVariantHash.find p.headers := rfl
  unfold setHeaders assign HostView.setHeaders
  rw [headersEq]
  split <;> rfl

/-- The entries of a hash are written over those that are there. -/
theorem find_foldl_insert (newHeaders : IteratedHash) (hash : QVariantHash)
    (key : List Char) :
    QVariantHash.find (newHeaders.entries.foldl
        (fun hash entry => QVariantHash.insert hash entry.1 entry.2) hash) key =
      (QVariantHash.find newHeaders.hash key).or (QVariantHash.find hash key) := by
  let written (entry : List Char × QVariant) : Option (Option QVariant) :=
    if entry.1 = key then some (some entry.2) else none
  have writes (hash : QVariantHash) (entry : List Char × QVariant) :
      QVariantHash.find (QVariantHash.insert hash entry.1 entry.2) key =
        (written entry).getD (QVariantHash.find hash key) := by
    by_cases hit : entry.1 = key
    · simp [written, ← hit]
    · simp [written, hit, QVariantHash.find_insert_of_ne hash (Ne.symm hit)]
  rw [@read_foldl _ _ _ written _ (fun hash => QVariantHash.find hash key) writes]
  cases last : lastWritten written newHeaders.entries with
  | none =>
      have absent : QVariantHash.find newHeaders.hash key = none := by
        apply Option.eq_none_iff_forall_ne_some.mpr
        intro value found
        have unwritten :=
          lastWritten_eq_none_iff.mp last _ ((newHeaders.iterates key value).mpr found)
        simp [written] at unwritten
      rw [absent, Option.none_or, Option.getD_none]
  | some value =>
      rcases exists_of_lastWritten_if last with ⟨entry, member, sameKey, sameValue⟩
      have found := (newHeaders.iterates _ _).mp member
      rw [← sameKey, found, ← sameValue, Option.some_or, Option.getD_some]

theorem view_addHeaders (newHeaders : IteratedHash) :
    view network (addHeaders p newHeaders).1 =
      (view network p).addHeaders newHeaders.hash := by
  apply HostView.ext
  · rfl
  · rfl
  · rfl
  · funext key
    exact find_foldl_insert newHeaders p.headers key
  · rfl

/-! ## The machines -/

/-- Every call does to the values of a host what it does to the record. -/
theorem simulates : Machine.Simulates (machine network same) (HostView.machine network same)
    (view network) where
  state := by
    intro p hostCall
    cases hostCall with
    | isValid => exact view_isValid
    | isEmpty => exact view_isEmpty
    | protocol => rfl
    | setProtocol newProtocol => exact view_setProtocol newProtocol
    | resetProtocol => exact view_setProtocol _
    | hostName => exact view_storeHostName
    | setHostName newHostName => exact view_setHostName newHostName
    | resetHostName => exact view_setHostName []
    | port => exact view_storePort
    | setPort newPort => exact view_setPort newPort
    | resetPort => exact view_setPort (-1)
    | headers => rfl
    | setHeaders newHeaders => exact view_setHeaders newHeaders
    | addHeaders newHeaders => exact view_addHeaders newHeaders
    | resetHeaders => exact view_setHeaders []
    | basePath => exact view_storeBasePath
    | setBasePath newBasePath => exact view_setBasePath newBasePath
    | resetBasePath => exact view_setBasePath []
  answer := by
    intro p hostCall
    cases hostCall with
    | isValid => exact congrArg HostValue.bool isValid_snd
    | isEmpty => exact congrArg HostValue.bool isEmpty_snd
    | _ => rfl

/-- The record is changed by setters only. -/
theorem step_getter (view : HostView) (hostCall : HostCall)
    (reads : hostCall.writes = false) :
    ((HostView.machine network same).step view hostCall).1 = view := by
  cases hostCall with
  | isValid | isEmpty | protocol | hostName | port | headers | basePath => rfl
  | _ => contradiction

/-- A setter of one property that shows a new value signals it. -/
theorem signal_assign {unchanged : Bool} {property other : HostProperty} {changed : HostPvt}
    (others : ∀ other, other ≠ property →
      (view network changed).value other = (view network p).value other)
    (shown : (view network (assign p unchanged property changed).1).value other ≠
      (view network p).value other) :
    (assign p unchanged property changed).2 = some other := by
  rcases @assign_cases p unchanged property changed with kept | stored
  · rw [kept] at shown
    exact absurd rfl shown
  · rw [stored] at shown ⊢
    by_contra differs
    exact shown (others other fun isSame => differs (congrArg some isSame.symm))

/-- A call that shows a new value signals it. -/
theorem signal_call {hostCall : HostCall} {property : HostProperty}
    (shown : (view network (call network same p hostCall).1).value property ≠
      (view network p).value property) :
    (call network same p hostCall).2.2 = some property := by
  cases hostCall with
  | isValid => exact absurd (congrArg (HostView.value · property) view_isValid) shown
  | isEmpty => exact absurd (congrArg (HostView.value · property) view_isEmpty) shown
  | hostName => exact absurd (congrArg (HostView.value · property) view_storeHostName) shown
  | port => exact absurd (congrArg (HostView.value · property) view_storePort) shown
  | basePath => exact absurd (congrArg (HostView.value · property) view_storeBasePath) shown
  | protocol | headers => exact absurd rfl shown
  | addHeaders newHeaders =>
      cases property with
      | headers => rfl
      | protocol | hostName | port | basePath => exact absurd rfl shown
  | setProtocol | resetProtocol | setHostName | resetHostName | setPort | resetPort
  | setHeaders | resetHeaders | setBasePath | resetBasePath =>
      apply signal_assign _ shown
      intro other differs
      cases other <;> first | rfl | exact absurd rfl differs

end Host

/-- For every call of a host in every state. -/
theorem hostFaithful (network : Network) (same : HashValues → HashValues → Bool) :
    HostFaithful network same where
  answers := Host.simulates.answers
  silent := by
    intro p calls
    rw [Host.simulates.after, Host.simulates.after, Machine.after_filter Host.step_getter]
  notified := by
    intro p hostCall property shown
    exact Host.signal_call shown

end Proof

end QApr.Application
