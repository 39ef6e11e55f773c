import QApr.Library.Text

/-!
# Meta-objects of scheduler classes

The part of Qt's introspection and of the annotation library that registration
and invocation read.  A class is identified with its meta-object; annotations
are what `annotation()` returns on an instance of the class.
-/

namespace QApr.Scheduler

abbrev QString := List Char

/-- `QMetaMethod::MethodType`. -/
inductive MethodType where
  | method
  | signal
  | slot
  | constructor
  deriving DecidableEq, Repr

/-- Annotations of one method, `none` where the annotation is absent. -/
structure MethodAnnotation where
  scSchedule : Bool
  scExecScope : Option (List QString)
  scExecGroup : Option (List QString)
  scExecOrder : Option Int
  deriving DecidableEq, Repr

/-- A method as its class declares it. -/
structure MethodDecl where
  name : QString
  methodType : MethodType
  annotation : MethodAnnotation
  deriving DecidableEq, Repr

/-- A class: its methods include the inherited ones, in index order. -/
structure QMetaObject where
  className : QString
  /-- `inherits(&Scheduler::staticMetaObject)`. -/
  inheritsScheduler : Bool
  /-- Whether a constructor taking a parent object is `Q_INVOKABLE`. -/
  invokableConstructor : Bool
  scSynchronize : Option Bool
  methods : List MethodDecl
  deriving DecidableEq, Repr

/-- `QMetaMethod`: a declaration together with its index in the class. -/
structure QMetaMethod where
  methodIndex : Nat
  decl : MethodDecl
  deriving DecidableEq, Repr

/-- An object created through its meta-object. -/
structure QObject where
  metaObject : QMetaObject
  deriving DecidableEq, Repr

namespace QMetaObject

variable (metaObject : QMetaObject)

def methodCount : Nat :=
  metaObject.methods.length

/-- `QMetaObject::method`; `none` is the invalid method. -/
def method (index : Nat) : Option QMetaMethod :=
  metaObject.methods[index]?.map fun decl => ⟨index, decl⟩

/-- `QMetaObject::newInstance`; `none` is the null pointer. -/
def newInstance : Option QObject :=
  if metaObject.invokableConstructor then some ⟨metaObject⟩ else none

theorem method_eq_some_iff {index : Nat} {method : QMetaMethod} :
    metaObject.method index = some method ↔
      metaObject.methods[index]? = some method.decl ∧ method.methodIndex = index := by
  simp only [QMetaObject.method, Option.map_eq_some_iff]
  constructor
  · intro given
    rcases given with ⟨decl, found, rfl⟩
    exact ⟨found, rfl⟩
  · intro given
    rcases given with ⟨found, rfl⟩
    exact ⟨method.decl, found, rfl⟩

theorem methodIndex_of_method {index : Nat} {method : QMetaMethod}
    (found : metaObject.method index = some method) : method.methodIndex = index :=
  (metaObject.method_eq_some_iff.mp found).2

theorem method_eq_none_iff {index : Nat} :
    metaObject.method index = none ↔ metaObject.methodCount ≤ index := by
  simp [QMetaObject.method, methodCount]

end QMetaObject

/-- `dynamic_cast<Scheduler *>`; the result is the same object. -/
def QObject.toScheduler (object : QObject) : Option QObject :=
  if object.metaObject.inheritsScheduler then some object else none

/-- The object that `newInstance` followed by the cast yields, if any. -/
def QMetaObject.newScheduler (metaObject : QMetaObject) : Option QObject :=
  metaObject.newInstance.bind QObject.toScheduler

theorem QMetaObject.newScheduler_eq_some_iff {metaObject : QMetaObject}
    {object : QObject} :
    metaObject.newScheduler = some object ↔
      metaObject.invokableConstructor = true ∧ metaObject.inheritsScheduler = true ∧
        object = ⟨metaObject⟩ := by
  cases constructible : metaObject.invokableConstructor <;>
    cases inherits : metaObject.inheritsScheduler <;>
    simp [newScheduler, newInstance, QObject.toScheduler, constructible, inherits,
      eq_comm]

/-- The methods every class inherits from `QObject`. -/
def qObjectMethods : List MethodDecl :=
  let inherited (name : String) (methodType : MethodType) : MethodDecl :=
    ⟨name.toList, methodType, ⟨false, none, none, none⟩⟩
  [inherited "destroyed" .signal, inherited "destroyed" .signal,
    inherited "objectNameChanged" .signal, inherited "deleteLater" .slot]

/-- A method declared with `Q_APR_SCHEDULE_METHOD`. -/
def scheduleMethod (name : String) (scExecScope scExecGroup : Option (List QString))
    (scExecOrder : Option Int) : MethodDecl :=
  ⟨name.toList, .method, ⟨true, scExecScope, scExecGroup, scExecOrder⟩⟩

/-- The signal `start##METHOD` that `Q_APR_SCHEDULE_METHOD` adds. -/
def MethodDecl.startSignal (decl : MethodDecl) : MethodDecl :=
  ⟨"start".toList ++ decl.name, .signal, ⟨false, none, none, none⟩⟩

/-- A class declared with `Q_APR_SCHEDULE_CONSTRUCTOR`, whose methods are declared with
`Q_APR_SCHEDULE_METHOD`; the signals of a class come before its other methods.  What
`Q_ANNOTATION` may add to a class is left out. -/
def schedulerClass (className : String) (scSynchronize : Option Bool)
    (methods : List MethodDecl) : QMetaObject where
  className := className.toList
  inheritsScheduler := true
  invokableConstructor := true
  scSynchronize
  methods := qObjectMethods ++ methods.map MethodDecl.startSignal ++ methods

end QApr.Scheduler
