import QApr.Library.Loop

/-!
# The interface above an object

`irq()` of `QAPR_DECLARE_IRQ` and `ControllerPvt::req` walk up the parents of an object
to an `Interface`.  The walks differ in one branch: at a parent that is no interface,
`irq()` continues without going on to the next parent.
-/

namespace QApr.Interfaces

open QApr.Library

/-- A pointer to an object. -/
abbrev ObjectPtr := Nat

/-- A `QObject` as the walks see it. -/
structure QObject where
  pointer : ObjectPtr
  /-- The class of the object is `Interface` or derived from it. -/
  isInterface : Bool
  deriving DecidableEq, Repr

namespace QObject

variable (object : QObject)

/-- `metaObject()->inherits(&Interface::staticMetaObject)`. -/
def inherits : Bool := object.isInterface

/-- `dynamic_cast<Interface*>`; `none` is the null pointer. -/
def toInterface : Option ObjectPtr :=
  if object.isInterface then some object.pointer else none

end QObject

/-- The body of the loop of `irq()`, where `__parent` is the first object of those that
are left. -/
def irqBody : List QObject → Pass (List QObject) (Option ObjectPtr)
  | [] => .done none
  | parent :: rest =>
      -- `continue` comes before `__parent` is advanced.
      if !parent.inherits then .next (parent :: rest)
      else
        match parent.toInterface with
        | some interface => .done (some interface)
        | none => .next rest

/-- `irq()` of an object with the given parents, nearest first. -/
def irq (cached : Option ObjectPtr) (parents : List QObject) (fuel : Nat) :
    Option (Option ObjectPtr) :=
  match cached with
  | some interface => some (some interface)
  | none => runLoop irqBody fuel parents

/-- The body of the loop of `ControllerPvt::req`. -/
def reqBody : List QObject → Pass (List QObject) (Option ObjectPtr)
  | [] => .done none
  | parent :: rest =>
      if !parent.inherits then .next rest
      else
        match parent.toInterface with
        | some interface => .done (some interface)
        | none => .next rest

/-- `ControllerPvt::req`, which starts at the controller itself. -/
def ControllerPvt.req (request : Option ObjectPtr) (controller : QObject)
    (parents : List QObject) (fuel : Nat) : Option (Option ObjectPtr) :=
  match request with
  | some interface => some (some interface)
  | none => runLoop reqBody fuel (controller :: parents)

/-- The nearest interface of a chain of parents. -/
def nearestInterface (parents : List QObject) : Option ObjectPtr :=
  (parents.find? QObject.isInterface).map QObject.pointer

/-- A value of the member `___irq`: null, or what an earlier call has found. -/
def Cached (parents : List QObject) (cached : Option ObjectPtr) : Prop :=
  cached = none ∨ ∃ fuel, irq none parents fuel = some cached

/-- `irq()` terminates at the nearest interface, and so does `ControllerPvt::req` for a
controller with the same parents. -/
structure FindsInterface (parents : List QObject) : Prop where
  nearest : ∀ cached, Cached parents cached →
    ∃ fuel, irq cached parents fuel = some (nearestInterface parents)
  agrees : ∀ controller : QObject, controller.isInterface = false →
    ∃ fuel result, irq none parents fuel = some result ∧
      ControllerPvt.req none controller parents fuel = some result

/-! ## The walk of a controller -/

theorem nearestInterface_cons (object : QObject) (rest : List QObject) :
    nearestInterface (object :: rest) =
      if object.isInterface then some object.pointer else nearestInterface rest := by
  unfold nearestInterface
  cases found : object.isInterface <;> simp [found]

/-- A pass of the walk goes on to the next object, or stops at an interface. -/
theorem reqBody_cons (object : QObject) (rest : List QObject) :
    reqBody (object :: rest) =
      if object.isInterface then .done (some object.pointer) else .next rest := by
  cases found : object.isInterface <;>
    simp [reqBody, QObject.inherits, QObject.toInterface, found]

/-- The walk of a controller ends at the nearest interface. -/
theorem runLoop_reqBody {objects : List QObject} {fuel : Nat} (enough : objects.length < fuel) :
    runLoop reqBody fuel objects = some (nearestInterface objects) := by
  apply runLoop_of_measure List.length nearestInterface _ _ enough
  · intro objects after passes
    cases objects with
    | nil => contradiction
    | cons object rest =>
        rw [reqBody_cons] at passes
        cases found : object.isInterface with
        | true => simp [found] at passes
        | false =>
            simp only [found, Bool.false_eq_true, ↓reduceIte, Pass.next.injEq] at passes
            subst passes
            exact ⟨Nat.lt_succ_self _, by simp [nearestInterface_cons, found]⟩
  · intro objects result leaves
    cases objects with
    | nil =>
        cases leaves
        rfl
    | cons object rest =>
        rw [reqBody_cons] at leaves
        cases found : object.isInterface with
        | true =>
            simp only [found, ↓reduceIte, Pass.done.injEq] at leaves
            simp [nearestInterface_cons, found, leaves]
        | false => simp [found] at leaves

theorem ControllerPvt.req_eq {controller : QObject} (plain : controller.isInterface = false)
    {parents : List QObject} {fuel : Nat} (enough : parents.length + 1 < fuel) :
    ControllerPvt.req none controller parents fuel = some (nearestInterface parents) := by
  rw [ControllerPvt.req, runLoop_reqBody enough, nearestInterface_cons, plain]
  rfl

/-! ## The walk of `irq()` -/

/-- An object without a parent has no interface, and one whose parent is an interface
finds it. -/
theorem irq_of_head {parents : List QObject}
    (head : ∀ parent ∈ parents.head?, parent.isInterface = true) (fuel : Nat) :
    irq none parents (fuel + 1) = some (nearestInterface parents) := by
  cases parents with
  | nil => rfl
  | cons parent rest =>
      have isInterface := head parent rfl
      have leaves : irqBody (parent :: rest) = .done (some parent.pointer) := by
        simp [irqBody, QObject.inherits, QObject.toInterface, isInterface]
      rw [irq, runLoop_done leaves, nearestInterface_cons, isInterface]
      rfl

/-- At a parent that is no interface the walk stays forever. -/
theorem irq_of_plain_head {parent : QObject} (plain : parent.isInterface = false)
    (rest : List QObject) (fuel : Nat) : irq none (parent :: rest) fuel = none := by
  apply runLoop_of_fixed
  simp [irqBody, QObject.inherits, plain]

/-- `irq()` can return at all only where the nearest parent, if any, is an interface. -/
theorem head_of_irq {parents : List QObject} {fuel : Nat} {result : Option ObjectPtr}
    (returns : irq none parents fuel = some result) :
    ∀ parent ∈ parents.head?, parent.isInterface = true := by
  intro parent isHead
  cases parents with
  | nil => contradiction
  | cons first rest =>
      cases isHead
      cases plain : parent.isInterface with
      | true => rfl
      | false =>
          rw [irq_of_plain_head plain] at returns
          contradiction

/-- `irq()` finds the interface exactly when the object has no parent or its parent is
an interface. -/
theorem findsInterface_iff (parents : List QObject) :
    FindsInterface parents ↔ ∀ parent ∈ parents.head?, parent.isInterface = true := by
  constructor
  · intro finds
    have ⟨fuel, returns⟩ := finds.nearest none (Or.inl rfl)
    exact head_of_irq returns
  · intro head
    constructor
    · intro cached stored
      rcases stored with rfl | ⟨fuel, returns⟩
      · exact ⟨1, irq_of_head head 0⟩
      · cases fuel with
        | zero => contradiction
        | succ fuel =>
            have found := Option.some.inj ((irq_of_head head fuel).symm.trans returns)
            subst found
            refine ⟨fuel + 1, ?_⟩
            cases nearest : nearestInterface parents with
            | none => rw [irq_of_head head, nearest]
            | some interface => rfl
    · intro controller plain
      refine ⟨parents.length + 2, nearestInterface parents, irq_of_head head _, ?_⟩
      exact ControllerPvt.req_eq plain (Nat.lt_succ_self _)

/-- An object two levels below its interface never finds it. -/
theorem not_findsInterface_grandchild : ¬FindsInterface [⟨1, false⟩, ⟨0, true⟩] := by
  intro finds
  have ⟨fuel, returns⟩ := finds.nearest none (Or.inl rfl)
  rw [irq_of_plain_head rfl] at returns
  contradiction

end QApr.Interfaces
