import QApr.Interfaces.Irq
import QApr.Interfaces.Request
import QApr.Library.LastWriter
import QApr.Library.Runs

/-!
# The force-rollback flag

Controllers and objects with `QAPR_DECLARE_IRQ` pass `setTransactionRollbackForce` and
`transactionRollbackForce` on to the interface above them, where `requestAfterInvoke`
reads the flag.  The module compares what the accessors return with the value that was
set last.
-/

namespace QApr.Interfaces

open QApr.Library

/-- An object between an interface and the objects below it. -/
inductive MemberKind where
  /-- A `QApr::Controller`. -/
  | controller
  /-- An object that declares `QAPR_DECLARE_IRQ`. -/
  | declaresIrq
  deriving DecidableEq, Repr

/-- A member of a family. -/
structure Member where
  pointer : ObjectPtr
  kind : MemberKind
  deriving DecidableEq, Repr

/-- A member is no interface itself. -/
def Member.object (member : Member) : QObject := ⟨member.pointer, false⟩

/-- A chain of objects under an interface, from its child downwards. -/
structure Family where
  interface : ObjectPtr
  /-- The parents of the interface, nearest first. -/
  above : List QObject
  members : List Member

/-- One of the objects through which the flag is reached. -/
inductive Accessor (size : Nat) where
  | interface
  | member (position : Fin size)
  deriving DecidableEq, Repr

/-- A use of the flag. -/
inductive FlagCall (size : Nat) where
  | setTransactionRollbackForce (accessor : Accessor size) (value : Bool)
  | transactionRollbackForce (accessor : Accessor size)
  /-- `p->transactionRollbackForce` in `requestAfterInvoke`. -/
  | requestAfterInvoke
  deriving DecidableEq, Repr

/-- The interfaces, and what each member has stored in `request` or `___irq`. -/
structure FamilyState (Database Status : Type) where
  interfaces : ObjectPtr → Interface Database Status
  stored : Nat → Option ObjectPtr

namespace FamilyState

variable {Database Status : Type} (state : FamilyState Database Status)

/-- `Interface::transactionRollbackForce`. -/
def force (interface : ObjectPtr) : Bool :=
  (state.interfaces interface).transactionRollbackForce

/-- `Interface::setTransactionRollbackForce`. -/
def setForce (interface : ObjectPtr) (value : Bool) : FamilyState Database Status :=
  { state with
    interfaces := Function.update state.interfaces interface
      { state.interfaces interface with transactionRollbackForce := value } }

/-- A member stores the interface that it has found. -/
def store (position : Nat) (found : Option ObjectPtr) : FamilyState Database Status :=
  { state with stored := Function.update state.stored position found }

@[simp] theorem force_setForce (interface : ObjectPtr) (value : Bool) :
    (state.setForce interface value).force interface = value := by
  simp [force, setForce]

@[simp] theorem force_store (position : Nat) (found : Option ObjectPtr)
    (interface : ObjectPtr) : (state.store position found).force interface =
      state.force interface :=
  rfl

end FamilyState

namespace Family

variable (family : Family)

/-- The calls that can be made in the family. -/
abbrev Call := FlagCall family.members.length

/-- The parents of the member at a position, nearest first. -/
def parents (position : Fin family.members.length) : List QObject :=
  ((family.members.take position).map Member.object).reverse ++
    ⟨family.interface, true⟩ :: family.above

/-- `p->req()` or `irq()` of a member. -/
def resolve (position : Fin family.members.length) (stored : Option ObjectPtr)
    (fuel : Nat) : Option (Option ObjectPtr) :=
  let member := family.members.get position
  match member.kind with
  | .controller => ControllerPvt.req stored member.object (family.parents position) fuel
  | .declaresIrq => irq stored (family.parents position) fuel

/-- `irq()` of every object that declares it resolves to the interface. -/
def Resolves : Prop :=
  ∀ position, (family.members.get position).kind = .declaresIrq →
    ∃ fuel, irq none (family.parents position) fuel = some (some family.interface)

section Calls

variable {Database Status : Type} (fuel : Nat)

/-- A call, with the value that it reads, if it does. -/
def call (state : FamilyState Database Status) :
    family.Call → Option (FamilyState Database Status × Option Bool)
  | .setTransactionRollbackForce .interface value =>
      some (state.setForce family.interface value, none)
  | .transactionRollbackForce .interface => some (state, some (state.force family.interface))
  | .requestAfterInvoke => some (state, some (state.force family.interface))
  | .setTransactionRollbackForce (.member position) value => do
      let found ← family.resolve position (state.stored position) fuel
      let state := state.store position found
      match found with
      | none => some (state, none)
      | some interface => some (state.setForce interface value, none)
  | .transactionRollbackForce (.member position) => do
      let found ← family.resolve position (state.stored position) fuel
      let state := state.store position found
      match found, (family.members.get position).kind with
      | none, _ => some (state, some false)
      | some interface, .controller => some (state, some (state.force interface))
      -- The macro calls the accessor of the interface and returns `true`.
      | some _, .declaresIrq => some (state, some true)

/-- A sequence of calls, with the values that are read. -/
def run (state : FamilyState Database Status) :
    List family.Call → Option (FamilyState Database Status × List Bool)
  | [] => some (state, [])
  | call :: rest => do
      let (state, read) ← family.call fuel state call
      let (state, reads) ← run state rest
      some (state, read.toList ++ reads)

end Calls

end Family

/-- The family after its construction. -/
def FamilyState.initial {Database Status : Type} (server : Server Database) (co : Status) :
    FamilyState Database Status where
  interfaces _ := .new server co
  stored _ := none

/-! ## What should be read -/

/-- The value that a call sets. -/
def FlagCall.written {size : Nat} : FlagCall size → Option Bool
  | .setTransactionRollbackForce _ value => some value
  | _ => none

/-- Whether a call reads the flag. -/
def FlagCall.reads {size : Nat} : FlagCall size → Bool
  | .setTransactionRollbackForce _ _ => false
  | _ => true

/-- The value that was set last, initially `false`. -/
def lastSet {size : Nat} (calls : List (FlagCall size)) : Bool :=
  (lastWritten FlagCall.written calls).getD false

/-- The values that the reads of a sequence of calls should return, after some calls. -/
def expectedReads {size : Nat} (earlier : List (FlagCall size)) :
    List (FlagCall size) → List Bool
  | [] => []
  | call :: rest =>
      (if call.reads then [lastSet earlier] else []) ++ expectedReads (earlier ++ [call]) rest

/-- All calls return, every read returns the value that was set last, and
`requestAfterInvoke` chooses between commit and rollback by it. -/
def SharesFlag {Database Status : Type} (family : Family) (server : Server Database)
    (co : Status) (calls : List family.Call) : Prop :=
  ∃ enough, ∀ fuel, enough ≤ fuel → ∃ state,
    family.run fuel (.initial server co) calls = some (state, expectedReads [] calls) ∧
    ∀ isOK outcomes,
      (state.interfaces family.interface).finish isOK outcomes =
        let interface := state.interfaces family.interface
        { interface with
          store :=
            if lastSet calls || !isOK interface.co then interface.store.rollback outcomes.rollback
            else interface.store.commit outcomes.commit }

/-! ## Members find the interface -/

namespace Family

variable {family : Family}

/-- The nearest interface above every member is that of the family. -/
theorem nearestInterface_parents (position : Fin family.members.length) :
    nearestInterface (family.parents position) = some family.interface := by
  have plain : ∀ object ∈ ((family.members.take position).map Member.object).reverse,
      ¬object.isInterface = true := by
    intro object member
    rcases List.mem_map.mp (List.mem_reverse.mp member) with ⟨_, _, rfl⟩
    exact Bool.false_ne_true
  rw [nearestInterface, parents, List.find?_append, List.find?_eq_none.mpr plain]
  rfl

theorem length_parents_le (position : Fin family.members.length) :
    (family.parents position).length ≤ family.members.length + family.above.length := by
  have inside := position.isLt
  simp only [parents, List.length_append, List.length_reverse, List.length_map,
    List.length_take, List.length_cons]
  omega

/-- A number of passes after which every walk in the family has ended. -/
def enough (family : Family) : Nat := family.members.length + family.above.length + 2

theorem resolve_eq (resolves : family.Resolves) (position : Fin family.members.length)
    {stored : Option ObjectPtr} (valid : stored = none ∨ stored = some family.interface)
    {fuel : Nat} (long : family.enough ≤ fuel) :
    family.resolve position stored fuel = some (some family.interface) := by
  unfold resolve
  cases kind : (family.members.get position).kind with
  | controller =>
      simp only [kind]
      rcases valid with rfl | rfl
      · have bound := length_parents_le position
        rw [← nearestInterface_parents position]
        apply ControllerPvt.req_eq rfl
        unfold enough at long
        omega
      · rfl
  | declaresIrq =>
      simp only [kind]
      rcases valid with rfl | rfl
      · rcases resolves position kind with ⟨_, returns⟩
        cases fuel with
        | zero => contradiction
        | succ fuel =>
            rw [← nearestInterface_parents position]
            exact irq_of_head (head_of_irq returns) fuel
      · rfl

end Family

/-! ## What is read -/

section Reads

variable {family : Family} {Database Status : Type}

/-- A read through an object with `QAPR_DECLARE_IRQ`. -/
def Family.ThroughIrq (family : Family) : family.Call → Prop
  | .transactionRollbackForce (.member position) =>
      (family.members.get position).kind = .declaresIrq
  | _ => False

instance (call : family.Call) : Decidable (family.ThroughIrq call) := by
  unfold Family.ThroughIrq
  split <;> infer_instance

/-- The values that the reads of a sequence of calls do return, after some calls. -/
def Family.returnedReads (family : Family) (earlier : List family.Call) :
    List family.Call → List Bool
  | [] => []
  | call :: rest =>
      (if family.ThroughIrq call then [true]
        else if call.reads then [lastSet earlier] else []) ++
      family.returnedReads (earlier ++ [call]) rest

/-- The state after some calls: the members have stored no other interface, whose flag
has the value that was set last. -/
structure FamilyState.Follows (family : Family) (earlier : List family.Call)
    (state : FamilyState Database Status) : Prop where
  stored : ∀ position, state.stored position = none ∨
    state.stored position = some family.interface
  force : state.force family.interface = lastSet earlier

@[simp] theorem lastSet_snoc {size : Nat} (earlier : List (FlagCall size))
    (call : FlagCall size) :
    lastSet (earlier ++ [call]) = call.written.getD (lastSet earlier) := by
  rw [lastSet, lastWritten_snoc]
  cases call.written <;> rfl

theorem follows_initial (server : Server Database) (co : Status) :
    (FamilyState.initial server co).Follows family [] :=
  ⟨fun _ => Or.inl rfl, rfl⟩

namespace FamilyState.Follows

variable {earlier : List family.Call} {state : FamilyState Database Status}
  (follows : state.Follows family earlier)
include follows

/-- A member stores the interface. -/
theorem store (position : Nat) :
    (state.store position (some family.interface)).Follows family earlier where
  stored other := by
    simp only [FamilyState.store, Function.update_apply]
    split
    · exact Or.inr rfl
    · exact follows.stored other
  force := follows.force

/-- A call that sets the flag of the interface. -/
theorem setForce {call : family.Call} {value : Bool} (written : call.written = some value) :
    (state.setForce family.interface value).Follows family (earlier ++ [call]) where
  stored := follows.stored
  force := by rw [force_setForce, lastSet_snoc, written, Option.getD_some]

/-- A call that sets nothing. -/
theorem keep {call : family.Call} (written : call.written = none) :
    state.Follows family (earlier ++ [call]) where
  stored := follows.stored
  force := by rw [follows.force, lastSet_snoc, written, Option.getD_none]

/-- What a call reads, and that the state follows it. -/
theorem call (resolves : family.Resolves) {fuel : Nat} (long : family.enough ≤ fuel)
    (call : family.Call) :
    ∃ after, family.call fuel state call =
        some (after, if family.ThroughIrq call then some true
          else if call.reads then some (lastSet earlier) else none) ∧
      after.Follows family (earlier ++ [call]) := by
  cases call with
  | requestAfterInvoke =>
      refine ⟨state, ?_, follows.keep rfl⟩
      simp [Family.call, Family.ThroughIrq, FlagCall.reads, follows.force]
  | setTransactionRollbackForce accessor value =>
      cases accessor with
      | interface =>
          refine ⟨state.setForce family.interface value, ?_, follows.setForce rfl⟩
          simp [Family.call, Family.ThroughIrq, FlagCall.reads]
      | member position =>
          have found := Family.resolve_eq resolves position (follows.stored position) long
          refine ⟨_, ?_, (follows.store position).setForce rfl⟩
          simp [Family.call, Family.ThroughIrq, FlagCall.reads, found]
  | transactionRollbackForce accessor =>
      cases accessor with
      | interface =>
          refine ⟨state, ?_, follows.keep rfl⟩
          simp [Family.call, Family.ThroughIrq, FlagCall.reads, follows.force]
      | member position =>
          have found := Family.resolve_eq resolves position (follows.stored position) long
          refine ⟨_, ?_, (follows.store position).keep rfl⟩
          cases kind : (family.members.get position).kind with
          | controller =>
              rw [List.get_eq_getElem] at kind
              simp [Family.call, Family.ThroughIrq, FlagCall.reads, found, kind, follows.force]
          | declaresIrq =>
              rw [List.get_eq_getElem] at kind
              simp [Family.call, Family.ThroughIrq, found, kind]

/-- What a sequence of calls reads, and that the state follows it. -/
theorem run (resolves : family.Resolves) {fuel : Nat} (long : family.enough ≤ fuel)
    (calls : List family.Call) :
    ∃ after, family.run fuel state calls = some (after, family.returnedReads earlier calls) ∧
      after.Follows family (earlier ++ calls) := by
  induction calls generalizing state earlier with
  | nil => exact ⟨state, rfl, by simpa using follows⟩
  | cons call rest ih =>
      have ⟨next, reads, followsNext⟩ := follows.call resolves long call
      have ⟨after, runs, followsAfter⟩ := ih followsNext
      refine ⟨after, ?_, by simpa using followsAfter⟩
      simp only [Family.run, reads, runs, Option.bind_eq_bind, Option.bind_some,
        Family.returnedReads]
      split
      · rfl
      · split <;> rfl

end FamilyState.Follows

/-- The reads return what was set last exactly when a read through an object with
`QAPR_DECLARE_IRQ` is made only while that is `true`. -/
theorem returnedReads_eq_iff (earlier calls : List family.Call) :
    family.returnedReads earlier calls = expectedReads earlier calls ↔
      ∀ before call after, calls = before ++ call :: after → family.ThroughIrq call →
        lastSet (earlier ++ before) = true := by
  induction calls generalizing earlier with
  | nil => exact iff_of_true rfl forall_split_nil
  | cons first rest ih =>
      have head : family.returnedReads earlier (first :: rest) =
            expectedReads earlier (first :: rest) ↔
          (family.ThroughIrq first → lastSet earlier = true) ∧
            family.returnedReads (earlier ++ [first]) rest =
              expectedReads (earlier ++ [first]) rest := by
        by_cases through : family.ThroughIrq first
        · have reads : first.reads = true := by
            cases first <;> trivial
          simp only [Family.returnedReads, expectedReads, through, reads, ↓reduceIte,
            List.cons_append, List.nil_append, List.cons.injEq, forall_const]
          exact and_congr_left' eq_comm
        · simp [Family.returnedReads, expectedReads, through]
      rw [head, ih, forall_split_cons, List.append_nil]
      simp only [List.append_assoc, List.cons_append, List.nil_append]

/-- `requestAfterInvoke` chooses by the flag and the status. -/
theorem finish_eq (interface : Interface Database Status) (isOK : Status → Bool)
    (outcomes : Outcomes Status) :
    interface.finish isOK outcomes =
      { interface with
        store :=
          if interface.transactionRollbackForce || !isOK interface.co then
            interface.store.rollback outcomes.rollback
          else interface.store.commit outcomes.commit } := by
  unfold Interface.finish
  cases interface.transactionRollbackForce with
  | true => rfl
  | false => cases isOK interface.co <;> rfl

/-- The flag is shared exactly when a read through an object with `QAPR_DECLARE_IRQ` is
made only while the value that was set last is `true`. -/
theorem sharesFlag_iff (resolves : family.Resolves) (server : Server Database) (co : Status)
    (calls : List family.Call) :
    SharesFlag family server co calls ↔
      ∀ before position after,
        calls = before ++ .transactionRollbackForce (.member position) :: after →
        (family.members.get position).kind = .declaresIrq → lastSet before = true := by
  have runs {fuel : Nat} (long : family.enough ≤ fuel) :=
    (follows_initial server co).run resolves long calls
  have condition : family.returnedReads [] calls = expectedReads [] calls ↔
      ∀ before position after,
        calls = before ++ .transactionRollbackForce (.member position) :: after →
        (family.members.get position).kind = .declaresIrq → lastSet before = true := by
    rw [returnedReads_eq_iff]
    constructor
    · intro every before position after split declares
      exact every before _ after split declares
    · intro every before call after split through
      cases call with
      | transactionRollbackForce accessor =>
          cases accessor with
          | interface => contradiction
          | member position => exact every before position after split through
      | setTransactionRollbackForce => contradiction
      | requestAfterInvoke => contradiction
  rw [← condition]
  constructor
  · intro ⟨enough, shares⟩
    have ⟨_, expected, _⟩ := shares (max enough family.enough) (Nat.le_max_left _ _)
    have ⟨_, returned, _⟩ := runs (Nat.le_max_right enough family.enough)
    rw [returned] at expected
    exact (Prod.mk.inj (Option.some.inj expected)).2
  · intro same
    refine ⟨family.enough, fun fuel long => ?_⟩
    have ⟨after, returned, follows⟩ := runs long
    rw [same] at returned
    refine ⟨after, returned, fun isOK outcomes => ?_⟩
    rw [finish_eq, ← show _ = lastSet calls from follows.force]
    rfl

end Reads

/-- An object under its interface, which declares `QAPR_DECLARE_IRQ`. -/
def Family.child : Family where
  interface := 0
  above := []
  members := [⟨1, .declaresIrq⟩]

/-- A read through the object. -/
def Family.childRead : Family.child.Call :=
  .transactionRollbackForce (.member ⟨0, Nat.zero_lt_one⟩)

/-- The object finds the interface. -/
theorem child_resolves : Family.child.Resolves := by
  intro position _
  cases position using Fin.cases with
  | zero => exact ⟨1, rfl⟩
  | succ position => exact position.elim0

/-- The object reads the `true` that was set before. -/
theorem sharesFlag_child :
    SharesFlag Family.child ⟨(), Pool.fresh⟩ ()
      [.setTransactionRollbackForce .interface true, Family.childRead] := by
  apply (sharesFlag_iff child_resolves _ _ _).mpr
  intro before position after split _
  cases before with
  | nil => cases split
  | cons first before =>
      cases before with
      | nil =>
          cases split
          rfl
      | cons second before =>
          have tooLong := congrArg List.length split
          simp at tooLong

/-- Before any call sets the flag, the object reads `true`. -/
theorem not_sharesFlag_child :
    ¬SharesFlag Family.child ⟨(), Pool.fresh⟩ () [Family.childRead] := by
  intro ⟨enough, shares⟩
  have ⟨_, expected, _⟩ := shares (enough + 1) (Nat.le_succ enough)
  have returned : Family.child.run (enough + 1) (.initial ⟨(), Pool.fresh⟩ ())
      [Family.childRead] = some (_, [true]) := rfl
  rw [returned] at expected
  cases (Prod.mk.inj (Option.some.inj expected)).2

end QApr.Interfaces
