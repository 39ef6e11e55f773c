import QApr.Library.Decimal
import QApr.Scheduler.Dispatch

/-!
# The order of execution

A sort key ends in a tag that encodes the execution order of its method: a padded
decimal, or the name of the method where it has no order.  The module proves that
sorting the keys without regard to case brings the methods that were registered
under the same names into the declared order.
-/

namespace QApr.Scheduler

open QApr.Library QApr.Qt

variable {platform : Platform} {createUuid : Nat → QUuid}

/-! ## Tags -/

section Tags

variable {first second : Int} {firstName secondName : QString}

theorem sortTag_of_order {scExecOrder : Int} (ordered : 0 ≤ scExecOrder) (name : QString) :
    sortTag scExecOrder name = "a-".toList ++ padded 11 scExecOrder.toNat :=
  if_pos ordered

theorem sortTag_of_name {scExecOrder : Int} (unordered : scExecOrder < 0) (name : QString) :
    sortTag scExecOrder name = "b-".toList ++ asciiLower name :=
  if_neg (Int.not_le.mpr unordered)

/-- Methods with an order come before those without. -/
theorem sortTag_lt_of_ordered (ordered : 0 ≤ first) (unordered : second < 0) :
    sortTag first firstName < sortTag second secondName := by
  rw [sortTag_of_order ordered, sortTag_of_name unordered]
  exact List.cons_lt_cons_iff.mpr (Or.inl (by decide))

/-- Orders of 32 bits compare like numbers. -/
theorem sortTag_lt_of_lt (ordered : 0 ≤ first) (less : first < second)
    (fits : second ≤ 2147483647) :
    sortTag first firstName < sortTag second secondName := by
  have secondOrdered : 0 ≤ second := by omega
  have digitsFit : second.toNat < 10 ^ 11 := by omega
  have numberLess : first.toNat < second.toNat := by omega
  rw [sortTag_of_order ordered, sortTag_of_order secondOrdered]
  exact List.append_left_lt (padded_lt (by decide) numberLess digitsFit)

/-- Methods without an order compare by their names. -/
theorem sortTag_lt_of_name (firstUnordered : first < 0) (secondUnordered : second < 0)
    (less : asciiLower firstName < asciiLower secondName) :
    sortTag first firstName < sortTag second secondName := by
  rw [sortTag_of_name firstUnordered, sortTag_of_name secondUnordered]
  exact List.append_left_lt less

theorem toLower_of_isDigit {char : Char} (digit : char.isDigit = true) :
    char.toLower = char ∧ char.toNat < 128 := by
  have small : char.toNat ≤ 57 := by
    simp only [Char.isDigit, Bool.and_eq_true, decide_eq_true_eq] at digit
    exact UInt32.le_iff_toNat_le.mp digit.2
  constructor
  · apply Char.toNat_inj.mp
    rw [CharTable.toNat_toLower, if_neg]
    omega
  · omega

/-- A tag has no capital letters. -/
theorem map_toLower_sortTag (scExecOrder : Int) (name : QString) :
    (sortTag scExecOrder name).map Char.toLower = sortTag scExecOrder name := by
  rcases Int.lt_or_le scExecOrder 0 with unordered | ordered
  · rw [sortTag_of_name unordered, List.map_append, asciiLower, List.map_map]
    congr 1
    apply List.map_congr_left
    intro char _
    exact CharTable.char_toLower_toLower char
  · have fixed : ∀ char ∈ padded 11 scExecOrder.toNat, char.toLower = id char := by
      intro char member
      exact (toLower_of_isDigit (isDigit_of_mem_padded member)).1
    rw [sortTag_of_order ordered, List.map_append, List.map_congr_left fixed, List.map_id]
    rfl

/-- The tag of a method with an ASCII name is ASCII text. -/
theorem ascii_sortTag {name : QString} (ascii : ∀ char ∈ name, char.toNat < 128)
    (scExecOrder : Int) : ∀ char ∈ sortTag scExecOrder name, char.toNat < 128 := by
  have letters : "a-".toList.all (fun char => char.toNat < 128) = true ∧
      "b-".toList.all (fun char => char.toNat < 128) = true := by
    decide
  intro char member
  rcases Int.lt_or_le scExecOrder 0 with unordered | ordered
  · rw [sortTag_of_name unordered] at member
    rcases List.mem_append.mp member with inTag | inName
    · exact of_decide_eq_true (List.all_eq_true.mp letters.2 char inTag)
    · rcases List.mem_map.mp inName with ⟨source, sourceMember, rfl⟩
      exact CharTable.toNat_toLower_lt (ascii source sourceMember)
  · rw [sortTag_of_order ordered] at member
    rcases List.mem_append.mp member with inTag | digit
    · exact of_decide_eq_true (List.all_eq_true.mp letters.1 char inTag)
    · exact (toLower_of_isDigit (isDigit_of_mem_padded digit)).2

end Tags

/-! ## Keys -/

/-- Two placements under the same names. -/
structure Placement.SameNames (first second : Placement) : Prop where
  scopeName : first.scopeName = second.scopeName
  groupName : first.groupName = second.groupName

/-- The tag of a placement. -/
def Placement.tag (placement : Placement) : QString :=
  sortTag placement.scExecOrder placement.method.decl.name

/-- The method of a placement has an ASCII name. -/
def Placement.AsciiName (placement : Placement) : Prop :=
  ∀ char ∈ placement.method.decl.name, char.toNat < 128

instance Placement.decidableAsciiName (placement : Placement) : Decidable placement.AsciiName :=
  decidable_of_iff (placement.method.decl.name.all fun char => char.toNat < 128)
    (by simp [AsciiName])

/-- A key is compared by its names and then by its tag. -/
theorem foldedUnits_sortName (asciiCase : platform.chars.AsciiCase) {placement : Placement}
    (ascii : placement.AsciiName) :
    platform.chars.foldedUnits (placement.sortName platform) =
      platform.chars.foldedUnits (platform.chars.toLower
        (placement.scopeName ++ "-".toList ++ placement.groupName ++ "-".toList)) ++
        placement.tag.flatMap CharTable.utf16 := by
  have tagFolded : platform.chars.folded (platform.chars.toLower placement.tag) =
      placement.tag := by
    rw [Placement.tag, asciiCase.folded_toLower (ascii_sortTag ascii _), map_toLower_sortTag]
  have keyEq : placement.sortName platform = platform.chars.toLower
      (placement.scopeName ++ "-".toList ++ placement.groupName ++ "-".toList) ++
        platform.chars.toLower placement.tag :=
    platform.chars.toLower_append _ _
  rw [keyEq, CharTable.foldedUnits_append]
  congr 1
  rw [CharTable.foldedUnits, tagFolded]

theorem foldedUnits_sortName_lt (asciiCase : platform.chars.AsciiCase)
    {first second : Placement} (names : first.SameNames second) (firstAscii : first.AsciiName)
    (secondAscii : second.AsciiName) (less : first.tag < second.tag) :
    platform.chars.foldedUnits (first.sortName platform) <
      platform.chars.foldedUnits (second.sortName platform) := by
  have unitsLess := CharTable.utf16Lt_of_ascii (ascii_sortTag firstAscii first.scExecOrder)
    (ascii_sortTag secondAscii second.scExecOrder) less
  rw [foldedUnits_sortName asciiCase firstAscii, foldedUnits_sortName asciiCase secondAscii,
    names.scopeName, names.groupName]
  exact List.append_left_lt unitsLess

/-! ## Runs -/

/-- A run visits the first entry before the second and executes their methods in this
order. -/
def SchedulerScopeGroup.VisitsBefore (group : SchedulerScopeGroup) (run : InvokeRun)
    (first second : QString) : Prop :=
  [first, second].Sublist run.methodKeys ∧
    (([first, second].filterMap group.methodOf).map fun method =>
      (⟨group.metaObject, method⟩ : Job)).Sublist (executed (group.invoke run))

/-- A run visits the entries of two placements in the order of their tags. -/
theorem visitsBefore_of_tag_lt {classes : List QMetaObject}
    (asciiCase : platform.chars.AsciiCase) {group : SchedulerScopeGroup}
    (listed : group ∈ (regs platform createUuid classes).scopes) {first second : Site}
    (firstInserted : first ∈ insertions platform createUuid classes)
    (secondInserted : second ∈ insertions platform createUuid classes)
    (firstUuid : first.uuid = group.uuid) (secondUuid : second.uuid = group.uuid)
    (names : first.placement.SameNames second.placement)
    (firstAscii : first.placement.AsciiName) (secondAscii : second.placement.AsciiName)
    {run : InvokeRun} (order : group.KeyOrder platform.chars run.methodKeys)
    (less : first.placement.tag < second.placement.tag) :
    group.VisitsBefore run (first.placement.sortName platform)
      (second.placement.sortName platform) := by
  have found := scopes_regs.mp listed
  have visited {site : Site} (inserted : site ∈ insertions platform createUuid classes)
      (uuidEq : site.uuid = group.uuid) :
      site.placement.sortName platform ∈ run.methodKeys := by
    rw [order.mem_iff, mem_methods_of_logGroup found]
    exact ⟨site, (mem_insertions classes site).mp inserted, by rw [Site.slot, uuidEq]⟩
  have inOrder := CharTable.sublist_of_folded_lt order.sorted
    (visited firstInserted firstUuid) (visited secondInserted secondUuid)
    (foldedUnits_sortName_lt asciiCase names firstAscii secondAscii less)
  refine ⟨inOrder, ?_⟩
  rw [SchedulerScopeGroup.executed_invoke (newScheduler_of_scopes listed)]
  exact (inOrder.filterMap group.methodOf).map _

/-- Under the same names, methods with an order run before those without, orders run
from small to large, and methods without an order run by name. -/
theorem visitsBefore_of_declared {classes : List QMetaObject}
    (asciiCase : platform.chars.AsciiCase) {group : SchedulerScopeGroup}
    (listed : group ∈ (regs platform createUuid classes).scopes) {first second : Site}
    (firstInserted : first ∈ insertions platform createUuid classes)
    (secondInserted : second ∈ insertions platform createUuid classes)
    (firstUuid : first.uuid = group.uuid) (secondUuid : second.uuid = group.uuid)
    (names : first.placement.SameNames second.placement)
    (firstAscii : first.placement.AsciiName) (secondAscii : second.placement.AsciiName)
    {run : InvokeRun} (order : group.KeyOrder platform.chars run.methodKeys)
    (declared :
      (0 ≤ first.placement.scExecOrder ∧ second.placement.scExecOrder < 0) ∨
      (0 ≤ first.placement.scExecOrder ∧
        first.placement.scExecOrder < second.placement.scExecOrder ∧
        second.placement.scExecOrder ≤ 2147483647) ∨
      (first.placement.scExecOrder < 0 ∧ second.placement.scExecOrder < 0 ∧
        asciiLower first.placement.method.decl.name <
          asciiLower second.placement.method.decl.name)) :
    group.VisitsBefore run (first.placement.sortName platform)
      (second.placement.sortName platform) := by
  apply visitsBefore_of_tag_lt asciiCase listed firstInserted secondInserted firstUuid
    secondUuid names firstAscii secondAscii order
  rcases declared with ⟨ordered, unordered⟩ | ⟨ordered, less, fits⟩ |
    ⟨firstUnordered, secondUnordered, less⟩
  · exact sortTag_lt_of_ordered ordered unordered
  · exact sortTag_lt_of_lt ordered less fits
  · exact sortTag_lt_of_name firstUnordered secondUnordered less

/-- A class with two ordered methods. -/
def rotationClass : QMetaObject :=
  schedulerClass "Rotation" none
    [scheduleMethod "rotate" none none (some 10), scheduleMethod "mark" none none (some 9)]

/-- The keys of its methods in the default group. -/
def markKey : QString := "default-default-a-00000000009".toList

def rotateKey : QString := "default-default-a-00000000010".toList

/-- The group that the class opens. -/
def rotationGroup : SchedulerScopeGroup :=
  { SchedulerScopeGroup.new .ascii (Platform.ascii.pairUuid defaultName defaultName)
      defaultName defaultName false rotationClass with
    methods := ((∅ : QHash QString Nat).insert rotateKey 6).insert markKey 7 }

theorem keyOrder_rotationGroup : rotationGroup.KeyOrder .ascii [markKey, rotateKey] where
  nodup := by decide
  mem_iff key := by simp [rotationGroup, Finmap.mem_insert, Finmap.notMem_empty]
  sorted := by decide

/-- The site of a method of the class. -/
def rotationSite (methodIndex : Nat) (decl : MethodDecl) : Site where
  uuid := Platform.ascii.pairUuid defaultName defaultName
  placement := ⟨rotationClass, ⟨methodIndex, decl⟩, defaultName, defaultName⟩

theorem visitsBefore_rotation :
    rotationGroup.VisitsBefore ⟨[markKey, rotateKey], .null, fun _ => 0, fun _ => .successful⟩
      markKey rotateKey :=
  @visitsBefore_of_declared .ascii (fun _ => .null) [rotationClass]
    CharTable.asciiCase_ascii rotationGroup (by decide)
    (rotationSite 7 (scheduleMethod "mark" none none (some 9)))
    (rotationSite 6 (scheduleMethod "rotate" none none (some 10))) (by decide) (by decide)
    rfl rfl ⟨rfl, rfl⟩ (by decide) (by decide) _ keyOrder_rotationGroup
    (Or.inr (Or.inl (by decide)))

end QApr.Scheduler
