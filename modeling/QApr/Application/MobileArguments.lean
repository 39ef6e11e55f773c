import QApr.Application.Arguments

/-!
# Arguments of a mobile application

The mobile `ApplicationPvt::arguments` also takes the path of the program for an argument,
and of an entry with more than one `=` it keeps what follows the last one.  The other
parser is `getArguments`, which drops the path and keeps what follows the first one.
-/

namespace QApr.Application

open QApr.Library

namespace Mobile

variable {Variant : Type} (chars : CharTable) (ofString : QString → Variant)

/-- The body of the loop over the entries of the command line. -/
def insertArgument (arguments : QArguments Variant) (v : QString) : QArguments Variant :=
  let l := v.splitOn '='
  if l.isEmpty then arguments
  else if l.length = 1 then arguments.insert (l.headD []) (ofString (l.getLastD []))
  else arguments.insert (chars.toLower (l.headD [])) (ofString (l.getLastD []))

/-- `ApplicationPvt::arguments` of the mobile application. -/
def arguments (cached : QArguments Variant) (args : List QString)
    (managerEntries : List (QString × Variant)) : QArguments Variant :=
  if cached.keys.Nonempty then cached
  else
    managerEntries.foldl (fun arguments entry => arguments.insert entry.1 entry.2)
      (args.foldl (insertArgument chars ofString) cached)

end Mobile

section LastEntry

variable {chars : CharTable}

/-- The last entry of a command line that has a key. -/
def lastEntry (chars : CharTable) (args : List QString) (key : QString) : Option QString :=
  lastWritten (fun v => if argumentKey chars v = key then some v else none) args

theorem mem_of_lastEntry {args : List QString} {key v : QString}
    (last : lastEntry chars args key = some v) : v ∈ args ∧ argumentKey chars v = key := by
  have ⟨entry, member, sameKey, isEntry⟩ := exists_of_lastWritten_if last
  rw [← isEntry]
  exact ⟨member, sameKey⟩

/-- The value of a key is that of its last entry. -/
theorem lastWritten_value (value : QString → QString) (args : List QString) (key : QString) :
    lastWritten (fun v => if argumentKey chars v = key then some (value v) else none) args =
      (lastEntry chars args key).map value :=
  lastWritten_if_map _ id value args

/-- The path of the program is the last entry of its own key only. -/
theorem lastEntry_drop {args : List QString} {key : QString}
    (notPath : ∀ path ∈ args.head?, key ≠ argumentKey chars path) :
    lastEntry chars args key = lastEntry chars (args.drop 1) key := by
  cases args with
  | nil => rfl
  | cons path rest =>
      have otherKey : argumentKey chars path ≠ key := (notPath path rfl).symm
      rw [← List.singleton_append, lastEntry, lastWritten_append, lastWritten_singleton,
        if_neg otherKey, Option.or_none]
      rfl

end LastEntry

section Parsers

variable {Variant : Type} {chars : CharTable} {ofString : QString → Variant}

namespace Mobile

/-- What follows the last `=` of an entry is its value, whatever its number of them. -/
theorem insertArgument_eq (arguments : QArguments Variant) (v : QString) :
    insertArgument chars ofString arguments v =
      arguments.insert (argumentKey chars v) (ofString (lastPiece '=' v)) := by
  by_cases present : '=' ∈ v
  · rw [insertArgument, argumentKey, if_pos present, lastPiece, splitOn_of_mem present]
    cases pieces : (afterFirst '=' v).splitOn '=' with
    | nil => exact absurd pieces (List.splitOn_ne_nil _ _)
    | cons piece rest => rfl
  · rw [insertArgument, argumentKey, if_neg present, lastPiece,
      List.splitOn_eq_singleton present]
    rfl

theorem lookup_commandLine (args : List QString) (key : QString) :
    (args.foldl (insertArgument chars ofString) ∅).lookup key =
      ((lastEntry chars args key).map (lastPiece '=')).map ofString := by
  have inserts : insertArgument chars ofString = fun arguments v =>
      arguments.insert (argumentKey chars v) (ofString (lastPiece '=' v)) := by
    funext arguments v
    exact insertArgument_eq arguments v
  rw [inserts, lookup_foldl_insert, Finmap.lookup_empty, Option.or_none,
    lastWritten_if_map _ (lastPiece '=') ofString, lastWritten_value]

/-- What the mobile parser makes of any command line. -/
theorem lookup_arguments {manager : QArguments Variant}
    {managerEntries : List (QString × Variant)}
    (iterates : IteratesEntries manager managerEntries) (args : List QString)
    (key : QString) :
    (arguments chars ofString ∅ args managerEntries).lookup key =
      (manager.lookup key).or
        (((lastEntry chars args key).map (lastPiece '=')).map ofString) := by
  have empty : ¬(∅ : QArguments Variant).keys.Nonempty := by simp
  rw [arguments, if_neg empty, lookup_overlay iterates, lookup_commandLine]

end Mobile

/-- What the other parser makes of it, by the same last entries. -/
theorem lookup_getArguments_lastEntry {manager : QArguments Variant}
    {managerEntries : List (QString × Variant)}
    (iterates : IteratesEntries manager managerEntries) (args : List QString)
    (key : QString) :
    (getArguments chars ofString ∅ args managerEntries).lookup key =
      (manager.lookup key).or
        (((lastEntry chars (args.drop 1) key).map argumentValue).map ofString) := by
  rw [lookup_getArguments_drop iterates, commandLineValue, lastWritten_value]

/-- The two values of an entry are the same if it has at most one `=`. -/
theorem lastPiece_eq_argumentValue_iff (v : QString) :
    lastPiece '=' v = argumentValue v ↔ v.count '=' ≤ 1 := by
  by_cases present : '=' ∈ v
  · rw [argumentValue, if_pos present]
    exact lastPiece_eq_afterFirst_iff present
  · rw [argumentValue, if_neg present, lastPiece_of_not_mem present,
      List.count_eq_zero_of_not_mem present]
    exact iff_of_true rfl (Nat.zero_le 1)

end Parsers

section Agreement

variable {Variant : Type} (chars : CharTable) (ofString : QString → Variant)
variable (args : List QString) (mobileEntries managerEntries : List (QString × Variant))

/-- The parsers agree on every key but that of the path of the program, of which only the
mobile one keeps an argument.  Each of them visits the entries of the manager in an order
of its own. -/
structure Agrees : Prop where
  others : ∀ key, (∀ path ∈ args.head?, key ≠ argumentKey chars path) →
    (Mobile.arguments chars ofString ∅ args mobileEntries).lookup key =
      (getArguments chars ofString ∅ args managerEntries).lookup key
  kept : ∀ path ∈ args.head?,
    (Mobile.arguments chars ofString ∅ args mobileEntries).lookup
      (argumentKey chars path) ≠ none
  dropped : ∀ path ∈ args.head?, ∀ other,
    getArguments chars ofString ∅ (other :: args.drop 1) managerEntries =
      getArguments chars ofString ∅ args managerEntries

variable {ofString}

/-- Of the keys that the manager does not write, the last entry has at most one `=`. -/
def SingleSeparators (manager : QArguments Variant) (args : List QString) : Prop :=
  ∀ key, (∀ path ∈ args.head?, key ≠ argumentKey chars path) → manager.lookup key = none →
    ∀ v ∈ lastEntry chars (args.drop 1) key, v.count '=' ≤ 1

variable {chars args mobileEntries managerEntries} {manager : QArguments Variant}

/-- The values of a key are the same if its last entry has at most one `=`, or the manager
writes over them. -/
theorem lookup_eq_iff (mobileIterates : IteratesEntries manager mobileEntries)
    (iterates : IteratesEntries manager managerEntries) (injective : Function.Injective ofString)
    {key : QString} (notPath : ∀ path ∈ args.head?, key ≠ argumentKey chars path) :
    (Mobile.arguments chars ofString ∅ args mobileEntries).lookup key =
        (getArguments chars ofString ∅ args managerEntries).lookup key ↔
      (manager.lookup key = none →
        ∀ v ∈ lastEntry chars (args.drop 1) key, v.count '=' ≤ 1) := by
  rw [Mobile.lookup_arguments mobileIterates, lookup_getArguments_lastEntry iterates,
    lastEntry_drop notPath]
  cases manager.lookup key with
  | some value => simp
  | none =>
      cases lastEntry chars (args.drop 1) key with
      | none => simp
      | some v => simp [injective.eq_iff, lastPiece_eq_argumentValue_iff]

/-- The path of the program is among the entries of the mobile parser. -/
theorem lookup_path_ne_none (mobileIterates : IteratesEntries manager mobileEntries)
    {path : QString} (isPath : path ∈ args.head?) :
    (Mobile.arguments chars ofString ∅ args mobileEntries).lookup
      (argumentKey chars path) ≠ none := by
  have member : path ∈ args := List.mem_of_mem_head? isPath
  intro absent
  rw [Mobile.lookup_arguments mobileIterates, Option.or_eq_none_iff, Option.map_eq_none_iff,
    Option.map_eq_none_iff] at absent
  have unwritten := lastWritten_eq_none_iff.mp absent.2 path member
  rw [if_pos rfl] at unwritten
  contradiction

theorem getArguments_other {path : QString} (isPath : path ∈ args.head?) (other : QString) :
    getArguments chars ofString ∅ (other :: args.drop 1) managerEntries =
      getArguments chars ofString ∅ args managerEntries := by
  cases args with
  | nil => contradiction
  | cons first rest => rfl

end Agreement

/-- The parsers agree exactly if the last `=` of every entry that counts is its first. -/
theorem agrees_iff {Variant : Type} {chars : CharTable} {ofString : QString → Variant}
    {manager : QArguments Variant} {mobileEntries managerEntries : List (QString × Variant)}
    (mobileIterates : IteratesEntries manager mobileEntries)
    (iterates : IteratesEntries manager managerEntries) (injective : Function.Injective ofString)
    (args : List QString) :
    Agrees chars ofString args mobileEntries managerEntries ↔
      SingleSeparators chars manager args := by
  constructor
  · intro agrees key notPath
    exact (lookup_eq_iff mobileIterates iterates injective notPath).mp
      (agrees.others key notPath)
  · intro single
    constructor
    · intro key notPath
      exact (lookup_eq_iff mobileIterates iterates injective notPath).mpr
        (single key notPath)
    · intro path isPath
      exact lookup_path_ne_none mobileIterates isPath
    · intro path isPath
      exact getArguments_other isPath

/-- The manager has the argument with two `=`. -/
theorem agrees_debug :
    Agrees CharTable.ascii id ["app".toList, "mode=fast".toList, "debug=a=b".toList]
      [("debug".toList, "1".toList)] [("debug".toList, "1".toList)] := by
  apply (agrees_iff iterates_debugArgument iterates_debugArgument Function.injective_id _).mpr
  intro key _ unmanaged v last
  have ⟨member, sameKey⟩ := mem_of_lastEntry last
  rw [List.drop_one, List.tail_cons] at member
  cases List.mem_cons.mp member with
  | inl isMode =>
      rw [isMode]
      decide
  | inr isDebug =>
      rw [List.mem_singleton.mp isDebug] at sameKey
      rw [← sameKey] at unmanaged
      exact absurd unmanaged (by decide)

/-- Of `a=b=c` the mobile parser keeps `c`, and the other one `b=c`. -/
theorem not_agrees_abc :
    ¬Agrees CharTable.ascii id ["app".toList, "a=b=c".toList] [] [] := by
  have iterates : IteratesEntries (∅ : QArguments QString) [] := by
    intro key value
    simp
  have notPath : ∀ path ∈ ["app".toList, "a=b=c".toList].head?,
      "a".toList ≠ argumentKey .ascii path := by
    intro path isPath
    cases isPath
    decide
  intro agrees
  have same := agrees.others "a".toList notPath
  rw [Mobile.lookup_arguments iterates, lookup_getArguments_lastEntry iterates] at same
  revert same
  decide

end QApr.Application
