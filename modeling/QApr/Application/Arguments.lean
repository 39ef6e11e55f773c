import QApr.Application.Startup
import QApr.Library.LastWriter
import QApr.Library.Separator
import QApr.Library.Text

/-!
# Arguments of the application

`ApplicationPvt::getArguments` splits the entries of the command line at every `=` and
puts the pieces together again, then overlays the arguments of the setting manager.
-/

namespace QApr.Application

open QApr.Library

/-- `QHash` with texts as keys. -/
abbrev QArguments (Variant : Type) := Finmap fun _ : QString => Variant

section Arguments

variable {Variant : Type} (chars : CharTable) (ofString : QString → Variant)

/-- The body of the loop over the entries of the command line. -/
def insertArgument (arguments : QArguments Variant) (v : QString) : QArguments Variant :=
  let l := v.splitOn '='
  if l.isEmpty then arguments
  else if l.length = 1 then arguments.insert (l.headD []) (ofString (l.getLastD []))
  else if l.length = 2 then
    arguments.insert (chars.toLower (l.headD [])) (ofString (l.getLastD []))
  else
    -- `takeFirst` leaves the other pieces, which are joined.
    arguments.insert (chars.toLower (l.headD [])) (ofString (['='].intercalate l.tail))

/-- `ApplicationPvt::getArguments`, where `managerEntries` are the entries of
`manager.arguments()` as the iterator visits them. -/
def getArguments (arguments : QArguments Variant) (args : List QString)
    (managerEntries : List (QString × Variant)) : QArguments Variant :=
  if arguments.keys.Nonempty then arguments
  else
    let arguments :=
      if 1 < args.length then (args.drop 1).foldl (insertArgument chars ofString) arguments
      else arguments
    managerEntries.foldl (fun arguments entry => arguments.insert entry.1 entry.2) arguments

/-- The entries that an iterator over a hash visits. -/
def IteratesEntries (hash : QArguments Variant) (entries : List (QString × Variant)) : Prop :=
  ∀ key value, (key, value) ∈ entries ↔ hash.lookup key = some value

/-- The key of an entry: in lower case up to its first `=`, or the whole entry. -/
def argumentKey (v : QString) : QString :=
  if '=' ∈ v then chars.toLower (beforeFirst '=' v) else v

/-- The value of an entry: what follows its first `=`, or the whole entry. -/
def argumentValue (v : QString) : QString :=
  if '=' ∈ v then afterFirst '=' v else v

/-- The last value that the command line has for a key. -/
def commandLineValue (args : List QString) (key : QString) : Option QString :=
  lastWritten (fun v => if argumentKey chars v = key then some (argumentValue v) else none) args

end Arguments

section Split

variable {Variant : Type} {chars : CharTable} {ofString : QString → Variant}

/-- Splitting at every `=` and joining again is splitting at the first one. -/
theorem insertArgument_eq (arguments : QArguments Variant) (v : QString) :
    insertArgument chars ofString arguments v =
      arguments.insert (argumentKey chars v) (ofString (argumentValue v)) := by
  by_cases present : '=' ∈ v
  · have joined := @List.intercalate_splitOn _ (afterFirst '=' v) _ _ '='
    rw [insertArgument, argumentKey, argumentValue, if_pos present, if_pos present,
      splitOn_of_mem present]
    cases pieces : (afterFirst '=' v).splitOn '=' with
    | nil => exact absurd pieces (List.splitOn_ne_nil _ _)
    | cons piece rest =>
        rw [pieces] at joined
        cases rest with
        | nil =>
            -- There is one `=`.
            rw [List.intercalate_singleton] at joined
            subst joined
            rfl
        | cons second rest =>
            -- There are more, which go back into the value.
            simp [joined]
  · rw [insertArgument, argumentKey, argumentValue, if_neg present, if_neg present,
      List.splitOn_eq_singleton present]
    rfl

/-- The loop over the command line keeps the last value of each key. -/
theorem lookup_commandLine (arguments : QArguments Variant) (args : List QString)
    (key : QString) :
    (args.foldl (insertArgument chars ofString) arguments).lookup key =
      ((commandLineValue chars args key).map ofString).or (arguments.lookup key) := by
  have inserts : insertArgument chars ofString = fun arguments v =>
      arguments.insert (argumentKey chars v) (ofString (argumentValue v)) := by
    funext arguments v
    exact insertArgument_eq arguments v
  rw [inserts, lookup_foldl_insert, lastWritten_if_map _ argumentValue ofString,
    commandLineValue]

/-- The loop over the arguments of the manager writes them over the others. -/
theorem lookup_overlay {manager : QArguments Variant}
    {managerEntries : List (QString × Variant)}
    (iterates : IteratesEntries manager managerEntries) (arguments : QArguments Variant)
    (key : QString) :
    (managerEntries.foldl (fun arguments entry => arguments.insert entry.1 entry.2)
        arguments).lookup key = (manager.lookup key).or (arguments.lookup key) := by
  rw [lookup_foldl_insert]
  congr 1
  cases last : lastWritten
      (fun entry : QString × Variant => if entry.1 = key then some entry.2 else none)
      managerEntries with
  | none =>
      symm
      apply Option.eq_none_iff_forall_ne_some.mpr
      intro value found
      have unwritten := lastWritten_eq_none_iff.mp last _ ((iterates key value).mpr found)
      simp at unwritten
  | some value =>
      have ⟨entry, member, sameKey, sameValue⟩ := exists_of_lastWritten_if last
      rw [← sameKey, ← sameValue]
      exact ((iterates _ _).mp member).symm

/-- What the parser makes of any command line. -/
theorem lookup_getArguments_drop {manager : QArguments Variant}
    {managerEntries : List (QString × Variant)}
    (iterates : IteratesEntries manager managerEntries) (args : List QString)
    (key : QString) :
    (getArguments chars ofString ∅ args managerEntries).lookup key =
      (manager.lookup key).or ((commandLineValue chars (args.drop 1) key).map ofString) := by
  have empty : ¬(∅ : QArguments Variant).keys.Nonempty := by simp
  rw [getArguments, if_neg empty, lookup_overlay iterates]
  congr 1
  split
  · rw [lookup_commandLine, Finmap.lookup_empty, Option.or_none]
  next few =>
    have noArgs : args.drop 1 = [] := List.drop_eq_nil_of_le (Nat.not_lt.mp few)
    rw [noArgs]
    exact Finmap.lookup_empty key

/-- The arguments are those of the manager and, for other keys, the last ones of the
command line without its first entry. -/
theorem lookup_getArguments {manager : QArguments Variant}
    {managerEntries : List (QString × Variant)}
    (iterates : IteratesEntries manager managerEntries) (path : QString)
    (args : List QString) (key : QString) :
    (getArguments chars ofString ∅ (path :: args) managerEntries).lookup key =
      (manager.lookup key).or ((commandLineValue chars args key).map ofString) :=
  lookup_getArguments_drop iterates (path :: args) key

end Split

/-- One argument of the manager. -/
def debugArgument : QArguments QString := Finmap.singleton "debug".toList "1".toList

theorem iterates_debugArgument :
    IteratesEntries debugArgument [("debug".toList, "1".toList)] := by
  intro key value
  by_cases isDebug : key = "debug".toList
  · subst isDebug
    simp [debugArgument, Finmap.lookup_singleton_eq, eq_comm]
  · have absent : debugArgument.lookup key = none := by
      apply Finmap.lookup_eq_none.mpr
      simpa [debugArgument] using isDebug
    rw [absent, List.mem_singleton, Prod.mk.injEq]
    exact iff_of_false (fun same => isDebug same.1) (Option.some_ne_none _).symm

/-- Only the first `=` ends the key. -/
theorem lookup_getArguments_path :
    (getArguments CharTable.ascii id ∅
        ["app".toList, "Path=a=b".toList, "debug=0".toList]
        [("debug".toList, "1".toList)]).lookup "path".toList = some "a=b".toList :=
  (lookup_getArguments iterates_debugArgument _ _ _).trans (by decide)

end QApr.Application
