import QApr.Qt.Uuid

/-!
# Variants

`QVariant` for the types that settings and execution statistics store, and
`QVariantHash` with the operations that nested hashes are updated with: a level is
copied, changed and written back under its key.
-/

namespace QApr.Qt

/-- `QVariant`; a hash is the list of its entries. -/
inductive QVariant where
  | invalid
  | bool (value : Bool)
  | longLong (value : Int)
  | byteArray (value : List Char)
  | uuid (value : QUuid)
  /-- In milliseconds since the epoch. -/
  | dateTime (value : Int)
  | hash (entries : List (List Char × QVariant))

/-- `QVariantHash`. -/
abbrev QVariantHash := List (List Char × QVariant)

/-- `QVariant::toHash`, which is empty for values of other types. -/
def QVariant.toHash : QVariant → QVariantHash
  | .hash entries => entries
  | _ => []

/-- `QVariant::toBool`, which is false for values of other types. -/
def QVariant.toBool : QVariant → Bool
  | .bool value => value
  | .longLong value => value ≠ 0
  | .byteArray value => value.map Char.toLower ∉ [[], "0".toList, "false".toList]
  | _ => false

namespace QVariantHash

variable (hash : QVariantHash)

/-- The value under a key, if there is one. -/
def find (key : List Char) : Option QVariant :=
  (List.find? (fun entry => entry.1 = key) hash).map Prod.snd

/-- `QVariantHash::contains`. -/
def contains (key : List Char) : Bool :=
  (find hash key).isSome

/-- `QVariantHash::value`; the value of a missing key is invalid. -/
def value (key : List Char) : QVariant :=
  (find hash key).getD .invalid

/-- `QVariantHash::insert`, which replaces the value of a key. -/
def insert (key : List Char) (value : QVariant) : QVariantHash :=
  (key, value) :: List.filter (fun entry => entry.1 ≠ key) hash

/-- The hash under a key, as `value(key).toHash()` copies it. -/
def child (key : List Char) : QVariantHash :=
  (value hash key).toHash

@[simp] theorem find_insert_self (key : List Char) (value : QVariant) :
    find (insert hash key value) key = some value := by
  simp [find, insert]

theorem find_insert_of_ne {key other : List Char} (different : other ≠ key)
    (value : QVariant) : find (insert hash key value) other = find hash other := by
  have head : ¬key = other := fun equal => different equal.symm
  simp only [find, insert, List.find?_cons, head, decide_false, List.find?_filter]
  congr 2
  funext entry
  by_cases hit : entry.1 = other
  · simp [hit, different]
  · simp [hit]

/-- A child that was written back is read again. -/
@[simp] theorem child_insert_self (key : List Char) (entries : QVariantHash) :
    child (insert hash key (.hash entries)) key = entries := by
  simp [child, value, QVariant.toHash]

/-- Writing a child back leaves all other children alone. -/
theorem child_insert_of_ne {key other : List Char} (different : other ≠ key)
    (value : QVariant) : child (insert hash key value) other = child hash other := by
  simp [child, QVariantHash.value, find_insert_of_ne hash different]

end QVariantHash

end QApr.Qt
