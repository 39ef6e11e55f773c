import Mathlib.Data.Char
import Mathlib.Data.List.DropRight
import Mathlib.Data.List.Lex

/-!
# Text normalisation over a character table

Trimming and lower-casing of character sequences.  The Unicode properties of a
single character are a parameter; the laws carried with them are the ones that
make normalised text a canonical form: no character lower-cases to nothing,
lower-casing is idempotent, and it never turns white space into a visible
character or back.
-/

namespace QApr.Library

/-- Unicode properties of single characters, together with the laws that every
edition of the Unicode data files satisfies. -/
structure CharTable where
  isSpace : Char → Bool
  /-- Full lower-case mapping; one character may become several. -/
  lower : Char → List Char
  /-- Simple case folding, used by case-insensitive comparison. -/
  fold : Char → Char
  lower_ne_nil : ∀ char, lower char ≠ []
  lower_lower : ∀ char, ∀ image ∈ lower char, lower image = [image]
  isSpace_lower : ∀ char, ∀ image ∈ lower char, isSpace image = isSpace char

namespace CharTable

variable (table : CharTable)

/-- Lower-case every character of a text. -/
def toLower (text : List Char) : List Char :=
  text.flatMap table.lower

/-- Remove white space from both ends. -/
def trimmed (text : List Char) : List Char :=
  (text.dropWhile table.isSpace).rdropWhile table.isSpace

/-- Trimmed, then lower-cased text. -/
def normal (text : List Char) : List Char :=
  table.toLower (table.trimmed text)

@[simp] theorem toLower_nil : table.toLower [] = [] := rfl

@[simp] theorem trimmed_nil : table.trimmed [] = [] := by
  simp [trimmed]

@[simp] theorem normal_nil : table.normal [] = [] := by
  simp [normal]

@[simp] theorem toLower_append (left right : List Char) :
    table.toLower (left ++ right) = table.toLower left ++ table.toLower right := by
  simp [toLower]

@[simp] theorem toLower_eq_nil {text : List Char} :
    table.toLower text = [] ↔ text = [] := by
  cases text with
  | nil => simp
  | cons char rest => simp [toLower, table.lower_ne_nil char]

@[simp] theorem normal_eq_nil {text : List Char} :
    table.normal text = [] ↔ table.trimmed text = [] := by
  simp [normal]

/-- A text all of whose characters are fixed by lower-casing is fixed. -/
theorem toLower_of_fixed {text : List Char}
    (fixed : ∀ char ∈ text, table.lower char = [char]) :
    table.toLower text = text := by
  induction text with
  | nil => rfl
  | cons char rest ih =>
      have restFixed := ih fun other member => fixed other (by simp [member])
      have charFixed := fixed char (by simp)
      simp only [toLower, List.flatMap_cons, charFixed] at restFixed ⊢
      rw [restFixed, List.singleton_append]

theorem lower_of_mem_toLower {text : List Char} {char : Char}
    (member : char ∈ table.toLower text) : table.lower char = [char] := by
  rcases List.mem_flatMap.mp member with ⟨source, _, image⟩
  exact table.lower_lower source char image

@[simp] theorem toLower_toLower (text : List Char) :
    table.toLower (table.toLower text) = table.toLower text :=
  table.toLower_of_fixed fun _ member => table.lower_of_mem_toLower member

/-! ## Trimming commutes with lower-casing -/

/-- Expanding every character to a non-empty block on which the predicate is
constant commutes with dropping a prefix. -/
theorem dropWhile_flatMap (accept : Char → Bool) (image : Char → List Char)
    (nonempty : ∀ char, image char ≠ [])
    (uniform : ∀ char, ∀ item ∈ image char, accept item = accept char)
    (text : List Char) :
    (text.flatMap image).dropWhile accept =
      (text.dropWhile accept).flatMap image := by
  induction text with
  | nil => rfl
  | cons char rest ih =>
      cases accepted : accept char with
      | true =>
          have block : ∀ item ∈ image char, accept item = true := by
            intro item member
            rw [uniform char item member, accepted]
          rw [List.flatMap_cons, List.dropWhile_append_of_pos block, ih,
            List.dropWhile_cons_of_pos accepted]
      | false =>
          rcases List.exists_cons_of_ne_nil (nonempty char) with ⟨first, tail, split⟩
          have firstRejected : accept first = false := by
            rw [uniform char first (by simp [split]), accepted]
          rw [List.dropWhile_cons_of_neg (by simp [accepted])]
          rw [List.flatMap_cons, split, List.cons_append]
          exact List.dropWhile_cons_of_neg (by simp [firstRejected])

theorem rdropWhile_flatMap (accept : Char → Bool) (image : Char → List Char)
    (nonempty : ∀ char, image char ≠ [])
    (uniform : ∀ char, ∀ item ∈ image char, accept item = accept char)
    (text : List Char) :
    (text.flatMap image).rdropWhile accept =
      (text.rdropWhile accept).flatMap image := by
  have mirrored := dropWhile_flatMap accept (fun char => (image char).reverse)
    (by simpa using nonempty) (by simpa using uniform) text.reverse
  have reversed : (text.flatMap image).reverse =
      text.reverse.flatMap fun char => (image char).reverse := by
    simp [List.reverse_flatMap, Function.comp_def]
  rw [List.rdropWhile, reversed, mirrored, List.rdropWhile]
  simp [List.reverse_flatMap, Function.comp_def]

@[simp] theorem trimmed_toLower (text : List Char) :
    table.trimmed (table.toLower text) = table.toLower (table.trimmed text) := by
  rw [trimmed, toLower,
    dropWhile_flatMap _ _ table.lower_ne_nil table.isSpace_lower,
    rdropWhile_flatMap _ _ table.lower_ne_nil table.isSpace_lower]
  rfl

/-- White space removed at the right end leaves the left end as it was. -/
theorem dropWhile_trimmed (text : List Char) :
    (table.trimmed text).dropWhile table.isSpace = table.trimmed text := by
  apply List.dropWhile_eq_self_iff.mpr
  intro nonempty
  have kept : table.trimmed text <+: text.dropWhile table.isSpace :=
    List.rdropWhile_prefix _ _
  have firstKept := List.dropWhile_eq_self_iff.mp
    (List.dropWhile_idempotent table.isSpace text)
  rw [kept.getElem nonempty]
  exact firstKept (Nat.lt_of_lt_of_le nonempty kept.length_le)

@[simp] theorem trimmed_trimmed (text : List Char) :
    table.trimmed (table.trimmed text) = table.trimmed text := by
  have rightEnd : (table.trimmed text).rdropWhile table.isSpace = table.trimmed text :=
    List.rdropWhile_idempotent _ _
  rw [trimmed, dropWhile_trimmed, rightEnd]

/-- Normal text is its own normal form. -/
@[simp] theorem normal_normal (text : List Char) :
    table.normal (table.normal text) = table.normal text := by
  simp [normal]

/-! ## Code unit order -/

/-- The UTF-16 code units of a character. -/
def utf16 (char : Char) : List Nat :=
  if char.toNat < 0x10000 then [char.toNat]
  else [0xD800 + (char.toNat - 0x10000) / 0x400, 0xDC00 + (char.toNat - 0x10000) % 0x400]

/-- `left` does not come after `right` in the order of the code units. -/
def utf16Le (left right : List Char) : Bool :=
  left.flatMap utf16 ≤ right.flatMap utf16

/-- `left` comes before `right` in the order of the code units. -/
def Utf16Lt (left right : List Char) : Prop :=
  left.flatMap utf16 < right.flatMap utf16

theorem utf16_ne_nil (char : Char) : utf16 char ≠ [] := by
  unfold utf16
  split <;> exact List.cons_ne_nil _ _

/-- A code unit is a character or a surrogate. -/
theorem mem_utf16_cases {char : Char} {unit : Nat} (member : unit ∈ utf16 char) :
    unit = char.toNat ∨ 0xD800 ≤ unit := by
  unfold utf16 at member
  split at member
  next => exact Or.inl (List.mem_singleton.mp member)
  next =>
    simp only [List.mem_cons, List.not_mem_nil, or_false] at member
    omega

/-- No character is a surrogate. -/
theorem toNat_valid (char : Char) :
    char.toNat < 0xD800 ∨ 0xDFFF < char.toNat ∧ char.toNat < 0x110000 :=
  char.valid

/-- The first character of a text can be told from the first code units. -/
theorem utf16_append_inj {left right : Char} {leftRest rightRest : List Nat}
    (equal : utf16 left ++ leftRest = utf16 right ++ rightRest) :
    left = right ∧ leftRest = rightRest := by
  have leftValid := toNat_valid left
  have rightValid := toNat_valid right
  rw [← Char.toNat_inj]
  unfold utf16 at equal
  split at equal
  next leftBasic =>
    split at equal
    next rightBasic => simpa using equal
    next rightPair =>
      -- A surrogate is not a character.
      have heads := (List.cons.inj equal).1
      omega
  next leftPair =>
    split at equal
    next rightBasic =>
      have heads := (List.cons.inj equal).1
      omega
    next rightPair =>
      have ⟨high, tails⟩ := List.cons.inj equal
      have ⟨low, rests⟩ := List.cons.inj tails
      exact ⟨by omega, rests⟩

/-- Different texts have different code units. -/
theorem flatMap_utf16_injective :
    Function.Injective fun text : List Char => text.flatMap utf16 := by
  intro left
  induction left with
  | nil =>
      intro right equal
      cases right with
      | nil => rfl
      | cons char rest =>
          have units : utf16 char = [] := (List.append_eq_nil_iff.mp equal.symm).1
          exact absurd units (utf16_ne_nil char)
  | cons char rest ih =>
      intro right equal
      cases right with
      | nil =>
          have units : utf16 char = [] := (List.append_eq_nil_iff.mp equal).1
          exact absurd units (utf16_ne_nil char)
      | cons other otherRest =>
          have ⟨same, rests⟩ := utf16_append_inj equal
          rw [same, ih rests]

/-- The code unit of an ASCII character is its code point. -/
theorem flatMap_utf16_of_ascii {text : List Char} (ascii : ∀ char ∈ text, char.toNat < 128) :
    text.flatMap utf16 = text.map Char.toNat := by
  rw [List.map_eq_flatMap]
  apply List.flatMap_congr
  intro char member
  have small := ascii char member
  exact if_pos (by omega)

/-- ASCII texts have the order of their code units. -/
theorem utf16Lt_of_ascii {left right : List Char} (leftAscii : ∀ char ∈ left, char.toNat < 128)
    (rightAscii : ∀ char ∈ right, char.toNat < 128) (less : left < right) :
    Utf16Lt left right := by
  rw [Utf16Lt, flatMap_utf16_of_ascii leftAscii, flatMap_utf16_of_ascii rightAscii]
  exact List.map_lt (fun _ _ less => less) less

/-! ## Case-insensitive order -/

/-- Two texts are equal without regard to case if these are. -/
def folded (text : List Char) : List Char :=
  text.map table.fold

/-- Key by which case-insensitive comparison orders a text. -/
def foldedUnits (text : List Char) : List Nat :=
  (table.folded text).flatMap utf16

/-- `left` does not come after `right` in case-insensitive order. -/
def FoldedLe (left right : List Char) : Prop :=
  table.foldedUnits left ≤ table.foldedUnits right

instance (left right : List Char) : Decidable (table.FoldedLe left right) :=
  inferInstanceAs (Decidable (table.foldedUnits left ≤ table.foldedUnits right))

theorem folded_append (left right : List Char) :
    table.folded (left ++ right) = table.folded left ++ table.folded right :=
  List.map_append

theorem foldedUnits_append (left right : List Char) :
    table.foldedUnits (left ++ right) = table.foldedUnits left ++ table.foldedUnits right := by
  rw [foldedUnits, folded_append, List.flatMap_append, foldedUnits, foldedUnits]

variable {table}

/-- In a sorted sequence of texts the smaller of two comes first. -/
theorem sublist_of_folded_lt {texts : List (List Char)}
    (sorted : texts.Pairwise table.FoldedLe) {first second : List Char}
    (firstMember : first ∈ texts) (secondMember : second ∈ texts)
    (less : table.foldedUnits first < table.foldedUnits second) :
    [first, second].Sublist texts := by
  induction sorted with
  | nil => contradiction
  | @cons head rest below _ ih =>
      rcases List.mem_cons.mp firstMember with rfl | firstLater
      · rcases List.mem_cons.mp secondMember with rfl | secondLater
        · exact absurd less (lt_irrefl _)
        · exact .cons_cons _ (List.singleton_sublist.mpr secondLater)
      · rcases List.mem_cons.mp secondMember with rfl | secondLater
        · exact absurd less (not_lt_of_ge (below first firstLater))
        · exact .cons _ (ih firstLater secondLater)

/-- On ASCII characters lower-casing and folding are ASCII lower-casing. -/
structure AsciiCase (table : CharTable) : Prop where
  lower : ∀ char : Char, char.toNat < 128 → table.lower char = [char.toLower]
  fold : ∀ char : Char, char.toNat < 128 → table.fold char = char.toLower

variable (table)

/-! ## The ASCII table -/

/-- Code point of a character after ASCII lower-casing. -/
theorem toNat_toLower (char : Char) :
    char.toLower.toNat =
      if 65 ≤ char.toNat ∧ char.toNat ≤ 90 then char.toNat + 32 else char.toNat := by
  have bounds : (char.val ≥ 'A'.val ∧ char.val ≤ 'Z'.val) ↔
      (65 ≤ char.toNat ∧ char.toNat ≤ 90) := by
    rw [ge_iff_le, UInt32.le_iff_toNat_le, UInt32.le_iff_toNat_le]
    rfl
  unfold Char.toLower
  split
  next upper =>
    rw [if_pos (bounds.mp upper)]
    have small := (bounds.mp upper).2
    change (char.val + ('a'.val - 'A'.val)).toNat = char.val.toNat + 32
    change char.val.toNat ≤ 90 at small
    rw [UInt32.toNat_add]
    change (char.val.toNat + 32) % 2 ^ 32 = char.val.toNat + 32
    omega
  next other =>
    rw [if_neg (bounds.not.mp other)]

theorem char_toLower_toLower (char : Char) :
    char.toLower.toLower = char.toLower := by
  apply Char.toNat_inj.mp
  rw [toNat_toLower char.toLower, if_neg]
  rw [toNat_toLower]
  split <;> omega

theorem toNat_toLower_lt {char : Char} (small : char.toNat < 128) :
    char.toLower.toNat < 128 := by
  rw [toNat_toLower]
  split <;> omega

/-- An ASCII text is compared by its small letters. -/
theorem AsciiCase.folded_toLower {table : CharTable} (asciiCase : table.AsciiCase)
    {text : List Char} (small : ∀ char ∈ text, char.toNat < 128) :
    table.folded (table.toLower text) = text.map Char.toLower := by
  induction text with
  | nil => rfl
  | cons char rest ih =>
      have charSmall := small char (by simp)
      have restFolded := ih fun other member => small other (by simp [member])
      have charFolded : table.fold char.toLower = char.toLower := by
        rw [asciiCase.fold _ (toNat_toLower_lt charSmall), char_toLower_toLower]
      simp only [toLower, List.flatMap_cons, asciiCase.lower char charSmall, folded_append,
        List.map_cons] at restFolded ⊢
      rw [restFolded, folded, List.map_singleton, charFolded, List.singleton_append]

/-- The restriction of the Unicode data to ASCII; every other character is left
alone. -/
def ascii : CharTable where
  isSpace char := char.toNat = 32 || (9 ≤ char.toNat && char.toNat ≤ 13)
  lower char := [char.toLower]
  fold char := char.toLower
  lower_ne_nil := by simp
  lower_lower := by
    intro char image member
    rw [List.mem_singleton] at member
    rw [member, char_toLower_toLower]
  isSpace_lower := by
    intro char image member
    rw [List.mem_singleton] at member
    rw [member, toNat_toLower]
    split
    next upper =>
      have notSpace : ¬(char.toNat = 32 ∨ 9 ≤ char.toNat ∧ char.toNat ≤ 13) := by omega
      have imageNotSpace :
          ¬(char.toNat + 32 = 32 ∨ 9 ≤ char.toNat + 32 ∧ char.toNat + 32 ≤ 13) := by
        omega
      simp only [← Bool.decide_or, ← Bool.decide_and, notSpace, imageNotSpace]
    next other => rfl

theorem asciiCase_ascii : ascii.AsciiCase :=
  ⟨fun _ _ => rfl, fun _ _ => rfl⟩

end CharTable

end QApr.Library
