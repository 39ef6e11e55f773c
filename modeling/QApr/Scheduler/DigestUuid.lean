import QApr.Scheduler.ScopeUuid

/-!
# Digests as uuids

`SchedulerScopeGroupPvt::toMd5Uuid` deletes the separators of its text, wherever they
stand, and inserts them again where the form of a uuid has them.  A text of 32 hexadecimal
digits becomes the uuid with these digits, and every other text becomes the null uuid.
-/

namespace QApr.Scheduler

open QApr.Library QApr.Qt

/-- Without its separators the text consists of 32 hexadecimal digits. -/
def IsDigest (md5 : QString) : Prop :=
  (withoutSeparators md5).length = 32 ∧ ∀ char ∈ withoutSeparators md5, char ∈ hexDigits

/-- The digits of a text in lower case. -/
def lowerDigits (md5 : QString) : QString := (withoutSeparators md5).map Char.toLower

/-- The uuid has the digits of the text, in its 16 bytes and in its canonical text. -/
structure HasDigits (uuid : QUuid) (md5 : QString) : Prop where
  length_bytes : uuid.toRfc4122.length = 16
  bytes : toHex uuid.toRfc4122 = lowerDigits md5
  text : withoutSeparators uuid.toString = lowerDigits md5

section Latin

/-- The digits are Latin-1 characters. -/
theorem toLatin1_of_mem_hexDigits {char : Char} (isDigit : char ∈ hexDigits) :
    toLatin1 char = char := by
  have all : hexDigits.all (fun char => toLatin1 char == char) = true := rfl
  exact beq_iff_eq.mp (List.all_eq_true.mp all char isDigit)

/-- No other character becomes a digit. -/
theorem toLatin1_not_mem_hexDigits {char : Char} (notDigit : char ∉ hexDigits) :
    toLatin1 char ∉ hexDigits := by
  unfold toLatin1
  split
  · exact notDigit
  · decide

theorem map_toLatin1_of_digits {text : QString} (isDigits : ∀ char ∈ text, char ∈ hexDigits) :
    text.map toLatin1 = text := by
  calc
    text.map toLatin1 = text.map id := by
      apply List.map_congr_left
      intro char member
      exact toLatin1_of_mem_hexDigits (isDigits char member)
    _ = text := List.map_id text

end Latin

section Digits

variable {md5 other : QString}

/-- The pieces of the braced layout are the text. -/
theorem withoutSeparators_braced (text : QString) :
    withoutSeparators (QUuid.braced text) = withoutSeparators text := by
  have kept := congrArg withoutSeparators (QUuid.pieces_eq text)
  rw [← kept]
  simp [withoutSeparators, QUuid.braced, List.filter_append]

/-- The uuid of a digest, by its digits. -/
theorem digits_toMd5Uuid (digest : IsDigest md5) :
    (toMd5Uuid md5).digits.map hexChar = lowerDigits md5 := by
  have ⟨digits, read, lower⟩ := exists_mapM_hexDigit? digest.2
  have full : digits.length = 32 := by
    have lengths := congrArg List.length lower
    rwa [List.length_map, List.length_map, digest.1] at lengths
  rw [toMd5Uuid_of_length digest.1, map_toLatin1_of_digits digest.2,
    QUuid.fromString_braced_of_mapM read digest.1 full]
  exact lower

/-- A uuid with the digits of a text has them in its bytes and in its text. -/
theorem hasDigits_of_digits {uuid : QUuid} (lower : uuid.digits.map hexChar = lowerDigits md5) :
    HasDigits uuid md5 where
  length_bytes := uuid.length_toRfc4122
  bytes := by rw [toHex, uuid.digitsOf_toRfc4122, lower]
  text := by
    rw [QUuid.toString, withoutSeparators_braced, withoutSeparators_map_hexChar, lower]

/-- The loop copies a character that is not a digit, and the text is not parsed. -/
theorem fromString_groupDigits_eq_null {text : QString} (full : text.length = 32) {char : Char}
    (member : char ∈ text) (notDigit : char ∉ hexDigits) :
    QUuid.fromString ('{' :: groupDigits text ++ ['}']) = .null := by
  rw [braced_groupDigits full]
  apply QUuid.fromString_braced_eq_null
  · exact mapM_hexDigit?_eq_none (List.mem_map_of_mem member)
      (toLatin1_not_mem_hexDigits notDigit)
  · rwa [List.length_map]

theorem toMd5Uuid_eq_null (notDigest : ¬IsDigest md5) : toMd5Uuid md5 = .null := by
  by_cases full : (withoutSeparators md5).length = 32
  · have notDigits : ¬∀ char ∈ withoutSeparators md5, char ∈ hexDigits :=
      fun isDigits => notDigest ⟨full, isDigits⟩
    push Not at notDigits
    have ⟨char, member, notDigit⟩ := notDigits
    rw [toMd5Uuid_of_length full, ← braced_groupDigits full]
    exact fromString_groupDigits_eq_null full member notDigit
  · exact toMd5Uuid_of_length_ne full

theorem hexChar_injective : Function.Injective hexChar := by
  intro left right equal
  have values := congrArg hexDigit? equal
  simpa using values

/-- Digests have the same uuid exactly if they have the same digits. -/
theorem toMd5Uuid_inj (digest : IsDigest md5) (otherDigest : IsDigest other) :
    toMd5Uuid other = toMd5Uuid md5 ↔ lowerDigits other = lowerDigits md5 := by
  rw [← digits_toMd5Uuid digest, ← digits_toMd5Uuid otherDigest, QUuid.ext_iff]
  exact (List.map_injective_iff.mpr hexChar_injective).eq_iff.symm

end Digits

/-- A digest becomes the uuid with its digits, which no digest with other digits becomes,
and every other text becomes the null uuid. -/
theorem toMd5Uuid_faithful (md5 : QString) :
    (IsDigest md5 →
      HasDigits (toMd5Uuid md5) md5 ∧
        ∀ other, IsDigest other →
          (toMd5Uuid other = toMd5Uuid md5 ↔ lowerDigits other = lowerDigits md5)) ∧
      (¬IsDigest md5 → toMd5Uuid md5 = .null) := by
  constructor
  · intro digest
    constructor
    · exact hasDigits_of_digits (digits_toMd5Uuid digest)
    · intro other otherDigest
      exact toMd5Uuid_inj digest otherDigest
  · exact toMd5Uuid_eq_null

/-! ## Code units

`QString::length` counts code units, and the loop visits them one by one.  The uuid of a
text is the same, because a character with two code units is not a digit.
-/

/-- `QChar::toLatin1` of a code unit. -/
def unitToLatin1 (unit : Nat) : Char :=
  if unit ≤ 255 then Char.ofNat unit else Char.ofNat 0

/-- `SchedulerScopeGroupPvt::toMd5Uuid` on the code units of its text. -/
def toMd5UuidUnits (md5 : List Nat) : QUuid :=
  let hashMD5 := md5.filter fun unit =>
    unit ≠ '-'.toNat ∧ unit ≠ '{'.toNat ∧ unit ≠ '}'.toNat
  if hashMD5.length = 32 then
    QUuid.fromString ('{' :: groupDigits (hashMD5.map unitToLatin1) ++ ['}'])
  else
    QUuid.null

section Units

/-- The separators have one code unit each, which no other character has. -/
theorem filter_utf16 (char : Char) :
    (CharTable.utf16 char).filter (fun unit =>
        unit ≠ '-'.toNat ∧ unit ≠ '{'.toNat ∧ unit ≠ '}'.toNat) =
      if char ≠ '-' ∧ char ≠ '{' ∧ char ≠ '}' then CharTable.utf16 char else [] := by
  split
  next kept =>
    apply List.filter_eq_self.mpr
    intro unit member
    rw [decide_eq_true_eq]
    cases CharTable.mem_utf16_cases member with
    | inl isChar =>
        rw [isChar]
        simp only [ne_eq, Char.toNat_inj]
        exact kept
    | inr surrogate =>
        change unit ≠ 45 ∧ unit ≠ 123 ∧ unit ≠ 125
        omega
  next removed =>
    simp only [ne_eq, not_and_or, not_not] at removed
    rcases removed with isHyphen | isLeft | isRight
    · rw [isHyphen]
      rfl
    · rw [isLeft]
      rfl
    · rw [isRight]
      rfl

theorem filter_flatMap_utf16 (text : QString) :
    (text.flatMap CharTable.utf16).filter (fun unit =>
        unit ≠ '-'.toNat ∧ unit ≠ '{'.toNat ∧ unit ≠ '}'.toNat) =
      (withoutSeparators text).flatMap CharTable.utf16 := by
  induction text with
  | nil => rfl
  | cons char rest ih =>
      rw [List.flatMap_cons, List.filter_append, ih, filter_utf16]
      simp only [withoutSeparators, List.filter_cons, decide_eq_true_eq]
      split <;> rfl

/-- A digit is one code unit. -/
theorem map_unitToLatin1_utf16 {char : Char} (isDigit : char ∈ hexDigits) :
    (CharTable.utf16 char).map unitToLatin1 = [char] := by
  have all : hexDigits.all (fun char =>
      (CharTable.utf16 char).map unitToLatin1 == [char]) = true := rfl
  exact beq_iff_eq.mp (List.all_eq_true.mp all char isDigit)

theorem map_unitToLatin1_flatMap {text : QString}
    (isDigits : ∀ char ∈ text, char ∈ hexDigits) :
    (text.flatMap CharTable.utf16).map unitToLatin1 = text := by
  induction text with
  | nil => rfl
  | cons char rest ih =>
      have restText := ih fun other member => isDigits other (List.mem_cons_of_mem _ member)
      rw [List.flatMap_cons, List.map_append, restText,
        map_unitToLatin1_utf16 (isDigits char List.mem_cons_self)]
      rfl

/-- A character of which every code unit becomes a digit is a digit. -/
theorem mem_hexDigits_of_units {char : Char}
    (isDigits : ∀ unit ∈ CharTable.utf16 char, unitToLatin1 unit ∈ hexDigits) :
    char ∈ hexDigits := by
  have ⟨unit, rest, units⟩ := List.exists_cons_of_ne_nil (CharTable.utf16_ne_nil char)
  have member : unit ∈ CharTable.utf16 char := by
    rw [units]
    exact List.mem_cons_self
  have isDigit := isDigits unit member
  unfold unitToLatin1 at isDigit
  split at isDigit
  next small =>
    cases CharTable.mem_utf16_cases member with
    | inl isChar => rwa [isChar, Char.ofNat_toNat] at isDigit
    | inr surrogate => omega
  next =>
    have notDigit : Char.ofNat 0 ∉ hexDigits := by decide
    contradiction

/-- The uuid of a text is that of its code units. -/
theorem toMd5UuidUnits_flatMap_utf16 (md5 : QString) :
    toMd5UuidUnits (md5.flatMap CharTable.utf16) = toMd5Uuid md5 := by
  rw [toMd5UuidUnits, filter_flatMap_utf16]
  by_cases isDigits : ∀ char ∈ withoutSeparators md5, char ∈ hexDigits
  · have text := map_unitToLatin1_flatMap isDigits
    have lengths := congrArg List.length text
    rw [List.length_map] at lengths
    rw [lengths, text]
    rfl
  · have notDigest : ¬IsDigest md5 := fun digest => isDigits digest.2
    rw [toMd5Uuid_eq_null notDigest]
    push Not at isDigits
    have ⟨char, member, notDigit⟩ := isDigits
    have someUnit : ¬∀ unit ∈ CharTable.utf16 char, unitToLatin1 unit ∈ hexDigits :=
      fun all => notDigit (mem_hexDigits_of_units all)
    push Not at someUnit
    have ⟨unit, unitMember, unitNotDigit⟩ := someUnit
    split
    next full =>
      apply fromString_groupDigits_eq_null (by rwa [List.length_map])
      · exact List.mem_map_of_mem (List.mem_flatMap_of_mem member unitMember)
      · exact unitNotDigit
    next => rfl

end Units

end QApr.Scheduler
