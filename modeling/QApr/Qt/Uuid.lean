import QApr.Library.Hex
import Mathlib.Data.List.OfFn

/-!
# Universally unique identifiers

`QUuid` as its 32 hexadecimal digits, with the braced textual form that Qt
prints and parses.
-/

namespace QApr.Qt

open QApr.Library

/-- A 128-bit identifier, most significant digit first. -/
structure QUuid where
  digits : List (Fin 16)
  length_digits : digits.length = 32
  deriving DecidableEq

namespace QUuid

@[ext] theorem ext {left right : QUuid} (equal : left.digits = right.digits) :
    left = right := by
  cases left
  cases right
  cases equal
  rfl

/-- The null uuid, all bits zero. -/
def null : QUuid := ⟨List.replicate 32 0, by simp⟩

/-- `{8-4-4-4-12}` layout of a digit text. -/
def braced (text : List Char) : List Char :=
  '{' :: text.take 8 ++ '-' :: (text.drop 8).take 4 ++ '-' :: (text.drop 12).take 4 ++
    '-' :: (text.drop 16).take 4 ++ '-' :: text.drop 20 ++ ['}']

/-- The characters at the digit positions of the braced layout. -/
def unbraced (text : List Char) : List Char :=
  (text.drop 1).take 8 ++ (text.drop 10).take 4 ++ (text.drop 15).take 4 ++
    (text.drop 20).take 4 ++ (text.drop 25).take 12

/-- `QUuid::toString()`. -/
def toString (uuid : QUuid) : List Char :=
  braced (uuid.digits.map hexChar)

/-- The bytes of the uuid, as `QUuid::toRfc4122` gives them. -/
def toRfc4122 (uuid : QUuid) : List UInt8 := bytesOf uuid.digits

/-- `QUuid::fromString` on the braced form; anything else is the null uuid. -/
def fromString (text : List Char) : QUuid :=
  if text = braced (unbraced text) then
    match (unbraced text).mapM hexDigit? with
    | some digits => if full : digits.length = 32 then ⟨digits, full⟩ else null
    | none => null
  else
    null

/-- The pieces that the braced layout separates make the text. -/
theorem pieces_eq (text : List Char) :
    text.take 8 ++ ((text.drop 8).take 4 ++ ((text.drop 12).take 4 ++
      ((text.drop 16).take 4 ++ text.drop 20))) = text := by
  have last : text.drop 20 = (text.drop 16).drop 4 := by rw [List.drop_drop]
  have third : text.drop 16 = (text.drop 12).drop 4 := by rw [List.drop_drop]
  have second : text.drop 12 = (text.drop 8).drop 4 := by rw [List.drop_drop]
  rw [last, List.take_append_drop, third, List.take_append_drop, second,
    List.take_append_drop, List.take_append_drop]

theorem unbraced_braced {text : List Char} (full : text.length = 32) :
    unbraced (braced text) = text := by
  have explicit : text = List.ofFn fun index : Fin 32 => text.get (index.cast full.symm) := by
    rw [← List.ofFn_congr full, List.ofFn_get]
  rw [explicit]
  rfl

/-- The braced layout of 32 digits is parsed to those digits. -/
theorem fromString_braced_of_mapM {text : List Char} {digits : List (Fin 16)}
    (read : text.mapM hexDigit? = some digits) (textFull : text.length = 32)
    (full : digits.length = 32) : fromString (braced text) = ⟨digits, full⟩ := by
  rw [fromString, unbraced_braced textFull, if_pos rfl, read]
  simp only [full, ↓reduceDIte]

/-- The braced layout of a text with another character is not parsed. -/
theorem fromString_braced_eq_null {text : List Char} (unread : text.mapM hexDigit? = none)
    (textFull : text.length = 32) : fromString (braced text) = null := by
  rw [fromString, unbraced_braced textFull, if_pos rfl, unread]

/-- Parsing the braced layout of 32 digits reads those digits back. -/
theorem fromString_braced {digits : List (Fin 16)} (full : digits.length = 32) :
    fromString (braced (digits.map hexChar)) = ⟨digits, full⟩ :=
  fromString_braced_of_mapM (mapM_hexDigit?_map_hexChar digits) (by simpa using full) full

@[simp] theorem fromString_toString (uuid : QUuid) : fromString uuid.toString = uuid :=
  fromString_braced uuid.length_digits

/-- A uuid has 16 bytes, which are its digits. -/
theorem digitsOf_toRfc4122 (uuid : QUuid) : digitsOf uuid.toRfc4122 = uuid.digits :=
  @digitsOf_bytesOf uuid.digits 16 uuid.length_digits

theorem length_toRfc4122 (uuid : QUuid) : uuid.toRfc4122.length = 16 := by
  have digits := congrArg List.length uuid.digitsOf_toRfc4122
  rw [length_digitsOf, uuid.length_digits] at digits
  omega

theorem toString_injective : Function.Injective toString := by
  intro left right equal
  rw [← fromString_toString left, equal, fromString_toString]

end QUuid

end QApr.Qt
