import Mathlib.Data.List.Basic
import Mathlib.Tactic.Common

/-!
# Hexadecimal text

Bytes as pairs of hexadecimal digits, and digits as characters.  Encoding emits
lower-case digits; decoding accepts both cases.
-/

namespace QApr.Library

/-- The lower-case character of a hexadecimal digit. -/
def hexChar (digit : Fin 16) : Char :=
  Char.ofNat (if digit.val < 10 then 48 + digit.val else 87 + digit.val)

/-- Value of a hexadecimal character of either case. -/
def hexDigit? (char : Char) : Option (Fin 16) :=
  if decimal : 48 ≤ char.toNat ∧ char.toNat < 58 then
    some ⟨char.toNat - 48, by omega⟩
  else if lower : 97 ≤ char.toNat ∧ char.toNat < 103 then
    some ⟨char.toNat - 87, by omega⟩
  else if upper : 65 ≤ char.toNat ∧ char.toNat < 71 then
    some ⟨char.toNat - 55, by omega⟩
  else
    none

@[simp] theorem hexDigit?_hexChar (digit : Fin 16) :
    hexDigit? (hexChar digit) = some digit := by
  revert digit
  decide

theorem mapM_hexDigit?_map_hexChar (digits : List (Fin 16)) :
    (digits.map hexChar).mapM hexDigit? = some digits := by
  induction digits with
  | nil => rfl
  | cons digit rest ih => simp [ih]

/-- The hexadecimal digits of either case. -/
def hexDigits : List Char := "0123456789abcdefABCDEF".toList

/-- The value of a digit in lower case. -/
theorem map_hexChar_hexDigit? {char : Char} (isDigit : char ∈ hexDigits) :
    (hexDigit? char).map hexChar = some char.toLower := by
  have all : hexDigits.all (fun char => (hexDigit? char).map hexChar == some char.toLower) =
      true := rfl
  exact beq_iff_eq.mp (List.all_eq_true.mp all char isDigit)

theorem mem_hexDigits_of_range {char : Char} {first count : Nat}
    (range : ∀ offset : Fin count, Char.ofNat (first + offset.val) ∈ hexDigits)
    (above : first ≤ char.toNat) (below : char.toNat < first + count) :
    char ∈ hexDigits := by
  have member := range ⟨char.toNat - first, by omega⟩
  rwa [Nat.add_sub_of_le above, Char.ofNat_toNat] at member

/-- Only the digits have a value. -/
theorem mem_hexDigits_of_hexDigit? {char : Char} (value : (hexDigit? char).isSome) :
    char ∈ hexDigits := by
  unfold hexDigit? at value
  split at value
  next decimal =>
    exact @mem_hexDigits_of_range _ 48 10 (by decide) decimal.1 decimal.2
  next =>
    split at value
    next lower => exact @mem_hexDigits_of_range _ 97 6 (by decide) lower.1 lower.2
    next =>
      split at value
      next upper => exact @mem_hexDigits_of_range _ 65 6 (by decide) upper.1 upper.2
      next => contradiction

theorem hexDigit?_eq_none {char : Char} (notDigit : char ∉ hexDigits) :
    hexDigit? char = none := by
  apply Option.not_isSome_iff_eq_none.mp
  intro value
  exact notDigit (mem_hexDigits_of_hexDigit? value)

/-- A text of hexadecimal digits is read digit by digit. -/
theorem exists_mapM_hexDigit? {text : List Char} (isDigits : ∀ char ∈ text, char ∈ hexDigits) :
    ∃ digits, text.mapM hexDigit? = some digits ∧
      digits.map hexChar = text.map Char.toLower := by
  induction text with
  | nil => exact ⟨[], rfl, rfl⟩
  | cons char rest ih =>
      have ⟨digits, restRead, restLower⟩ :=
        ih fun other member => isDigits other (List.mem_cons_of_mem _ member)
      have lower := map_hexChar_hexDigit? (isDigits char List.mem_cons_self)
      have ⟨digit, read, isLower⟩ := Option.map_eq_some_iff.mp lower
      refine ⟨digit :: digits, ?_, ?_⟩
      · rw [List.mapM_cons, read, restRead]
        rfl
      · rw [List.map_cons, List.map_cons, isLower, restLower]

/-- A text with another character is not read. -/
theorem mapM_hexDigit?_eq_none {text : List Char} {char : Char} (member : char ∈ text)
    (notDigit : char ∉ hexDigits) : text.mapM hexDigit? = none := by
  induction text with
  | nil => contradiction
  | cons first rest ih =>
      rw [List.mapM_cons]
      cases List.mem_cons.mp member with
      | inl isFirst =>
          rw [← isFirst, hexDigit?_eq_none notDigit]
          rfl
      | inr later =>
          rw [ih later]
          cases hexDigit? first <;> rfl

/-- High and low digit of a byte. -/
def nibbles (byte : UInt8) : List (Fin 16) :=
  [⟨byte.toNat / 16, by have := byte.toNat_lt; omega⟩,
    ⟨byte.toNat % 16, by omega⟩]

/-- All digits of a byte sequence, most significant first. -/
def digitsOf (bytes : List UInt8) : List (Fin 16) :=
  bytes.flatMap nibbles

@[simp] theorem length_digitsOf (bytes : List UInt8) :
    (digitsOf bytes).length = 2 * bytes.length := by
  induction bytes with
  | nil => rfl
  | cons byte rest ih =>
      simp only [digitsOf, List.flatMap_cons, List.length_append] at ih ⊢
      simp only [ih, nibbles, List.length_cons, List.length_nil]
      omega

theorem nibbles_injective : Function.Injective nibbles := by
  intro left right equal
  simp only [nibbles, List.cons.injEq, Fin.mk.injEq, and_true] at equal
  apply UInt8.toNat_inj.mp
  omega

theorem digitsOf_injective : Function.Injective digitsOf := by
  intro left
  induction left with
  | nil =>
      intro right equal
      have lengths := congrArg List.length equal
      simp only [length_digitsOf, List.length_nil] at lengths
      exact (List.length_eq_zero_iff.mp (by omega)).symm
  | cons byte rest ih =>
      intro right equal
      cases right with
      | nil =>
          have lengths := congrArg List.length equal
          simp at lengths
      | cons other tail =>
          simp only [digitsOf, List.flatMap_cons] at equal
          rcases List.append_inj equal rfl with ⟨heads, tails⟩
          rw [nibbles_injective heads, ih tails]

/-- The bytes of a digit sequence, two digits each. -/
def bytesOf : List (Fin 16) → List UInt8
  | high :: low :: rest => UInt8.ofNat (16 * high.val + low.val) :: bytesOf rest
  | _ => []

theorem nibbles_ofNat (high low : Fin 16) :
    nibbles (UInt8.ofNat (16 * high.val + low.val)) = [high, low] := by
  have byte : (UInt8.ofNat (16 * high.val + low.val)).toNat = 16 * high.val + low.val := by
    rw [UInt8.toNat_ofNat']
    omega
  simp only [nibbles, byte, List.cons.injEq, Fin.ext_iff, and_true]
  omega

/-- An even number of digits is given back by its bytes. -/
theorem digitsOf_bytesOf {digits : List (Fin 16)} {count : Nat}
    (even : digits.length = 2 * count) : digitsOf (bytesOf digits) = digits := by
  induction count generalizing digits with
  | zero =>
      rw [List.length_eq_zero_iff.mp even]
      rfl
  | succ count ih =>
      cases digits with
      | nil => simp at even
      | cons high tail =>
          cases tail with
          | nil =>
              simp only [List.length_cons, List.length_nil] at even
              omega
          | cons low rest =>
              have restEven : rest.length = 2 * count := by
                simp only [List.length_cons] at even
                omega
              have restDigits := ih restEven
              simp only [digitsOf] at restDigits
              simp only [digitsOf, bytesOf, List.flatMap_cons, nibbles_ofNat, restDigits]
              rfl

/-- Lower-case hexadecimal text of a byte sequence. -/
def toHex (bytes : List UInt8) : List Char :=
  (digitsOf bytes).map hexChar

end QApr.Library
