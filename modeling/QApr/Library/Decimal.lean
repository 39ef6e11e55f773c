import Mathlib.Algebra.Group.Nat.Defs
import Mathlib.Data.Char
import Mathlib.Data.List.Lex

/-!
# Padded decimals

Decimal numerals of a fixed width, padded with zeros on the left.  As texts they
compare like the numbers they stand for.
-/

namespace QApr.Library

/-- The decimal numeral of a number, padded with zeros on the left. -/
def padded (width number : Nat) : List Char :=
  (Nat.toDigits 10 number).leftpad width '0'

theorem length_padded {width number : Nat} (positive : 0 < width)
    (fits : number < 10 ^ width) : (padded width number).length = width := by
  have digits := (Nat.length_toDigits_le_iff (by decide) positive).mpr fits
  rw [padded, List.leftpad, List.length_append, List.length_replicate]
  exact Nat.sub_add_cancel digits

/-- The last digit of a numeral. -/
theorem padded_succ {width : Nat} (positive : 0 < width) (number : Nat) :
    padded (width + 1) number =
      padded width (number / 10) ++ [Nat.digitChar (number % 10)] := by
  simp only [padded, List.leftpad]
  rcases Nat.lt_or_ge number 10 with single | several
  · have quotient : number / 10 = 0 := Nat.div_eq_of_lt single
    rcases Nat.exists_eq_succ_of_ne_zero (Nat.ne_of_gt positive) with ⟨rest, rfl⟩
    rw [quotient, Nat.toDigits_zero, Nat.toDigits_of_lt_base single, Nat.mod_eq_of_lt single]
    simp [List.replicate_succ']
  · rw [Nat.toDigits_of_base_le (by decide) several]
    simp

/-- A padded numeral consists of digits. -/
theorem isDigit_of_mem_padded {width number : Nat} {char : Char}
    (member : char ∈ padded width number) : char.isDigit = true := by
  rcases List.mem_append.mp member with zero | digit
  · rw [List.eq_of_mem_replicate zero]
    rfl
  · exact Nat.isDigit_of_mem_toDigits (by decide) (by decide) digit

/-! ## Order -/

theorem append_lt_append_of_length_eq {α : Type} [LT α] {left right : List α} (less : left < right)
    (sameLength : left.length = right.length) (leftRest rightRest : List α) :
    left ++ leftRest < right ++ rightRest := by
  induction left generalizing right with
  | nil =>
      cases right with
      | nil => contradiction
      | cons head tail => contradiction
  | cons leftHead leftTail ih =>
      cases right with
      | nil => contradiction
      | cons rightHead rightTail =>
          simp only [List.cons_append, List.cons_lt_cons_iff] at less ⊢
          rcases less with headLess | ⟨headEq, tailLess⟩
          · exact Or.inl headLess
          · exact Or.inr ⟨headEq, ih tailLess (Nat.succ.inj sameLength)⟩

theorem digitChar_lt {left right : Nat} (less : left < right) (single : right < 10) :
    Nat.digitChar left < Nat.digitChar right := by
  have digits : ∀ right < 10, ∀ left < right, Nat.digitChar left < Nat.digitChar right := by
    decide
  exact digits right single left less

/-- Numerals of one width compare like their numbers. -/
theorem padded_lt {width left right : Nat} (positive : 0 < width) (less : left < right)
    (fits : right < 10 ^ width) : padded width left < padded width right := by
  induction width, positive using Nat.le_induction generalizing left right with
  | base =>
      have rightSingle : right < 10 := fits
      have leftSingle := Nat.lt_trans less rightSingle
      simp only [padded, Nat.toDigits_of_lt_base, leftSingle, rightSingle]
      exact List.cons_lt_cons_iff.mpr (Or.inl (digitChar_lt less rightSingle))
  | succ width positive ih =>
      rw [padded_succ positive, padded_succ positive]
      have rightFits : right / 10 < 10 ^ width := by
        apply Nat.div_lt_of_lt_mul
        rwa [Nat.mul_comm, ← Nat.pow_succ]
      rcases Nat.lt_or_eq_of_le (Nat.div_le_div_right (c := 10) (Nat.le_of_lt less)) with
        quotientLess | quotientEq
      · apply append_lt_append_of_length_eq (ih quotientLess rightFits)
        rw [length_padded positive (Nat.lt_trans quotientLess rightFits),
          length_padded positive rightFits]
      · rw [quotientEq]
        apply List.append_left_lt
        have digitLess : left % 10 < right % 10 := by omega
        have single : right % 10 < 10 := Nat.mod_lt _ (by decide)
        exact List.cons_lt_cons_iff.mpr (Or.inl (digitChar_lt digitLess single))

end QApr.Library
