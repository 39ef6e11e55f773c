import Mathlib.Data.List.TakeWhile

/-!
# Flattening a pair with a separator

Two words are joined by a separator, and a missing word is left out together
with the separator.  Because the separator is not escaped, different pairs can
flatten to the same word.  `Overlap` lists every way in which this happens.
-/

namespace QApr.Library

variable {α : Type*} {sep : α}

/-- Join two words with a separator; an empty word is left out. -/
def joinPair (sep : α) : List α × List α → List α
  | ([], right) => right
  | (left, []) => left
  | (left, right) => left ++ sep :: right

theorem joinPair_of_ne_nil {left right : List α} (leftPresent : left ≠ [])
    (rightPresent : right ≠ []) :
    joinPair sep (left, right) = left ++ sep :: right := by
  cases left with
  | nil => contradiction
  | cons head tail =>
      cases right with
      | nil => contradiction
      | cons first rest => rfl

@[simp] theorem joinPair_nil_left (right : List α) : joinPair sep ([], right) = right := by
  cases right <;> rfl

@[simp] theorem joinPair_nil_right (left : List α) : joinPair sep (left, []) = left := by
  cases left <;> rfl

/-- The kinds of different pairs that flatten to one word, in one orientation. -/
inductive Overlap (sep : α) : List α × List α → List α × List α → Prop where
  /-- The separator is found at two places of the same word. -/
  | shift {left right : List α} (middle : List α) :
      left ≠ [] → right ≠ [] →
      Overlap sep (left, middle ++ sep :: right) (left ++ sep :: middle, right)
  /-- A lone first word contains the separator. -/
  | first {left right : List α} :
      left ≠ [] → right ≠ [] → Overlap sep (left, right) (left ++ sep :: right, [])
  /-- A lone second word contains the separator. -/
  | second {left right : List α} :
      left ≠ [] → right ≠ [] → Overlap sep (left, right) ([], left ++ sep :: right)
  /-- The same lone word stands once in the first and once in the second place. -/
  | place {word : List α} : word ≠ [] → Overlap sep (word, []) ([], word)

namespace Overlap

theorem joinPair_eq {first second : List α × List α} (overlap : Overlap sep first second) :
    joinPair sep first = joinPair sep second := by
  cases overlap with
  | @shift left right middle leftPresent rightPresent =>
      rw [joinPair_of_ne_nil leftPresent (by simp),
        joinPair_of_ne_nil (by simp) rightPresent, List.append_assoc, List.cons_append]
  | first leftPresent rightPresent => simp [joinPair_of_ne_nil leftPresent rightPresent]
  | second leftPresent rightPresent => simp [joinPair_of_ne_nil leftPresent rightPresent]
  | place present => simp

theorem ne {first second : List α × List α} (overlap : Overlap sep first second) :
    first ≠ second := by
  intro equal
  cases overlap with
  | shift middle leftPresent rightPresent =>
      have lengths := congrArg (fun pair => pair.1.length) equal
      simp only [List.length_append, List.length_cons] at lengths
      omega
  | first leftPresent rightPresent => exact rightPresent (congrArg Prod.snd equal)
  | second leftPresent rightPresent => exact leftPresent (congrArg Prod.fst equal)
  | place present => exact present (congrArg Prod.fst equal)

end Overlap

/-- A gap before a separator is empty or begins with one. -/
private theorem gap_cases {gap right right' : List α}
    (tails : sep :: right = gap ++ sep :: right') :
    (gap = [] ∧ right = right') ∨
      ∃ middle, gap = sep :: middle ∧ right = middle ++ sep :: right' := by
  cases gap with
  | nil => exact Or.inl ⟨rfl, (List.cons.inj tails).2⟩
  | cons head middle =>
      have ⟨isSep, rightEq⟩ := List.cons.inj tails
      exact Or.inr ⟨middle, by rw [isSep], rightEq⟩

/-- Splits of one word at a separator either agree or are shifted. -/
private theorem append_cons_eq_append_cons {left right left' right' : List α}
    (equal : left ++ sep :: right = left' ++ sep :: right') :
    (left = left' ∧ right = right') ∨
      (∃ middle, left' = left ++ sep :: middle ∧ right = middle ++ sep :: right') ∨
      (∃ middle, left = left' ++ sep :: middle ∧ right' = middle ++ sep :: right) := by
  rcases List.append_eq_append_iff.mp equal with ⟨gap, leftEq, tails⟩ | ⟨gap, leftEq, tails⟩
  · rcases gap_cases tails with ⟨empty, rightEq⟩ | ⟨middle, shifted, rightEq⟩
    · rw [empty, List.append_nil] at leftEq
      exact Or.inl ⟨leftEq.symm, rightEq⟩
    · rw [shifted] at leftEq
      exact Or.inr (Or.inl ⟨middle, leftEq, rightEq⟩)
  · rcases gap_cases tails with ⟨empty, rightEq⟩ | ⟨middle, shifted, rightEq⟩
    · rw [empty, List.append_nil] at leftEq
      exact Or.inl ⟨leftEq, rightEq.symm⟩
    · rw [shifted] at leftEq
      exact Or.inr (Or.inr ⟨middle, leftEq, rightEq⟩)

/-- The three shapes of a pair with at least one word. -/
private inductive Shape : List α × List α → Prop where
  | both {left right : List α} : left ≠ [] → right ≠ [] → Shape (left, right)
  | first {word : List α} : word ≠ [] → Shape (word, [])
  | second {word : List α} : word ≠ [] → Shape ([], word)

private theorem shape_of_ne_nil {pair : List α × List α} (present : pair ≠ ([], [])) :
    Shape pair := by
  rcases pair with ⟨left, right⟩
  by_cases leftEmpty : left = []
  · subst left
    exact .second fun rightEmpty => present (by rw [rightEmpty])
  · by_cases rightEmpty : right = []
    · subst right
      exact .first leftEmpty
    · exact .both leftEmpty rightEmpty

/-- Two non-empty pairs flatten to one word exactly when they are equal or
overlap in one of the two orientations. -/
theorem joinPair_eq_iff {left right : List α × List α}
    (leftPresent : left ≠ ([], [])) (rightPresent : right ≠ ([], [])) :
    joinPair sep left = joinPair sep right ↔
      left = right ∨ Overlap sep left right ∨ Overlap sep right left := by
  constructor
  · intro equal
    cases shape_of_ne_nil leftPresent with
    | both first second =>
        rw [joinPair_of_ne_nil first second] at equal
        cases shape_of_ne_nil rightPresent with
        | both first' second' =>
            rw [joinPair_of_ne_nil first' second'] at equal
            rcases append_cons_eq_append_cons equal with
              ⟨rfl, rfl⟩ | ⟨middle, rfl, rfl⟩ | ⟨middle, rfl, rfl⟩
            · exact Or.inl rfl
            · exact Or.inr (Or.inl (.shift middle first second'))
            · exact Or.inr (Or.inr (.shift middle first' second))
        | first =>
            rw [joinPair_nil_right] at equal
            subst equal
            exact Or.inr (Or.inl (.first first second))
        | second =>
            rw [joinPair_nil_left] at equal
            subst equal
            exact Or.inr (Or.inl (.second first second))
    | first present =>
        rw [joinPair_nil_right] at equal
        subst equal
        cases shape_of_ne_nil rightPresent with
        | both first' second' =>
            rw [joinPair_of_ne_nil first' second']
            exact Or.inr (Or.inr (.first first' second'))
        | first => exact Or.inl (by rw [joinPair_nil_right])
        | second => exact Or.inr (Or.inl (by simpa using Overlap.place present))
    | second present =>
        rw [joinPair_nil_left] at equal
        subst equal
        cases shape_of_ne_nil rightPresent with
        | both first' second' =>
            rw [joinPair_of_ne_nil first' second']
            exact Or.inr (Or.inr (.second first' second'))
        | first => exact Or.inr (Or.inr (by simpa using Overlap.place present))
        | second => exact Or.inl (by rw [joinPair_nil_left])
  · intro given
    rcases given with rfl | overlap | overlap
    · rfl
    · exact overlap.joinPair_eq
    · exact overlap.joinPair_eq.symm

/-- On non-empty pairs that do not overlap, flattening is injective, and on
overlapping ones it is not. -/
theorem joinPair_faithful_iff {left right : List α × List α}
    (leftPresent : left ≠ ([], [])) (rightPresent : right ≠ ([], [])) :
    (joinPair sep left = joinPair sep right ↔ left = right) ↔
      ¬(Overlap sep left right ∨ Overlap sep right left) := by
  rw [joinPair_eq_iff leftPresent rightPresent]
  constructor
  · intro faithful overlap
    have equal := faithful.mp (Or.inr overlap)
    exact overlap.elim (fun forward => forward.ne equal)
      fun backward => backward.ne equal.symm
  · intro apart
    exact ⟨fun either => either.resolve_right apart, Or.inl⟩

/-! ## The first separator -/

section First

variable {α : Type} [DecidableEq α] {sep : α} {text : List α}

/-- What stands before the first separator. -/
def beforeFirst (sep : α) (text : List α) : List α := text.takeWhile (· ≠ sep)

/-- What stands after the first separator. -/
def afterFirst (sep : α) (text : List α) : List α := (text.dropWhile (· ≠ sep)).tail

theorem not_mem_beforeFirst : sep ∉ beforeFirst sep text := by
  intro member
  simpa using List.mem_takeWhile_imp member

/-- The text around its first separator. -/
theorem beforeFirst_append (present : sep ∈ text) :
    beforeFirst sep text ++ sep :: afterFirst sep text = text := by
  induction text with
  | nil => contradiction
  | cons first rest ih =>
      by_cases isSep : first = sep
      · simp [beforeFirst, afterFirst, isSep]
      · have later := (List.mem_cons.mp present).resolve_left (Ne.symm isSep)
        simpa [beforeFirst, afterFirst, isSep] using ih later

/-- The first piece of a split text stands before the first separator. -/
theorem splitOn_of_mem (present : sep ∈ text) :
    text.splitOn sep = beforeFirst sep text :: (afterFirst sep text).splitOn sep := by
  have split := List.splitOn_append_cons_self_of_not_mem
    (@not_mem_beforeFirst α _ sep text) (afterFirst sep text)
  rwa [beforeFirst_append present] at split

theorem length_afterFirst_lt (present : sep ∈ text) :
    (afterFirst sep text).length < text.length := by
  have lengths := congrArg List.length (beforeFirst_append present)
  rw [List.length_append, List.length_cons] at lengths
  omega

/-- A separator that is found is counted with those behind it. -/
theorem count_eq_count_afterFirst (present : sep ∈ text) :
    text.count sep = (afterFirst sep text).count sep + 1 := by
  have counts := congrArg (List.count sep) (beforeFirst_append present)
  rw [List.count_append, List.count_cons_self,
    List.count_eq_zero_of_not_mem not_mem_beforeFirst, Nat.zero_add] at counts
  exact counts.symm

/-- The last piece of a text that is split at every separator. -/
def lastPiece (sep : α) (text : List α) : List α := (text.splitOn sep).getLastD []

theorem lastPiece_of_not_mem (absent : sep ∉ text) : lastPiece sep text = text := by
  rw [lastPiece, List.splitOn_eq_singleton absent]
  rfl

theorem lastPiece_of_mem (present : sep ∈ text) :
    lastPiece sep text = lastPiece sep (afterFirst sep text) := by
  rw [lastPiece, lastPiece, splitOn_of_mem present]
  cases pieces : (afterFirst sep text).splitOn sep with
  | nil => exact absurd pieces (List.splitOn_ne_nil _ _)
  | cons piece rest => rfl

theorem not_mem_lastPiece (sep : α) (text : List α) : sep ∉ lastPiece sep text := by
  by_cases present : sep ∈ text
  · rw [lastPiece_of_mem present]
    exact not_mem_lastPiece sep (afterFirst sep text)
  · rwa [lastPiece_of_not_mem present]
termination_by text.length
decreasing_by exact length_afterFirst_lt present

/-- Nothing is lost behind the first separator exactly if there is no other one. -/
theorem lastPiece_eq_afterFirst_iff (present : sep ∈ text) :
    lastPiece sep text = afterFirst sep text ↔ text.count sep ≤ 1 := by
  have noOther : text.count sep ≤ 1 ↔ sep ∉ afterFirst sep text := by
    rw [count_eq_count_afterFirst present, ← List.count_eq_zero]
    omega
  rw [noOther, lastPiece_of_mem present]
  constructor
  · intro equal
    rw [← equal]
    exact not_mem_lastPiece sep (afterFirst sep text)
  · exact lastPiece_of_not_mem

end First

end QApr.Library
