import QApr.Library.Heap

/-!
# Mutual exclusion

A lock guards a set of parties when every party inside holds the lock.  The rules
below say how the guard survives the steps of the parties.
-/

namespace QApr.Library

variable {ι : Type}

/-- Every party inside holds the lock. -/
def Guarded (owner : Option ι) (inside : ι → Prop) : Prop :=
  ∀ party, inside party → owner = some party

namespace Guarded

variable {owner : Option ι} {inside after : ι → Prop} {self : ι}

/-- No two parties are inside at the same time. -/
theorem exclusive (guarded : Guarded owner inside) {left right : ι} (leftInside : inside left)
    (rightInside : inside right) : left = right :=
  Option.some.inj ((guarded left leftInside).symm.trans (guarded right rightInside))

/-- A step that lets nobody in. -/
theorem mono (guarded : Guarded owner inside) (fewer : ∀ party, after party → inside party) :
    Guarded owner after := by
  intro party isInside
  exact guarded party (fewer party isInside)

/-- A party acquires the free lock and goes inside. -/
theorem acquire (guarded : Guarded none inside)
    (enters : ∀ party, after party → party = self ∨ inside party) :
    Guarded (some self) after := by
  intro party isInside
  rcases enters party isInside with rfl | old
  · rfl
  · exact absurd (guarded party old) (by simp)

/-- The party inside leaves and releases the lock. -/
theorem release (guarded : Guarded owner inside) (selfInside : inside self)
    (leaves : ∀ party, after party → inside party ∧ party ≠ self) :
    Guarded none after := by
  intro party isInside
  have ⟨wasInside, other⟩ := leaves party isInside
  exact absurd (guarded.exclusive wasInside selfInside) other

end Guarded

/-! ## Parties in a list -/

/-- The parties of a list that are inside, by their positions. -/
def insideOf {α : Type} (parties : List α) (isInside : α → Prop) (self : Nat) : Prop :=
  ∃ party, parties[self]? = some party ∧ isInside party

section Parties

variable {α : Type} {parties : List α} {isInside : α → Prop} {owner : Option Nat} {self : Nat}
  {before after : α}

/-- A party advances without going inside. -/
theorem Guarded.set (guarded : Guarded owner (insideOf parties isInside))
    (found : parties[self]? = some before) (fewer : isInside after → isInside before) :
    Guarded owner (insideOf (parties.set self after) isInside) := by
  apply guarded.mono
  intro other inside
  rcases inside with ⟨party, otherFound, inside⟩
  rcases getElem?_set_cases otherFound with ⟨rfl, rfl⟩ | ⟨_, unchanged⟩
  · exact ⟨before, found, fewer inside⟩
  · exact ⟨party, unchanged, inside⟩

/-- A party is changed in place without going inside. -/
theorem Guarded.modify (guarded : Guarded owner (insideOf parties isInside))
    {change : α → α} (fewer : ∀ party, isInside (change party) → isInside party) :
    Guarded owner (insideOf (parties.modify self change) isInside) := by
  cases found : parties[self]? with
  | none =>
      rw [List.modify_eq_self (List.getElem?_eq_none_iff.mp found)]
      exact guarded
  | some party =>
      rw [modify_of_some found]
      exact guarded.set found (fewer party)

/-- A party is added outside. -/
theorem Guarded.concat (guarded : Guarded owner (insideOf parties isInside))
    (outside : ¬isInside after) :
    Guarded owner (insideOf (parties ++ [after]) isInside) := by
  apply guarded.mono
  intro other inside
  rcases inside with ⟨party, otherFound, inside⟩
  rcases getElem?_concat_cases otherFound with old | ⟨_, rfl⟩
  · exact ⟨party, old, inside⟩
  · exact absurd inside outside

/-- A party goes inside with the lock. -/
theorem Guarded.set_acquire (guarded : Guarded none (insideOf parties isInside)) :
    Guarded (some self) (insideOf (parties.set self after) isInside) := by
  apply guarded.acquire
  intro other inside
  rcases inside with ⟨party, otherFound, inside⟩
  rcases getElem?_set_cases otherFound with ⟨same, _⟩ | ⟨_, unchanged⟩
  · exact Or.inl same
  · exact Or.inr ⟨party, unchanged, inside⟩

/-- A party leaves and releases the lock. -/
theorem Guarded.set_release (guarded : Guarded owner (insideOf parties isInside))
    (found : parties[self]? = some before) (wasInside : isInside before)
    (outside : ¬isInside after) :
    Guarded none (insideOf (parties.set self after) isInside) := by
  apply guarded.release ⟨before, found, wasInside⟩
  intro other inside
  rcases inside with ⟨party, otherFound, inside⟩
  rcases getElem?_set_cases otherFound with ⟨_, rfl⟩ | ⟨different, unchanged⟩
  · exact absurd inside outside
  · exact ⟨⟨party, unchanged, inside⟩, different⟩

/-- A party inside stays there when another one is changed. -/
theorem insideOf.set {other : Nat} (inside : insideOf parties isInside other)
    (different : other ≠ self) : insideOf (parties.set self after) isInside other := by
  rcases inside with ⟨party, found, isInside⟩
  exact ⟨party, (List.getElem?_set_ne (Ne.symm different)).trans found, isInside⟩

/-- A party inside stays there through a change that lets nobody out. -/
theorem insideOf.modify {other : Nat} {change : α → α}
    (stays : ∀ party, isInside party → isInside (change party))
    (inside : insideOf parties isInside other) :
    insideOf (parties.modify self change) isInside other := by
  rcases inside with ⟨party, found, isInside⟩
  by_cases same : self = other
  · subst same
    have bound := (List.getElem?_eq_some_iff.mp found).1
    rw [modify_of_some found]
    exact ⟨change party, List.getElem?_set_self bound, stays party isInside⟩
  · refine ⟨party, ?_, isInside⟩
    rw [List.getElem?_modify, found]
    simp [same]

theorem insideOf.concat {other : Nat} (inside : insideOf parties isInside other) :
    insideOf (parties ++ [after]) isInside other := by
  rcases inside with ⟨party, found, isInside⟩
  exact ⟨party, getElem?_append_of_some found _, isInside⟩

end Parties

end QApr.Library
