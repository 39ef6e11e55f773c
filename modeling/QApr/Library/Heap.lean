/-!
# Objects in the order of their allocation

A list of objects in which a pointer is a position.  Objects are added at the end and
changed in place.
-/

namespace QApr.Library

variable {α : Type}

/-- Changing an object to itself changes nothing. -/
theorem modify_of_fixed {objects : List α} {pointer : Nat} {change : α → α}
    (fixed : ∀ object, objects[pointer]? = some object → change object = object) :
    objects.modify pointer change = objects := by
  apply List.ext_getElem?
  intro other
  rw [List.getElem?_modify]
  by_cases same : pointer = other
  · subst same
    cases found : objects[pointer]? with
    | none => rfl
    | some object => simp [fixed object found]
  · simp [same]

/-- An object that is already there is not affected by an allocation. -/
theorem getElem?_append_of_some {objects : List α} {pointer : Nat} {object : α}
    (found : objects[pointer]? = some object) (added : List α) :
    (objects ++ added)[pointer]? = some object := by
  rw [List.getElem?_append_left (List.getElem?_eq_some_iff.mp found).1, found]

/-- The objects after an allocation. -/
theorem getElem?_concat_cases {objects : List α} {added object : α} {pointer : Nat}
    (found : (objects ++ [added])[pointer]? = some object) :
    objects[pointer]? = some object ∨ pointer = objects.length ∧ object = added := by
  rw [List.getElem?_append] at found
  split at found
  next => exact Or.inl found
  next outside =>
    rw [List.getElem?_singleton] at found
    split at found
    next first =>
      have same : pointer = objects.length := by omega
      exact Or.inr ⟨same, (Option.some.inj found).symm⟩
    next => contradiction

/-- The objects after one of them was replaced. -/
theorem getElem?_set_cases {objects : List α} {self pointer : Nat} {after object : α}
    (found : (objects.set self after)[pointer]? = some object) :
    pointer = self ∧ object = after ∨ pointer ≠ self ∧ objects[pointer]? = some object := by
  by_cases same : pointer = self
  · subst same
    have bound : pointer < objects.length := by
      simpa using (List.getElem?_eq_some_iff.mp found).1
    rw [List.getElem?_set_self bound, Option.some.injEq] at found
    exact Or.inl ⟨rfl, found.symm⟩
  · rw [List.getElem?_set_ne (Ne.symm same)] at found
    exact Or.inr ⟨same, found⟩

/-- The object that replaces one is found at its place. -/
theorem getElem?_set_of_some {objects : List α} {pointer : Nat} {object : α}
    (found : objects[pointer]? = some object) (after : α) :
    (objects.set pointer after)[pointer]? = some after :=
  List.getElem?_set_self (List.getElem?_eq_some_iff.mp found).1

/-- Replacing an object by itself changes nothing. -/
theorem set_of_some {objects : List α} {pointer : Nat} {object : α}
    (found : objects[pointer]? = some object) : objects.set pointer object = objects := by
  rcases List.getElem?_eq_some_iff.mp found with ⟨bound, rfl⟩
  exact List.set_getElem_self bound

/-- Changing an object in place replaces it. -/
theorem modify_of_some {objects : List α} {pointer : Nat} {object : α}
    (found : objects[pointer]? = some object) (change : α → α) :
    objects.modify pointer change = objects.set pointer (change object) := by
  apply List.ext_getElem?
  intro other
  have bound := (List.getElem?_eq_some_iff.mp found).1
  rw [List.getElem?_modify]
  by_cases same : pointer = other
  · subst same
    rw [List.getElem?_set_self bound, found]
    simp
  · simp [same]

/-- Replacing the object that was allocated last. -/
theorem set_concat (objects : List α) (last after : α) :
    (objects ++ [last]).set objects.length after = objects ++ [after] := by
  rw [List.set_append_right _ _ (Nat.le_refl _), Nat.sub_self]
  rfl

/-- A property that a change keeps holds of all objects after it. -/
theorem forall_mem_modify {objects : List α} {pointer : Nat} {change : α → α}
    {property : α → Prop} (keeps : ∀ object, property object → property (change object))
    (all : ∀ object ∈ objects, property object) :
    ∀ object ∈ objects.modify pointer change, property object := by
  cases found : objects[pointer]? with
  | none =>
      rw [List.modify_eq_self (List.getElem?_eq_none_iff.mp found)]
      exact all
  | some changed =>
      rw [modify_of_some found]
      intro object member
      rcases List.mem_or_eq_of_mem_set member with old | rfl
      · exact all object old
      · exact keeps changed (all changed (List.mem_of_getElem? found))

end QApr.Library
