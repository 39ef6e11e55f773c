/-!
# Lists put together from blocks

Concatenations of one block for each element of a list: when two of them are equal
block by block, and when the order of the elements makes no difference.
-/

namespace QApr.Library

variable {α β : Type}

/-- Two lists put together from blocks of equal lengths are equal block by block. -/
theorem flatMap_eq_flatMap_iff {left right : α → List β} {list : List α}
    (lengths : ∀ item ∈ list, (left item).length = (right item).length) :
    list.flatMap left = list.flatMap right ↔ ∀ item ∈ list, left item = right item := by
  induction list with
  | nil => simp
  | cons item rest ih =>
      have tail := ih fun other member => lengths other (by simp [member])
      simp only [List.flatMap_cons, List.mem_cons, forall_eq_or_imp, ← tail]
      constructor
      · intro equal
        exact List.append_inj equal (lengths item (by simp))
      · intro ⟨head, rest⟩
        rw [head, rest]

/-- A concatenation in which one block only is not empty. -/
theorem flatMap_eq_of_unique {image : α → List β} {list : List α} (nodup : list.Nodup)
    {item : α} (member : item ∈ list)
    (others : ∀ other ∈ list, other ≠ item → image other = []) :
    list.flatMap image = image item := by
  induction list with
  | nil => contradiction
  | cons head rest ih =>
      rw [List.nodup_cons] at nodup
      rw [List.flatMap_cons]
      rcases List.mem_cons.mp member with rfl | later
      · have empty : rest.flatMap image = [] := by
          apply List.flatMap_eq_nil_iff.mpr
          intro other inside
          apply others other (by simp [inside])
          intro equal
          exact nodup.1 (equal ▸ inside)
        rw [empty, List.append_nil]
      · have different : head ≠ item := fun equal => nodup.1 (equal ▸ later)
        rw [others head (by simp) different, List.nil_append]
        exact ih nodup.2 later fun other inside => others other (by simp [inside])

/-- The order makes no difference when at most one block is not empty. -/
theorem flatMap_perm_of_unique {image : α → List β} {list left right : List α}
    (nodup : list.Nodup) (unique : ∀ first ∈ list, ∀ second ∈ list,
      image first ≠ [] → image second ≠ [] → first = second)
    (leftPerm : left.Perm list) (rightPerm : right.Perm list) :
    left.flatMap image = right.flatMap image := by
  by_cases visited : ∃ item ∈ list, image item ≠ []
  · rcases visited with ⟨item, member, visits⟩
    have single {order : List α} (perm : order.Perm list) :
        order.flatMap image = image item := by
      apply flatMap_eq_of_unique (perm.nodup_iff.mpr nodup) (perm.mem_iff.mpr member)
      intro other otherMember different
      apply Classical.byContradiction
      intro otherVisits
      exact different (unique other (perm.mem_iff.mp otherMember) item member otherVisits visits)
    rw [single leftPerm, single rightPerm]
  · have nothing {order : List α} (perm : order.Perm list) : order.flatMap image = [] := by
      apply List.flatMap_eq_nil_iff.mpr
      intro item member
      apply Classical.byContradiction
      intro visits
      exact visited ⟨item, perm.mem_iff.mp member, visits⟩
    rw [nothing leftPerm, nothing rightPerm]

end QApr.Library
