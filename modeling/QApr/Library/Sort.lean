import Mathlib.Order.Lattice

/-!
# Unstable sorting

What a sort by a key guarantees is a permutation that is ordered by the key.  Entries with
equal keys may come in any order, so a second order survives only where it does not
matter.
-/

namespace QApr.Library

variable {α κ ρ : Type} [LinearOrder κ] [LinearOrder ρ]

/-- What a sort of a list by a key may return. -/
structure SortsTo (key : α → κ) (list sorted : List α) : Prop where
  perm : sorted.Perm list
  pairwise : sorted.Pairwise fun first second => key first ≤ key second

section Sorts

variable {key : α → κ} {list : List α}

/-- The comparison of keys. -/
def keyLe (key : α → κ) (first second : α) : Bool := key first ≤ key second

theorem keyLe_trans (first second third : α) (below : keyLe key first second = true)
    (above : keyLe key second third = true) : keyLe key first third = true :=
  decide_eq_true (le_trans (of_decide_eq_true below) (of_decide_eq_true above))

theorem keyLe_total (first second : α) :
    (keyLe key first second || keyLe key second first) = true := by
  simpa [keyLe] using le_total (key first) (key second)

/-- The stable sort is one of the possibilities. -/
theorem sortsTo_mergeSort (key : α → κ) (list : List α) :
    SortsTo key list (list.mergeSort (keyLe key)) where
  perm := List.mergeSort_perm _ _
  pairwise := by
    have sorted := List.pairwise_mergeSort (@keyLe_trans _ _ _ key) keyLe_total list
    exact sorted.imp of_decide_eq_true

/-- Entries that the key tells apart are in strict order. -/
theorem SortsTo.pairwise_lt {sorted : List α} (sorts : SortsTo key list sorted)
    (nodup : list.Nodup) (injective : Function.Injective key) :
    sorted.Pairwise fun first second => key first < key second := by
  have distinct : sorted.Pairwise fun first second => first ≠ second :=
    sorts.perm.nodup_iff.mpr nodup
  apply (sorts.pairwise.and distinct).imp
  intro first second ordered
  exact lt_of_le_of_ne ordered.1 (injective.ne ordered.2)

/-- Two different entries can be brought to the front. -/
theorem exists_perm_pair {first second : α} (firstMember : first ∈ list)
    (secondMember : second ∈ list) (different : first ≠ second) :
    ∃ rest, (first :: second :: rest).Perm list := by
  have ⟨before, after, split⟩ := List.append_of_mem firstMember
  have toFront : (first :: (before ++ after)).Perm list := by
    rw [split]
    exact List.perm_middle.symm
  have later : second ∈ before ++ after := by
    have member := toFront.mem_iff.mpr secondMember
    exact (List.mem_cons.mp member).resolve_left different.symm
  have ⟨left, right, splitRest⟩ := List.append_of_mem later
  refine ⟨left ++ right, List.Perm.trans (List.Perm.cons first ?_) toFront⟩
  rw [splitRest]
  exact List.perm_middle.symm

/-- Two different entries with equal keys may come in either order. -/
theorem exists_sortsTo_pair {first second : α} (firstMember : first ∈ list)
    (secondMember : second ∈ list) (different : first ≠ second)
    (sameKey : key first = key second) :
    ∃ sorted, SortsTo key list sorted ∧ [first, second].Sublist sorted := by
  have ⟨rest, perm⟩ := exists_perm_pair firstMember secondMember different
  have sorts := sortsTo_mergeSort key (first :: second :: rest)
  refine ⟨_, ⟨sorts.perm.trans perm, sorts.pairwise⟩, ?_⟩
  apply List.pair_sublist_mergeSort keyLe_trans keyLe_total
  · exact decide_eq_true (le_of_eq sameKey)
  · exact (List.nil_sublist rest).cons_cons second |>.cons_cons first

/-- Every result of a sort by the key is ordered by the rank among equal keys exactly
if equal keys have equal ranks. -/
theorem sortsTo_refines_iff (rank : α → ρ) :
    (∀ sorted, SortsTo key list sorted → sorted.Pairwise fun first second =>
        key first < key second ∨ key first = key second ∧ rank first ≤ rank second) ↔
      ∀ first ∈ list, ∀ second ∈ list, key first = key second → rank first = rank second := by
  constructor
  · intro refined
    -- The entry with the greater rank may come first.
    have noGreater : ∀ first ∈ list, ∀ second ∈ list, key first = key second →
        rank first ≤ rank second := by
      intro first firstMember second secondMember sameKey
      by_cases same : first = second
      · exact le_of_eq (congrArg rank same)
      · have ⟨sorted, sorts, inOrder⟩ :=
          exists_sortsTo_pair firstMember secondMember same sameKey
        have ordered := List.pairwise_pair.mp ((refined sorted sorts).sublist inOrder)
        rcases ordered with less | ⟨_, le⟩
        · exact absurd sameKey (ne_of_lt less)
        · exact le
    intro first firstMember second secondMember sameKey
    exact le_antisymm (noGreater first firstMember second secondMember sameKey)
      (noGreater second secondMember first firstMember sameKey.symm)
  · intro sameRank sorted sorts
    apply sorts.pairwise.imp_of_mem
    intro first second firstMember secondMember ordered
    rcases lt_or_eq_of_le ordered with less | sameKey
    · exact Or.inl less
    · have equal := sameRank first (sorts.perm.mem_iff.mp firstMember) second
        (sorts.perm.mem_iff.mp secondMember) sameKey
      exact Or.inr ⟨sameKey, le_of_eq equal⟩

end Sorts

end QApr.Library
