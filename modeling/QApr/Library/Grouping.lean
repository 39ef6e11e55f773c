import Mathlib.Data.List.Induction
import Mathlib.Data.List.Perm.Basic
import Mathlib.Data.List.Nodup

/-!
# Grouping in a table

Items are put one after another into a table of groups, and the first item of a key creates
the group of the key.  In the end every group has collected the items of its key, in their
order, and no item is in two groups.
-/

namespace QApr.Library

variable {α κ γ : Type}

section Partition

variable [DecidableEq κ]

/-- Items that are sorted into groups by their keys are all there, and only once. -/
theorem flatMap_filter_perm {key : α → κ} {names : List κ} (nodup : names.Nodup)
    {items : List α} (named : ∀ item ∈ items, key item ∈ names) :
    (names.flatMap fun name => items.filter fun item => key item = name).Perm items := by
  induction items with
  | nil => simp
  | cons item rest ih =>
      have restPerm := ih fun other member => named other (List.mem_cons_of_mem _ member)
      have ⟨before, after, split⟩ := List.append_of_mem (named item List.mem_cons_self)
      rw [split] at nodup restPerm ⊢
      -- Only the group of its own key has the item.
      have others (group : List κ) (apart : key item ∉ group) :
          (group.flatMap fun name => (item :: rest).filter fun item => key item = name) =
            group.flatMap fun name => rest.filter fun item => key item = name := by
        apply List.flatMap_congr
        intro name member
        have otherName : ¬key item = name := fun same => apart (same ▸ member)
        rw [List.filter_cons, decide_eq_false otherName]
        rfl
      have apart := (List.nodup_middle.mp nodup).notMem
      rw [List.mem_append, not_or] at apart
      rw [List.flatMap_append, List.flatMap_cons, others before apart.1, others after apart.2,
        List.filter_cons, decide_eq_true rfl]
      rw [List.flatMap_append, List.flatMap_cons] at restPerm
      exact List.perm_middle.trans (restPerm.cons item)

end Partition

/-- A lookup that finds something everywhere leaves nothing out. -/
theorem forall₂_filterMap {find : κ → Option γ} {names : List κ} {related : κ → γ → Prop}
    (found : ∀ name ∈ names, ∃ group, find name = some group)
    (relates : ∀ name group, find name = some group → related name group) :
    List.Forall₂ related names (names.filterMap find) := by
  induction names with
  | nil => exact .nil
  | cons name rest ih =>
      have ⟨group, isGroup⟩ := found name List.mem_cons_self
      rw [List.filterMap_cons_some isGroup]
      apply List.Forall₂.cons (relates name group isGroup)
      apply ih
      intro other member
      exact found other (List.mem_cons_of_mem _ member)

/-- Lists of items that belong to names, one after another. -/
theorem flatMap_eq_of_forall₂ {β : Type} {names : List κ} {groups : List γ}
    {items : κ → List β} {content : γ → List β}
    (contents : List.Forall₂ (fun name group => content group = items name) names groups) :
    groups.flatMap content = names.flatMap items := by
  induction contents with
  | nil => rfl
  | cons same _ ih => rw [List.flatMap_cons, List.flatMap_cons, same, ih]

variable [BEq κ]

/-- A key of the table has a group. -/
theorem mem_keys_iff [LawfulBEq κ] (table : List (κ × γ)) (target : κ) :
    target ∈ table.map Prod.fst ↔ (table.lookup target).isSome := by
  rw [List.lookup_isSome_iff, List.mem_map]
  constructor
  · intro found
    have ⟨entry, member, isTarget⟩ := found
    exact ⟨entry, member, beq_iff_eq.mpr isTarget.symm⟩
  · intro found
    have ⟨entry, member, isTarget⟩ := found
    exact ⟨entry, member, (eq_of_beq isTarget).symm⟩

variable [DecidableEq κ]

/-- Put an item into the group of its key, which is created if it is missing. -/
def putInGroup (key : α → κ) (create : α → γ) (add : γ → α → γ) (table : List (κ × γ))
    (item : α) : List (κ × γ) :=
  let group := (table.lookup (key item)).getD (create item)
  let table :=
    if (table.lookup (key item)).isNone then table ++ [(key item, create item)] else table
  table.map fun entry => if entry.1 = key item then (key item, add group item) else entry

/-- The group of a sequence of items, of which the first one creates it. -/
def collect (create : α → γ) (add : γ → α → γ) : List α → Option γ
  | [] => none
  | first :: rest => some ((first :: rest).foldl add (create first))

section Collect

variable {create : α → γ} {add : γ → α → γ}

@[simp] theorem collect_nil : collect create add [] = none := rfl

theorem collect_snoc (items : List α) (item : α) :
    collect create add (items ++ [item]) =
      some (add ((collect create add items).getD (create item)) item) := by
  cases items with
  | nil => rfl
  | cons first rest =>
      rw [List.cons_append, collect, ← List.cons_append, List.foldl_append]
      rfl

end Collect

section Table

variable {key : α → κ} {create : α → γ} {add : γ → α → γ}

/-- The keys of the table, with that of the item. -/
theorem keys_putInGroup (table : List (κ × γ)) (item : α) :
    (putInGroup key create add table item).map Prod.fst =
      if (table.lookup (key item)).isNone then table.map Prod.fst ++ [key item]
      else table.map Prod.fst := by
  have sameKeys (table : List (κ × γ)) (group : γ) :
      (table.map fun entry => if entry.1 = key item then (key item, group) else entry).map
        Prod.fst = table.map Prod.fst := by
    rw [List.map_map]
    apply List.map_congr_left
    intro entry _
    by_cases isKey : entry.1 = key item <;> simp [isKey]
  rw [putInGroup, sameKeys]
  split
  · rw [List.map_append]
    rfl
  · rfl

variable [LawfulBEq κ]

/-- Replacing the entries of one key leaves the other keys alone. -/
theorem lookup_map_replace (table : List (κ × γ)) (replaced target : κ) (group : γ) :
    (table.map fun entry => if entry.1 = replaced then (replaced, group) else entry).lookup
        target =
      if replaced = target then (table.lookup target).map fun _ => group
      else table.lookup target := by
  induction table with
  | nil => simp
  | cons entry rest ih =>
      rw [List.map_cons]
      by_cases isReplaced : entry.1 = replaced
      · rw [if_pos isReplaced, List.lookup_cons, ih]
        by_cases isTarget : replaced = target
        · rw [if_pos isTarget, if_pos isTarget, ← isTarget, ← isReplaced, List.lookup_cons_self,
            beq_self_eq_true]
          rfl
        · have otherKey : (target == replaced) = false := beq_false_of_ne (Ne.symm isTarget)
          have otherEntry : (target == entry.1) = false := by rw [isReplaced, otherKey]
          rw [if_neg isTarget, if_neg isTarget, otherKey, List.lookup_cons, otherEntry]
      · rw [if_neg isReplaced, List.lookup_cons, List.lookup_cons, ih]
        cases sameKey : target == entry.1 with
        | false => rfl
        | true =>
            have notTarget : replaced ≠ target := by
              intro isTarget
              exact isReplaced ((eq_of_beq sameKey).symm.trans isTarget.symm)
            dsimp only
            rw [if_neg notTarget]

/-- What an item does to the group of any key. -/
theorem lookup_putInGroup (table : List (κ × γ)) (item : α) (target : κ) :
    (putInGroup key create add table item).lookup target =
      if key item = target then
        some (add ((table.lookup target).getD (create item)) item)
      else table.lookup target := by
  rw [putInGroup, lookup_map_replace]
  by_cases isTarget : key item = target
  · rw [if_pos isTarget, if_pos isTarget, isTarget]
    cases found : table.lookup target with
    | none => simp [found, List.lookup_append]
    | some group => simp [found]
  · have otherKey : (target == key item) = false := beq_false_of_ne (Ne.symm isTarget)
    rw [if_neg isTarget, if_neg isTarget]
    split
    · rw [List.lookup_append, List.lookup_cons, otherKey, List.lookup_nil, Option.or_none]
    · rfl

theorem nodup_keys_putInGroup {table : List (κ × γ)} (nodup : (table.map Prod.fst).Nodup)
    (item : α) : ((putInGroup key create add table item).map Prod.fst).Nodup := by
  rw [keys_putInGroup]
  split
  next missing =>
    apply List.nodup_append.mpr
    refine ⟨nodup, List.nodup_singleton _, ?_⟩
    intro other member last isLast equal
    rw [equal, List.mem_singleton.mp isLast, mem_keys_iff,
      Option.isNone_iff_eq_none.mp missing] at member
    contradiction
  next => exact nodup

/-- The table of the groups of a sequence of items. -/
def groupTable (key : α → κ) (create : α → γ) (add : γ → α → γ) (items : List α) :
    List (κ × γ) :=
  items.foldl (putInGroup key create add) []

/-- Under every key the table has the group of the items with this key. -/
theorem lookup_groupTable (items : List α) (target : κ) :
    (groupTable key create add items).lookup target =
      collect create add (items.filter fun item => key item = target) := by
  induction items using List.reverseRecOn with
  | nil => rfl
  | append_singleton earlier item ih =>
      rw [groupTable, List.foldl_append, List.foldl_cons, List.foldl_nil, lookup_putInGroup,
        ← groupTable, ih, List.filter_append]
      by_cases isTarget : key item = target
      · rw [if_pos isTarget, List.filter_singleton, decide_eq_true isTarget]
        exact (collect_snoc _ item).symm
      · rw [if_neg isTarget, List.filter_singleton, decide_eq_false isTarget]
        simp

theorem nodup_keys_groupTable (items : List α) :
    ((groupTable key create add items).map Prod.fst).Nodup := by
  induction items using List.reverseRecOn with
  | nil => exact List.nodup_nil
  | append_singleton earlier item ih =>
      rw [groupTable, List.foldl_append]
      exact nodup_keys_putInGroup ih item

/-- The keys of the table are those of the items. -/
theorem mem_keys_groupTable_iff (items : List α) (target : κ) :
    target ∈ (groupTable key create add items).map Prod.fst ↔
      ∃ item ∈ items, key item = target := by
  rw [mem_keys_iff, lookup_groupTable]
  cases members : items.filter fun item => key item = target with
  | nil =>
      have none : ∀ item ∈ items, ¬decide (key item = target) = true :=
        List.filter_eq_nil_iff.mp members
      simpa using none
  | cons first rest =>
      have member : first ∈ items.filter fun item => key item = target := by
        rw [members]
        exact List.mem_cons_self
      have ⟨isItem, isTarget⟩ := List.mem_filter.mp member
      exact iff_of_true rfl ⟨first, isItem, of_decide_eq_true isTarget⟩

end Table

end QApr.Library
