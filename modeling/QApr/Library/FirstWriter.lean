import Mathlib.Data.Finmap

/-!
# First-writer-wins tables

A sequence of writes fills a finite table, and a write to a key that is already
present is dropped.  The table is therefore determined by the first writer of
each key, which is a property of the sequence alone.
-/

namespace QApr.Library

variable {α : Type*} {κ ν : Type} [DecidableEq κ]

/-- The first element of a sequence that writes to `target`. -/
def firstWriter (key : α → κ) (writes : List α) (target : κ) : Option α :=
  writes.find? fun write => key write = target

section FirstWriter

variable {key : α → κ} {writes : List α} {target : κ}

@[simp] theorem firstWriter_nil : firstWriter key ([] : List α) target = none := rfl

theorem firstWriter_snoc (write : α) :
    firstWriter key (writes ++ [write]) target =
      (firstWriter key writes target).or
        (if key write = target then some write else none) := by
  simp only [firstWriter, List.find?_append, List.find?_cons, List.find?_nil]
  by_cases hit : key write = target <;> simp [hit]

theorem firstWriter_snoc_of_ne {write : α} (other : key write ≠ target) :
    firstWriter key (writes ++ [write]) target = firstWriter key writes target := by
  simp [firstWriter_snoc, other]

theorem firstWriter_eq_none_iff :
    firstWriter key writes target = none ↔ ∀ write ∈ writes, key write ≠ target := by
  simp [firstWriter]

theorem key_of_firstWriter {writer : α}
    (first : firstWriter key writes target = some writer) : key writer = target := by
  simpa using List.find?_some first

theorem mem_of_firstWriter {writer : α}
    (first : firstWriter key writes target = some writer) : writer ∈ writes :=
  List.mem_of_find?_eq_some first

theorem firstWriter_append_of_eq_some {later : List α} {writer : α}
    (first : firstWriter key writes target = some writer) :
    firstWriter key (writes ++ later) target = some writer := by
  rw [firstWriter, List.find?_append]
  exact Option.or_eq_some_iff.mpr (Or.inl first)

/-- Every key that is written at all has a first writer. -/
theorem exists_firstWriter {write : α} (member : write ∈ writes) :
    ∃ writer, firstWriter key writes (key write) = some writer := by
  cases found : firstWriter key writes (key write) with
  | none => exact absurd rfl (firstWriter_eq_none_iff.mp found write member)
  | some writer => exact ⟨writer, rfl⟩

/-- The first writer of a key is also the first under any finer key. -/
theorem firstWriter_of_coarser {ι : Type} [DecidableEq ι] {fine : α → ι} {writer : α}
    (first : firstWriter key writes target = some writer)
    (coarser : ∀ write, fine write = fine writer → key write = target) :
    firstWriter fine writes (fine writer) = some writer := by
  rw [firstWriter, List.find?_eq_some_iff_append] at first ⊢
  rcases first with ⟨_, before, after, split, others⟩
  refine ⟨by simp, before, after, split, ?_⟩
  intro other earlier
  have different := others other earlier
  simp only [Bool.not_eq_true', decide_eq_false_iff_not] at different ⊢
  exact fun equal => different (coarser other equal)

/-- The first writer of a pair of keys is the first writer of the second key among
the writes to the first key. -/
theorem firstWriter_pair {ι : Type} [DecidableEq ι] {outer : α → ι} {place : ι} :
    firstWriter (fun write => (outer write, key write)) writes (place, target) =
      firstWriter key (writes.filter fun write => outer write = place) target := by
  simp [firstWriter, List.find?_filter]

end FirstWriter

/-- Insert an entry unless its key is present. -/
def insertNew (table : Finmap fun _ : κ => ν) (key : κ) (value : ν) :
    Finmap fun _ : κ => ν :=
  if key ∈ table then table else table.insert key value

theorem insertNew_of_mem {table : Finmap fun _ : κ => ν} {key : κ} {value : ν}
    (present : key ∈ table) : insertNew table key value = table := by
  simp [insertNew, present]

theorem lookup_insertNew_self (table : Finmap fun _ : κ => ν) (key : κ) (value : ν) :
    (insertNew table key value).lookup key = some ((table.lookup key).getD value) := by
  by_cases present : key ∈ table
  · rcases Finmap.mem_iff.mp present with ⟨old, found⟩
    simp [insertNew_of_mem present, found]
  · simp [insertNew, present, Finmap.lookup_eq_none.mpr present]

theorem lookup_insertNew_of_ne (table : Finmap fun _ : κ => ν) {key other : κ}
    (value : ν) (different : other ≠ key) :
    (insertNew table key value).lookup other = table.lookup other := by
  unfold insertNew
  split
  · rfl
  · exact Finmap.lookup_insert_of_ne table different

/-- The table left by a sequence of writes. -/
def tableOf (key : α → κ) (value : α → ν) (writes : List α) :
    Finmap fun _ : κ => ν :=
  writes.foldl (fun table write => insertNew table (key write) (value write)) ∅

section TableOf

variable {key : α → κ} {value : α → ν} {writes : List α}

@[simp] theorem tableOf_nil : tableOf key value ([] : List α) = ∅ := rfl

theorem tableOf_snoc (write : α) :
    tableOf key value (writes ++ [write]) =
      insertNew (tableOf key value writes) (key write) (value write) := by
  simp [tableOf]

/-- A table holds, under each key, the value of the key's first writer. -/
theorem lookup_tableOf (target : κ) :
    (tableOf key value writes).lookup target =
      (firstWriter key writes target).map value := by
  induction writes using List.reverseRecOn with
  | nil => simp
  | append_singleton earlier write ih =>
      rw [tableOf_snoc, firstWriter_snoc]
      by_cases hit : key write = target
      · subst target
        rw [lookup_insertNew_self, ih]
        cases firstWriter key earlier (key write) <;> simp
      · rw [lookup_insertNew_of_ne _ _ (Ne.symm hit), ih]
        simp [hit]

end TableOf

end QApr.Library
