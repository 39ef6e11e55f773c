import Mathlib.Data.Finmap
import Mathlib.Data.List.Induction

/-!
# Last-writer-wins state

A sequence of writes, of which only some concern a given cell.  The cell holds the last
value that was written to it, whatever the writes to other cells.
-/

namespace QApr.Library

variable {α β σ : Type}

/-- The last value that a sequence of writes puts in a cell, where `written` tells what
a single write puts there. -/
def lastWritten (written : α → Option β) (writes : List α) : Option β :=
  writes.reverse.findSome? written

section LastWritten

variable {written : α → Option β}

@[simp] theorem lastWritten_nil : lastWritten written [] = none := rfl

theorem lastWritten_append (earlier later : List α) :
    lastWritten written (earlier ++ later) =
      (lastWritten written later).or (lastWritten written earlier) := by
  rw [lastWritten, List.reverse_append, List.findSome?_append]
  rfl

@[simp] theorem lastWritten_singleton (write : α) :
    lastWritten written [write] = written write := by
  cases found : written write <;> simp [lastWritten, found]

theorem lastWritten_snoc (earlier : List α) (write : α) :
    lastWritten written (earlier ++ [write]) =
      (written write).or (lastWritten written earlier) := by
  rw [lastWritten_append, lastWritten_singleton]

/-- A cell to which nothing is written. -/
theorem lastWritten_eq_none_iff {writes : List α} :
    lastWritten written writes = none ↔ ∀ write ∈ writes, written write = none := by
  simp [lastWritten]

/-- The value in a cell was written. -/
theorem exists_of_lastWritten {writes : List α} {value : β}
    (last : lastWritten written writes = some value) :
    ∃ write ∈ writes, written write = some value := by
  have ⟨write, member, writes⟩ := List.exists_of_findSome?_eq_some last
  exact ⟨write, List.mem_reverse.mp member, writes⟩

theorem lastWritten_map {γ : Type} (image : β → γ) (writes : List α) :
    lastWritten (fun write => (written write).map image) writes =
      (lastWritten written writes).map image := by
  induction writes using List.reverseRecOn with
  | nil => rfl
  | append_singleton earlier write ih =>
      rw [lastWritten_snoc, lastWritten_snoc, ih]
      cases written write <;> rfl

/-- The image of the last value written to a cell. -/
theorem lastWritten_if_map {γ : Type} (concerns : α → Prop) [DecidablePred concerns]
    (value : α → β) (image : β → γ) (writes : List α) :
    lastWritten (fun write => if concerns write then some (image (value write)) else none)
        writes =
      (lastWritten (fun write => if concerns write then some (value write) else none)
        writes).map image := by
  rw [← lastWritten_map]
  congr 1
  funext write
  split <;> rfl

/-- The value in a cell was written by one of the writes that concern it. -/
theorem exists_of_lastWritten_if {concerns : α → Prop} [DecidablePred concerns]
    {value : α → β} {writes : List α} {found : β}
    (last : lastWritten (fun write => if concerns write then some (value write) else none)
      writes = some found) :
    ∃ write ∈ writes, concerns write ∧ value write = found := by
  have ⟨write, member, written⟩ := exists_of_lastWritten last
  split at written
  next concerned => exact ⟨write, member, concerned, Option.some.inj written⟩
  next => contradiction

/-- A value is read that every step either writes or leaves alone: after a run it is the
last one written. -/
theorem read_foldl {step : σ → α → σ} {read : σ → β}
    (writes : ∀ state write, read (step state write) = (written write).getD (read state))
    (state : σ) (run : List α) :
    read (run.foldl step state) = (lastWritten written run).getD (read state) := by
  induction run using List.reverseRecOn with
  | nil => rfl
  | append_singleton earlier write ih =>
      rw [List.foldl_append, List.foldl_cons, List.foldl_nil, writes, ih, lastWritten_snoc]
      cases written write <;> rfl

end LastWritten

section Tables

variable {κ ν : Type} [DecidableEq κ] {key : α → κ} {value : α → ν}

/-- A table filled by inserts holds, under each key, the last value inserted there. -/
theorem lookup_foldl_insert (table : Finmap fun _ : κ => ν) (writes : List α) (target : κ) :
    (writes.foldl (fun table write => table.insert (key write) (value write)) table).lookup
        target =
      (lastWritten (fun write => if key write = target then some (value write) else none)
        writes).or (table.lookup target) := by
  induction writes using List.reverseRecOn with
  | nil => simp
  | append_singleton earlier write ih =>
      rw [List.foldl_append, lastWritten_snoc]
      by_cases hit : key write = target
      · subst hit
        simp [Finmap.lookup_insert]
      · simp [Finmap.lookup_insert_of_ne _ (Ne.symm hit), hit, ih]

end Tables

end QApr.Library
