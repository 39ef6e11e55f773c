/-!
# Transactional stores

A store publishes one value and may have one open transaction, which works on a
copy.  Committing publishes the copy; each operation may fail, and then publishes
nothing.
-/

namespace QApr.Library

/-- A published value and the working copy of the open transaction, if any. -/
structure Store (σ : Type) where
  published : σ
  working : Option σ
  deriving DecidableEq, Repr

namespace Store

variable {σ : Type} (store : Store σ)

/-- What a reader sees: the working copy inside a transaction. -/
def view : σ :=
  store.working.getD store.published

/-- Open a transaction. -/
def start (success : Bool) : Store σ :=
  if success then { store with working := some store.published } else store

/-- Write a value; outside a transaction it is published at once. -/
def write (value : σ) : Store σ :=
  match store.working with
  | some _ => { store with working := some value }
  | none => { store with published := value }

/-- Publish the working copy and close the transaction. -/
def commit (success : Bool) : Store σ :=
  match store.working with
  | some value => if success then ⟨value, none⟩ else store
  | none => store

/-- Drop the working copy and close the transaction. -/
def rollback (success : Bool) : Store σ :=
  if success then { store with working := none } else store

@[simp] theorem published_start (success : Bool) :
    (store.start success).published = store.published := by
  cases success <;> rfl

@[simp] theorem published_rollback (success : Bool) :
    (store.rollback success).published = store.published := by
  cases success <;> rfl

/-- Writes inside a transaction publish nothing. -/
theorem published_write {value copy : σ} (opened : store.working = some copy) :
    (store.write value).published = store.published := by
  simp [write, opened]

theorem working_write {value copy : σ} (opened : store.working = some copy) :
    (store.write value).working = some value := by
  simp [write, opened]

/-- A commit publishes all of the working copy, or nothing when it fails. -/
theorem published_commit {copy : σ} (opened : store.working = some copy) (success : Bool) :
    (store.commit success).published = if success then copy else store.published := by
  cases success <;> simp [commit, opened]

end Store

end QApr.Library
