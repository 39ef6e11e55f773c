import QApr.Interfaces.BackOffice
import QApr.Library.DoubleChecked

/-!
# The controllers' cache under concurrent requests

Each request has an interface of its own, and all of them share `staticInfoCache`.
`initControllersCache` guards it by a double check, but what it checks is the cache itself,
which it fills entry by entry and sorts in place.  A request that skips the lock may
therefore find a part of the entries.
-/

namespace QApr.Interfaces

open QApr.Library Relation

/-- Where `initControllersCache` is while it holds the lock. -/
inductive CachePosition where
  /-- In the loop, with the entries still to append. -/
  | append (rest : List ControllerInfo)
  /-- In `std::sort` of these entries. -/
  | sort (entries : List ControllerInfo)
  | sorted

namespace BackOffice

variable (backOffice : BackOffice)

/-- The entries that the loop appends. -/
def entries (leftovers : List Controller) : List ControllerInfo :=
  (backOffice.controllers leftovers).filterMap Controller.info

/-- The lists of entries that the loop may append. -/
def Entries (entries : List ControllerInfo) : Prop :=
  ∃ leftovers, backOffice.Leftovers leftovers ∧ entries = backOffice.entries leftovers

/-- A step under the lock.  While two or more entries are sorted, the list holds anything
of the same length. -/
inductive CacheStep : CachePosition → List ControllerInfo → CachePosition →
    List ControllerInfo → Prop where
  | append (info : ControllerInfo) (rest cache : List ControllerInfo) :
      CacheStep (.append (info :: rest)) cache (.append rest) (cache ++ [info])
  | sort (cache : List ControllerInfo) : CacheStep (.append []) cache (.sort cache) cache
  | move (entries cache after : List ControllerInfo) (several : 2 ≤ entries.length)
      (length : after.length = cache.length) :
      CacheStep (.sort entries) cache (.sort entries) after
  | sorted (entries cache after : List ControllerInfo)
      (sorts : SortsTo ControllerInfo.order entries after) :
      CacheStep (.sort entries) cache .sorted after

/-- The code of `initControllersCache`. -/
def cacheCode (ι : Type) : Initialiser ι (List ControllerInfo) CachePosition where
  checks _ := 0
  ready cache := !cache.isEmpty
  Enter _ position := ∃ entries, backOffice.Entries entries ∧ position = .append entries
  Fill := CacheStep
  Ends position := position = .sorted

/-- The worlds that requests reach from the empty cache. -/
def CacheReachable {ι : Type} [DecidableEq ι]
    (world : CallWorld ι (List ControllerInfo) CachePosition) : Prop :=
  (backOffice.cacheCode ι).Reachable [] world

/-- How many entries there are, in whatever order. -/
def entryCount : Nat :=
  if backOffice.apiNameOrder.isEmpty then 0 else backOffice.published.length

/-- What the requests can rely on. -/
structure CacheSafe (ι : Type) [DecidableEq ι] : Prop where
  /-- While nobody fills the cache, it is as one call alone would leave it. -/
  alone : ∀ world : CallWorld ι (List ControllerInfo) CachePosition,
    backOffice.CacheReachable world → world.Quiet →
      world.store = [] ∨ backOffice.InitControllersCache [] world.store
  /-- A request that held the lock has the whole cache, for good. -/
  locked : ∀ world : CallWorld ι (List ControllerInfo) CachePosition,
    backOffice.CacheReachable world → ∀ party, world.phase party = .returned false →
      ∀ later, ReflTransGen (backOffice.cacheCode ι).Step world later →
        backOffice.InitControllersCache [] later.store
  /-- A request that did not has an entry at least. -/
  skipped : ∀ world : CallWorld ι (List ControllerInfo) CachePosition,
    backOffice.CacheReachable world → ∀ party, world.phase party = .returned true →
      world.store ≠ []
  /-- No request is locked out. -/
  returns : ∀ world : CallWorld ι (List ControllerInfo) CachePosition,
    backOffice.CacheReachable world → ∀ party, ∃ after early,
      ReflTransGen (backOffice.cacheCode ι).Step world after ∧
        after.phase party = .returned early

/-- No request is ever handed a part of the entries. -/
def NeverPartial (ι : Type) [DecidableEq ι] : Prop :=
  ∀ world : CallWorld ι (List ControllerInfo) CachePosition,
    backOffice.CacheReachable world → ∀ party early, world.phase party = .returned early →
      backOffice.InitControllersCache [] world.store

/-! ## The entries -/

variable {backOffice : BackOffice}

theorem initControllersCache_of_entries {entries after : List ControllerInfo}
    (isEntries : backOffice.Entries entries)
    (sorts : SortsTo ControllerInfo.order entries after) :
    backOffice.InitControllersCache [] after := by
  have ⟨leftovers, yields, same⟩ := isEntries
  rw [same] at sorts
  rw [InitControllersCache, if_neg (by simp)]
  exact ⟨leftovers, yields, sorts⟩

theorem exists_entries (backOffice : BackOffice) : ∃ entries, backOffice.Entries entries :=
  ⟨_, _, .refl _, rfl⟩

/-- The order of the hash does not matter for the number of entries. -/
theorem length_of_initControllersCache {after : List ControllerInfo}
    (init : backOffice.InitControllersCache [] after) :
    after.length = backOffice.entryCount := by
  rw [entryCount]
  cases order : backOffice.apiNameOrder with
  | nil =>
      rw [(initControllersCache_of_no_order order after).mp init]
      rfl
  | cons first rest =>
      have ordered : backOffice.apiNameOrder ≠ [] := by simp [order]
      have sorts := (initControllersCache_iff ordered after).mp init
      simpa using sorts.perm.length_eq

theorem Entries.length_eq {entries : List ControllerInfo}
    (isEntries : backOffice.Entries entries) : entries.length = backOffice.entryCount := by
  have sorts := sortsTo_mergeSort ControllerInfo.order entries
  rw [← length_of_initControllersCache (initControllersCache_of_entries isEntries sorts)]
  exact sorts.perm.length_eq.symm

/-! ## What the steps under the lock keep -/

/-- The cache while nobody fills it. -/
def CacheIdle (backOffice : BackOffice) (cache : List ControllerInfo) : Prop :=
  cache = [] ∨ backOffice.InitControllersCache [] cache

/-- The cache while a request fills it. -/
inductive CacheBusy (backOffice : BackOffice) : CachePosition → List ControllerInfo → Prop where
  | append (rest cache : List ControllerInfo) (whole : backOffice.Entries (cache ++ rest)) :
      CacheBusy backOffice (.append rest) cache
  | sort (entries cache : List ControllerInfo) (whole : backOffice.Entries entries)
      (length : cache.length = entries.length)
      (few : entries.length < 2 → cache = entries) :
      CacheBusy backOffice (.sort entries) cache
  | sorted (cache : List ControllerInfo)
      (complete : backOffice.InitControllersCache [] cache) :
      CacheBusy backOffice .sorted cache

theorem cacheCode_keeps (ι : Type) :
    (backOffice.cacheCode ι).Keeps backOffice.CacheIdle backOffice.CacheBusy where
  enter _ position cache _ unready enters := by
    have ⟨entries, isEntries, same⟩ := enters
    have empty : cache = [] := by simpa [cacheCode] using unready
    rw [same, empty]
    exact .append entries [] isEntries
  fill position cache next after busy fills := by
    cases fills with
    | append info rest =>
        cases busy with
        | append _ _ whole => exact .append rest _ (by simpa using whole)
    | sort =>
        cases busy with
        | append _ _ whole => exact .sort _ _ (by simpa using whole) rfl (fun _ => rfl)
    | move entries _ _ several length =>
        cases busy with
        | sort _ _ whole sameLength _ =>
            exact .sort _ _ whole (length.trans sameLength)
              (fun few => absurd several (Nat.not_le_of_lt few))
    | sorted entries _ _ sorts =>
        cases busy with
        | sort _ _ whole _ _ => exact .sorted _ (initControllersCache_of_entries whole sorts)
  finish position cache busy ends := by
    cases busy with
    | sorted _ complete => exact Or.inr complete
    | append | sort => contradiction

theorem cacheIdle_nil : backOffice.CacheIdle [] := Or.inl rfl

/-- A cache that has an entry keeps one. -/
theorem ready_stays {ι : Type} {position next : CachePosition}
    {cache after : List ControllerInfo} (busy : backOffice.CacheBusy position cache)
    (ready : (backOffice.cacheCode ι).ready cache = true)
    (fills : (backOffice.cacheCode ι).Fill position cache next after) :
    (backOffice.cacheCode ι).ready after = true := by
  have nonempty : 0 < cache.length := by simpa [cacheCode, List.length_pos_iff] using ready
  suffices 0 < after.length by simpa [cacheCode, List.length_pos_iff] using this
  cases fills with
  | append info rest => simp
  | sort => exact nonempty
  | move _ _ _ _ length => rwa [length]
  | sorted _ _ _ sorts =>
      cases busy with
      | sort _ _ _ length _ => rwa [sorts.perm.length_eq, ← length]

/-- The cache has entries in the end, if there are any. -/
theorem ready_of_complete {ι : Type} {cache : List ControllerInfo}
    (complete : backOffice.InitControllersCache [] cache) (some : 0 < backOffice.entryCount) :
    (backOffice.cacheCode ι).ready cache = true := by
  rw [← length_of_initControllersCache complete] at some
  simpa [cacheCode, List.length_pos_iff] using some

/-- Without entries the cache stays empty. -/
theorem CacheBusy.eq_nil {position : CachePosition} {cache : List ControllerInfo}
    (busy : backOffice.CacheBusy position cache) (none : backOffice.entryCount = 0) :
    cache = [] := by
  cases busy with
  | append rest _ whole =>
      have length := whole.length_eq
      rw [none, List.length_eq_zero_iff] at length
      exact (List.append_eq_nil_iff.mp length).1
  | sort entries _ whole length _ =>
      rwa [whole.length_eq, none, List.length_eq_zero_iff] at length
  | sorted _ complete =>
      have length := length_of_initControllersCache complete
      rwa [none, List.length_eq_zero_iff] at length

section Worlds

variable {ι : Type} [DecidableEq ι] {world : CallWorld ι (List ControllerInfo) CachePosition}

theorem cache_invariant (reachable : backOffice.CacheReachable world) :
    world.Invariant backOffice.CacheIdle backOffice.CacheBusy :=
  (cacheCode_keeps ι).invariant cacheIdle_nil reachable

/-- Whatever the requests are doing, the cache is idle or being filled. -/
theorem cacheIdle_or_busy (reachable : backOffice.CacheReachable world) :
    backOffice.CacheIdle world.store ∨ ∃ position, backOffice.CacheBusy position world.store := by
  have invariant := cache_invariant reachable
  by_cases quiet : world.Quiet
  · exact Or.inl (invariant.idle quiet)
  · simp only [CallWorld.Quiet, not_forall, not_not] at quiet
    obtain ⟨party, position, filling⟩ := quiet
    exact Or.inr ⟨position, invariant.busy party position filling⟩

theorem store_eq_nil_of_no_entries (none : backOffice.entryCount = 0)
    (reachable : backOffice.CacheReachable world) : world.store = [] := by
  obtain (empty | complete) | ⟨_, busy⟩ := cacheIdle_or_busy reachable
  · exact empty
  · exact (CacheBusy.sorted _ complete).eq_nil none
  · exact busy.eq_nil none

/-- A request that held the lock has the whole cache. -/
theorem complete_of_locked (reachable : backOffice.CacheReachable world) {party : ι}
    (returned : world.phase party = .returned false) :
    backOffice.InitControllersCache [] world.store := by
  cases count : backOffice.entryCount with
  | zero =>
      rw [store_eq_nil_of_no_entries count reachable]
      have ⟨entries, isEntries⟩ := exists_entries backOffice
      have empty : entries = [] := List.eq_nil_of_length_eq_zero (isEntries.length_eq.trans count)
      apply initControllersCache_of_entries isEntries
      rw [empty]
      exact ⟨.refl _, .nil⟩
  | succ more =>
      have some : 0 < backOffice.entryCount := by
        rw [count]
        exact Nat.succ_pos more
      have settled : (backOffice.cacheCode ι).Settled world := by
        apply (cacheCode_keeps ι).settled_of_returned cacheIdle_nil _ reachable returned
        intro position cache busy ends
        cases busy with
        | sorted _ complete => exact ready_of_complete complete some
        | append | sort => contradiction
      obtain empty | complete := (cache_invariant reachable).idle settled.quiet
      · have ready := settled.ready
        rw [empty] at ready
        contradiction
      · exact complete

/-- A request that skipped the lock has an entry. -/
theorem ne_nil_of_skipped (reachable : backOffice.CacheReachable world) {party : ι}
    (returned : world.phase party = .returned true) : world.store ≠ [] := by
  have ready := (cacheCode_keeps ι).ready_of_returned cacheIdle_nil
    (fun _ _ _ _ busy ready fills => ready_stays busy ready fills) reachable returned
  simpa [cacheCode] using ready

end Worlds

/-- The body of `initControllersCache` ends. -/
def cacheSize : CachePosition → Nat
  | .append rest => rest.length + 2
  | .sort _ => 1
  | .sorted => 0

theorem cacheCode_live (ι : Type) : (backOffice.cacheCode ι).Live cacheSize where
  enter _ := by
    have ⟨entries, isEntries⟩ := exists_entries backOffice
    exact ⟨_, entries, isEntries, rfl⟩
  fill position cache := by
    cases position with
    | append rest =>
        cases rest with
        | nil => exact Or.inr ⟨_, _, .sort cache, by simp [cacheSize]⟩
        | cons info rest => exact Or.inr ⟨_, _, .append info rest cache, by simp [cacheSize]⟩
    | sort entries =>
        have sorts := sortsTo_mergeSort ControllerInfo.order entries
        exact Or.inr ⟨_, _, .sorted entries cache _ sorts, by simp [cacheSize]⟩
    | sorted => exact Or.inl rfl

/-- In every interleaving of requests, one at a time fills the cache, and whoever held the
lock has all of it. -/
theorem cacheSafe (backOffice : BackOffice) (ι : Type) [DecidableEq ι] :
    backOffice.CacheSafe ι where
  alone _ reachable quiet := (cache_invariant reachable).idle quiet
  locked _ reachable _ returned _ steps :=
    complete_of_locked (reachable.trans steps) (Initialiser.stays_returned returned steps)
  skipped _ reachable _ returned := ne_nil_of_skipped reachable returned
  returns _ reachable party :=
    Initialiser.returns_of_invariant (cacheCode_live ι) (cache_invariant reachable) party

/-! ## Who is handed a part -/

/-- With fewer than two entries, a cache with an entry has all of them. -/
theorem complete_of_few {cache : List ControllerInfo} (few : backOffice.entryCount < 2)
    (nonempty : cache ≠ [])
    (reached : backOffice.CacheIdle cache ∨ ∃ position, backOffice.CacheBusy position cache) :
    backOffice.InitControllersCache [] cache := by
  have sortsFew {entries : List ControllerInfo} (isEntries : backOffice.Entries entries) :
      SortsTo ControllerInfo.order entries entries := by
    have length := isEntries.length_eq
    refine ⟨.refl _, ?_⟩
    match entries with
    | [] => exact .nil
    | [info] => exact List.pairwise_singleton _ _
    | _ :: _ :: _ =>
        simp only [List.length_cons] at length
        omega
  obtain (empty | complete) | ⟨position, busy⟩ := reached
  · exact absurd empty nonempty
  · exact complete
  · cases busy with
    | append rest _ whole =>
        have length := whole.length_eq
        have some := List.length_pos_iff.mpr nonempty
        rw [List.length_append] at length
        have none : rest = [] := List.eq_nil_of_length_eq_zero (by omega)
        rw [none, List.append_nil] at whole
        exact initControllersCache_of_entries whole (sortsFew whole)
    | sort entries _ whole _ same =>
        rw [same (by rwa [whole.length_eq])]
        exact initControllersCache_of_entries whole (sortsFew whole)
    | sorted _ complete => exact complete

/-- While one request appends the second entry, another one returns with the first. -/
theorem exists_partial {ι : Type} [DecidableEq ι] {first second : ι}
    (different : second ≠ first) (several : 2 ≤ backOffice.entryCount) :
    ∃ world : CallWorld ι (List ControllerInfo) CachePosition,
      backOffice.CacheReachable world ∧ world.phase second = .returned true ∧
        world.store.length = 1 := by
  have ⟨entries, isEntries⟩ := exists_entries backOffice
  cases entries with
  | nil =>
      have length := isEntries.length_eq
      rw [← length] at several
      contradiction
  | cons info rest =>
      let code := backOffice.cacheCode ι
      let start : CallWorld ι (List ControllerInfo) CachePosition := code.start []
      let waits := start.go first .waiting [] none
      let holds := waits.go first .holding [] (some first)
      let enters := holds.go first (.filling (.append (info :: rest))) [] (some first)
      let fills := enters.go first (.filling (.append rest)) [info] (some first)
      have arrive : code.Step start waits := .arrive first rfl rfl
      have acquire : code.Step waits holds := .acquire first (CallWorld.phase_go_self ..) rfl
      have enter : code.Step holds enters :=
        .enter first _ (CallWorld.phase_go_self ..) rfl ⟨_, isEntries, rfl⟩
      have fill : code.Step enters fills :=
        .fill first _ _ _ (CallWorld.phase_go_self ..) (.append info rest [])
      have checking : fills.phase second = .checking 0 := by
        simp [fills, enters, holds, waits, start, code, Initialiser.start, cacheCode,
          CallWorld.phase_go_of_ne _ _ _ _ _ different]
      have skip : code.Step fills (fills.go second (.returned true) [info] (some first)) :=
        .skip second 0 checking rfl
      have entered := ((ReflTransGen.single arrive).tail acquire).tail enter
      have reachable := (entered.tail fill).tail skip
      exact ⟨_, reachable, CallWorld.phase_go_self .., rfl⟩

/-- With several requests, none is ever handed a part of the entries exactly if there are
fewer than two. -/
theorem neverPartial_iff (backOffice : BackOffice) (ι : Type) [DecidableEq ι]
    [Nontrivial ι] : backOffice.NeverPartial ι ↔ backOffice.entryCount < 2 := by
  constructor
  · intro neverPartial
    by_contra several
    have ⟨first, second, different⟩ := exists_pair_ne ι
    have ⟨world, reachable, returned, length⟩ :=
      exists_partial different.symm (Nat.le_of_not_lt several)
    have complete := neverPartial world reachable second true returned
    rw [length_of_initControllersCache complete] at length
    omega
  · intro few world reachable party early returned
    cases early with
    | false => exact complete_of_locked reachable returned
    | true =>
        exact complete_of_few few (ne_nil_of_skipped reachable returned)
          (cacheIdle_or_busy reachable)

end BackOffice

/-- Two controllers suffice. -/
theorem not_neverPartial_tied : ¬tied.NeverPartial Nat := by
  rw [tied.neverPartial_iff Nat]
  decide

end QApr.Interfaces
