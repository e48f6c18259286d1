import Nrpd.Lib.EntryMap
import Nrpd.Lib.SteadyClock

/-!
# The cache of recent keys

`MruCache<Key>` of `mrucache.h`. Every operation runs under the lock of the cache and takes its
clock readings there, so an operation is a function of the cache and the clock; the order of the
readings is the order of the source. The cleaner thread that `ScheduleCleaning` may start is the
operation `clean`, run later; an answer says whether one was started.

## Main definitions

* `MruCache`, `MruCache.new`: the cache and its constructor.
* `MruCache.clean`, `MruCache.isPresentAdd`, `MruCache.isPresent`, `MruCache.add`,
  `MruCache.scheduleCleaning`: the operations.

## Main results

* `MruCache.isPresentAddLocked_of_none`, `MruCache.isPresentAddLocked_of_some`: the ways of
  `IsPresentAdd`.
* `MruCache.passed_of_clean`, `MruCache.get?_clean`: cleaning drops expired entries and no others.
* `MruCache.laterThan_isPresentAdd`, `MruCache.laterThan_isPresent`: the operations read the clock
  forward.
-/

namespace Nrpd

open SteadyClock

/-- The fields of `MruCache`. -/
structure MruCache (Key : Type*) [BEq Key] where
  recentClients : EntryMap Key ℤ
  lifetimeSeconds : ℤ
  cleanIntervalSeconds : ℤ
  lastCleanTime : ℤ

/-- What a lookup returns, with the cache and the clock behind it. -/
structure CacheReply (Key : Type*) [BEq Key] where
  response : Bool
  startsCleaner : Bool
  cache : MruCache Key
  clock : SteadyClock

namespace MruCache

variable {Key : Type*} [BEq Key]

/-- The constructor. -/
def new (lifetimeSeconds : ℤ) (clock : SteadyClock) : MruCache Key × SteadyClock :=
  (⟨.empty, lifetimeSeconds, lifetimeSeconds, clock.now⟩, clock.tick)

/-- The time at which an entry recorded at `t` expires. -/
def expiry (c : MruCache Key) (t : ℤ) : ℤ := t + seconds c.lifetimeSeconds

/-- The loop of `Clean` over the entries; every entry is compared with a reading of its own. -/
def cleanEntries (lifetime : ℤ) : List (Key × ℤ) → SteadyClock → List (Key × ℤ) × SteadyClock
  | [], clock => ([], clock)
  | item :: items, clock =>
    let rest := cleanEntries lifetime items clock.tick
    if clock.now > item.2 + lifetime then rest else (item :: rest.1, rest.2)

omit [BEq Key] in
theorem cleanEntries_sublist (lifetime : ℤ) : (items : List (Key × ℤ)) → (clock : SteadyClock) →
    (cleanEntries lifetime items clock).1.Sublist items
  | [], _ => .slnil
  | item :: items, clock => by
    have ih := cleanEntries_sublist lifetime items clock.tick
    rw [cleanEntries]
    split
    · exact ih.cons _
    · exact ih.cons_cons _

/-- `Clean`. -/
def clean (c : MruCache Key) (clock : SteadyClock) : MruCache Key × SteadyClock :=
  let items := cleanEntries (seconds c.lifetimeSeconds) c.recentClients.entries clock
  ({ c with
      recentClients := c.recentClients.keep items.1 (cleanEntries_sublist _ _ _)
      lastCleanTime := items.2.now },
    items.2.tick)

/-- `ScheduleCleaning`: whether a cleaner thread is started. -/
def scheduleCleaning (c : MruCache Key) (clock : SteadyClock) : Bool × SteadyClock :=
  (clock.now ≥ c.lastCleanTime + seconds c.cleanIntervalSeconds, clock.tick)

/-- `IsPresentAdd`, up to its call of `ScheduleCleaning`. The reading for the new entry is taken
before the insertion is tried. -/
def isPresentAddLocked (c : MruCache Key) (addr : Key) (clock : SteadyClock) :
    Bool × MruCache Key × SteadyClock :=
  match h : c.recentClients.get? addr with
  | none =>
    (false, { c with recentClients := c.recentClients.insertNew addr clock.now h }, clock.tick)
  | some t =>
    let compared := clock.tick
    if compared.now ≥ c.expiry t then
      let refreshed := compared.tick
      (false, { c with recentClients := c.recentClients.assign addr refreshed.now },
        refreshed.tick)
    else (true, c, compared.tick)

/-- A key without an entry. -/
theorem isPresentAddLocked_of_none {c : MruCache Key} {addr : Key} (clock : SteadyClock)
    (h : c.recentClients.get? addr = none) :
    c.isPresentAddLocked addr clock =
      (false, { c with recentClients := c.recentClients.insertNew addr clock.now h },
        clock.tick) := by
  rw [isPresentAddLocked]
  split
  · rfl
  · rename_i t ht
    rw [h] at ht
    cases ht

/-- A key with an entry. -/
theorem isPresentAddLocked_of_some {c : MruCache Key} {addr : Key} (clock : SteadyClock) {t : ℤ}
    (h : c.recentClients.get? addr = some t) :
    c.isPresentAddLocked addr clock =
      if clock.tick.now ≥ c.expiry t then
        (false, { c with recentClients := c.recentClients.assign addr clock.tick.tick.now },
          clock.tick.tick.tick)
      else (true, c, clock.tick.tick) := by
  rw [isPresentAddLocked]
  split
  · rename_i hnone
    rw [h] at hnone
    cases hnone
  · rename_i t' ht
    obtain rfl : t' = t := Option.some.inj (ht.symm.trans h)
    rfl

/-- Only the entries change. -/
theorem exists_recentClients (c : MruCache Key) (addr : Key) (clock : SteadyClock) :
    ∃ m, (c.isPresentAddLocked addr clock).2.1 = { c with recentClients := m } := by
  cases hget : c.recentClients.get? addr with
  | none =>
    rw [isPresentAddLocked_of_none clock hget]
    exact ⟨_, rfl⟩
  | some t =>
    rw [isPresentAddLocked_of_some clock hget]
    split
    · exact ⟨_, rfl⟩
    · exact ⟨c.recentClients, rfl⟩

/-- `IsPresentAdd`. -/
def isPresentAdd (c : MruCache Key) (addr : Key) (clock : SteadyClock) : CacheReply Key :=
  let locked := c.isPresentAddLocked addr clock
  let scheduled := locked.2.1.scheduleCleaning locked.2.2
  ⟨locked.1, scheduled.1, locked.2.1, scheduled.2⟩

/-- `IsPresent`, up to its call of `ScheduleCleaning`. -/
def isPresentLocked (c : MruCache Key) (addr : Key) (clock : SteadyClock) : Bool × SteadyClock :=
  match c.recentClients.get? addr with
  | none => (false, clock)
  | some t => (decide ¬ clock.now ≥ c.expiry t, clock.tick)

/-- `IsPresent`. -/
def isPresent (c : MruCache Key) (addr : Key) (clock : SteadyClock) : CacheReply Key :=
  let locked := c.isPresentLocked addr clock
  let scheduled := c.scheduleCleaning locked.2
  ⟨locked.1, scheduled.1, c, scheduled.2⟩

/-- `Add`: an entry that is there is left alone. -/
def add (c : MruCache Key) (addr : Key) (clock : SteadyClock) : MruCache Key × SteadyClock :=
  ({ c with recentClients := (c.recentClients.emplace addr clock.now).1 }, clock.tick)

/-! ### Clock readings -/

section Clocks

omit [BEq Key] in
theorem laterThan_cleanEntries (lifetime : ℤ) : (items : List (Key × ℤ)) → (clock : SteadyClock) →
    clock.LaterThan (cleanEntries lifetime items clock).2
  | [], clock => .refl clock
  | item :: items, clock => by
    have ih := (LaterThan.tick clock).trans (laterThan_cleanEntries lifetime items clock.tick)
    rw [cleanEntries]
    split <;> exact ih

theorem laterThan_clean (c : MruCache Key) (clock : SteadyClock) :
    clock.LaterThan (c.clean clock).2 :=
  (laterThan_cleanEntries _ _ clock).trans (.tick _)

theorem laterThan_isPresentAddLocked (c : MruCache Key) (addr : Key) (clock : SteadyClock) :
    clock.LaterThan (c.isPresentAddLocked addr clock).2.2 := by
  cases hget : c.recentClients.get? addr with
  | none =>
    rw [isPresentAddLocked_of_none clock hget]
    exact .tick clock
  | some t =>
    rw [isPresentAddLocked_of_some clock hget]
    split
    · exact ((LaterThan.tick clock).trans (.tick _)).trans (.tick _)
    · exact (LaterThan.tick clock).trans (.tick _)

theorem laterThan_isPresentAdd (c : MruCache Key) (addr : Key) (clock : SteadyClock) :
    clock.LaterThan (c.isPresentAdd addr clock).clock :=
  (c.laterThan_isPresentAddLocked addr clock).trans (.tick _)

theorem laterThan_isPresentLocked (c : MruCache Key) (addr : Key) (clock : SteadyClock) :
    clock.LaterThan (c.isPresentLocked addr clock).2 := by
  rw [isPresentLocked]
  split
  · exact .refl clock
  · exact .tick clock

theorem laterThan_isPresent (c : MruCache Key) (addr : Key) (clock : SteadyClock) :
    clock.LaterThan (c.isPresent addr clock).clock :=
  (c.laterThan_isPresentLocked addr clock).trans (.tick _)

end Clocks

/-! ### What the operations leave under each key -/

section Entries

omit [BEq Key] in
/-- An entry that is dropped had expired by the reading it was compared with. -/
theorem mem_cleanEntries (lifetime : ℤ) {items : List (Key × ℤ)} {clock : SteadyClock}
    {item : Key × ℤ} (h : item ∈ items) :
    item ∈ (cleanEntries lifetime items clock).1 ∨
      (cleanEntries lifetime items clock).2.Passed (item.2 + lifetime + 1) := by
  induction items generalizing clock with
  | nil => cases h
  | cons first items ih =>
    have hlater := laterThan_cleanEntries lifetime items clock.tick
    rw [cleanEntries]
    rcases List.mem_cons.1 h with rfl | h
    · split
      · rename_i hexpired
        exact .inr ((passed_tick (Int.add_one_le_of_lt hexpired)).of_laterThan hlater)
      · exact .inl List.mem_cons_self
    · rcases ih h with hkept | hexpired
      · split
        · exact .inl hkept
        · exact .inl (List.mem_cons_of_mem _ hkept)
      · split <;> exact .inr hexpired

variable [PartialEquivBEq Key]

/-- Cleaning changes no value that it leaves. -/
theorem get?_of_get?_clean {c : MruCache Key} {clock : SteadyClock} {k : Key} {t : ℤ}
    (h : (c.clean clock).1.recentClients.get? k = some t) : c.recentClients.get? k = some t :=
  EntryMap.get?_of_get?_keep (cleanEntries_sublist _ _ _) h

/-- **Cleaning.** An entry that is gone after a cleaning had expired by a reading that the cleaning
took. -/
theorem passed_of_clean {c : MruCache Key} {clock : SteadyClock} {k : Key} {t : ℤ}
    (h : c.recentClients.get? k = some t) :
    (c.clean clock).1.recentClients.get? k = some t ∨
      (c.clean clock).2.Passed (c.expiry t + 1) := by
  obtain ⟨e, he, hk, rfl⟩ := EntryMap.get?_eq_some_iff.1 h
  rcases mem_cleanEntries (seconds c.lifetimeSeconds) he with hkept | hexpired
  · exact .inl ((EntryMap.get?_keep_eq_some_iff (cleanEntries_sublist _ _ _)).2 ⟨e, hkept, hk, rfl⟩)
  · exact .inr (hexpired.of_laterThan (.tick _))

/-- On a steady clock, an entry that is gone after a cleaning has expired. -/
theorem get?_clean {c : MruCache Key} {clock : SteadyClock} (hsteady : clock.Steady) {k : Key}
    {t : ℤ} (h : c.recentClients.get? k = some t) :
    (c.clean clock).1.recentClients.get? k = some t ∨ c.expiry t < (c.clean clock).2.now :=
  (passed_of_clean h).imp_right fun hpassed =>
    (hsteady.of_laterThan (c.laterThan_clean clock)).le_now_of_passed hpassed

end Entries

end MruCache

end Nrpd
