import Nrpd.Cache.RateLimiter
import Nrpd.Lib.Runs

/-!
# Keys that are added

`Add` leaves an entry that is there alone, also one that has expired and was not cleaned yet. A key
is thus present for a whole lifetime after `Add` when it had no entry, and only then.

## Main definitions

* `CacheOp`, `CacheOp.run`: runs of the cache.
* `MruCache.Holds`: the cache has the entry of a key, or the entry has expired.

## Main results

* `CacheOp.holds`: what one operation keeps.
* `add_present_iff`: when a key is present for a lifetime.
-/

namespace Nrpd

open SteadyClock Runs

variable {Key : Type*} [BEq Key]

/-- The operations of a cache. -/
inductive CacheOp (Key : Type*) where
  | add (addr : Key)
  | isPresent (addr : Key)
  | isPresentAdd (addr : Key)
  | clean

/-- What an operation does to the cache and the clock. -/
def CacheOp.run (s : MruCache Key × SteadyClock) :
    CacheOp Key → Option (MruCache Key × SteadyClock)
  | add addr => some (s.1.add addr s.2)
  | isPresent addr =>
    let reply := s.1.isPresent addr s.2
    some (reply.cache, reply.clock)
  | isPresentAdd addr =>
    let reply := s.1.isPresentAdd addr s.2
    some (reply.cache, reply.clock)
  | clean => some (s.1.clean s.2)

namespace MruCache

/-- The cache has an entry for the key with the time `t`, or this entry has expired. -/
def Holds (c : MruCache Key) (clock : SteadyClock) (k : Key) (t : ℤ) : Prop :=
  c.recentClients.get? k = some t ∨ clock.Passed (c.expiry t)

variable {c : MruCache Key} {clock clock' : SteadyClock} {k addr : Key} {t : ℤ}

theorem Holds.later (h : c.Holds clock k t) (hlater : clock.LaterThan clock') :
    c.Holds clock' k t :=
  h.imp_right fun hpassed => hpassed.of_laterThan hlater

/-- On a steady clock, before the entry has expired, the key is present. -/
theorem Holds.isPresent (h : c.Holds clock k t) (hsteady : clock.Steady)
    (hnow : clock.now < c.expiry t) : (c.isPresent k clock).response = true := by
  have hentry : c.recentClients.get? k = some t :=
    h.resolve_right fun hpassed => absurd (hsteady.le_now_of_passed hpassed) (not_le.2 hnow)
  simpa only [MruCache.isPresent, isPresentLocked, hentry, decide_eq_true_eq] using not_le.2 hnow

/-- A key whose entry the cache has is not present only when a reading shows that the entry has
expired. -/
theorem Holds.passed_of_absent (h : c.Holds clock k t)
    (habsent : (c.isPresent k clock).response = false) :
    (c.isPresent k clock).clock.Passed (c.expiry t) := by
  rcases h with hentry | hpassed
  · have hexpired : c.expiry t ≤ clock.now := by
      simpa [MruCache.isPresent, isPresentLocked, hentry] using habsent
    have hclock : (c.isPresent k clock).clock = clock.tick.tick := by
      simp only [MruCache.isPresent, isPresentLocked, hentry]
      rfl
    rw [hclock]
    exact (passed_tick hexpired).of_laterThan (.tick _)
  · exact hpassed.of_laterThan (c.laterThan_isPresent k clock)

/-- An entry that has expired does not make its key present. -/
theorem isPresent_of_expired (hentry : c.recentClients.get? k = some t)
    (hexpired : c.expiry t ≤ clock.now) : (c.isPresent k clock).response = false := by
  simp only [MruCache.isPresent, isPresentLocked, hentry, ge_iff_le, hexpired, not_true_eq_false,
    decide_false]

variable [EquivBEq Key]

theorem get?_add (c : MruCache Key) (addr k : Key) (clock : SteadyClock) :
    (c.add addr clock).1.recentClients.get? k =
      if c.recentClients.get? addr = none ∧ (addr == k) = true then some clock.now
      else c.recentClients.get? k := by
  rw [add, EntryMap.emplace]
  by_cases hnone : c.recentClients.get? addr = none
  · rw [dif_pos hnone, EntryMap.get?_insertNew hnone]
    by_cases hk : (addr == k) = true <;> simp [hnone, hk]
  · rw [dif_neg hnone, if_neg fun h => hnone h.1]

/-- A key without an entry gets one. -/
theorem holds_add (clock : SteadyClock) (hnone : c.recentClients.get? k = none) :
    (c.add k clock).1.Holds (c.add k clock).2 k clock.now := by
  refine .inl ?_
  rw [get?_add, if_pos ⟨hnone, BEq.rfl⟩]

/-- `Add` does not touch the entry. -/
theorem Holds.add (h : c.Holds clock k t) (addr : Key) :
    (c.add addr clock).1.Holds (c.add addr clock).2 k t := by
  rcases h with hentry | hpassed
  · refine .inl ?_
    rw [get?_add, if_neg, hentry]
    rintro ⟨hnone, hk⟩
    rw [EntryMap.get?_congr hk, hentry] at hnone
    cases hnone
  · exact .inr (hpassed.of_laterThan (.tick clock))

/-- `IsPresentAdd` for another key. -/
theorem get?_isPresentAdd_of_ne (clock : SteadyClock) (hk : ¬ (addr == k) = true) :
    (c.isPresentAdd addr clock).cache.recentClients.get? k = c.recentClients.get? k := by
  rcases haddr : c.recentClients.get? addr with _ | t
  · rw [(isPresentAdd_of_none clock haddr).2.2.2, if_neg hk]
  · by_cases hexpired : clock.tick.now ≥ c.expiry t
    · rw [(isPresentAdd_of_expired haddr hexpired).2.2.2, if_neg hk]
    · rw [(isPresentAdd_of_fresh haddr hexpired).2.2]

/-- `IsPresentAdd` touches the entry only when it has expired. -/
theorem Holds.isPresentAdd (h : c.Holds clock k t) (addr : Key) :
    (c.isPresentAdd addr clock).cache.Holds (c.isPresentAdd addr clock).clock k t := by
  have hexpiry : (c.isPresentAdd addr clock).cache.expiry t = c.expiry t := by
    rw [expiry, isPresentAdd_lifetimeSeconds, expiry]
  have hlater := c.laterThan_isPresentAdd addr clock
  rcases h with hentry | hpassed
  · by_cases hk : (addr == k) = true
    · have haddr : c.recentClients.get? addr = some t := (EntryMap.get?_congr hk).trans hentry
      by_cases hexpired : clock.tick.now ≥ c.expiry t
      · refine .inr ?_
        rw [hexpiry]
        exact (passed_tick hexpired).of_laterThan
          (laterThan_isPresentAdd_of_expired haddr hexpired)
      · rw [(isPresentAdd_of_fresh haddr hexpired).2.2]
        exact .inl hentry
    · exact .inl ((get?_isPresentAdd_of_ne clock hk).trans hentry)
  · exact .inr (hexpiry ▸ hpassed.of_laterThan hlater)

/-- Cleaning drops the entry only when it has expired. -/
theorem Holds.clean (h : c.Holds clock k t) :
    (c.clean clock).1.Holds (c.clean clock).2 k t := by
  rcases h with hentry | hpassed
  · refine (passed_of_clean hentry).imp_right fun hpassed => ?_
    obtain ⟨n, hn, hle⟩ := hpassed
    exact ⟨n, hn, (Int.le_add_one (le_refl _)).trans hle⟩
  · exact .inr (hpassed.of_laterThan (c.laterThan_clean clock))

end MruCache

/-! ### Runs -/

section Runs

variable [EquivBEq Key] {k : Key} {t : ℤ} {s s' : MruCache Key × SteadyClock} {op : CacheOp Key}

/-- **One operation.** An entry stays until it has expired; the lifetime stays, and the clock goes
forward. -/
theorem CacheOp.holds (hrun : op.run s = some s') :
    (s.1.Holds s.2 k t → s'.1.Holds s'.2 k t) ∧ s'.1.lifetimeSeconds = s.1.lifetimeSeconds ∧
      s.2.LaterThan s'.2 := by
  cases op with
  | add addr =>
    obtain rfl := Option.some.inj hrun
    exact ⟨fun h => h.add addr, rfl, .tick s.2⟩
  | isPresent addr =>
    obtain rfl := Option.some.inj hrun
    have hlater := s.1.laterThan_isPresent addr s.2
    exact ⟨fun h => h.later hlater, rfl, hlater⟩
  | isPresentAdd addr =>
    obtain rfl := Option.some.inj hrun
    exact ⟨fun h => h.isPresentAdd addr, MruCache.isPresentAdd_lifetimeSeconds,
      s.1.laterThan_isPresentAdd addr s.2⟩
  | clean =>
    obtain rfl := Option.some.inj hrun
    exact ⟨fun h => h.clean, rfl, s.1.laterThan_clean s.2⟩

/-- Every run after a state keeps its entries until they have expired. -/
theorem holds_of_reachable (h : Reachable (· = s) CacheOp.run (fun _ _ => True) s') :
    (s.1.Holds s.2 k t → s'.1.Holds s'.2 k t) ∧ s'.1.lifetimeSeconds = s.1.lifetimeSeconds ∧
      s.2.LaterThan s'.2 := by
  refine h.invariant (P := fun s' => (s.1.Holds s.2 k t → s'.1.Holds s'.2 k t) ∧
    s'.1.lifetimeSeconds = s.1.lifetimeSeconds ∧ s.2.LaterThan s'.2) ?_ ?_
  · rintro _ rfl
    exact ⟨id, rfl, .refl _⟩
  · intro s₁ op s₂ ⟨hholds, hlife, hlater⟩ _ hrun
    obtain ⟨hholds', hlife', hlater'⟩ := CacheOp.holds (k := k) (t := t) hrun
    exact ⟨fun h => hholds' (hholds h), hlife'.trans hlife, hlater.trans hlater'⟩

/-- **A full lifetime.** In every run of a new cache on a steady clock, a key that has no entry, or
one that has expired, when `Add` is called for it at the time `t`: every `IsPresent` for the key
before `t` and the lifetime returns `true`, after any further operations, if and only if the key has
no entry, or the clock takes no further reading before then. -/
theorem add_present_iff (lifetimeSeconds : ℤ) (clock : SteadyClock) (hsteady : clock.Steady)
    (h : Reachable (· = MruCache.new lifetimeSeconds clock) CacheOp.run (fun _ _ => True) s)
    (hexpired : ∀ t₀, s.1.recentClients.get? k = some t₀ → s.1.expiry t₀ ≤ s.2.now) :
    (∀ s', Reachable (· = s.1.add k s.2) CacheOp.run (fun _ _ => True) s' →
        s'.2.now < s.2.now + seconds lifetimeSeconds →
        (s'.1.isPresent k s'.2).response = true) ↔
      s.1.recentClients.get? k = none ∨ s.2.now + seconds lifetimeSeconds ≤ s.2.tick.now := by
  obtain ⟨-, hlife, hlater⟩ := holds_of_reachable (k := k) (t := 0) h
  have hsteady' : s.2.Steady := hsteady.of_laterThan ((LaterThan.tick clock).trans hlater)
  have hlife' : s.1.lifetimeSeconds = lifetimeSeconds := hlife
  constructor
  · intro hpresent
    by_contra hnot
    obtain ⟨hsome, hsoon⟩ := not_or.1 hnot
    obtain ⟨t₀, ht₀⟩ := Option.ne_none_iff_exists'.1 hsome
    -- the entry that has expired is still there right behind the call of `Add`
    have hstill : (s.1.add k s.2).1.recentClients.get? k = some t₀ := by
      rw [MruCache.get?_add, if_neg (fun hnew => hsome hnew.1), ht₀]
    have htrue := hpresent (s.1.add k s.2) (.first rfl) (not_le.1 hsoon)
    have hfalse := MruCache.isPresent_of_expired hstill
      ((hexpired t₀ ht₀).trans (hsteady'.now_le (.tick s.2)))
    exact absurd (hfalse.symm.trans htrue) Bool.false_ne_true
  · rintro hcond s' hs' hnow
    obtain ⟨hholds, hlife₁, hlater₁⟩ := holds_of_reachable (k := k) (t := s.2.now) hs'
    have hsteady₁ : s'.2.Steady := (hsteady'.of_laterThan (.tick s.2)).of_laterThan hlater₁
    have hexpiry : s'.1.expiry s.2.now = s.2.now + seconds lifetimeSeconds := by
      rw [MruCache.expiry, hlife₁]
      exact congrArg (fun l => s.2.now + seconds l) hlife'
    rcases hcond with hnone | hlate
    · exact (hholds (MruCache.holds_add s.2 hnone)).isPresent hsteady₁ (hexpiry ▸ hnow)
    · have := (hsteady'.of_laterThan (.tick s.2)).now_le hlater₁
      exact absurd (hlate.trans this) (not_le.2 hnow)

/-- A key is added, its entry expires and is cleaned, and the key is added again and looked up. -/
theorem add_present_example :
    let start : MruCache ℕ × SteadyClock := MruCache.new 60 ⟨fun n => seconds (25 * n), 0⟩
    ∃ s₀ s s', after CacheOp.run [.add 7, .isPresent 8, .isPresent 8] start = some s₀ ∧
      s₀.1.recentClients.get? 7 = some (seconds 25) ∧ s₀.1.expiry (seconds 25) ≤ s₀.2.now ∧
      CacheOp.run s₀ .clean = some s ∧ CacheOp.run (s.1.add 7 s.2) (.isPresent 8) = some s' ∧
      (s'.1.isPresent 7 s'.2).response = true := by
  intro start
  have hsteady : SteadyClock.Steady ⟨fun n => seconds (25 * n), 0⟩ := by
    intro i j hij
    simp only [seconds]
    omega
  have hfirst : Reachable (· = start) CacheOp.run (fun _ _ => True) start := .first rfl
  obtain ⟨s, hs⟩ : ∃ s, after CacheOp.run [.add 7, .isPresent 8, .isPresent 8, .clean] start =
    some s := ⟨_, rfl⟩
  have hcleaned : (after CacheOp.run [.add 7, .isPresent 8, .isPresent 8, .clean] start).map
      (fun s => (s.1.recentClients.get? 7, s.2.now,
        ((s.1.add 7 s.2).1.isPresent 8 (s.1.add 7 s.2).2).clock.now)) =
    some (none, seconds 150, seconds 200) := by decide
  rw [hs, Option.map_some, Option.some.injEq, Prod.mk.injEq, Prod.mk.injEq] at hcleaned
  obtain ⟨hnone, hadded, hlooked⟩ := hcleaned
  refine ⟨_, s, _, rfl, by decide, by decide, hs, rfl, ?_⟩
  refine (add_present_iff 60 _ hsteady (hfirst.after _ hs) fun t₀ ht₀ => ?_).2 (.inl hnone) _
    (.call (a := .isPresent 8) (.first rfl) trivial rfl) ?_
  · rw [hnone] at ht₀
    cases ht₀
  · rw [hadded]
    exact hlooked.trans_lt (by decide)

/-- A key is added again after its entry has expired, and is not present. -/
theorem add_again_absent :
    ∃ (clock : SteadyClock) (s s' : MruCache ℕ × SteadyClock), clock.Steady ∧
      Reachable (· = MruCache.new 60 clock) CacheOp.run (fun _ _ => True) s ∧
      (∀ t₀, s.1.recentClients.get? 7 = some t₀ → s.1.expiry t₀ ≤ s.2.now) ∧
      Reachable (· = s.1.add 7 s.2) CacheOp.run (fun _ _ => True) s' ∧
      s'.2.now < s.2.now + seconds 60 ∧ (s'.1.isPresent 7 s'.2).response = false := by
  have hfirst : Reachable (· = (MruCache.new 60 ⟨fun n => if n < 2 then 0 else seconds 100, 0⟩ :
      MruCache ℕ × SteadyClock)) CacheOp.run (fun _ _ => True) _ := .first rfl
  refine ⟨⟨fun n => if n < 2 then 0 else seconds 100, 0⟩, _, _, ?_, hfirst.after [.add 7] rfl, ?_,
    .first rfl, by decide, by decide⟩
  · intro i j hij
    simp only [seconds]
    split <;> split <;> omega
  · intro t₀ ht₀
    obtain rfl := Option.some.inj ht₀
    decide

end Runs

end Nrpd
