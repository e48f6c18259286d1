import Nrpd.Cache.MruCache

/-!
# The cache as a rate limiter

A server asks `IsPresentAdd` for the address of every request and ignores the client when the
answer is `true`. The abstract limiter remembers, for every key, only the latest call that
returned `false`; a run of `IsPresentAdd`, `IsPresent` and `Clean` answers as this limiter does,
wherever the cleanings fall.

## Main definitions

* `LimiterOp`, `limiterRun`: runs of the cache, and the calls of `IsPresentAdd` they make.
* `latestMiss`: the latest earlier call for a key that returned `false`.
* `Tracks`: the invariant that ties the cache to the calls made so far.

## Main results

* `Tracks.isPresentAdd`, `Tracks.clean`: what one operation keeps.
* `isPresentAdd_exact`: the answers are those of the abstract limiter.
-/

namespace Nrpd

open SteadyClock

variable {Key : Type*} [BEq Key]

/-- The operations of a run. -/
inductive LimiterOp (Key : Type*) where
  | isPresentAdd (addr : Key)
  | isPresent (addr : Key)
  | clean

/-- A call of `IsPresentAdd`: its key and answer, the clock reading it decided by, and the time the
cache holds for the key when it returns. -/
structure AddAttempt (Key : Type*) where
  key : Key
  response : Bool
  decidedAt : ℤ
  recordedAt : ℤ
deriving DecidableEq

namespace MruCache

/-- The reading by which `IsPresentAdd` decides: the one for the new entry when there is no entry,
the one it compares with the expiry of the entry otherwise. -/
def decisionTime (c : MruCache Key) (addr : Key) (clock : SteadyClock) : ℤ :=
  match c.recentClients.get? addr with
  | none => clock.now
  | some _ => clock.tick.now

/-- The time that the cache holds for the key behind a call of `IsPresentAdd`. -/
def recordedTime (c : MruCache Key) (addr : Key) (clock : SteadyClock) : ℤ :=
  match c.recentClients.get? addr with
  | none => clock.now
  | some t => if clock.tick.now ≥ c.expiry t then clock.tick.tick.now else t

/-- The call of `IsPresentAdd` as it is recorded in a run. -/
def attempt (c : MruCache Key) (addr : Key) (clock : SteadyClock) : AddAttempt Key :=
  ⟨addr, (c.isPresentAdd addr clock).response, c.decisionTime addr clock,
    c.recordedTime addr clock⟩

end MruCache

/-- The calls of `IsPresentAdd` that a run makes, in order. -/
def limiterRun : List (LimiterOp Key) → MruCache Key → SteadyClock → List (AddAttempt Key)
  | [], _, _ => []
  | .isPresentAdd addr :: ops, c, clock =>
    let reply := c.isPresentAdd addr clock
    c.attempt addr clock :: limiterRun ops reply.cache reply.clock
  | .isPresent addr :: ops, c, clock =>
    let reply := c.isPresent addr clock
    limiterRun ops reply.cache reply.clock
  | .clean :: ops, c, clock =>
    let cleaned := c.clean clock
    limiterRun ops cleaned.1 cleaned.2

/-- The latest of the earlier calls for a key that returned `false`. -/
def latestMiss (earlier : List (AddAttempt Key)) (k : Key) : Option (AddAttempt Key) :=
  earlier.reverse.find? fun d => d.key == k && !d.response

theorem latestMiss_append_singleton (earlier : List (AddAttempt Key)) (d : AddAttempt Key)
    (k : Key) :
    latestMiss (earlier ++ [d]) k =
      if d.key == k && !d.response then some d else latestMiss earlier k := by
  rw [latestMiss, List.reverse_append, List.reverse_singleton, List.singleton_append,
    List.find?_cons]
  cases d.key == k && !d.response <;> rfl

/-! ### What one call does -/

section Calls

variable [PartialEquivBEq Key] {c : MruCache Key} {addr : Key} {clock : SteadyClock}

omit [PartialEquivBEq Key] in
@[simp] theorem MruCache.isPresentAdd_lifetimeSeconds :
    (c.isPresentAdd addr clock).cache.lifetimeSeconds = c.lifetimeSeconds := by
  obtain ⟨m, hm⟩ := c.exists_recentClients addr clock
  rw [MruCache.isPresentAdd, hm]

/-- A key without an entry is new: the call returns `false` and records its first reading. -/
theorem MruCache.isPresentAdd_of_none (clock : SteadyClock)
    (h : c.recentClients.get? addr = none) :
    (c.isPresentAdd addr clock).response = false ∧
      c.decisionTime addr clock = clock.now ∧ c.recordedTime addr clock = clock.now ∧
      ∀ k, (c.isPresentAdd addr clock).cache.recentClients.get? k =
        if addr == k then some clock.now else c.recentClients.get? k := by
  simp only [MruCache.isPresentAdd, isPresentAddLocked_of_none clock h, MruCache.decisionTime,
    MruCache.recordedTime, h, true_and]
  exact fun k => EntryMap.get?_insertNew h

/-- A key with an entry that has expired: the call returns `false` and records its last reading. -/
theorem MruCache.isPresentAdd_of_expired {t : ℤ} (h : c.recentClients.get? addr = some t)
    (hexp : clock.tick.now ≥ c.expiry t) :
    (c.isPresentAdd addr clock).response = false ∧
      c.decisionTime addr clock = clock.tick.now ∧
      c.recordedTime addr clock = clock.tick.tick.now ∧
      ∀ k, (c.isPresentAdd addr clock).cache.recentClients.get? k =
        if addr == k then some clock.tick.tick.now else c.recentClients.get? k := by
  simp only [MruCache.isPresentAdd, isPresentAddLocked_of_some clock h, MruCache.decisionTime,
    MruCache.recordedTime, h, hexp, if_true, true_and]
  intro k
  rw [EntryMap.get?_assign]
  cases hk : addr == k with
  | false => rfl
  | true => simp [← EntryMap.get?_congr hk, h]

omit [PartialEquivBEq Key] in
/-- A key with an entry that has expired: the call takes two readings before the one it records. -/
theorem MruCache.laterThan_isPresentAdd_of_expired {t : ℤ}
    (h : c.recentClients.get? addr = some t) (hexp : clock.tick.now ≥ c.expiry t) :
    clock.tick.tick.LaterThan (c.isPresentAdd addr clock).clock := by
  rw [MruCache.isPresentAdd, isPresentAddLocked_of_some clock h, if_pos hexp]
  exact (LaterThan.tick _).trans (.tick _)

omit [PartialEquivBEq Key] in
/-- A key with an entry that has not expired: the call returns `true` and changes nothing. -/
theorem MruCache.isPresentAdd_of_fresh {t : ℤ} (h : c.recentClients.get? addr = some t)
    (hfresh : ¬ clock.tick.now ≥ c.expiry t) :
    (c.isPresentAdd addr clock).response = true ∧ c.decisionTime addr clock = clock.tick.now ∧
      (c.isPresentAdd addr clock).cache = c := by
  simp only [MruCache.isPresentAdd, isPresentAddLocked_of_some clock h, hfresh, if_false,
    MruCache.decisionTime, h, and_self]

end Calls

/-! ### The invariant -/

/-- The calls made so far, and the cache and clock behind them: the cache holds the time recorded
by the latest miss of a key, unless that time has expired; and no recorded time is ahead of the
clock. -/
structure Tracks (earlier : List (AddAttempt Key)) (c : MruCache Key) (clock : SteadyClock) :
    Prop where
  steady : clock.Steady
  entry : ∀ k t, c.recentClients.get? k = some t →
    ∃ d, latestMiss earlier k = some d ∧ d.recordedAt = t
  kept : ∀ k d, latestMiss earlier k = some d →
    c.recentClients.get? k = some d.recordedAt ∨ c.expiry d.recordedAt ≤ clock.now
  past : ∀ d ∈ earlier, d.response = false → d.recordedAt ≤ clock.now
  latest : ∀ d ∈ earlier, d.response = false → ∀ k, (d.key == k) = true →
    ∃ d', latestMiss earlier k = some d' ∧ d.recordedAt ≤ d'.recordedAt

namespace Tracks

variable {earlier : List (AddAttempt Key)} {c : MruCache Key} {clock : SteadyClock}

/-- The clock moves on and the cache stays as it is. -/
theorem later (h : Tracks earlier c clock) {clock' : SteadyClock}
    (hlater : clock.LaterThan clock') : Tracks earlier c clock' where
  steady := h.steady.of_laterThan hlater
  entry := h.entry
  kept k d hd := (h.kept k d hd).imp_right fun he => he.trans (h.steady.now_le hlater)
  past d hd hmiss := (h.past d hd hmiss).trans (h.steady.now_le hlater)
  latest := h.latest

/-- A call that returns `true` adds no miss. -/
theorem of_hit (h : Tracks earlier c clock) {d : AddAttempt Key} (hd : d.response = true) :
    Tracks (earlier ++ [d]) c clock where
  steady := h.steady
  entry k t hk := by simpa [latestMiss_append_singleton, hd] using h.entry k t hk
  kept k d' hd' := h.kept k d' (by simpa [latestMiss_append_singleton, hd] using hd')
  past d' hd' hmiss := by
    rcases List.mem_append.1 hd' with hd' | hd'
    · exact h.past d' hd' hmiss
    · rw [List.mem_singleton.1 hd', hd] at hmiss
      cases hmiss
  latest d' hd' hmiss k hk := by
    rcases List.mem_append.1 hd' with hd' | hd'
    · simpa [latestMiss_append_singleton, hd] using h.latest d' hd' hmiss k hk
    · rw [List.mem_singleton.1 hd', hd] at hmiss
      cases hmiss

/-- A call that returns `false` and leaves the time it records under its key. -/
theorem of_miss (h : Tracks earlier c clock) {d : AddAttempt Key} (hd : d.response = false)
    {c' : MruCache Key} {clock' : SteadyClock} (hlater : clock.LaterThan clock')
    (hlife : c'.lifetimeSeconds = c.lifetimeSeconds)
    (hget : ∀ k, c'.recentClients.get? k =
      if d.key == k then some d.recordedAt else c.recentClients.get? k)
    (hlow : clock.now ≤ d.recordedAt) (hhigh : d.recordedAt ≤ clock'.now) :
    Tracks (earlier ++ [d]) c' clock' := by
  have hlate (k : Key) : latestMiss (earlier ++ [d]) k =
      if d.key == k then some d else latestMiss earlier k := by
    simp [latestMiss_append_singleton, hd]
  have hexp (t : ℤ) : c'.expiry t = c.expiry t := by rw [MruCache.expiry, hlife]; rfl
  have h' := h.later hlater
  refine ⟨h'.steady, ?_, ?_, ?_, ?_⟩
  · intro k t hk
    rw [hget] at hk
    rw [hlate]
    split at hk
    · exact ⟨d, by simp [*], Option.some.inj hk⟩
    · simpa [*] using h.entry k t hk
  · intro k d' hd'
    rw [hlate] at hd'
    rw [hget, hexp]
    split at hd'
    · obtain rfl := Option.some.inj hd'
      exact .inl (by simp [*])
    · simpa [*] using h'.kept k d' hd'
  · intro d' hd' hmiss
    rcases List.mem_append.1 hd' with hd' | hd'
    · exact h'.past d' hd' hmiss
    · rw [List.mem_singleton.1 hd']
      exact hhigh
  · intro d' hd' hmiss k hk
    rw [hlate]
    rcases List.mem_append.1 hd' with hd' | hd'
    · split
      · exact ⟨d, rfl, (h.past d' hd' hmiss).trans hlow⟩
      · exact h.latest d' hd' hmiss k hk
    · rw [List.mem_singleton.1 hd'] at hk ⊢
      exact ⟨d, by simp [hk], le_rfl⟩

variable [PartialEquivBEq Key]

/-- A call behind earlier ones: it answers as the abstract limiter does, decides no later than it
records, and keeps the invariant. -/
structure Answered (earlier : List (AddAttempt Key)) (c : MruCache Key) (clock : SteadyClock)
    (addr : Key) : Prop where
  response : (c.attempt addr clock).response = true ↔ ∃ d, latestMiss earlier addr = some d ∧
    (c.attempt addr clock).decidedAt < c.expiry d.recordedAt
  order : (c.attempt addr clock).response = false →
    (c.attempt addr clock).decidedAt ≤ (c.attempt addr clock).recordedAt
  tracks : Tracks (earlier ++ [c.attempt addr clock]) (c.isPresentAdd addr clock).cache
    (c.isPresentAdd addr clock).clock

/-- A call for a key that has no entry: its latest miss is over. -/
theorem answered_of_none (h : Tracks earlier c clock) {addr : Key}
    (hget : c.recentClients.get? addr = none) : Answered earlier c clock addr := by
  have hlater := c.laterThan_isPresentAdd addr clock
  obtain ⟨hresp, hdec, hrec, hcache⟩ := MruCache.isPresentAdd_of_none clock hget
  have hmiss : (c.attempt addr clock).response = false := hresp
  refine ⟨?_, fun _ => ?_, ?_⟩
  · rw [hmiss]
    refine iff_of_false Bool.false_ne_true ?_
    rintro ⟨d, hd, hlt⟩
    rcases h.kept addr d hd with hkept | hexp
    · rw [hget] at hkept
      cases hkept
    · simp only [MruCache.attempt, hdec] at hlt
      omega
  · simp only [MruCache.attempt, hdec, hrec, le_refl]
  · refine h.of_miss hmiss hlater MruCache.isPresentAdd_lifetimeSeconds ?_ ?_ ?_
    · simpa only [MruCache.attempt, hrec] using hcache
    · simp only [MruCache.attempt, hrec, le_refl]
    · simp only [MruCache.attempt, hrec]
      exact h.steady.now_le hlater

/-- A call for a key whose entry has expired. -/
theorem answered_of_expired (h : Tracks earlier c clock) {addr : Key} {t : ℤ}
    (hget : c.recentClients.get? addr = some t) (hexp : clock.tick.now ≥ c.expiry t) :
    Answered earlier c clock addr := by
  have hlater := c.laterThan_isPresentAdd addr clock
  have htick : clock.LaterThan clock.tick := .tick clock
  have htick2 : clock.LaterThan clock.tick.tick := htick.trans (.tick _)
  obtain ⟨d₀, hd₀, ht⟩ := h.entry addr t hget
  obtain ⟨hresp, hdec, hrec, hcache⟩ := MruCache.isPresentAdd_of_expired hget hexp
  have hmiss : (c.attempt addr clock).response = false := hresp
  have hlast := MruCache.laterThan_isPresentAdd_of_expired hget hexp
  refine ⟨?_, fun _ => ?_, ?_⟩
  · rw [hmiss]
    refine iff_of_false Bool.false_ne_true ?_
    rintro ⟨d, hd, hlt⟩
    obtain rfl : d = d₀ := Option.some.inj (hd.symm.trans hd₀)
    simp only [MruCache.attempt, hdec, ht] at hlt
    omega
  · simp only [MruCache.attempt, hdec, hrec]
    exact (h.steady.of_laterThan htick).now_le (.tick _)
  · refine h.of_miss hmiss hlater MruCache.isPresentAdd_lifetimeSeconds ?_ ?_ ?_
    · simpa only [MruCache.attempt, hrec] using hcache
    · simp only [MruCache.attempt, hrec]
      exact h.steady.now_le htick2
    · simp only [MruCache.attempt, hrec]
      exact (h.steady.of_laterThan htick2).now_le hlast

omit [PartialEquivBEq Key] in
/-- A call for a key whose entry has not expired. -/
theorem answered_of_fresh (h : Tracks earlier c clock) {addr : Key} {t : ℤ}
    (hget : c.recentClients.get? addr = some t) (hfresh : ¬ clock.tick.now ≥ c.expiry t) :
    Answered earlier c clock addr := by
  obtain ⟨d₀, hd₀, ht⟩ := h.entry addr t hget
  obtain ⟨hresp, hdec, hcache⟩ := MruCache.isPresentAdd_of_fresh hget hfresh
  have hhit : (c.attempt addr clock).response = true := hresp
  refine ⟨?_, fun hmiss => ?_, ?_⟩
  · rw [hhit]
    refine iff_of_true rfl ⟨d₀, hd₀, ?_⟩
    simp only [MruCache.attempt, hdec, ht]
    omega
  · rw [hhit] at hmiss
    cases hmiss
  · rw [hcache]
    exact (h.of_hit hhit).later (c.laterThan_isPresentAdd addr clock)

/-- **`IsPresentAdd`.** Every call answers as the abstract limiter does and keeps the invariant. -/
theorem isPresentAdd (h : Tracks earlier c clock) (addr : Key) : Answered earlier c clock addr := by
  cases hget : c.recentClients.get? addr with
  | none => exact h.answered_of_none hget
  | some t =>
    by_cases hexp : clock.tick.now ≥ c.expiry t
    · exact h.answered_of_expired hget hexp
    · exact h.answered_of_fresh hget hexp

/-- **`Clean`.** Cleaning keeps the invariant: the entries it drops have expired. -/
theorem clean (h : Tracks earlier c clock) :
    Tracks earlier (c.clean clock).1 (c.clean clock).2 := by
  have h' := h.later (c.laterThan_clean clock)
  refine ⟨h'.steady, fun k t hk => h.entry k t (MruCache.get?_of_get?_clean hk), ?_, h'.past,
    h.latest⟩
  intro k d hd
  rcases h.kept k d hd with hkept | hexp
  · rcases MruCache.get?_clean h.steady hkept with hkept | hexp
    · exact .inl hkept
    · exact .inr hexp.le
  · exact .inr (hexp.trans (h.steady.now_le (c.laterThan_clean clock)))

end Tracks

/-! ### Runs -/

section Runs

variable [EquivBEq Key]

/-- A run from a cache that tracks the calls made before it. -/
private theorem limiterRun_exact {lifetime : ℤ} (ops : List (LimiterOp Key)) :
    ∀ {past : List (AddAttempt Key)} {c : MruCache Key} {clock : SteadyClock},
      Tracks past c clock → seconds c.lifetimeSeconds = lifetime →
      ∀ {pre e post}, limiterRun ops c clock = pre ++ e :: post →
        (e.response = true ↔ ∃ d, latestMiss (past ++ pre) e.key = some d ∧
          e.decidedAt < d.recordedAt + lifetime) ∧
        (e.response = false → e.decidedAt ≤ e.recordedAt ∧
          ∀ d ∈ past ++ pre, (d.key == e.key) = true → d.response = false →
            d.recordedAt + lifetime ≤ e.decidedAt) := by
  induction ops with
  | nil =>
    intro past c clock _ _ pre e post h
    simp [limiterRun] at h
  | cons op ops ih =>
    intro past c clock htracks hlife pre e post h
    cases op with
    | isPresent addr =>
      exact ih (htracks.later (c.laterThan_isPresent addr clock)) hlife h
    | clean => exact ih htracks.clean hlife h
    | isPresentAdd addr =>
      obtain ⟨hexact, hrec, hnext⟩ := htracks.isPresentAdd addr
      simp only [limiterRun] at h
      cases pre with
      | nil =>
        obtain ⟨rfl, -⟩ := List.cons.inj h
        simp only [MruCache.expiry, hlife] at hexact
        rw [List.append_nil]
        refine ⟨hexact, fun hmiss => ⟨hrec hmiss, fun d hd hkey hdmiss => ?_⟩⟩
        obtain ⟨d', hd', hle⟩ := htracks.latest d hd hdmiss addr hkey
        have hlate : ¬ (c.attempt addr clock).decidedAt < d'.recordedAt + lifetime := by
          intro hlt
          rw [hexact.2 ⟨d', hd', hlt⟩] at hmiss
          cases hmiss
        omega
      | cons a pre =>
        obtain ⟨rfl, htail⟩ := List.cons.inj h
        have := ih hnext (by simpa using hlife) htail
        rwa [List.append_assoc, List.singleton_append] at this

omit [EquivBEq Key] in
private theorem lifetime_new (lifetimeSeconds : ℤ) (clock : SteadyClock) :
    seconds (MruCache.new lifetimeSeconds clock : MruCache Key × SteadyClock).1.lifetimeSeconds =
      seconds lifetimeSeconds := rfl

/-- **The rate limiter is exact.** In every run of a new cache on a steady clock, `IsPresentAdd`
answers `true` if and only if an earlier call for the key answered `false` and the clock is still
before the time recorded by the latest such call plus the lifetime; and two calls for one key that
both answer `false` are at least the lifetime apart. -/
theorem isPresentAdd_exact (lifetimeSeconds : ℤ) (clock : SteadyClock) (hsteady : clock.Steady)
    (ops : List (LimiterOp Key)) {earlier later : List (AddAttempt Key)} {e : AddAttempt Key}
    (hrun : limiterRun ops (MruCache.new lifetimeSeconds clock).1
      (MruCache.new lifetimeSeconds clock : MruCache Key × SteadyClock).2 =
        earlier ++ e :: later) :
    (e.response = true ↔ ∃ d, latestMiss earlier e.key = some d ∧
      e.decidedAt < d.recordedAt + seconds lifetimeSeconds) ∧
    (e.response = false → e.decidedAt ≤ e.recordedAt ∧
      ∀ d ∈ earlier, (d.key == e.key) = true → d.response = false →
        d.recordedAt + seconds lifetimeSeconds ≤ e.decidedAt) := by
  have hnew : Tracks [] (MruCache.new lifetimeSeconds clock : MruCache Key × SteadyClock).1
      (MruCache.new lifetimeSeconds clock : MruCache Key × SteadyClock).2 := by
    refine ⟨hsteady.of_laterThan (.tick clock), ?_, ?_, ?_, ?_⟩
    · intro k t h
      simp [MruCache.new] at h
    · intro k d h
      simp [latestMiss] at h
    · simp
    · simp
  exact limiterRun_exact ops hnew (lifetime_new lifetimeSeconds clock) hrun

/-- Two calls for one key, sixty seconds apart, with a cleaning between them. -/
theorem isPresentAdd_exact_example :
    let clock : SteadyClock := ⟨fun n => seconds (60 * n), 0⟩
    let cache : MruCache ℕ × SteadyClock := MruCache.new 60 clock
    let trace := limiterRun [.isPresentAdd 7, .clean, .isPresentAdd 7] cache.1 cache.2
    ∃ d e : AddAttempt ℕ, trace = [d] ++ e :: [] ∧ e.response = false ∧
      d.recordedAt + seconds 60 ≤ e.decidedAt := by
  intro clock cache trace
  have hsteady : clock.Steady := by
    intro a b hab
    simp only [clock, seconds]
    omega
  have htrace : trace = [⟨7, false, seconds 60, seconds 60⟩] ++
      ⟨7, false, seconds 300, seconds 300⟩ :: [] := by decide +kernel
  refine ⟨_, _, htrace, rfl, ?_⟩
  exact ((isPresentAdd_exact 60 clock hsteady _ htrace).2 rfl).2 _ List.mem_cons_self rfl rfl

end Runs

end Nrpd
