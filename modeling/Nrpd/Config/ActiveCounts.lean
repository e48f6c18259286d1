import Nrpd.Config.NrpdConfig
import Nrpd.Lib.Runs

/-!
# The cached counts of active servers

`ActiveServerCount` caches its result, and `-1` says that there is none. The operations of the
client step the cached counts whether or not they are set, and `IncrementServerFailCount` steps
them for a server that it removes from the probationary list as well. The counts are right in
every run that avoids the calls for which this goes wrong.

## Main definitions

* `ConfigCall`: the calls of the client and of the server, and the cleaning of the bans.
* `NrpdConfig.CountsTrue`: every cached count is unset or right.
* `ConfigCall.KeepsCounts`: the condition on a call and on the configuration before it.

## Main results

* `ConfigCall.countsTrue`: what one call keeps.
* `countsTrue_of_reachable`: what every run keeps.
-/

namespace Nrpd

open SteadyClock FixedWidth Runs

/-- The calls that are made on a configuration. The client makes the ones for a server on the
record that `GetNextServer` returned. -/
inductive ConfigCall where
  | addServersFromMessage (m : Mem) (msg : ℕ)
  | getNextServer
  | activeServerCount (type : NrpdMsgType)
  | getServerList (type : NrpdMsgType) (count : ℤ)
  | markServerSuccessful (ref : ServerRef)
  | incrementServerFailCount (ref : ServerRef)
  | cleanBannedServers

/-- What a call does to the configuration and the clock. -/
def ConfigCall.run : NrpdConfig × SteadyClock → ConfigCall → Option (NrpdConfig × SteadyClock)
  | (c, clock), addServersFromMessage m msg => some (c.addServersFromMessage m msg clock).2
  | (c, clock), getNextServer => c.getNextServer.map fun next => (next.2, clock)
  | (c, clock), activeServerCount type => some ((c.activeServerCount type).2, clock)
  | (c, clock), getServerList type count => some ((c.getServerList type count).2, clock)
  | (c, clock), markServerSuccessful ref => c.markServerSuccessful ref clock
  | (c, clock), incrementServerFailCount ref => c.incrementServerFailCount ref clock
  | (c, clock), cleanBannedServers =>
    let banned := c.bannedServers.clean clock
    some ({ c with bannedServers := banned.1 }, banned.2)

namespace NrpdConfig

/-- Every cached count is in the range of its type, and is negative, which says unset, or the
number of active servers of its family. -/
structure CountsTrue (c : NrpdConfig) : Prop where
  range : ∀ ipv6, -2147483648 ≤ c.cachedCount ipv6 ∧ c.cachedCount ipv6 < 2147483648
  exact : ∀ ipv6, c.cachedCount ipv6 < 0 ∨ c.cachedCount ipv6 = (c.activeOf ipv6).length

/-! ### Calls that leave the counts alone -/

/-- Two configurations with the same cached counts and the same numbers of active servers. -/
structure SameCounts (c c' : NrpdConfig) : Prop where
  cached : ∀ ipv6, c'.cachedCount ipv6 = c.cachedCount ipv6
  active : ∀ ipv6, (c'.activeOf ipv6).length = (c.activeOf ipv6).length

variable {c c' c'' : NrpdConfig} {serv : ServerRecord} {ref : ServerRef} {clock : SteadyClock}

theorem SameCounts.trans (h : SameCounts c c') (h' : SameCounts c' c'') : SameCounts c c'' where
  cached ipv6 := (h'.cached ipv6).trans (h.cached ipv6)
  active ipv6 := (h'.active ipv6).trans (h.active ipv6)

theorem CountsTrue.of_same (h : c.CountsTrue) (hsame : SameCounts c c') : c'.CountsTrue where
  range ipv6 := by rw [hsame.cached]; exact h.range ipv6
  exact ipv6 := by rw [hsame.cached, hsame.active]; exact h.exact ipv6

theorem CountsTrue.withBannedServers (h : c.CountsTrue) (banned : MruCache ServerRecord) :
    { c with bannedServers := banned }.CountsTrue :=
  h.of_same ⟨fun _ => rfl, fun _ => rfl⟩

theorem length_activeOf (c : NrpdConfig) (ipv6 : Bool) :
    (c.activeOf ipv6).length = c.activeServers.elems.countP fun record => record.ipv6 == ipv6 :=
  List.countP_eq_length_filter.symm

theorem sameCounts_getNextServer (h : c.getNextServer = some (ref, c')) : SameCounts c c' := by
  simp only [getNextServer, Option.bind_eq_bind, Option.bind_eq_some_iff] at h
  obtain ⟨ia, -, ip, -, h⟩ := h
  rcases chooseServer_eq_some h with rfl | rfl <;> exact ⟨fun _ => rfl, fun _ => rfl⟩

theorem sameCounts_addServers (servs : List ServerRecord) :
    ∀ (c : NrpdConfig) (clock : SteadyClock), SameCounts c (addServers servs c clock).1 := by
  induction servs with
  | nil => exact fun c clock => ⟨fun _ => rfl, fun _ => rfl⟩
  | cons serv servs ih =>
    intro c clock
    refine .trans (show SameCounts c (c.addServer serv clock).1 from ?_) (ih _ _)
    simp only [addServer]
    split
    · exact ⟨fun _ => rfl, fun _ => rfl⟩
    · split <;> exact ⟨fun _ => rfl, fun _ => rfl⟩

/-- A change of a record in place that keeps its address. -/
theorem sameCounts_updateServer (c : NrpdConfig) (ref : ServerRef) {f : ServerRecord → ServerRecord}
    (hf : ∀ r, (f r).host = r.host) : SameCounts c (c.updateServer ref f hf) := by
  cases ref with
  | configured i => exact ⟨fun _ => rfl, fun _ => rfl⟩
  | probationary i => exact ⟨fun _ => rfl, fun _ => rfl⟩
  | active i =>
    refine ⟨fun _ => rfl, fun ipv6 => ?_⟩
    rw [length_activeOf, length_activeOf]
    exact OrderedSet.countP_modify (ServerRecord.lt_update hf)
      fun a => by rw [ServerRecord.ipv6, hf]

/-! ### Calls that step the counts -/

/-- The counts after a change that concerns one family. -/
theorem CountsTrue.of_family (h : c.CountsTrue) (ipv6 : Bool)
    (hother : ∀ v, v ≠ ipv6 → c'.cachedCount v = c.cachedCount v ∧
      (c'.activeOf v).length = (c.activeOf v).length)
    (hrange : -2147483648 ≤ c'.cachedCount ipv6 ∧ c'.cachedCount ipv6 < 2147483648)
    (hexact : c'.cachedCount ipv6 < 0 ∨ c'.cachedCount ipv6 = (c'.activeOf ipv6).length) :
    c'.CountsTrue := by
  refine ⟨fun v => ?_, fun v => ?_⟩
  · by_cases hv : v = ipv6
    · rw [hv]
      exact hrange
    · rw [(hother v hv).1]
      exact h.range v
  · by_cases hv : v = ipv6
    · rw [hv]
      exact hexact
    · rw [(hother v hv).1, (hother v hv).2]
      exact h.exact v

theorem CountsTrue.activeServerCount (h : c.CountsTrue) {type : NrpdMsgType}
    (hfit : isPeersType type = true → c.cachedCount (isIp6Peers type) < 0 →
      (c.activeOf (isIp6Peers type)).length < 2147483648) :
    (c.activeServerCount type).2.CountsTrue ∧ (isPeersType type = true →
      (c.activeServerCount type).1 = (c.activeOf (isIp6Peers type)).length) := by
  rw [NrpdConfig.activeServerCount]
  cases htype : isPeersType type with
  | false => exact ⟨h, fun hpeers => absurd hpeers Bool.false_ne_true⟩
  | true =>
    simp only [Bool.not_true, Bool.false_eq_true, if_false]
    split
    · exact ⟨h, fun _ => (h.exact _).resolve_left (by omega)⟩
    · rename_i hunset
      have hlen := hfit htype (by omega)
      have hcount : i32 (c.activeOf (isIp6Peers type)).length =
          (c.activeOf (isIp6Peers type)).length := i32_of_lt (by omega) (by omega)
      refine ⟨h.of_family (isIp6Peers type) (fun v hv => ?_) ?_ (.inr ?_), fun _ => hcount⟩
      · simp only [cachedCount_setCachedCount, if_neg hv, activeOf_setCachedCount, and_self]
      · simp only [cachedCount_setCachedCount, if_true]
        exact i32_mem _
      · simp only [cachedCount_setCachedCount, if_true, activeOf_setCachedCount, hcount]

theorem CountsTrue.getServerList (h : c.CountsTrue) {type : NrpdMsgType} {count : ℤ}
    (hfit : isPeersType type = true → c.cachedCount (isIp6Peers type) < 0 →
      (c.activeOf (isIp6Peers type)).length < 2147483648) :
    (c.getServerList type count).2.CountsTrue := by
  rw [NrpdConfig.getServerList]
  split
  · exact h
  · simp only
    split <;> exact (h.activeServerCount hfit).1

/-- Promotion counts the server, unless the count is unset: from `-1` it goes to `0`. -/
theorem CountsTrue.activate (h : c.CountsTrue)
    (hset : c.activeServers.contains serv = false → c.cachedCount serv.ipv6 ≠ -1) :
    (c.activate serv).CountsTrue := by
  rw [NrpdConfig.activate]
  cases hnew : c.activeServers.contains serv with
  | true =>
    rw [OrderedSet.emplace_of_contains hnew]
    exact h
  | false =>
    have hset := hset hnew
    have hrange := h.range serv.ipv6
    rw [OrderedSet.emplace_of_not_contains hnew]
    simp only [if_true, addToCachedCount]
    refine h.of_family serv.ipv6 (fun v hv => ⟨?_, ?_⟩) ?_ ?_
    · rw [cachedCount_setCachedCount, if_neg hv]
      rfl
    · rw [length_activeOf, length_activeOf, activeServers_setCachedCount,
        OrderedSet.countP_insertNew, if_neg (by simpa using Ne.symm hv), Nat.add_zero]
    · rw [cachedCount_setCachedCount, if_pos rfl]
      exact i32_mem _
    · rw [cachedCount_setCachedCount, if_pos rfl, length_activeOf, activeServers_setCachedCount,
        OrderedSet.countP_insertNew, if_pos (by simp), ← length_activeOf]
      have hexact := h.exact serv.ipv6
      show i32 (c.cachedCount serv.ipv6 + 1) < 0 ∨ i32 (c.cachedCount serv.ipv6 + 1) = _
      rw [i32]
      push_cast
      omega

/-- The removal of a server that has failed too often leaves the counts right: a server that the
probationary iterator points at is counted down although it was not counted, so the count must not
be positive; a server that is removed from the active set behind the back of its iterator is not
counted down, so the count must be unset; and no count may leave its range. -/
def CountsRemoval (c : NrpdConfig) (serv : ServerRecord) : Prop :=
  if serv.probationary then
    ∀ pointed, c.probationaryIterator.deref c.probationaryServers = some pointed →
      (serv == pointed) = true →
        -2147483648 < c.cachedCount serv.ipv6 ∧ c.cachedCount serv.ipv6 ≤ 0
  else
    ∀ pointed, c.activeIterator.deref c.activeServers.elems = some pointed →
      if serv == pointed then -2147483648 < c.cachedCount serv.ipv6
      else c.cachedCount serv.ipv6 < 0 ∨ c.activeServers.contains serv = false

theorem cachedCount_addToCachedCount (c : NrpdConfig) (ipv6 ipv6' : Bool) (step : ℤ) :
    (c.addToCachedCount ipv6 step).cachedCount ipv6' =
      if ipv6' = ipv6 then i32 (c.cachedCount ipv6 + step) else c.cachedCount ipv6' :=
  cachedCount_setCachedCount _ _ _ _

theorem activeOf_addToCachedCount (c : NrpdConfig) (ipv6 ipv6' : Bool) (step : ℤ) :
    (c.addToCachedCount ipv6 step).activeOf ipv6' = c.activeOf ipv6' :=
  activeOf_setCachedCount _ _ _ _

/-- A count that is not positive is unset after a step down. -/
theorem CountsTrue.countDown (h : c.CountsTrue) {ipv6 : Bool}
    (hlow : -2147483648 < c.cachedCount ipv6) (hhigh : c.cachedCount ipv6 ≤ 0) :
    (c.addToCachedCount ipv6 (-1)).CountsTrue := by
  have hdown : i32 (c.cachedCount ipv6 + -1) = c.cachedCount ipv6 + -1 :=
    i32_of_lt (by omega) (by omega)
  refine h.of_family ipv6 (fun v hv => ?_) ?_ (.inl ?_)
  · rw [cachedCount_addToCachedCount, if_neg hv, activeOf_addToCachedCount]
    exact ⟨rfl, rfl⟩
  · rw [cachedCount_addToCachedCount, if_pos rfl]
    exact i32_mem _
  · rw [cachedCount_addToCachedCount, if_pos rfl, hdown]
    omega

theorem length_activeOf_eraseAtActiveIterator {pointed : ServerRecord}
    (h : c.activeIterator.deref c.activeServers.elems = some pointed) (ipv6 : Bool) :
    (c.eraseAtActiveIterator.activeOf ipv6).length + (if pointed.ipv6 == ipv6 then 1 else 0) =
      (c.activeOf ipv6).length := by
  rw [length_activeOf, length_activeOf, eraseAtActiveIterator]
  cases hit : c.activeIterator with
  | index i =>
    rw [hit] at h
    exact OrderedSet.countP_eraseIdx h _
  | atEnd => rw [hit] at h; cases h
  | beforeBegin => rw [hit] at h; cases h
  | dangling => rw [hit] at h; cases h

/-- The element of the active iterator is removed and counted down. -/
theorem CountsTrue.eraseAtActiveIterator (h : c.CountsTrue) {pointed : ServerRecord}
    (hderef : c.activeIterator.deref c.activeServers.elems = some pointed)
    (hlow : -2147483648 < c.cachedCount pointed.ipv6) :
    (c.addToCachedCount pointed.ipv6 (-1)).eraseAtActiveIterator.CountsTrue := by
  have hrange := h.range pointed.ipv6
  have hdown : i32 (c.cachedCount pointed.ipv6 + -1) = c.cachedCount pointed.ipv6 + -1 :=
    i32_of_lt (by omega) (by omega)
  have hcached (v : Bool) :
      (c.addToCachedCount pointed.ipv6 (-1)).eraseAtActiveIterator.cachedCount v =
        (c.addToCachedCount pointed.ipv6 (-1)).cachedCount v := rfl
  have hiterator : (c.addToCachedCount pointed.ipv6 (-1)).activeIterator = c.activeIterator := by
    rw [addToCachedCount, setCachedCount]
    split <;> rfl
  have hderef' : (c.addToCachedCount pointed.ipv6 (-1)).activeIterator.deref
      (c.addToCachedCount pointed.ipv6 (-1)).activeServers.elems = some pointed := by
    rw [hiterator, addToCachedCount, activeServers_setCachedCount]
    exact hderef
  have hlen (v : Bool) := length_activeOf_eraseAtActiveIterator hderef' v
  simp only [activeOf_addToCachedCount] at hlen
  refine h.of_family pointed.ipv6 (fun v hv => ⟨?_, ?_⟩) ?_ ?_
  · rw [hcached, cachedCount_addToCachedCount, if_neg hv]
  · have := hlen v
    rwa [if_neg (by simpa using Ne.symm hv), Nat.add_zero] at this
  · rw [hcached, cachedCount_addToCachedCount, if_pos rfl]
    exact i32_mem _
  · have := hlen pointed.ipv6
    rw [if_pos (by simp)] at this
    rw [hcached, cachedCount_addToCachedCount, if_pos rfl, hdown]
    have := h.exact pointed.ipv6
    omega

/-- A server is erased from the active set, and the count is unset or the server was not there. -/
theorem CountsTrue.eraseActive (h : c.CountsTrue)
    (hunset : c.cachedCount serv.ipv6 < 0 ∨ c.activeServers.contains serv = false) :
    (c.eraseActive serv).CountsTrue := by
  rcases hunset with hunset | hgone
  · refine h.of_family serv.ipv6 (fun v hv => ⟨rfl, ?_⟩) (h.range serv.ipv6) (.inl hunset)
    rw [length_activeOf, length_activeOf]
    refine OrderedSet.countP_erase_of_disjoint fun a ha => ?_
    rw [ServerRecord.ipv6, ServerRecord.equiv_lt_iff.1 ha]
    simpa using Ne.symm hv
  · refine h.of_same ⟨fun _ => rfl, fun v => ?_⟩
    have hsame : (c.eraseActive serv).activeServers = c.activeServers :=
      OrderedSet.erase_of_not_contains hgone
    rw [activeOf, hsame, activeOf]

theorem CountsTrue.removeFailed (h : c.CountsTrue) (hcounts : c.CountsRemoval serv)
    (hrun : c.removeFailed serv = some c') : c'.CountsTrue := by
  rw [CountsRemoval] at hcounts
  rw [NrpdConfig.removeFailed] at hrun
  split at hrun
  all_goals
    rename_i hprob
    simp only [hprob, if_true, if_false, Bool.false_eq_true, Option.bind_eq_bind,
      Option.bind_eq_some_iff] at hcounts hrun
    obtain ⟨pointed, hderef, hrun⟩ := hrun
    have hcounts := hcounts pointed hderef
    split at hrun
  · rename_i heq
    obtain ⟨hlow, hhigh⟩ := hcounts heq
    obtain rfl := Option.some.inj hrun
    exact (h.countDown hlow hhigh).of_same ⟨fun _ => rfl, fun _ => rfl⟩
  · obtain rfl := Option.some.inj hrun
    exact h.of_same ⟨fun _ => rfl, fun _ => rfl⟩
  · rename_i heq
    obtain rfl := Option.some.inj hrun
    rw [if_pos heq] at hcounts
    have hfamily : serv.ipv6 = pointed.ipv6 := by
      rw [ServerRecord.ipv6, (ServerRecord.beq_iff.1 heq).1]
    rw [hfamily] at hcounts ⊢
    exact h.eraseAtActiveIterator hderef hcounts
  · rename_i heq
    obtain rfl := Option.some.inj hrun
    rw [if_neg heq] at hcounts
    exact h.eraseActive hcounts

/-! ### Calls on a record -/

theorem deref_probationary_updateServer {f : ServerRecord → ServerRecord}
    {hf : ∀ r, (f r).host = r.host} {pointed : ServerRecord}
    (h : (c.updateServer ref f hf).probationaryIterator.deref
      (c.updateServer ref f hf).probationaryServers = some pointed) :
    ∃ p, c.probationaryIterator.deref c.probationaryServers = some p ∧
      (pointed = p ∨ pointed = f p) := by
  cases ref with
  | configured i => exact ⟨pointed, h, .inl rfl⟩
  | active i => exact ⟨pointed, h, .inl rfl⟩
  | probationary i => exact ListIter.deref_modify h

theorem deref_active_updateServer {f : ServerRecord → ServerRecord}
    {hf : ∀ r, (f r).host = r.host} {pointed : ServerRecord}
    (h : (c.updateServer ref f hf).activeIterator.deref
      (c.updateServer ref f hf).activeServers.elems = some pointed) :
    ∃ p, c.activeIterator.deref c.activeServers.elems = some p ∧
      (pointed = p ∨ pointed = f p) := by
  cases ref with
  | configured i => exact ⟨pointed, h, .inl rfl⟩
  | active i => exact ListIter.deref_modify h
  | probationary i => exact ⟨pointed, h, .inl rfl⟩

theorem contains_updateServer {f : ServerRecord → ServerRecord} (hf : ∀ r, (f r).host = r.host)
    (serv : ServerRecord) :
    (c.updateServer ref f hf).activeServers.contains (f serv) =
      c.activeServers.contains serv := by
  have hserv : c.activeServers.contains (f serv) = c.activeServers.contains serv := by
    refine OrderedSet.contains_congr fun a => ?_
    rw [Bool.eq_iff_iff, ServerRecord.equiv_lt_iff, ServerRecord.equiv_lt_iff, hf]
  rw [← hserv]
  cases ref with
  | configured i => rfl
  | active i => exact OrderedSet.contains_modify (ServerRecord.lt_update hf) _
  | probationary i => rfl

/-- Changes of records that keep their addresses, ports and probationary flags do not decide how a
server is removed. -/
theorem CountsRemoval.updateServer {f : ServerRecord → ServerRecord}
    (hcounts : c.CountsRemoval serv) (ref : ServerRef) (hf : ∀ r, (f r).host = r.host)
    (hport : ∀ r, (f r).port = r.port) (hprob : (f serv).probationary = serv.probationary) :
    (c.updateServer ref f hf).CountsRemoval (f serv) := by
  have hsame := sameCounts_updateServer c ref hf
  have hbeq {p pointed : ServerRecord} (h : pointed = p ∨ pointed = f p) :
      (f serv == pointed) = (serv == p) := by
    rw [Bool.eq_iff_iff, ServerRecord.beq_iff, ServerRecord.beq_iff]
    rcases h with rfl | rfl <;> simp only [hf, hport]
  rw [CountsRemoval] at *
  rw [hprob, ServerRecord.ipv6, hf, hsame.cached, contains_updateServer hf]
  split
  · rename_i htrue
    rw [if_pos htrue] at hcounts
    intro pointed hderef heq
    obtain ⟨p, hp, hor⟩ := deref_probationary_updateServer hderef
    exact hcounts p hp (hbeq hor ▸ heq)
  · rename_i hfalse
    rw [if_neg hfalse] at hcounts
    intro pointed hderef
    obtain ⟨p, hp, hor⟩ := deref_active_updateServer hderef
    rw [hbeq hor]
    exact hcounts p hp

theorem CountsTrue.incrementServerFailCount (h : c.CountsTrue)
    (hcounts : ∀ serv, c.server? ref = some serv → tooManyFailures (failed 0 serv) = true →
      c.CountsRemoval serv) {s' : NrpdConfig × SteadyClock}
    (hrun : c.incrementServerFailCount ref clock = some s') : s'.1.CountsTrue := by
  simp only [NrpdConfig.incrementServerFailCount, Option.bind_eq_bind,
    Option.bind_eq_some_iff] at hrun
  obtain ⟨serv, hserv, hrun⟩ := hrun
  have hupdated := h.of_same (sameCounts_updateServer c ref (host_failed clock.now))
  split at hrun
  · rename_i hmany
    obtain ⟨removed, hremoved, hrun⟩ := Option.bind_eq_some_iff.1 hrun
    obtain rfl := Option.some.inj hrun
    have hremoval := (hcounts serv hserv hmany).updateServer ref (host_failed clock.now)
      (fun _ => rfl) rfl
    refine (hupdated.withBannedServers _).removeFailed ?_ hremoved
    exact hremoval
  · obtain rfl := Option.some.inj hrun
    exact hupdated

theorem CountsTrue.markServerSuccessful (h : c.CountsTrue)
    (hset : ∀ serv, c.server? ref = some serv → serv.probationary = true →
      c.activeServers.contains serv = false → c.cachedCount serv.ipv6 ≠ -1)
    {s' : NrpdConfig × SteadyClock} (hrun : c.markServerSuccessful ref clock = some s') :
    s'.1.CountsTrue := by
  simp only [NrpdConfig.markServerSuccessful, Option.bind_eq_bind, Option.bind_eq_some_iff] at hrun
  obtain ⟨serv, hserv, hrun⟩ := hrun
  have hsame := sameCounts_updateServer c ref (host_succeeded clock.now)
  have hupdated := h.of_same hsame
  split at hrun
  · rename_i hprob
    obtain ⟨pointed, -, hrun⟩ := Option.bind_eq_some_iff.1 hrun
    have hcount : (c.updateServer ref (succeeded clock.now) (host_succeeded clock.now)
        ).activeServers.contains (succeeded clock.now serv) = false →
        (c.updateServer ref (succeeded clock.now) (host_succeeded clock.now)).cachedCount
          serv.ipv6 ≠ -1 := by
      intro hnew
      rw [contains_updateServer] at hnew
      rw [hsame.cached]
      exact hset serv hserv hprob hnew
    have hactivated := hupdated.activate hcount
    split at hrun
    · obtain rfl := Option.some.inj hrun
      exact hactivated.of_same ⟨fun _ => rfl, fun _ => rfl⟩
    · obtain rfl := Option.some.inj hrun
      exact hactivated.of_same ⟨fun _ => rfl, fun _ => rfl⟩
  · obtain rfl := Option.some.inj hrun
    exact hupdated

end NrpdConfig

/-! ### Runs -/

/-- The condition on a call and the configuration before it: a promotion does not find the count
of its family unset at `-1`, a removal leaves the counts right, and a count that is computed fits
its type. -/
def ConfigCall.KeepsCounts : NrpdConfig × SteadyClock → ConfigCall → Prop
  | (c, _), activeServerCount type | (c, _), getServerList type _ =>
    isPeersType type = true → c.cachedCount (isIp6Peers type) < 0 →
      (c.activeOf (isIp6Peers type)).length < 2147483648
  | (c, _), markServerSuccessful ref =>
    ∀ serv, c.server? ref = some serv → serv.probationary = true →
      c.activeServers.contains serv = false → c.cachedCount serv.ipv6 ≠ -1
  | (c, _), incrementServerFailCount ref =>
    ∀ serv, c.server? ref = some serv →
      NrpdConfig.tooManyFailures (NrpdConfig.failed 0 serv) = true →
      c.CountsRemoval serv
  | _, addServersFromMessage _ _ | _, getNextServer | _, cleanBannedServers => True

/-- **One call.** A call that meets the condition keeps the counts right. -/
theorem ConfigCall.countsTrue (s : NrpdConfig × SteadyClock) (call : ConfigCall)
    (s' : NrpdConfig × SteadyClock) (h : s.1.CountsTrue) (hkeeps : KeepsCounts s call)
    (hrun : run s call = some s') : s'.1.CountsTrue := by
  obtain ⟨c, clock⟩ := s
  cases call with
  | addServersFromMessage m msg =>
    obtain rfl := Option.some.inj hrun
    rw [NrpdConfig.addServersFromMessage]
    split
    · exact h
    · exact h.of_same (NrpdConfig.sameCounts_addServers _ _ _)
  | getNextServer =>
    obtain ⟨next, hnext, rfl⟩ := Option.map_eq_some_iff.1 hrun
    exact h.of_same (NrpdConfig.sameCounts_getNextServer hnext)
  | activeServerCount type =>
    obtain rfl := Option.some.inj hrun
    exact (h.activeServerCount hkeeps).1
  | getServerList type count =>
    obtain rfl := Option.some.inj hrun
    exact h.getServerList hkeeps
  | markServerSuccessful ref => exact h.markServerSuccessful hkeeps hrun
  | incrementServerFailCount ref => exact h.incrementServerFailCount hkeeps hrun
  | cleanBannedServers =>
    obtain rfl := Option.some.inj hrun
    exact h.withBannedServers _

/-- The states of a new configuration. -/
def NrpdConfig.IsNew (s : NrpdConfig × SteadyClock) : Prop :=
  ∃ enableIp4Peers enableIp6Peers clock, s = NrpdConfig.new enableIp4Peers enableIp6Peers clock

/-- **The cached counts.** In every run from a new configuration whose calls all meet the
condition, every cached count is unset or the number of active servers of its family, and
`ActiveServerCount` returns that number. -/
theorem countsTrue_of_reachable {s : NrpdConfig × SteadyClock}
    (h : Reachable NrpdConfig.IsNew ConfigCall.run ConfigCall.KeepsCounts s) :
    (∀ ipv6, s.1.cachedCount ipv6 < 0 ∨ s.1.cachedCount ipv6 = (s.1.activeOf ipv6).length) ∧
      ∀ type, isPeersType type = true → (s.1.activeOf (isIp6Peers type)).length < 2147483648 →
        (s.1.activeServerCount type).1 = (s.1.activeOf (isIp6Peers type)).length := by
  have htrue : s.1.CountsTrue := by
    refine h.invariant ?_ ConfigCall.countsTrue
    rintro s ⟨enableIp4Peers, enableIp6Peers, clock, rfl⟩
    refine ⟨fun ipv6 => ?_, fun ipv6 => .inl ?_⟩ <;>
      cases ipv6 <;> simp [NrpdConfig.new, NrpdConfig.cachedCount]
  exact ⟨htrue.exact, fun type htype hlen => (htrue.activeServerCount fun _ _ => hlen).2 htype⟩

/-- A run in which the count is computed before the promotion. -/
theorem countsTrue_of_reachable_example :
    ∃ s, after ConfigCall.run [.addServersFromMessage twoPeers 0, .getNextServer, .getNextServer,
        .activeServerCount .ip4peers, .markServerSuccessful (.probationary 1)]
        (NrpdConfig.new true true ⟨fun _ => 0, 0⟩) = some s ∧
      (s.1.activeServerCount .ip4peers).1 = (s.1.activeOf false).length := by
  refine ⟨_, rfl, ?_⟩
  refine (countsTrue_of_reachable ?_).2 .ip4peers rfl (by decide)
  refine .call (.call (.call (.call (.call (.first ⟨true, true, ⟨fun _ => 0, 0⟩, rfl⟩)
    (a := .addServersFromMessage twoPeers 0) trivial rfl)
    (a := .getNextServer) trivial rfl) (a := .getNextServer) trivial rfl)
    (a := .activeServerCount .ip4peers) ?_ rfl)
      (a := .markServerSuccessful (.probationary 1)) ?_ rfl
  · exact fun _ _ => by decide
  · intro serv hserv _ _
    obtain rfl := Option.some.inj hserv
    decide

/-- Two servers are added and returned in turn. The promotion of the second one takes the count from
unset to `0`, and `ActiveServerCount` says that there are no active servers. -/
theorem activeServerCount_lies :
    ∃ s next s', Reachable NrpdConfig.IsNew ConfigCall.run (fun _ _ => True) s ∧
      s.1.getNextServer = some next ∧
      ConfigCall.run (next.2, s.2) (.markServerSuccessful next.1) = some s' ∧
      (s'.1.activeServerCount .ip4peers).1 = 0 ∧ (s'.1.activeOf false).length = 1 := by
  have hnew : Reachable NrpdConfig.IsNew ConfigCall.run (fun _ _ => True)
      (NrpdConfig.new true true ⟨fun _ => 0, 0⟩) := .first ⟨true, true, _, rfl⟩
  exact ⟨_, _, _, hnew.after [.addServersFromMessage twoPeers 0, .getNextServer] rfl,
    rfl, rfl, by decide, by decide⟩

end Nrpd
