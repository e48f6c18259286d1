import Nrpd.Config.NrpdConfig

/-!
# What the client's calls do to the records

The functions of the configuration that the client calls either change a record where it is, or move
it from one list to the other, or remove it, or append new records. A record is moved or removed
through the iterator of its list, when this iterator is at the record.

## Main definitions

* `ServerRecord.KeepsServer`: the changes of a record that the client makes.
* `NrpdConfig.refuses`: whether a record from a peers message is passed over.
* `NrpdConfig.PointsAt`: the iterator of the list of a reference is at its record.

## Main results

* `NrpdConfig.addServer_eq`, `NrpdConfig.getNextServer_eq_some`: new records, and the next server.
* `NrpdConfig.markServerSuccessful_probationary`,
  `NrpdConfig.incrementServerFailCount_probationary`, `NrpdConfig.incrementServerFailCount_active`:
  the moves and removals.
-/

namespace Nrpd

open SteadyClock

/-- A change of a record that keeps what identifies the server, and adds no message type to the ones
that the server supports. -/
structure ServerRecord.KeepsServer (f : ServerRecord → ServerRecord) : Prop where
  host : ∀ r, (f r).host = r.host
  port : ∀ r, (f r).port = r.port
  ip4Peers : ∀ r, (f r).ip4Peers = true → r.ip4Peers = true
  ip6Peers : ∀ r, (f r).ip6Peers = true → r.ip6Peers = true

namespace NrpdConfig

open ServerRecord

theorem keepsServer_failed (now : ℤ) : KeepsServer (failed now) :=
  ⟨fun _ => rfl, fun _ => rfl, fun _ h => h, fun _ h => h⟩

theorem keepsServer_succeeded (now : ℤ) : KeepsServer (succeeded now) :=
  ⟨fun _ => rfl, fun _ => rfl, fun _ h => h, fun _ h => h⟩

variable {c c' : NrpdConfig} {serv : ServerRecord} {clock : SteadyClock} {i : ℕ}

/-! ### New records -/

/-- The record that `AddServersFromMessage` makes of an entry. -/
def recordFor (c : NrpdConfig) (serv : ServerRecord) : ServerRecord :=
  { serv with retryTime := c.clientRequestIntervalSeconds }

/-- Whether an entry is passed over: its server is banned, or in the set of active servers. -/
def refuses (c : NrpdConfig) (serv : ServerRecord) (clock : SteadyClock) : Bool :=
  (c.bannedServers.isPresent (c.recordFor serv) clock).response ||
    c.activeServers.contains (c.recordFor serv)

/-- One entry: it is passed over, or its record is appended to the probationary list. -/
theorem addServer_eq (c : NrpdConfig) (serv : ServerRecord) (clock : SteadyClock) :
    c.addServer serv clock =
      (if c.refuses serv clock then c
        else { c with probationaryServers := c.probationaryServers ++ [c.recordFor serv] },
        (c.bannedServers.isPresent (c.recordFor serv) clock).clock) := by
  have hcache : (c.bannedServers.isPresent (c.recordFor serv) clock).cache = c.bannedServers := rfl
  rw [addServer, refuses, ← recordFor, hcache]
  by_cases hban : (c.bannedServers.isPresent (c.recordFor serv) clock).response = true
  · simp only [hban, if_true, Bool.true_or]
  · by_cases hactive : c.activeServers.contains (c.recordFor serv) = true
    · simp only [hban, hactive, if_true, Bool.or_true, Bool.false_eq_true, if_false]
    · simp only [hban, hactive, Bool.or_false, Bool.false_eq_true, if_false]

/-- The records of the entries of a message; another message than one of peers has none. -/
def entriesOf (m : Mem) (msg : ℕ) : List ServerRecord :=
  if hdrMsgType m msg ≠ NrpdMsgType.ip4peers.code ∧ hdrMsgType m msg ≠ NrpdMsgType.ip6peers.code
    then [] else peersOf m msg

theorem addServersFromMessage_snd (c : NrpdConfig) (m : Mem) (msg : ℕ) (clock : SteadyClock) :
    (c.addServersFromMessage m msg clock).2 = addServers (entriesOf m msg) c clock := by
  rw [addServersFromMessage, entriesOf]
  split <;> rfl

/-- The records of peers are new ones. -/
theorem exists_new_of_mem_entriesOf {m : Mem} {msg : ℕ} (h : serv ∈ entriesOf m msg) :
    ∃ ip port, serv = .new ip port := by
  rw [entriesOf] at h
  split at h
  · cases h
  · obtain ⟨i, -, rfl⟩ := List.mem_map.1 h
    by_cases hfamily : hdrMsgType m msg = NrpdMsgType.ip4peers.code
    · rw [if_pos hfamily]
      exact ⟨_, _, rfl⟩
    · rw [if_neg hfamily]
      exact ⟨_, _, rfl⟩

/-- **Invariant rule.** What every entry that is not passed over keeps is kept by all of them. -/
theorem addServers_invariant {P : NrpdConfig → Prop} (servs : List ServerRecord)
    (hadd : ∀ c clock, ∀ serv ∈ servs, P c → c.refuses serv clock = false →
      P { c with probationaryServers := c.probationaryServers ++ [c.recordFor serv] }) :
    ∀ {c : NrpdConfig} (clock : SteadyClock), P c → P (addServers servs c clock).1 := by
  induction servs with
  | nil => exact fun _ h => h
  | cons serv servs ih =>
    intro c clock h
    rw [addServers, addServer_eq]
    refine ih (fun c clock serv hserv => hadd c clock serv (List.mem_cons_of_mem _ hserv)) _ ?_
    by_cases hrefuses : c.refuses serv clock = true
    · rwa [if_pos hrefuses]
    · rw [if_neg hrefuses]
      exact hadd c clock serv List.mem_cons_self h (by simpa using hrefuses)

/-! ### The next server -/

theorem refOf_eq_some {ref : ServerRef} {f : ℕ → ServerRef} {it : ListIter}
    (h : refOf f it = some ref) : ∃ i, it = .index i ∧ ref = f i := by
  cases it with
  | index i => exact ⟨i, rfl, (Option.some.inj h).symm⟩
  | _ => cases h

/-- **The next server.** Both iterators are stepped; the server is the element of one of them, or
the first configured server when neither has an element. The flag tells which list was used, and
the list that was used before is used again only when the other one has no element. -/
theorem getNextServer_eq_some {ref : ServerRef} (h : c.getNextServer = some (ref, c')) :
    ∃ ia ip flag, c.activeIterator.advance c.activeServers.elems.length = some ia ∧
      c.probationaryIterator.advance c.probationaryServers.length = some ip ∧
      c' = { c with
        activeIterator := ia, probationaryIterator := ip, prevReturnedProbationary := flag } ∧
      (refOf .active ia = some ref ∧ flag = false ∧
          (c.prevReturnedProbationary = false → refOf .probationary ip = none) ∨
        refOf .probationary ip = some ref ∧ flag = true ∧
          (c.prevReturnedProbationary = true → refOf .active ia = none) ∨
        ref = .configured 0 ∧ c.configuredServers ≠ [] ∧ refOf .active ia = none ∧
          refOf .probationary ip = none ∧ flag = c.prevReturnedProbationary) := by
  simp only [getNextServer, Option.bind_eq_bind, Option.bind_eq_some_iff] at h
  obtain ⟨ia, hia, ip, hip, h⟩ := h
  refine ⟨ia, ip, c'.prevReturnedProbationary, hia, hip, ?_⟩
  have hfront {ref' : ServerRef} (hfront : frontConfigured { c with
      activeIterator := ia, probationaryIterator := ip } = some ref') :
      ref' = .configured 0 ∧ c.configuredServers ≠ [] := by
    rw [frontConfigured] at hfront
    split at hfront
    · cases hfront
    · rename_i hsome
      exact ⟨(Option.some.inj hfront).symm, by simpa using hsome⟩
  rw [chooseServer] at h
  by_cases hflag : c.prevReturnedProbationary = true <;>
    rcases ha : refOf ServerRef.active ia with _ | refa <;>
    rcases hp : refOf ServerRef.probationary ip with _ | refp <;>
    simp only [ha, hp, hflag, if_true, Bool.false_eq_true, if_false, Option.some.injEq,
      Prod.mk.injEq, Option.map_eq_some_iff] at h <;>
    grind

/-! ### Changes in place -/

/-- The iterator of the list of a reference is at its record. -/
def PointsAt (c : NrpdConfig) : ServerRef → Prop
  | .configured _ => False
  | .active i => c.activeIterator = .index i
  | .probationary i => c.probationaryIterator = .index i

/-- A record is changed at its reference, and no other record is. -/
theorem server?_updateServer (c : NrpdConfig) (ref : ServerRef) {f : ServerRecord → ServerRecord}
    (hf : ∀ r, (f r).host = r.host) (ref' : ServerRef) :
    (c.updateServer ref f hf).server? ref' =
      if ref' = ref then (c.server? ref').map f else c.server? ref' := by
  cases ref <;> cases ref' <;>
    simp [updateServer, server?, OrderedSet.modify, List.getElem?_modify, eq_comm] <;>
      split <;> simp_all

/-- A record is in one of the lists. -/
def HasRecord (c : NrpdConfig) (r : ServerRecord) : Prop := ∃ ref, c.server? ref = some r

theorem hasRecord_iff {r : ServerRecord} : c.HasRecord r ↔
    r ∈ c.configuredServers ∨ r ∈ c.activeServers.elems ∨ r ∈ c.probationaryServers := by
  simp only [List.mem_iff_getElem?]
  constructor
  · rintro ⟨ref, href⟩
    cases ref with
    | configured i => exact .inl ⟨i, href⟩
    | active i => exact .inr (.inl ⟨i, href⟩)
    | probationary i => exact .inr (.inr ⟨i, href⟩)
  · rintro (⟨i, hi⟩ | ⟨i, hi⟩ | ⟨i, hi⟩)
    · exact ⟨.configured i, hi⟩
    · exact ⟨.active i, hi⟩
    · exact ⟨.probationary i, hi⟩

theorem updateServer_iterators (c : NrpdConfig) (ref : ServerRef) {f : ServerRecord → ServerRecord}
    (hf : ∀ r, (f r).host = r.host) :
    (c.updateServer ref f hf).activeIterator = c.activeIterator ∧
      (c.updateServer ref f hf).probationaryIterator = c.probationaryIterator := by
  cases ref <;> exact ⟨rfl, rfl⟩

theorem length_updateServer (c : NrpdConfig) (ref : ServerRef) {f : ServerRecord → ServerRecord}
    (hf : ∀ r, (f r).host = r.host) :
    (c.updateServer ref f hf).activeServers.elems.length = c.activeServers.elems.length ∧
      (c.updateServer ref f hf).probationaryServers.length = c.probationaryServers.length := by
  cases ref with
  | configured i => exact ⟨rfl, rfl⟩
  | active i => exact ⟨List.length_modify _ _ _, rfl⟩
  | probationary i => exact ⟨rfl, List.length_modify _ _ _⟩

theorem mem_active_updateServer {ref : ServerRef} {f : ServerRecord → ServerRecord}
    (hf : ∀ r, (f r).host = r.host) {y : ServerRecord}
    (h : y ∈ (c.updateServer ref f hf).activeServers.elems) :
    y ∈ c.activeServers.elems ∨ ∃ x ∈ c.activeServers.elems, c.server? ref = some x ∧ y = f x := by
  cases ref with
  | configured i => exact .inl h
  | active i =>
    rcases List.mem_of_mem_modify h with h | ⟨x, hx, rfl⟩
    · exact .inl h
    · exact .inr ⟨x, List.mem_of_getElem? hx, hx, rfl⟩
  | probationary i => exact .inl h

theorem mem_probationary_updateServer {ref : ServerRef} {f : ServerRecord → ServerRecord}
    (hf : ∀ r, (f r).host = r.host) {y : ServerRecord}
    (h : y ∈ (c.updateServer ref f hf).probationaryServers) :
    y ∈ c.probationaryServers ∨ ∃ x ∈ c.probationaryServers, c.server? ref = some x ∧ y = f x := by
  cases ref with
  | configured i => exact .inl h
  | active i => exact .inl h
  | probationary i =>
    rcases List.mem_of_mem_modify h with h | ⟨x, hx, rfl⟩
    · exact .inl h
    · exact .inr ⟨x, List.mem_of_getElem? hx, hx, rfl⟩

theorem addToCachedCount_eq (c : NrpdConfig) (ipv6 : Bool) (step : ℤ) :
    ∃ n₄ n₆, c.addToCachedCount ipv6 step =
      { c with countIp4Servers := n₄, countIp6Servers := n₆ } := by
  cases ipv6
  · exact ⟨_, c.countIp6Servers, rfl⟩
  · exact ⟨c.countIp4Servers, _, rfl⟩

/-! ### Successes -/

/-- The record of an active server is changed where it is. -/
theorem markServerSuccessful_active {ref : ServerRef} (clock : SteadyClock)
    (hserv : c.server? ref = some serv) (hprob : serv.probationary = false) :
    c.markServerSuccessful ref clock = some
      (c.updateServer ref (succeeded clock.now) (host_succeeded clock.now), clock.tick) := by
  simp only [markServerSuccessful, hserv, hprob, Option.bind_eq_bind, Option.bind_some,
    Bool.false_eq_true, if_false]

/-- The active iterator after an insertion. -/
def activatedIterator (c : NrpdConfig) (serv : ServerRecord) : ListIter :=
  if c.activeServers.contains serv then c.activeIterator
  else c.activeIterator.afterInsert (c.activeServers.lowerBound serv)

theorem valid_activatedIterator (h : c.activeIterator.Valid c.activeServers.elems.length) :
    (c.activatedIterator serv).Valid (c.activeServers.emplace serv).1.elems.length := by
  rw [activatedIterator]
  by_cases hold : c.activeServers.contains serv = true
  · rwa [if_pos hold, OrderedSet.emplace_of_contains hold]
  · rw [if_neg hold, OrderedSet.emplace_of_not_contains (by simpa using hold),
      (OrderedSet.perm_insertNew _).length_eq]
    exact h.afterInsert _

theorem activate_eq (c : NrpdConfig) (serv : ServerRecord) :
    ∃ n₄ n₆, c.activate serv = { c with
      activeServers := (c.activeServers.emplace serv).1
      activeIterator := c.activatedIterator serv
      countIp4Servers := n₄
      countIp6Servers := n₆ } := by
  rw [activate, activatedIterator]
  by_cases h : c.activeServers.contains serv = true
  · rw [OrderedSet.emplace_of_contains h, if_pos h]
    exact ⟨_, _, rfl⟩
  · rw [OrderedSet.emplace_of_not_contains (by simpa using h), if_neg h]
    exact addToCachedCount_eq _ _ _

/-- **Promotion.** A probationary server that the iterator is at is offered to the set of active
servers, and its record is removed from the probationary list. -/
theorem markServerSuccessful_probationary (clock : SteadyClock)
    (hit : c.probationaryIterator = .index i) (hserv : c.probationaryServers[i]? = some serv)
    (hprob : serv.probationary = true) :
    ∃ n₄ n₆, c.markServerSuccessful (.probationary i) clock = some ({ c with
      activeServers := (c.activeServers.emplace (succeeded clock.now serv)).1
      activeIterator := c.activatedIterator (succeeded clock.now serv)
      probationaryServers := c.probationaryServers.eraseIdx i
      probationaryIterator := (ListIter.index i).prev
      countIp4Servers := n₄
      countIp6Servers := n₆ }, clock.tick) := by
  obtain ⟨n₄, n₆, hactivate⟩ := activate_eq (c.updateServer (.probationary i) (succeeded clock.now)
    (host_succeeded clock.now)) (succeeded clock.now serv)
  have hderef : (c.probationaryServers.modify i (succeeded clock.now))[i]? =
      some (succeeded clock.now serv) := by
    rw [List.getElem?_modify, hserv]
    simp
  refine ⟨n₄, n₆, ?_⟩
  simp only [markServerSuccessful, server?, hserv, Option.bind_eq_bind, Option.bind_some, hprob,
    if_true, hactivate]
  simp only [updateServer, hit, ListIter.deref, hderef, Option.bind_some, BEq.rfl, if_true,
    eraseAtProbationaryIterator, ListIter.eraseFrom, List.eraseIdx_modify_of_eq, activatedIterator]

/-! ### Failures -/

/-- Whether a server is removed by its next failure. -/
def failsOut (serv : ServerRecord) : Bool := tooManyFailures (failed 0 serv)

theorem tooManyFailures_failed (now : ℤ) (serv : ServerRecord) :
    tooManyFailures (failed now serv) = failsOut serv := rfl

theorem failsOut_iff : failsOut serv = true ↔ 3 ≤ serv.failureCount := by
  have hcount : failsOut serv = decide (serv.failureCount + 1 + 1 ≥ 5) := rfl
  rw [hcount, decide_eq_true_iff]
  omega

/-- A record with few failures is changed where it is. -/
theorem incrementServerFailCount_of_few {ref : ServerRef} (clock : SteadyClock)
    (hserv : c.server? ref = some serv) (hfew : failsOut serv = false) :
    c.incrementServerFailCount ref clock = some
      (c.updateServer ref (failed clock.now) (host_failed clock.now), clock.tick) := by
  simp only [incrementServerFailCount, hserv, tooManyFailures_failed, hfew, Option.bind_eq_bind,
    Option.bind_some, Bool.false_eq_true, if_false]

/-- The cache of bans after a server was banned, and the clock. -/
def banned (c : NrpdConfig) (serv : ServerRecord) (clock : SteadyClock) :
    MruCache ServerRecord × SteadyClock :=
  c.bannedServers.add (failed clock.now serv) clock.tick

/-- **Removal from the probationary list.** A probationary server that the iterator is at is banned,
and its record is removed. -/
theorem incrementServerFailCount_probationary (clock : SteadyClock)
    (hit : c.probationaryIterator = .index i) (hserv : c.probationaryServers[i]? = some serv)
    (hprob : serv.probationary = true) (hmany : failsOut serv = true) :
    ∃ n₄ n₆, c.incrementServerFailCount (.probationary i) clock = some ({ c with
      bannedServers := (c.banned serv clock).1
      probationaryServers := c.probationaryServers.eraseIdx i
      probationaryIterator := (ListIter.index i).prev
      countIp4Servers := n₄
      countIp6Servers := n₆ }, (c.banned serv clock).2) := by
  have hprob' : (failed clock.now serv).probationary = true := hprob
  have hderef : c.probationaryIterator.deref (c.probationaryServers.modify i (failed clock.now)) =
      some (failed clock.now serv) := by
    rw [hit, ListIter.deref, List.getElem?_modify, hserv]
    simp
  obtain ⟨n₄, n₆, hcount⟩ := addToCachedCount_eq { c with
    bannedServers := (c.banned serv clock).1
    probationaryServers := c.probationaryServers.modify i (failed clock.now) }
    (failed clock.now serv).ipv6 (-1)
  refine ⟨n₄, n₆, ?_⟩
  simp only [incrementServerFailCount, server?, hserv, Option.bind_eq_bind, Option.bind_some,
    tooManyFailures_failed, hmany, if_true, removeFailed, hprob', updateServer, hderef, BEq.rfl]
  rw [← banned, hcount]
  simp only [eraseAtProbationaryIterator, hit, ListIter.eraseFrom, List.eraseIdx_modify_of_eq]

/-- **Removal from the set of active servers.** An active server that the iterator is at is banned,
and its record is removed. -/
theorem incrementServerFailCount_active (clock : SteadyClock)
    (hit : c.activeIterator = .index i) (hserv : c.activeServers.elems[i]? = some serv)
    (hprob : serv.probationary = false) (hmany : failsOut serv = true) :
    ∃ n₄ n₆, c.incrementServerFailCount (.active i) clock = some ({ c with
      bannedServers := (c.banned serv clock).1
      activeServers := c.activeServers.eraseIdx i
      activeIterator := (ListIter.index i).prev
      countIp4Servers := n₄
      countIp6Servers := n₆ }, (c.banned serv clock).2) := by
  have hprob' : (failed clock.now serv).probationary = false := hprob
  set updated := c.activeServers.modify i (failed clock.now)
    (ServerRecord.lt_update (host_failed clock.now)) with hupdated
  have hderef : c.activeIterator.deref updated.elems = some (failed clock.now serv) := by
    rw [hit, ListIter.deref, hupdated, OrderedSet.modify, List.getElem?_modify, hserv]
    simp
  have herase : updated.eraseIdx i = c.activeServers.eraseIdx i := by
    simp only [hupdated, OrderedSet.eraseIdx, OrderedSet.modify, List.eraseIdx_modify_of_eq]
  obtain ⟨n₄, n₆, hcount⟩ := addToCachedCount_eq { c with
    bannedServers := (c.banned serv clock).1
    activeServers := updated } (failed clock.now serv).ipv6 (-1)
  refine ⟨n₄, n₆, ?_⟩
  simp only [incrementServerFailCount, server?, hserv, Option.bind_eq_bind, Option.bind_some,
    tooManyFailures_failed, hmany, if_true, removeFailed, hprob', Bool.false_eq_true, if_false,
    updateServer, ← hupdated, hderef, BEq.rfl]
  rw [← banned, hcount]
  simp only [eraseAtActiveIterator, hit, OrderedSet.eraseAt, herase]

end NrpdConfig

end Nrpd
