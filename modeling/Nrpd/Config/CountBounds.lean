import Nrpd.Config.ActiveCounts
import Nrpd.Config.RecordMoves

/-!
# The cached counts never exceed the truth

A cached count can be too small: a promotion takes it from unset to `0`, and a removal from the
probationary list steps it down. It is never too large, as long as it does not leave the range of
its type: it goes up only for a server that is new in the set of active servers, and every server
that leaves the set takes it down, because the client removes a server through the iterator that
points at it. So a list of as many servers as are counted has no entry without a server.

## Main definitions

* `NrpdConfig.CountsBelow`: no cached count is larger than the number of servers of its family.
* `NrpdConfig.Recounted`: configurations that differ in the cached counts only.

## Main results

* `NrpdConfig.CountsBelow.incrementServerFailCount`, `NrpdConfig.CountsBelow.markServerSuccessful`:
  the calls of the client that step the counts.
* `NrpdConfig.CountsBelow.knownCount_le`: what the server counts.
-/

namespace Nrpd

open SteadyClock FixedWidth

theorem i32_le {x : ℤ} (h : -2147483648 ≤ x) : i32 x ≤ x := by
  rw [i32]
  omega

namespace NrpdConfig

/-- Every cached count is in the range of its type, and no larger than the number of active servers
of its family. -/
structure CountsBelow (c : NrpdConfig) : Prop where
  range : ∀ ipv6, -2147483648 ≤ c.cachedCount ipv6 ∧ c.cachedCount ipv6 < 2147483648
  below : ∀ ipv6, c.cachedCount ipv6 ≤ (c.activeOf ipv6).length

variable {c c' c'' : NrpdConfig} {serv : ServerRecord} {ref : ServerRef} {clock : SteadyClock}

theorem CountsBelow.of_same (h : c.CountsBelow) (hsame : SameCounts c c') : c'.CountsBelow where
  range ipv6 := by rw [hsame.cached]; exact h.range ipv6
  below ipv6 := by rw [hsame.cached, hsame.active]; exact h.below ipv6

theorem CountsBelow.withBannedServers (h : c.CountsBelow) (banned : MruCache ServerRecord) :
    { c with bannedServers := banned }.CountsBelow :=
  h.of_same ⟨fun _ => rfl, fun _ => rfl⟩

/-- The counts after a change that concerns one family. -/
theorem CountsBelow.of_family (h : c.CountsBelow) (ipv6 : Bool)
    (hother : ∀ v, v ≠ ipv6 → c'.cachedCount v = c.cachedCount v ∧
      (c'.activeOf v).length = (c.activeOf v).length)
    (hrange : -2147483648 ≤ c'.cachedCount ipv6 ∧ c'.cachedCount ipv6 < 2147483648)
    (hbelow : c'.cachedCount ipv6 ≤ (c'.activeOf ipv6).length) : c'.CountsBelow := by
  refine ⟨fun v => ?_, fun v => ?_⟩
  · by_cases hv : v = ipv6
    · rw [hv]
      exact hrange
    · rw [(hother v hv).1]
      exact h.range v
  · by_cases hv : v = ipv6
    · rw [hv]
      exact hbelow
    · rw [(hother v hv).1, (hother v hv).2]
      exact h.below v

/-! ### What the server reads -/

/-- Two configurations that differ in the cached counts only. -/
def Recounted (c c' : NrpdConfig) : Prop :=
  ∃ n₄ n₆, c' = { c with countIp4Servers := n₄, countIp6Servers := n₆ }

theorem Recounted.refl (c : NrpdConfig) : c.Recounted c := ⟨_, _, rfl⟩

theorem Recounted.trans (h : c.Recounted c') (h' : c'.Recounted c'') : c.Recounted c'' := by
  obtain ⟨_, _, rfl⟩ := h
  obtain ⟨n₄, n₆, rfl⟩ := h'
  exact ⟨n₄, n₆, rfl⟩

theorem recounted_setCachedCount (c : NrpdConfig) (ipv6 : Bool) (n : ℤ) :
    c.Recounted (c.setCachedCount ipv6 n) := by
  cases ipv6
  · exact ⟨n, c.countIp6Servers, rfl⟩
  · exact ⟨c.countIp4Servers, n, rfl⟩

theorem recounted_activeServerCount (c : NrpdConfig) (type : NrpdMsgType) :
    c.Recounted (c.activeServerCount type).2 := by
  rcases c.activeServerCount_snd type with h | h
  · rw [h]
    exact .refl c
  · rw [h]
    exact recounted_setCachedCount c _ _

theorem recounted_getServerList (c : NrpdConfig) (type : NrpdMsgType) (count : ℤ) :
    c.Recounted (c.getServerList type count).2 := by
  simp only [getServerList]
  split_ifs
  · exact .refl c
  · exact recounted_activeServerCount c type
  · exact recounted_activeServerCount c type

theorem CountsBelow.activeServerCount (h : c.CountsBelow) (type : NrpdMsgType) :
    (c.activeServerCount type).2.CountsBelow := by
  simp only [NrpdConfig.activeServerCount]
  split_ifs
  · exact h
  · exact h
  · refine h.of_family (isIp6Peers type) (fun v hv => ?_) ?_ ?_
    · rw [cachedCount_setCachedCount, if_neg hv, activeOf_setCachedCount]
      exact ⟨rfl, rfl⟩
    · rw [cachedCount_setCachedCount, if_pos rfl]
      exact i32_mem _
    · rw [cachedCount_setCachedCount, if_pos rfl, activeOf_setCachedCount]
      exact i32_le (by omega)

theorem CountsBelow.getServerList (h : c.CountsBelow) (type : NrpdMsgType) (count : ℤ) :
    (c.getServerList type count).2.CountsBelow := by
  simp only [NrpdConfig.getServerList]
  split_ifs
  · exact h
  · exact h.activeServerCount type
  · exact h.activeServerCount type

/-- **What is counted.** The server counts no more servers of a family than are active. -/
theorem CountsBelow.knownCount_le (h : c.CountsBelow) (ipv6 : Bool) :
    c.knownCount ipv6 ≤ (c.activeOf ipv6).length := by
  rw [knownCount]
  split_ifs
  · exact h.below ipv6
  · exact i32_le (by omega)

/-! ### What the client steps -/

/-- A server that is new in the set is counted, and no other one. -/
theorem CountsBelow.activate (h : c.CountsBelow) (serv : ServerRecord) :
    (c.activate serv).CountsBelow := by
  rw [NrpdConfig.activate]
  cases hnew : c.activeServers.contains serv with
  | true =>
    rw [OrderedSet.emplace_of_contains hnew]
    exact h
  | false =>
    have hrange := h.range serv.ipv6
    rw [OrderedSet.emplace_of_not_contains hnew]
    simp only [if_true, addToCachedCount]
    refine h.of_family serv.ipv6 (fun v hv => ⟨?_, ?_⟩) ?_ ?_
    · rw [cachedCount_setCachedCount, if_neg hv]
      rfl
    · rw [length_activeOf, length_activeOf, activeServers_setCachedCount,
        OrderedSet.countP_insertNew, if_neg (by simpa using Ne.symm hv), Nat.add_zero]
    · rw [cachedCount_setCachedCount, if_pos rfl]
      exact i32_mem _
    · rw [cachedCount_setCachedCount, if_pos rfl, length_activeOf, activeServers_setCachedCount,
        OrderedSet.countP_insertNew, if_pos (by simp), ← length_activeOf]
      have hstep : i32 (c.cachedCount serv.ipv6 + 1) ≤ c.cachedCount serv.ipv6 + 1 :=
        i32_le (by omega)
      have hbelow := h.below serv.ipv6
      exact hstep.trans (by push_cast; omega)

/-- A count that is stepped down stays below the truth. -/
theorem CountsBelow.countDown (h : c.CountsBelow) {ipv6 : Bool}
    (hlow : -2147483648 < c.cachedCount ipv6) : (c.addToCachedCount ipv6 (-1)).CountsBelow := by
  refine h.of_family ipv6 (fun v hv => ?_) ?_ ?_
  · rw [cachedCount_addToCachedCount, if_neg hv, activeOf_addToCachedCount]
    exact ⟨rfl, rfl⟩
  · rw [cachedCount_addToCachedCount, if_pos rfl]
    exact i32_mem _
  · rw [cachedCount_addToCachedCount, if_pos rfl, activeOf_addToCachedCount]
    have hstep : i32 (c.cachedCount ipv6 + -1) ≤ c.cachedCount ipv6 + -1 := i32_le (by omega)
    have hbelow := h.below ipv6
    omega

/-- The element of the active iterator is removed and counted down. -/
theorem CountsBelow.eraseAtActiveIterator (h : c.CountsBelow) {pointed : ServerRecord}
    (hderef : c.activeIterator.deref c.activeServers.elems = some pointed)
    (hlow : -2147483648 < c.cachedCount pointed.ipv6) :
    (c.addToCachedCount pointed.ipv6 (-1)).eraseAtActiveIterator.CountsBelow := by
  have hiterator : (c.addToCachedCount pointed.ipv6 (-1)).activeIterator = c.activeIterator := by
    rw [addToCachedCount, setCachedCount]
    split <;> rfl
  have hderef' : (c.addToCachedCount pointed.ipv6 (-1)).activeIterator.deref
      (c.addToCachedCount pointed.ipv6 (-1)).activeServers.elems = some pointed := by
    rw [hiterator, addToCachedCount, activeServers_setCachedCount]
    exact hderef
  have hcached (v : Bool) :
      (c.addToCachedCount pointed.ipv6 (-1)).eraseAtActiveIterator.cachedCount v =
        (c.addToCachedCount pointed.ipv6 (-1)).cachedCount v := rfl
  have hlen (v : Bool) := length_activeOf_eraseAtActiveIterator hderef' v
  simp only [activeOf_addToCachedCount] at hlen
  refine h.of_family pointed.ipv6 (fun v hv => ⟨?_, ?_⟩) ?_ ?_
  · rw [hcached, cachedCount_addToCachedCount, if_neg hv]
  · have := hlen v
    rwa [if_neg (by simpa using Ne.symm hv), Nat.add_zero] at this
  · rw [hcached, cachedCount_addToCachedCount, if_pos rfl]
    exact i32_mem _
  · have hlength := hlen pointed.ipv6
    have hbelow := h.below pointed.ipv6
    have hstep : i32 (c.cachedCount pointed.ipv6 + -1) ≤ c.cachedCount pointed.ipv6 + -1 :=
      i32_le (by omega)
    rw [if_pos (by simp)] at hlength
    rw [hcached, cachedCount_addToCachedCount, if_pos rfl]
    omega

/-- A removal through the iterators. -/
theorem CountsBelow.removeFailed (h : c.CountsBelow)
    (hactive : serv.probationary = false →
      c.activeIterator.deref c.activeServers.elems = some serv)
    (hlow : -2147483648 < c.cachedCount serv.ipv6) (hrun : c.removeFailed serv = some c') :
    c'.CountsBelow := by
  rw [NrpdConfig.removeFailed] at hrun
  by_cases hprob : serv.probationary = true
  · rw [if_pos hprob] at hrun
    obtain ⟨pointed, -, hrun⟩ := Option.bind_eq_some_iff.1 hrun
    by_cases heq : (serv == pointed) = true
    · rw [if_pos heq] at hrun
      obtain rfl := Option.some.inj hrun
      exact (h.countDown hlow).of_same ⟨fun _ => rfl, fun _ => rfl⟩
    · rw [if_neg heq] at hrun
      obtain rfl := Option.some.inj hrun
      exact h.of_same ⟨fun _ => rfl, fun _ => rfl⟩
  · have hderef := hactive (by simpa using hprob)
    simp only [if_neg hprob, hderef, Option.bind_eq_bind, Option.bind_some, BEq.rfl,
      if_true] at hrun
    obtain rfl := Option.some.inj hrun
    exact h.eraseAtActiveIterator hderef hlow

/-- **Failures.** The server is the one that the iterator of the active servers points at, unless it
is probationary. -/
theorem CountsBelow.incrementServerFailCount (h : c.CountsBelow) (hserv : c.server? ref = some serv)
    (hpoints : serv.probationary = false → ∃ i, ref = .active i ∧ c.activeIterator = .index i)
    (hlow : failsOut serv = true → -2147483648 < c.cachedCount serv.ipv6)
    {s' : NrpdConfig × SteadyClock} (hrun : c.incrementServerFailCount ref clock = some s') :
    s'.1.CountsBelow := by
  have hsame := sameCounts_updateServer c ref (host_failed clock.now)
  have hupdated := h.of_same hsame
  by_cases hmany : failsOut serv = true
  · simp only [NrpdConfig.incrementServerFailCount, hserv, Option.bind_eq_bind, Option.bind_some,
      tooManyFailures_failed, hmany, if_true] at hrun
    obtain ⟨removed, hremoved, hrun⟩ := Option.bind_eq_some_iff.1 hrun
    obtain rfl := Option.some.inj hrun
    have hcached := hsame.cached serv.ipv6
    refine (hupdated.withBannedServers _).removeFailed (fun hactive => ?_)
      (hcached.symm ▸ hlow hmany) hremoved
    obtain ⟨i, rfl, hit⟩ := hpoints hactive
    have hget : c.activeServers.elems[i]? = some serv := hserv
    show c.activeIterator.deref (c.activeServers.elems.modify i (failed clock.now)) = _
    rw [hit, ListIter.deref, List.getElem?_modify, hget]
    simp
  · rw [incrementServerFailCount_of_few clock hserv (by simpa using hmany)] at hrun
    obtain rfl := Option.some.inj hrun
    exact hupdated

/-- **Successes.** -/
theorem CountsBelow.markServerSuccessful (h : c.CountsBelow) {s' : NrpdConfig × SteadyClock}
    (hrun : c.markServerSuccessful ref clock = some s') : s'.1.CountsBelow := by
  simp only [NrpdConfig.markServerSuccessful, Option.bind_eq_bind, Option.bind_eq_some_iff] at hrun
  obtain ⟨serv, -, hrun⟩ := hrun
  have hupdated := h.of_same (sameCounts_updateServer c ref (host_succeeded clock.now))
  by_cases hprob : serv.probationary = true
  · rw [if_pos hprob] at hrun
    obtain ⟨pointed, -, hrun⟩ := Option.bind_eq_some_iff.1 hrun
    have hactivated := hupdated.activate (succeeded clock.now serv)
    split at hrun <;> obtain rfl := Option.some.inj hrun
    · exact hactivated.of_same ⟨fun _ => rfl, fun _ => rfl⟩
    · exact hactivated.of_same ⟨fun _ => rfl, fun _ => rfl⟩
  · rw [if_neg hprob] at hrun
    obtain rfl := Option.some.inj hrun
    exact hupdated

/-! ### How far the counts move -/

theorem cachedCount_activate_ge (h : c.CountsBelow)
    (hfew : c.activeServers.elems.length < 2147483647) (serv : ServerRecord) (ipv6 : Bool) :
    c.cachedCount ipv6 ≤ (c.activate serv).cachedCount ipv6 := by
  have hrange := h.range serv.ipv6
  have hbelow := h.below serv.ipv6
  have hle : (c.activeOf serv.ipv6).length ≤ c.activeServers.elems.length :=
    List.length_filter_le _ _
  simp only [NrpdConfig.activate]
  by_cases hnew : (c.activeServers.emplace serv).2 = true
  · rw [if_pos hnew, cachedCount_addToCachedCount]
    by_cases hv : ipv6 = serv.ipv6
    · rw [if_pos hv, hv]
      exact (Int.le_add_one (Int.le_refl _)).trans
        (i32_of_lt (x := c.cachedCount serv.ipv6 + 1) (by omega) (by omega)).ge
    · rw [if_neg hv]
      exact Int.le_refl _
  · rw [if_neg hnew]

theorem length_activate_le (c : NrpdConfig) (serv : ServerRecord) :
    (c.activate serv).activeServers.elems.length ≤ c.activeServers.elems.length + 1 := by
  obtain ⟨n₄, n₆, h⟩ := c.activate_eq serv
  rw [h]
  cases hnew : c.activeServers.contains serv with
  | true =>
    rw [OrderedSet.emplace_of_contains hnew]
    exact Nat.le_succ _
  | false =>
    rw [OrderedSet.emplace_of_not_contains hnew]
    exact (OrderedSet.perm_insertNew hnew).length_eq.le

/-- A success takes no count down, and adds at most one active server. -/
theorem markServerSuccessful_moves (h : c.CountsBelow)
    (hfew : c.activeServers.elems.length < 2147483647) {s' : NrpdConfig × SteadyClock}
    (hrun : c.markServerSuccessful ref clock = some s') :
    (∀ ipv6, c.cachedCount ipv6 ≤ s'.1.cachedCount ipv6) ∧
      s'.1.activeServers.elems.length ≤ c.activeServers.elems.length + 1 := by
  simp only [NrpdConfig.markServerSuccessful, Option.bind_eq_bind, Option.bind_eq_some_iff] at hrun
  obtain ⟨serv, -, hrun⟩ := hrun
  have hsame := sameCounts_updateServer c ref (host_succeeded clock.now)
  have hlength := (c.length_updateServer ref (host_succeeded clock.now)).1
  by_cases hprob : serv.probationary = true
  · rw [if_pos hprob] at hrun
    obtain ⟨pointed, -, hrun⟩ := Option.bind_eq_some_iff.1 hrun
    have hcached (ipv6 : Bool) := cachedCount_activate_ge (h.of_same hsame)
      (hlength.symm ▸ hfew) (succeeded clock.now serv) ipv6
    have hactive := length_activate_le (c.updateServer ref (succeeded clock.now)
      (host_succeeded clock.now)) (succeeded clock.now serv)
    rw [hlength] at hactive
    split at hrun <;> obtain rfl := Option.some.inj hrun
    · exact ⟨fun ipv6 => hsame.cached ipv6 ▸ hcached ipv6, hactive⟩
    · exact ⟨fun ipv6 => hsame.cached ipv6 ▸ hcached ipv6, hactive⟩
  · rw [if_neg hprob] at hrun
    obtain rfl := Option.some.inj hrun
    exact ⟨fun ipv6 => (hsame.cached ipv6).ge, hlength.le.trans (Nat.le_succ _)⟩

theorem length_eraseAt_le (s : OrderedSet ServerRecord ServerRecord.lt) (it : ListIter) :
    (s.eraseAt it).elems.length ≤ s.elems.length := by
  cases it with
  | index i => exact (List.eraseIdx_sublist s.elems i).length_le
  | _ => exact Nat.le_refl _

theorem removeFailed_moves (hlow : -2147483648 < c.cachedCount serv.ipv6)
    (hhigh : c.cachedCount serv.ipv6 < 2147483648) (hrun : c.removeFailed serv = some c') :
    (∀ ipv6, c.cachedCount ipv6 - 1 ≤ c'.cachedCount ipv6) ∧
      c'.activeServers.elems.length ≤ c.activeServers.elems.length := by
  have hdown (ipv6 : Bool) :
      c.cachedCount ipv6 - 1 ≤ (c.addToCachedCount serv.ipv6 (-1)).cachedCount ipv6 := by
    rw [cachedCount_addToCachedCount]
    by_cases hv : ipv6 = serv.ipv6
    · rw [if_pos hv, hv]
      exact (i32_of_lt (x := c.cachedCount serv.ipv6 + -1) (by omega) (by omega)).ge
    · rw [if_neg hv]
      omega
  have hsame (ipv6 : Bool) : c.cachedCount ipv6 - 1 ≤ c.cachedCount ipv6 := by omega
  have hactive : (c.addToCachedCount serv.ipv6 (-1)).activeServers = c.activeServers :=
    activeServers_setCachedCount _ _ _
  rw [NrpdConfig.removeFailed] at hrun
  by_cases hprob : serv.probationary = true
  · rw [if_pos hprob] at hrun
    obtain ⟨pointed, -, hrun⟩ := Option.bind_eq_some_iff.1 hrun
    split at hrun <;> obtain rfl := Option.some.inj hrun
    · exact ⟨hdown, (congrArg (·.elems.length) hactive).le⟩
    · exact ⟨hsame, Nat.le_refl _⟩
  · rw [if_neg hprob] at hrun
    obtain ⟨pointed, -, hrun⟩ := Option.bind_eq_some_iff.1 hrun
    split at hrun <;> obtain rfl := Option.some.inj hrun
    · refine ⟨hdown, ?_⟩
      show ((c.addToCachedCount serv.ipv6 (-1)).activeServers.eraseAt _).elems.length ≤ _
      rw [hactive]
      exact length_eraseAt_le _ _
    · exact ⟨hsame, List.length_filter_le _ _⟩

/-- A failure takes a count down by one at most, and adds no active server. -/
theorem incrementServerFailCount_moves (h : c.CountsBelow)
    (hlow : ∀ ipv6, -2147483648 < c.cachedCount ipv6) {s' : NrpdConfig × SteadyClock}
    (hrun : c.incrementServerFailCount ref clock = some s') :
    (∀ ipv6, c.cachedCount ipv6 - 1 ≤ s'.1.cachedCount ipv6) ∧
      s'.1.activeServers.elems.length ≤ c.activeServers.elems.length := by
  simp only [NrpdConfig.incrementServerFailCount, Option.bind_eq_bind, Option.bind_eq_some_iff]
    at hrun
  obtain ⟨serv, -, hrun⟩ := hrun
  have hsame := sameCounts_updateServer c ref (host_failed clock.now)
  have hlength := (c.length_updateServer ref (host_failed clock.now)).1
  split at hrun
  · obtain ⟨removed, hremoved, hrun⟩ := Option.bind_eq_some_iff.1 hrun
    obtain rfl := Option.some.inj hrun
    have hcached := hsame.cached (failed clock.now serv).ipv6
    have hrange := (h.range (failed clock.now serv).ipv6).2
    obtain ⟨hmoves, hactive⟩ := removeFailed_moves (hcached.symm ▸ hlow _) (hcached.symm ▸ hrange)
      hremoved
    exact ⟨fun ipv6 => hsame.cached ipv6 ▸ hmoves ipv6, hlength ▸ hactive⟩
  · obtain rfl := Option.some.inj hrun
    refine ⟨fun ipv6 => ?_, hlength.le⟩
    rw [hsame.cached ipv6]
    omega

end NrpdConfig

end Nrpd
