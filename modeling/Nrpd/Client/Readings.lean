import Nrpd.Client.Sessions
import Nrpd.Config.CountBounds
import Nrpd.Lib.ClockReaders

/-!
# What the client's calls depend on

The client's calls read the clock that the other threads read, and change the configuration that the
server counts servers in. They depend on no readings but their own, and the cached counts make no
difference to anything else that they leave.

## Main definitions

* `ClientRun.ofClock`: the state of a run, apart from its clock.

## Main results

* `ClientCall.isReader_run`: the readings that a call depends on.
* `ClientCall.recounted_run`: calls on a configuration with other counts.
-/

namespace Nrpd

open SteadyClock ClockReaders NrpdConfig ServerRecord Runs

/-! ### Readings -/

section Caches

variable {Key : Type*} [BEq Key]

theorem MruCache.isReader_isPresent (c : MruCache Key) (addr : Key) :
    IsReader Prod.mk fun clock =>
      some ((c.isPresent addr clock).response, (c.isPresent addr clock).clock) := by
  cases hget : c.recentClients.get? addr with
  | none =>
    simp only [MruCache.isPresent, MruCache.isPresentLocked, hget]
    exact IsReader.now (F := fun _ clock => some (false, clock)) fun _ =>
      isReader_const (some false)
  | some t =>
    simp only [MruCache.isPresent, MruCache.isPresentLocked, hget]
    -- the entry is compared with one reading, and the cleaning is scheduled with another one
    exact IsReader.now (F := fun now clock => some (decide ¬ now ≥ c.expiry t, clock.tick))
      fun now => IsReader.now (F := fun _ clock => some (decide ¬ now ≥ c.expiry t, clock))
        fun _ => isReader_const (some _)

theorem MruCache.isReader_add (c : MruCache Key) (addr : Key) :
    IsReader Prod.mk fun clock => some (c.add addr clock) :=
  IsReader.now (F := fun now clock =>
    some ({ c with recentClients := (c.recentClients.emplace addr now).1 }, clock)) fun _ =>
      isReader_const (some _)

omit [BEq Key] in
theorem MruCache.isReader_cleanEntries (lifetime : ℤ) (items : List (Key × ℤ)) :
    IsReader Prod.mk fun clock => some (cleanEntries lifetime items clock) := by
  induction items with
  | nil => exact isReader_const (some [])
  | cons item items ih =>
    refine IsReader.congr (IsReader.now (F := fun now clock =>
      (some (cleanEntries lifetime items clock)).bind fun rest =>
        some (if now > item.2 + lifetime then rest.1 else item :: rest.1, rest.2)) fun now =>
      ih.bind (G := fun rest clock =>
        some (if now > item.2 + lifetime then rest else item :: rest, clock)) fun rest =>
          isReader_const (some _)) fun clock => ?_
    rw [cleanEntries, Option.bind_some]
    split <;> rfl

theorem MruCache.isReader_clean (c : MruCache Key) :
    IsReader Prod.mk fun clock => some (c.clean clock) := by
  intro clock t ht
  obtain rfl := Option.some.inj ht
  obtain ⟨items, k, hitems, hagree⟩ := isReader_cleanEntries (seconds c.lifetimeSeconds)
    c.recentClients.entries clock _ rfl
  have hend (d : SteadyClock) : (d.skip k).tick = d.skip (k + 1) := rfl
  refine ⟨(c.clean clock).1, k + 1, ?_, fun d hd => ?_⟩
  · simp only [clean, hitems, hend]
  · have hclean := Option.some.inj (hagree d (hd.mono (Nat.le_succ k)))
    have hnow : (d.skip k).now = (clock.skip k).now := hd k (Nat.lt_succ_self k)
    simp only [clean, hclean, hitems, hend, hnow]

end Caches

namespace NrpdConfig

theorem isReader_addServer (c : NrpdConfig) (serv : ServerRecord) :
    IsReader Prod.mk fun clock => some (c.addServer serv clock) := by
  refine IsReader.congr ((c.bannedServers.isReader_isPresent (c.recordFor serv)).bind
    (G := fun banned clock => some (if banned || c.activeServers.contains (c.recordFor serv) then c
      else { c with probationaryServers := c.probationaryServers ++ [c.recordFor serv] }, clock))
    fun banned => isReader_const (some _)) fun clock => ?_
  rw [addServer_eq]
  rfl

theorem isReader_addServers (servs : List ServerRecord) (c : NrpdConfig) :
    IsReader Prod.mk fun clock => some (addServers servs c clock) := by
  induction servs generalizing c with
  | nil => exact isReader_const (some c)
  | cons serv servs ih =>
    exact (c.isReader_addServer serv).bind (G := fun c clock => some (addServers servs c clock)) ih

theorem isReader_incrementServerFailCount (c : NrpdConfig) (ref : ServerRef) :
    IsReader Prod.mk fun clock => c.incrementServerFailCount ref clock := by
  cases hserv : c.server? ref with
  | none =>
    refine (isReader_const none).congr fun clock => ?_
    rw [incrementServerFailCount, hserv]
    rfl
  | some before =>
    -- the record and the configuration behind the first reading
    let serv (now : ℤ) := failed now before
    let updated (now : ℤ) := c.updateServer ref (failed now) (host_failed now)
    refine IsReader.congr (IsReader.now (F := fun now clock =>
      if tooManyFailures (serv now) then
        (some ((updated now).bannedServers.add (serv now) clock)).bind fun banned =>
          ({ updated now with bannedServers := banned.1 }.removeFailed (serv now)).map (·, banned.2)
      else some (updated now, clock)) fun now => ?_) fun clock => ?_
    · by_cases hmany : tooManyFailures (serv now) = true
      · simp only [if_pos hmany]
        exact ((updated now).bannedServers.isReader_add (serv now)).bind
          (G := fun banned clock =>
            ({ updated now with bannedServers := banned }.removeFailed (serv now)).map (·, clock))
          fun banned => isReader_const _
      · simp only [if_neg hmany]
        exact isReader_const (some (updated now))
    · simp only [incrementServerFailCount, hserv, Option.bind_eq_bind, Option.bind_some]
      split
      · cases removeFailed _ _ <;> rfl
      · rfl

theorem isReader_markServerSuccessful (c : NrpdConfig) (ref : ServerRef) :
    IsReader Prod.mk fun clock => c.markServerSuccessful ref clock := by
  cases hserv : c.server? ref with
  | none =>
    refine (isReader_const none).congr fun clock => ?_
    rw [markServerSuccessful, hserv]
    rfl
  | some before =>
    -- what is left does not depend on the clock behind the only reading
    let updated (now : ℤ) := c.updateServer ref (succeeded now) (host_succeeded now)
    let activated (now : ℤ) := (updated now).activate (succeeded now before)
    let marked (now : ℤ) : Option NrpdConfig :=
      if before.probationary then
        ((activated now).probationaryIterator.deref (activated now).probationaryServers).map
          fun pointed =>
            if succeeded now before == pointed then (activated now).eraseAtProbationaryIterator
            else (activated now).removeProbationary (succeeded now before)
      else some (updated now)
    refine IsReader.congr (IsReader.now (F := fun now clock => (marked now).map (·, clock))
      fun now => isReader_const (marked now)) fun clock => ?_
    simp only [marked, markServerSuccessful, hserv, Option.bind_eq_bind, Option.bind_some]
    by_cases hprob : before.probationary = true
    · simp only [if_pos hprob, activated, updated]
      cases ListIter.deref _ _ with
      | none => rfl
      | some pointed =>
        simp only [Option.bind_some, Option.map_some]
        split <;> rfl
    · simp only [if_neg hprob, Option.map_some, updated]

end NrpdConfig

/-! ### Calls -/

/-- The state of a run on a clock. -/
def ClientRun.ofClock (state : NrpdConfig × Option ServerRef) (clock : SteadyClock) : ClientRun :=
  ⟨state.1, clock, state.2⟩

/-- The two reports. -/
theorem isReader_report {F : SteadyClock → Option (NrpdConfig × SteadyClock)}
    (h : IsReader Prod.mk F) (server : Option ServerRecord)
    (current : ServerRecord → Option ServerRef) :
    IsReader ClientRun.ofClock fun clock => server.bind fun serv =>
      (F clock).bind fun left => some ⟨left.1, left.2, current serv⟩ := by
  cases server with
  | none => exact isReader_const none
  | some serv =>
    exact h.bind (G := fun config clock => some (ClientRun.ofClock (config, current serv) clock))
      fun config => isReader_const (some (config, current serv))

/-- **Readings.** A call depends on the readings that it takes. -/
theorem ClientCall.isReader_run (state : NrpdConfig × Option ServerRef) (call : ClientCall) :
    IsReader ClientRun.ofClock fun clock => call.run (ClientRun.ofClock state clock) := by
  obtain ⟨c, current⟩ := state
  cases call with
  | addServersFromMessage m msg =>
    refine IsReader.congr ((c.isReader_addServers (entriesOf m msg)).bind
      (G := fun added clock => some (ClientRun.ofClock (added, current) clock))
      fun added => isReader_const (some (added, current))) fun clock => ?_
    rw [Option.bind_some, ← addServersFromMessage_snd]
    rfl
  | parseRejectMessage entries =>
    cases current with
    | none => exact isReader_const none
    | some ref =>
      exact (isReader_const (some (c.updateServer ref (Nrpd.parseRejectMessage entries)
        (host_parseRejectMessage entries), some ref))).congr fun _ => rfl
  | getNextServer =>
    cases hnext : c.getNextServer with
    | none =>
      refine (isReader_const none).congr fun clock => ?_
      simp only [ClientCall.run, ClientRun.ofClock, hnext]
      rfl
    | some next =>
      refine (isReader_const (some (next.2, next.1.listed))).congr fun clock => ?_
      simp only [ClientCall.run, ClientRun.ofClock, hnext]
      rfl
  | markServerSuccessful =>
    cases current with
    | none => exact isReader_const none
    | some ref =>
      exact isReader_report (c.isReader_markServerSuccessful ref) (c.server? ref) fun serv =>
        if serv.probationary then none else some ref
  | incrementServerFailCount =>
    cases current with
    | none => exact isReader_const none
    | some ref =>
      exact isReader_report (c.isReader_incrementServerFailCount ref) (c.server? ref) fun serv =>
        if failsOut serv then none else some ref
  | cleanBannedServers =>
    exact c.bannedServers.isReader_clean.bind (G := fun banned clock =>
      some (ClientRun.ofClock ({ c with bannedServers := banned }, current) clock))
      fun banned => isReader_const (some _)

/-! ### Counts -/

section Counts

variable {c c' : NrpdConfig}

namespace NrpdConfig

namespace Recounted

theorem server?_eq (h : c.Recounted c') (ref : ServerRef) : c'.server? ref = c.server? ref := by
  obtain ⟨n₄, n₆, rfl⟩ := h
  cases ref <;> rfl

/-- A change that leaves the counts alone. -/
theorem map (h : c.Recounted c') {F : NrpdConfig → NrpdConfig}
    (hF : ∀ c n₄ n₆, F { c with countIp4Servers := n₄, countIp6Servers := n₆ } =
      { F c with countIp4Servers := n₄, countIp6Servers := n₆ }) :
    (F c).Recounted (F c') := by
  obtain ⟨n₄, n₆, rfl⟩ := h
  exact ⟨n₄, n₆, hF c n₄ n₆⟩

theorem updateServer (h : c.Recounted c') (ref : ServerRef) {f : ServerRecord → ServerRecord}
    (hf : ∀ r, (f r).host = r.host) :
    (c.updateServer ref f hf).Recounted (c'.updateServer ref f hf) :=
  h.map (F := fun c => c.updateServer ref f hf) fun _ _ _ => by cases ref <;> rfl

theorem addToCachedCount (h : c.Recounted c') (ipv6 : Bool) (step : ℤ) :
    (c.addToCachedCount ipv6 step).Recounted (c'.addToCachedCount ipv6 step) := by
  obtain ⟨n₄, n₆, rfl⟩ := h
  cases ipv6 <;> exact ⟨_, _, rfl⟩

theorem addServer (h : c.Recounted c') (serv : ServerRecord) (clock : SteadyClock) :
    (c.addServer serv clock).1.Recounted (c'.addServer serv clock).1 ∧
      (c'.addServer serv clock).2 = (c.addServer serv clock).2 := by
  obtain ⟨n₄, n₆, rfl⟩ := h
  have hsame : NrpdConfig.refuses { c with countIp4Servers := n₄, countIp6Servers := n₆ } serv
      clock = c.refuses serv clock := rfl
  rw [addServer_eq, addServer_eq, hsame]
  refine ⟨?_, rfl⟩
  split <;> exact ⟨n₄, n₆, rfl⟩

theorem addServers (h : c.Recounted c') (servs : List ServerRecord) (clock : SteadyClock) :
    (addServers servs c clock).1.Recounted (addServers servs c' clock).1 ∧
      (NrpdConfig.addServers servs c' clock).2 = (NrpdConfig.addServers servs c clock).2 := by
  induction servs generalizing c c' clock with
  | nil => exact ⟨h, rfl⟩
  | cons serv servs ih =>
    obtain ⟨hadded, hclock⟩ := h.addServer serv clock
    rw [NrpdConfig.addServers, NrpdConfig.addServers, hclock]
    exact ih hadded _

theorem activate (h : c.Recounted c') (serv : ServerRecord) :
    (c.activate serv).Recounted (c'.activate serv) := by
  obtain ⟨n₄, n₆, rfl⟩ := h
  rw [NrpdConfig.activate, NrpdConfig.activate]
  split
  · exact addToCachedCount ⟨n₄, n₆, rfl⟩ _ _
  · exact ⟨n₄, n₆, rfl⟩

/-- The elements of the iterators. -/
theorem deref_eq (h : c.Recounted c') :
    c'.probationaryIterator.deref c'.probationaryServers =
        c.probationaryIterator.deref c.probationaryServers ∧
      c'.activeIterator.deref c'.activeServers.elems =
        c.activeIterator.deref c.activeServers.elems := by
  obtain ⟨n₄, n₆, rfl⟩ := h
  exact ⟨rfl, rfl⟩

theorem removeFailed (h : c.Recounted c') {serv : ServerRecord} {removed : NrpdConfig}
    (hrun : c.removeFailed serv = some removed) :
    ∃ removed', removed.Recounted removed' ∧ c'.removeFailed serv = some removed' := by
  have hcounted := h.addToCachedCount serv.ipv6 (-1)
  obtain ⟨hderefProb, hderefActive⟩ := h.deref_eq
  rw [NrpdConfig.removeFailed] at hrun ⊢
  by_cases hprob : serv.probationary = true
  · rw [if_pos hprob] at hrun ⊢
    obtain ⟨pointed, hpointed, hrun⟩ := Option.bind_eq_some_iff.1 hrun
    rw [hderefProb, hpointed]
    by_cases hsame : (serv == pointed) = true
    · rw [if_pos hsame] at hrun
      obtain rfl := Option.some.inj hrun
      exact ⟨_, hcounted.map (F := NrpdConfig.eraseAtProbationaryIterator) fun _ _ _ => rfl,
        if_pos hsame⟩
    · rw [if_neg hsame] at hrun
      obtain rfl := Option.some.inj hrun
      exact ⟨_, h.map (F := (·.removeProbationary serv)) fun _ _ _ => rfl, if_neg hsame⟩
  · rw [if_neg hprob] at hrun ⊢
    obtain ⟨pointed, hpointed, hrun⟩ := Option.bind_eq_some_iff.1 hrun
    rw [hderefActive, hpointed]
    by_cases hsame : (serv == pointed) = true
    · rw [if_pos hsame] at hrun
      obtain rfl := Option.some.inj hrun
      exact ⟨_, hcounted.map (F := NrpdConfig.eraseAtActiveIterator) fun _ _ _ => rfl, if_pos hsame⟩
    · rw [if_neg hsame] at hrun
      obtain rfl := Option.some.inj hrun
      exact ⟨_, h.map (F := (·.eraseActive serv)) fun _ _ _ => rfl, if_neg hsame⟩

theorem incrementServerFailCount (h : c.Recounted c') {ref : ServerRef} {clock clock' : SteadyClock}
    {counted : NrpdConfig} (hrun : c.incrementServerFailCount ref clock = some (counted, clock')) :
    ∃ counted', counted.Recounted counted' ∧
      c'.incrementServerFailCount ref clock = some (counted', clock') := by
  have hupdated := h.updateServer ref (host_failed clock.now)
  rw [NrpdConfig.incrementServerFailCount] at hrun ⊢
  obtain ⟨serv, hserv, hrun⟩ := Option.bind_eq_some_iff.1 hrun
  rw [h.server?_eq, hserv]
  simp only [Option.bind_eq_bind, Option.bind_some] at hrun ⊢
  by_cases hmany : tooManyFailures (failed clock.now serv) = true
  · rw [if_pos hmany] at hrun ⊢
    obtain ⟨removed, hremoved, hrun⟩ := Option.bind_eq_some_iff.1 hrun
    obtain ⟨rfl, rfl⟩ := Prod.mk.inj (Option.some.inj hrun)
    obtain ⟨n₄, n₆, hsame⟩ := hupdated
    rw [hsame]
    obtain ⟨removed', hrecounted, hremoved'⟩ := removeFailed ⟨n₄, n₆, rfl⟩ hremoved
    exact ⟨removed', hrecounted, Option.bind_eq_some_iff.2 ⟨removed', hremoved', rfl⟩⟩
  · rw [if_neg hmany] at hrun ⊢
    obtain ⟨rfl, rfl⟩ := Prod.mk.inj (Option.some.inj hrun)
    exact ⟨_, hupdated, rfl⟩

theorem markServerSuccessful (h : c.Recounted c') {ref : ServerRef} {clock clock' : SteadyClock}
    {marked : NrpdConfig} (hrun : c.markServerSuccessful ref clock = some (marked, clock')) :
    ∃ marked', marked.Recounted marked' ∧
      c'.markServerSuccessful ref clock = some (marked', clock') := by
  have hupdated := h.updateServer ref (host_succeeded clock.now)
  rw [NrpdConfig.markServerSuccessful] at hrun ⊢
  obtain ⟨before, hbefore, hrun⟩ := Option.bind_eq_some_iff.1 hrun
  rw [h.server?_eq, hbefore]
  simp only [Option.bind_eq_bind, Option.bind_some] at hrun ⊢
  have hactivated := hupdated.activate (succeeded clock.now before)
  by_cases hprob : before.probationary = true
  · rw [if_pos hprob] at hrun ⊢
    obtain ⟨pointed, hpointed, hrun⟩ := Option.bind_eq_some_iff.1 hrun
    rw [hactivated.deref_eq.1, hpointed]
    by_cases hsame : (succeeded clock.now before == pointed) = true
    · rw [if_pos hsame] at hrun
      obtain ⟨rfl, rfl⟩ := Prod.mk.inj (Option.some.inj hrun)
      exact ⟨_, hactivated.map (F := NrpdConfig.eraseAtProbationaryIterator) fun _ _ _ => rfl,
        if_pos hsame⟩
    · rw [if_neg hsame] at hrun
      obtain ⟨rfl, rfl⟩ := Prod.mk.inj (Option.some.inj hrun)
      exact ⟨_, hactivated.map (F := (·.removeProbationary _)) fun _ _ _ => rfl, if_neg hsame⟩
  · rw [if_neg hprob] at hrun ⊢
    obtain ⟨rfl, rfl⟩ := Prod.mk.inj (Option.some.inj hrun)
    exact ⟨_, hupdated, rfl⟩

theorem chooseServer (h : c.Recounted c') {ref : ServerRef} {next : NrpdConfig}
    (hrun : c.chooseServer = some (ref, next)) :
    ∃ next', next.Recounted next' ∧ c'.chooseServer = some (ref, next') := by
  obtain ⟨n₄, n₆, rfl⟩ := h
  have hsame : NrpdConfig.chooseServer { c with countIp4Servers := n₄, countIp6Servers := n₆ } =
      c.chooseServer.map fun next =>
        (next.1, { next.2 with countIp4Servers := n₄, countIp6Servers := n₆ }) := by
    have hfront : frontConfigured { c with countIp4Servers := n₄, countIp6Servers := n₆ } =
        c.frontConfigured := rfl
    simp only [NrpdConfig.chooseServer, hfront]
    by_cases hflag : c.prevReturnedProbationary = true
    · rw [if_pos hflag, if_pos hflag]
      cases refOf .active c.activeIterator <;> cases refOf .probationary c.probationaryIterator <;>
        cases c.frontConfigured <;> rfl
    · rw [if_neg hflag, if_neg hflag]
      cases refOf .active c.activeIterator <;> cases refOf .probationary c.probationaryIterator <;>
        cases c.frontConfigured <;> rfl
  rw [hsame, hrun]
  exact ⟨_, ⟨n₄, n₆, rfl⟩, rfl⟩

theorem getNextServer (h : c.Recounted c') {ref : ServerRef} {next : NrpdConfig}
    (hrun : c.getNextServer = some (ref, next)) :
    ∃ next', next.Recounted next' ∧ c'.getNextServer = some (ref, next') := by
  obtain ⟨n₄, n₆, rfl⟩ := h
  obtain ⟨ia, hia, hrun⟩ := Option.bind_eq_some_iff.1 hrun
  obtain ⟨ip, hip, hrun⟩ := Option.bind_eq_some_iff.1 hrun
  obtain ⟨next', hnext, hrun'⟩ := chooseServer ⟨n₄, n₆, rfl⟩ hrun
  exact ⟨next', hnext, Option.bind_eq_some_iff.2 ⟨ia, hia, Option.bind_eq_some_iff.2
    ⟨ip, hip, hrun'⟩⟩⟩

end Recounted

end NrpdConfig

/-- **Counts.** A call on a configuration with other counts leaves the same, apart from counts. -/
theorem ClientCall.recounted_run {s s' : ClientRun} {call : ClientCall}
    (h : s.config.Recounted c) (hrun : call.run s = some s') :
    ∃ c', s'.config.Recounted c' ∧
      call.run ⟨c, s.clock, s.current⟩ = some ⟨c', s'.clock, s'.current⟩ := by
  have hserver (clock : SteadyClock) : (ClientRun.mk c clock s.current).server = s.server := by
    rw [ClientRun.server, ClientRun.server, funext h.server?_eq]
  cases call with
  | addServersFromMessage m msg =>
    obtain rfl := Option.some.inj hrun
    rw [ClientCall.run, addServersFromMessage_snd, addServersFromMessage_snd]
    obtain ⟨hadded, hclock⟩ := h.addServers (entriesOf m msg) s.clock
    exact ⟨_, hadded, by rw [hclock]⟩
  | parseRejectMessage entries =>
    obtain ⟨ref, href, hrun⟩ := Option.bind_eq_some_iff.1 hrun
    obtain rfl := Option.some.inj hrun
    exact ⟨_, h.updateServer ref (host_parseRejectMessage entries),
      Option.bind_eq_some_iff.2 ⟨ref, href, rfl⟩⟩
  | getNextServer =>
    obtain ⟨next, hnext, hrun⟩ := Option.bind_eq_some_iff.1 hrun
    obtain rfl := Option.some.inj hrun
    obtain ⟨c', hrecounted, hnext'⟩ := h.getNextServer hnext
    exact ⟨c', hrecounted, Option.bind_eq_some_iff.2 ⟨_, hnext', rfl⟩⟩
  | markServerSuccessful =>
    obtain ⟨ref, href, hrun⟩ := Option.bind_eq_some_iff.1 hrun
    obtain ⟨serv, hserv, hrun⟩ := Option.bind_eq_some_iff.1 hrun
    obtain ⟨marked, hmarked, hrun⟩ := Option.bind_eq_some_iff.1 hrun
    obtain rfl := Option.some.inj hrun
    obtain ⟨c', hrecounted, hmarked'⟩ := h.markServerSuccessful hmarked
    have hserv' : (ClientRun.mk c s.clock s.current).server = some serv :=
      (hserver s.clock).trans hserv
    exact ⟨c', hrecounted, Option.bind_eq_some_iff.2 ⟨ref, href, Option.bind_eq_some_iff.2
      ⟨serv, hserv', Option.bind_eq_some_iff.2 ⟨_, hmarked', rfl⟩⟩⟩⟩
  | incrementServerFailCount =>
    obtain ⟨ref, href, hrun⟩ := Option.bind_eq_some_iff.1 hrun
    obtain ⟨serv, hserv, hrun⟩ := Option.bind_eq_some_iff.1 hrun
    obtain ⟨counted, hcounted, hrun⟩ := Option.bind_eq_some_iff.1 hrun
    obtain rfl := Option.some.inj hrun
    obtain ⟨c', hrecounted, hcounted'⟩ := h.incrementServerFailCount hcounted
    have hserv' : (ClientRun.mk c s.clock s.current).server = some serv :=
      (hserver s.clock).trans hserv
    exact ⟨c', hrecounted, Option.bind_eq_some_iff.2 ⟨ref, href, Option.bind_eq_some_iff.2
      ⟨serv, hserv', Option.bind_eq_some_iff.2 ⟨_, hcounted', rfl⟩⟩⟩⟩
  | cleanBannedServers =>
    obtain rfl := Option.some.inj hrun
    obtain ⟨n₄, n₆, rfl⟩ := h
    exact ⟨_, ⟨n₄, n₆, rfl⟩, rfl⟩

/-- **Runs.** -/
theorem ClientCall.recounted_after {s s' : ClientRun} {calls : List ClientCall}
    (h : s.config.Recounted c) (hrun : after ClientCall.run calls s = some s') :
    ∃ c', s'.config.Recounted c' ∧
      after ClientCall.run calls ⟨c, s.clock, s.current⟩ = some ⟨c', s'.clock, s'.current⟩ := by
  induction calls generalizing s c with
  | nil =>
    obtain rfl := Option.some.inj hrun
    exact ⟨c, h, rfl⟩
  | cons call calls ih =>
    obtain ⟨t, hcall, hrest⟩ := Option.bind_eq_some_iff.1 hrun
    obtain ⟨d, hrecounted, hcall'⟩ := ClientCall.recounted_run h hcall
    obtain ⟨c', hrecounted', hrest'⟩ := ih hrecounted hrest
    exact ⟨c', hrecounted', Option.bind_eq_some_iff.2 ⟨_, hcall', hrest'⟩⟩

end Counts

end Nrpd
