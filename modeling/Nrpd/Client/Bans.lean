import Nrpd.Cache.AddedKeys
import Nrpd.Client.KnownServers

/-!
# Banned servers

`IncrementServerFailCount` bans a server and removes its record. The ban is looked up only when a
record is added: a server that has another record in the lists is returned although it is banned,
and a ban has no effect when the cache still has an entry of an earlier one. A server that is banned
with its only record, and without an entry, is not returned before the ban has expired.

## Main definitions

* `ClientRun.StaysOut`: the server has no record, and is not added, unless its ban has expired.

## Main results

* `ClientRun.Effect.staysOut`: what one call keeps.
* `ClientRun.banned_stays_out`: what every run after the ban keeps.
-/

namespace Nrpd

open SteadyClock NrpdConfig ServerRecord Runs

/-- The time for which a server is banned. -/
def banSeconds : ℤ := 60 * 60 * 24

namespace NrpdConfig

variable {c : NrpdConfig} {serv : ServerRecord} {clock : SteadyClock} {t : ℤ}

/-- What runs from a new configuration keep: the time for which servers are banned, and that there
are no configured servers. -/
structure KeepsBans (c : NrpdConfig) : Prop where
  configured : c.configuredServers = []
  lifetime : c.bannedServers.lifetimeSeconds = banSeconds

theorem KeepsBans.expiry (h : c.KeepsBans) (t : ℤ) :
    c.bannedServers.expiry t = t + seconds banSeconds := by
  rw [MruCache.expiry, h.lifetime]

/-- The cache has the ban of the server at the time `t`, or it has expired; until then the server
has no record. -/
structure StaysOut (serv : ServerRecord) (t : ℤ) (c : NrpdConfig) (clock : SteadyClock) : Prop where
  held : c.bannedServers.Holds clock serv t
  absent : c.copies (endpoint serv) = 0 ∨ clock.Passed (c.bannedServers.expiry t)

/-- One entry of a peers message. -/
theorem StaysOut.addServer (h : StaysOut serv t c clock) (peer : ServerRecord) :
    StaysOut serv t (c.addServer peer clock).1 (c.addServer peer clock).2 := by
  have hlater := c.bannedServers.laterThan_isPresent (c.recordFor peer) clock
  have hcopies := c.copies_addServer peer clock (endpoint serv)
  have hcache : (c.addServer peer clock).1.bannedServers = c.bannedServers := by
    rw [addServer_eq]
    split <;> rfl
  have hclock : (c.addServer peer clock).2 =
      (c.bannedServers.isPresent (c.recordFor peer) clock).clock := by
    rw [addServer_eq]
  refine ⟨?_, ?_⟩ <;> rw [hcache, hclock]
  · exact h.held.later hlater
  · by_cases hnew : c.refuses peer clock = false ∧ endpoint peer = endpoint serv
    · -- the server is looked up among the bans and is not found there: its ban has expired
      refine .inr ?_
      have hkey : (c.recordFor peer == serv) = true := beq_iff_endpoint.2 hnew.2
      have habsent : (c.bannedServers.isPresent (c.recordFor peer) clock).response = false := by
        have hrefuses := hnew.1
        rw [refuses, Bool.or_eq_false_iff] at hrefuses
        exact hrefuses.1
      refine MruCache.Holds.passed_of_absent ?_ habsent
      exact h.held.imp_left fun hentry => (EntryMap.get?_congr hkey).trans hentry
    · rw [if_neg hnew, Nat.add_zero] at hcopies
      rw [hcopies]
      exact h.absent.imp_right fun hpassed => hpassed.of_laterThan hlater

theorem StaysOut.addServers (servs : List ServerRecord) :
    ∀ {c : NrpdConfig} {clock : SteadyClock}, StaysOut serv t c clock →
      StaysOut serv t (addServers servs c clock).1 (addServers servs c clock).2 := by
  induction servs with
  | nil => exact fun h => h
  | cons peer servs ih => exact fun h => ih (h.addServer peer)

/-- What the other calls do: no record is added, the cache keeps the ban, and the clock goes on. -/
theorem StaysOut.of_copies_le (h : StaysOut serv t c clock) {c' : NrpdConfig}
    {clock' : SteadyClock} (hlater : clock.LaterThan clock')
    (hlifetime : c'.bannedServers.lifetimeSeconds = c.bannedServers.lifetimeSeconds)
    (hheld : c'.bannedServers.Holds clock' serv t)
    (hcopies : c'.copies (endpoint serv) ≤ c.copies (endpoint serv)) :
    StaysOut serv t c' clock' := by
  have hexpiry : c'.bannedServers.expiry t = c.bannedServers.expiry t := by
    rw [MruCache.expiry, hlifetime, MruCache.expiry]
  refine ⟨hheld, h.absent.imp (fun hzero => by omega) fun hpassed => ?_⟩
  rw [hexpiry]
  exact hpassed.of_laterThan hlater

theorem bannedServers_updateServer (c : NrpdConfig) (ref : ServerRef)
    {f : ServerRecord → ServerRecord} (hf : ∀ r, (f r).host = r.host) :
    (c.updateServer ref f hf).bannedServers = c.bannedServers := by
  cases ref <;> rfl

end NrpdConfig

namespace ClientRun

variable {s s' : ClientRun} {call : ClientCall} {serv : ServerRecord} {t : ℤ}

theorem Effect.keepsBans (heffect : Effect s call s') (h : s.config.KeepsBans) :
    s'.config.KeepsBans := by
  cases heffect with
  | added m msg =>
    exact addServers_invariant (P := KeepsBans) _ (fun _ _ _ _ hc _ => ⟨hc.configured, hc.lifetime⟩)
      _ h
  | @changed _ ref _ f _ _ _ _ hf =>
    refine ⟨?_, by rw [bannedServers_updateServer]; exact h.lifetime⟩
    cases ref with
    | configured i => simp [updateServer, h.configured]
    | _ => exact h.configured
  | _ => exact ⟨h.configured, h.lifetime⟩

/-- **One call.** A banned server stays out. -/
theorem Effect.staysOut (heffect : Effect s call s') (hstep : s.InStep)
    (h : StaysOut serv t s.config s.clock) : StaysOut serv t s'.config s'.clock := by
  -- for a call that adds no record
  have hle (hcall : ∀ m msg, call ≠ .addServersFromMessage m msg) :
      s'.config.copies (endpoint serv) ≤ s.config.copies (endpoint serv) := by
    have := heffect.copies hstep hcall (endpoint serv)
    omega
  cases heffect with
  | added m msg => exact h.addServers (entriesOf m msg)
  | @changed _ ref _ _ _ hcurrent hserv hstays hf hprob hlater =>
    have hbans := bannedServers_updateServer s.config ref hf.host
    refine h.of_copies_le hlater (by rw [hbans]) ?_ (copies_updateServer _ _ hf _).le
    rw [hbans]
    exact h.held.later hlater
  | returned hia hip => exact h.of_copies_le (.refl _) rfl h.held (hle (by simp))
  | promoted hcurrent hserv =>
    exact h.of_copies_le (.tick _) rfl (h.held.later (.tick _)) (hle (by simp))
  | droppedProbationary hcurrent hserv hmany =>
    exact h.of_copies_le ((LaterThan.tick _).trans (.tick _)) rfl
      ((h.held.later (.tick _)).add _) (hle (by simp))
  | droppedActive hcurrent hserv hmany =>
    exact h.of_copies_le ((LaterThan.tick _).trans (.tick _)) rfl
      ((h.held.later (.tick _)).add _) (hle (by simp))
  | cleaned =>
    exact h.of_copies_le (s.config.bannedServers.laterThan_clean _) rfl h.held.clean (hle (by simp))

/-- The call that bans a server with its only record, when the cache has no entry for it. The time
of the ban is the second reading of the call. -/
theorem Effect.staysOut_of_ban (heffect : Effect s .incrementServerFailCount s')
    (hserver : s.server = some serv) (hmany : failsOut serv = true)
    (honce : s.config.copies (endpoint serv) = 1)
    (hentry : s.config.bannedServers.recentClients.get? serv = none) :
    StaysOut serv s.clock.tick.now s'.config s'.clock := by
  have hless := heffect.copies_of_removes ⟨serv, hserver, hmany, rfl⟩
  obtain ⟨hbans, hclock⟩ := heffect.banned hserver hmany
  have hkey : (failed s.clock.now serv == serv) = true := beq_iff_endpoint.2 rfl
  refine ⟨?_, .inl (by omega)⟩
  have hheld := MruCache.holds_add (k := failed s.clock.now serv) s.clock.tick
    ((EntryMap.get?_congr hkey).trans hentry)
  rw [hbans, hclock]
  exact hheld.imp_left fun hadded => (EntryMap.get?_congr hkey).symm.trans hadded

/-- A server that is returned has a record. -/
theorem copies_pos_of_getNextServer {c c' : NrpdConfig} {ref : ServerRef} {r : ServerRecord}
    (hconfigured : c.configuredServers = []) (hnext : c.getNextServer = some (ref, c'))
    (hr : c'.server? ref = some r) : 0 < c.copies (endpoint r) := by
  obtain ⟨ia, ip, flag, -, -, rfl, href⟩ := getNextServer_eq_some hnext
  rw [copies_pos_iff]
  rcases href with ⟨href, -⟩ | ⟨href, -⟩ | ⟨-, hne, -⟩
  · obtain ⟨i, -, rfl⟩ := refOf_eq_some href
    exact .inr ⟨r, List.mem_of_getElem? hr, rfl⟩
  · obtain ⟨i, -, rfl⟩ := refOf_eq_some href
    exact .inl ⟨r, List.mem_of_getElem? hr, rfl⟩
  · exact absurd hconfigured hne

/-! ### Runs -/

/-- **A banned server stays out.** In every run from a new configuration: after a call of
`IncrementServerFailCount` that removes a server at the time of its second reading, with the only
record of the server and no entry for it in the cache of bans, no call of `GetNextServer` returns
the server before a reading of that time and a day was taken. -/
theorem banned_stays_out (h : Reachable IsNew ClientCall.run (fun _ _ => True) s)
    (hserver : s.server = some serv) (hmany : failsOut serv = true) {s₁ s₂ : ClientRun}
    (hban : ClientCall.run s .incrementServerFailCount = some s₁)
    (honce : s.config.copies (endpoint serv) = 1)
    (hentry : s.config.bannedServers.recentClients.get? serv = none)
    (h₂ : Reachable (· = s₁) ClientCall.run (fun _ _ => True) s₂) {ref : ServerRef}
    {c : NrpdConfig} {r : ServerRecord} (hnext : s₂.config.getNextServer = some (ref, c))
    (hr : c.server? ref = some r) (hsame : (r == serv) = true) :
    s₂.clock.Passed (s.clock.tick.now + seconds banSeconds) := by
  obtain ⟨hstep, hkeeps⟩ := invariant_of_effect (P := fun s => s.config.KeepsBans)
    (by rintro _ ⟨_, _, _, rfl⟩; exact ⟨(IsNew.atStart ⟨_, _, _, rfl⟩).inStep, rfl, rfl⟩)
    (fun _ _ _ _ hs _ heffect => heffect.keepsBans hs) h
  have heffect := ClientCall.effect hstep hban
  obtain ⟨-, hkeeps₂, hout⟩ := invariant_of_effect
    (P := fun s' => s'.config.KeepsBans ∧ StaysOut serv s.clock.tick.now s'.config s'.clock)
    (by
      rintro _ rfl
      exact ⟨heffect.inStep hstep, heffect.keepsBans hkeeps,
        heffect.staysOut_of_ban hserver hmany honce hentry⟩)
    (fun _ _ _ hstep hs _ heffect =>
      ⟨heffect.keepsBans hs.1, heffect.staysOut hstep hs.2⟩) h₂
  have hpos := copies_pos_of_getNextServer hkeeps₂.configured hnext hr
  rw [beq_iff_endpoint.1 hsame] at hpos
  rw [← hkeeps₂.expiry]
  exact hout.absent.resolve_left (by omega)

/-- A number of failures of the servers that are returned. -/
def failures (n : ℕ) : List ClientCall :=
  (List.replicate n [ClientCall.getNextServer, .incrementServerFailCount]).flatten

/-- A response with one server. -/
def oneServerResponse : Mem := ip4PeersResponse [10, 0, 0, 1, 31, 144]

/-- On a clock of one reading a day, a server is banned, is added again and is returned. -/
theorem banned_stays_out_example :
    ∃ s s₁ s₂ : ClientRun, ∃ (clock : SteadyClock) (serv : ServerRecord),
      after ClientCall.run (.addServersFromMessage oneServerResponse 4 :: failures 3 ++
        [.getNextServer]) ⟨(NrpdConfig.new true true clock).1, clock.tick, none⟩ = some s ∧
      s.server = some serv ∧ ClientCall.run s .incrementServerFailCount = some s₁ ∧
      after ClientCall.run [.addServersFromMessage oneServerResponse 4] s₁ = some s₂ ∧
      s₂.clock.Passed (s.clock.tick.now + seconds banSeconds) := by
  have hfirst : Reachable IsNew ClientCall.run (fun _ _ => True)
      ⟨(NrpdConfig.new true true ⟨fun n => seconds (banSeconds * n), 0⟩).1,
        SteadyClock.tick ⟨fun n => seconds (banSeconds * n), 0⟩, none⟩ :=
    .first ⟨true, true, ⟨fun n => seconds (banSeconds * n), 0⟩, rfl⟩
  refine ⟨_, _, _, ⟨fun n => seconds (banSeconds * n), 0⟩, _, rfl, rfl, rfl, rfl, ?_⟩
  exact banned_stays_out (hfirst.after (.addServersFromMessage oneServerResponse 4 :: failures 3 ++
    [.getNextServer]) rfl) rfl (by decide) rfl (by decide) rfl (.call (.first rfl)
    (a := .addServersFromMessage oneServerResponse 4) trivial rfl) rfl rfl (by decide)

/-- A server that was added twice is banned with one of its records, and the other record is
returned at the time of the ban. -/
theorem second_record_returned :
    validateResponsePacket (ip4PeersResponse [10, 0, 0, 1, 31, 144, 10, 0, 0, 1, 31, 144]) =
        some true ∧
      ∃ s s₁ : ClientRun, ∃ (serv r : ServerRecord) (ref : ServerRef) (c : NrpdConfig),
        Reachable IsNew ClientCall.run (fun _ _ => True) s ∧ s.server = some serv ∧
        failsOut serv = true ∧ ClientCall.run s .incrementServerFailCount = some s₁ ∧
        s₁.config.getNextServer = some (ref, c) ∧ c.server? ref = some r ∧
        (r == serv) = true ∧ ¬ s₁.clock.Passed (s.clock.tick.now + seconds banSeconds) := by
  have hfirst : Reachable IsNew ClientCall.run (fun _ _ => True) sampleRun :=
    .first isNew_sampleRun
  refine ⟨by decide, _, _, _, _, _, _, hfirst.after (.addServersFromMessage
    (ip4PeersResponse [10, 0, 0, 1, 31, 144, 10, 0, 0, 1, 31, 144]) 4 :: failures 6 ++
      [.getNextServer]) rfl, rfl, by decide, rfl, rfl, rfl, by decide, ?_⟩
  rintro ⟨n, -, hle⟩
  exact absurd (show (seconds banSeconds ≤ 0) from hle) (by decide)

end ClientRun

end Nrpd
