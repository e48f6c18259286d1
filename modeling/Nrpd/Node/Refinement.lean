import Nrpd.Client.Readings
import Nrpd.Node.Contacts
import Nrpd.Node.Service

/-!
# The client of a node

The client of a node shares its configuration and its clock with the server and the threads that
clean the caches. What it does to the configuration is still a run of the client's calls, as if it
were alone: the other threads change nothing but the cached counts, which make no difference to the
calls, and take readings that the calls do not depend on. So the configuration of a node is, apart
from the counts, one that the calls alone reach, on a clock that leaves out readings.

## Main definitions

* `Node.Makes`, `Node.MakesAll`: the calls on the configuration that a call of a node makes, and a
  list of them.
* `Node.Mirrors`: a configuration and a server that were reached by the calls alone.

## Main results

* `Node.exists_after_of_run`, `Node.Mirrors.run`: what one call of a node makes.
* `Node.Ran.refines`: every run.
-/

namespace Nrpd

open SteadyClock ClockReaders NrpdConfig Runs

theorem NrpdConfig.Recounted.symm {c c' : NrpdConfig} (h : c.Recounted c') : c'.Recounted c := by
  obtain ⟨n₄, n₆, rfl⟩ := h
  exact ⟨c.countIp4Servers, c.countIp6Servers, rfl⟩

theorem NrpdConfig.ne_configured_of_getNextServer {c c' : NrpdConfig} {ref : ServerRef}
    (hconfigured : c.configuredServers = []) (h : c.getNextServer = some (ref, c')) (i : ℕ) :
    ref ≠ .configured i := by
  obtain ⟨_, _, _, -, -, -, ⟨href, -⟩ | ⟨href, -⟩ | ⟨-, hsome, -⟩⟩ := getNextServer_eq_some h
  · obtain ⟨_, -, rfl⟩ := refOf_eq_some href
    exact ServerRef.noConfusion
  · obtain ⟨_, -, rfl⟩ := refOf_eq_some href
    exact ServerRef.noConfusion
  · exact absurd hconfigured hsome

namespace Node

variable {m m' n n' : Node} {calls : List NodeCall} {log log' : List Sent} {call : NodeCall}
  {sent : Option Sent} {k : ℕ} {c c' : NrpdConfig} {current current' : Option ServerRef}

/-! ### Calls -/

/-- The calls on the configuration that a call of a node makes. A client that comes back from `recv`
reports a failure, or makes the calls for the messages of an answer and reports a success; it
reports nothing when `recv` failed for another reason than a timeout. -/
inductive Makes (n : Node) : NodeCall → List ClientCall → Prop
  | serve (bytes : List UInt8) (srcAddr : SockaddrStorage) : Makes n (.serve bytes srcAddr) []
  | sendRequest (connected sent : Bool) : Makes n (.sendRequest connected sent) [.getNextServer]
  | failed {system : SystemCalls} (hfailed : system.received = .failed) :
    Makes n (.receiveResponse system) []
  | failure {system : SystemCalls} (hreceived : system.received ≠ .failed)
      (hrejected : ∀ packet os, ¬ n.Hears system packet os) :
    Makes n (.receiveResponse system) [.incrementServerFailCount]
  | success {system : SystemCalls} {packet : Mem} {os : List ℕ}
      (hhears : n.Hears system packet os) :
    Makes n (.receiveResponse system)
      (os.filterMap (messageCall n.config packet) ++ [.markServerSuccessful])
  | cleanRecentClients : Makes n .cleanRecentClients []
  | cleanBannedServers : Makes n .cleanBannedServers [.cleanBannedServers]

/-- The calls on the configuration that the calls of a node make. -/
inductive MakesAll : Node → List NodeCall → List ClientCall → Prop
  | nil (n : Node) : MakesAll n [] []
  | cons {n n' : Node} {call : NodeCall} {sent : Option Sent} {calls : List NodeCall}
      {made madeAll : List ClientCall} (hrun : call.run n = some (n', sent))
      (hmade : Makes n call made) (hrest : MakesAll n' calls madeAll) :
    MakesAll n (call :: calls) (made ++ madeAll)

/-- A client that waits for a server has it as its current one. -/
def Current (n : Node) (current : Option ServerRef) : Prop :=
  ∀ ref, n.asked = some ref → current = some ref

theorem after_singleton {s s' : ClientRun} {call : ClientCall} (h : call.run s = some s') :
    after ClientCall.run [call] s = some s' := by
  show (call.run s).bind some = some s'
  rw [h, Option.bind_some]

/-- A report of the server that the client waits for. -/
theorem exists_after_report {s : ClientRun} {ref : ServerRef} {left : NrpdConfig × SteadyClock}
    (hcurrent : s.current = some ref) :
    (s.config.incrementServerFailCount ref s.clock = some left →
      ∃ current', after ClientCall.run [.incrementServerFailCount] s =
        some ⟨left.1, left.2, current'⟩) ∧
    (s.config.markServerSuccessful ref s.clock = some left →
      ∃ current', after ClientCall.run [.markServerSuccessful] s =
        some ⟨left.1, left.2, current'⟩) := by
  refine ⟨fun hrun => ?_, fun hrun => ?_⟩ <;>
  · obtain ⟨serv, hserv, -⟩ := Option.bind_eq_some_iff.1 hrun
    have hserver : s.server = some serv := by
      rw [ClientRun.server, hcurrent]
      exact hserv
    exact ⟨_, after_singleton (Option.bind_eq_some_iff.2 ⟨ref, hcurrent,
      Option.bind_eq_some_iff.2 ⟨serv, hserver, Option.bind_eq_some_iff.2 ⟨left, hrun, rfl⟩⟩⟩)⟩

/-- A client that comes back from `recv`. -/
theorem exists_after_of_receiveResponse {ref : ServerRef} {system : SystemCalls}
    {received : ClientState × (ServerRef → List ServerRef)}
    (h : m.client.receiveResponse ref system = some received) :
    ∃ made s, Makes m (.receiveResponse system) made ∧
      after ClientCall.run made ⟨m.config, m.clock, some ref⟩ = some s ∧
      received.1.config.Recounted s.config ∧ s.clock.LaterThan received.1.clock := by
  -- a failure is reported, whatever is in the buffer
  have hfailure {client : ClientState} (hconfig : client.config = m.config)
      (hclock : client.clock = m.clock) (hreported : client.reportFailure ref = some received)
      (hmade : Makes m (.receiveResponse system) [.incrementServerFailCount]) :
      ∃ made s, Makes m (.receiveResponse system) made ∧
        after ClientCall.run made ⟨m.config, m.clock, some ref⟩ = some s ∧
        received.1.config.Recounted s.config ∧ s.clock.LaterThan received.1.clock := by
    obtain ⟨counted, hcounted, hreported⟩ := Option.bind_eq_some_iff.1 hreported
    obtain rfl := Option.some.inj hreported
    rw [hconfig, hclock] at hcounted
    obtain ⟨current', hafter⟩ :=
      (exists_after_report (s := ⟨m.config, m.clock, some ref⟩) rfl).1 hcounted
    exact ⟨_, _, hmade, hafter, .refl _, .refl _⟩
  rw [ClientState.receiveResponse] at h
  cases hcalls : system.received with
  | timedOut =>
    rw [hcalls] at h
    refine hfailure rfl rfl h (.failure (by rw [hcalls]; exact Received.noConfusion) ?_)
    rintro packet os ⟨bytes, hdatagram, -⟩
    rw [hcalls] at hdatagram
    cases hdatagram
  | failed =>
    rw [hcalls] at h
    obtain rfl := Option.some.inj h
    exact ⟨[], _, .failed hcalls, rfl, .refl _, .refl _⟩
  | datagram bytes =>
    rw [hcalls] at h
    obtain ⟨valid, hvalid, h⟩ := Option.bind_eq_some_iff.1 h
    cases valid with
    | false =>
      rw [if_neg Bool.false_ne_true] at h
      refine hfailure (by rfl) (by rfl) h
        (.failure (by rw [hcalls]; exact Received.noConfusion) ?_)
      rintro packet os ⟨bytes', hdatagram, rfl, hos⟩
      rw [hcalls] at hdatagram
      obtain rfl := Received.datagram.inj hdatagram
      rw [validateResponsePacket_iff.2 ⟨os, hos⟩] at hvalid
      cases hvalid
    | true =>
      rw [if_pos rfl] at h
      obtain ⟨parsed, hparsed, h⟩ := Option.bind_eq_some_iff.1 h
      obtain ⟨reported, hreported, h⟩ := Option.bind_eq_some_iff.1 h
      obtain ⟨marked, hmarked, hreported⟩ := Option.bind_eq_some_iff.1 hreported
      obtain rfl := Option.some.inj hreported
      obtain rfl := Option.some.inj h
      obtain ⟨os, hos⟩ := validateResponsePacket_iff.1 hvalid
      obtain ⟨parsed', hparsed', hmessages⟩ := parseResponse_calls ⟨_, os, hos⟩ m.client ref
      obtain rfl := Option.some.inj (hparsed.symm.trans hparsed')
      obtain ⟨current', hreport⟩ :=
        (exists_after_report (s := ⟨parsed.config, parsed.clock, some ref⟩) rfl).2 hmarked
      refine ⟨_, ⟨marked.1, marked.2, current'⟩, .success ⟨bytes, hcalls, rfl, hos⟩, ?_, ?_, ?_⟩
      · rw [after_append]
        exact Option.bind_eq_some_iff.2 ⟨_, hmessages, hreport⟩
      · rw [config_addTimeEntropy]
        exact .refl _
      · rw [ClientState.addTimeEntropy]
        split <;> exact .refl _

/-- **One call.** What a call of a node leaves is what the calls that it makes leave, apart from
counts, and it takes their readings first. -/
theorem exists_after_of_run (hconfigured : m.config.configuredServers = []) (hsound : m.Sound k)
    (hk : k + call.receives < 67108864) (hcurrent : m.Current current)
    (hrun : call.run m = some (m', sent)) :
    ∃ made s, Makes m call made ∧
      after ClientCall.run made ⟨m.config, m.clock, current⟩ = some s ∧
      m'.config.Recounted s.config ∧ m'.Current s.current ∧ s.clock.LaterThan m'.clock := by
  cases call with
  | serve bytes srcAddr =>
    have hserves := serves_of_run hsound.counts (hsound.few.trans_lt (by omega)) hrun
    obtain ⟨hread, hasked⟩ := hserves.readBy
    refine ⟨[], _, .serve bytes srcAddr, rfl, hread.recounted.symm, ?_, ?_⟩
    · rw [Current, hasked]
      exact hcurrent
    · cases hserves with
      | malformed => exact .refl _
      | tooSoon => exact m.recentClients.laterThan_isPresentAdd srcAddr m.clock
      | answered => exact m.recentClients.laterThan_isPresentAdd srcAddr m.clock
  | sendRequest connected sent' =>
    obtain ⟨hidle, asked, hsend, rfl, -⟩ := NodeCall.of_sendRequest hrun
    obtain ⟨next, record, hnext, -, hconfig, hlater, -, hrequest⟩ :=
      ClientState.of_sendRequest hsend
    refine ⟨[.getNextServer], _, .sendRequest connected sent', after_singleton
      (Option.bind_eq_some_iff.2 ⟨next, hnext, rfl⟩), ?_, ?_, hlater⟩
    · show asked.1.config.Recounted next.2
      rw [hconfig]
      exact .refl _
    · intro ref href
      obtain ⟨⟨request, bytes⟩, hasked, rfl⟩ := Option.map_eq_some_iff.1 href
      show next.1.listed = some request.server
      rw [(hrequest request bytes hasked).1]
      exact listed_of_ne (ne_configured_of_getNextServer hconfigured hnext)
  | receiveResponse system =>
    obtain ⟨ref, received, hasked, hreceived, rfl, -⟩ := NodeCall.of_receiveResponse hrun
    obtain rfl : current = some ref := hcurrent ref hasked
    obtain ⟨made, s, hmade, hafter, hcounts, hlater⟩ := exists_after_of_receiveResponse hreceived
    exact ⟨made, s, hmade, hafter, hcounts, fun _ h => (by cases h), hlater⟩
  | cleanRecentClients =>
    obtain ⟨rfl, -⟩ := Prod.mk.inj (Option.some.inj hrun)
    exact ⟨[], _, .cleanRecentClients, rfl, .refl _, hcurrent, m.recentClients.laterThan_clean _⟩
  | cleanBannedServers =>
    obtain ⟨rfl, -⟩ := Prod.mk.inj (Option.some.inj hrun)
    exact ⟨[.cleanBannedServers], _, .cleanBannedServers, after_singleton rfl, .refl _, hcurrent,
      .refl _⟩

theorem configuredServers_of_run (hconfigured : m.config.configuredServers = [])
    (hsound : m.Sound k) (hk : k + call.receives < 67108864)
    (hrun : call.run m = some (m', sent)) : m'.config.configuredServers = [] := by
  have hsame := configuredEndpoints_of_run hsound hk hrun
  rw [configuredEndpoints, configuredEndpoints, hconfigured] at hsame
  exact List.map_eq_nil_iff.1 hsame

/-- A configuration that differs from the one of the node in counts, and a server that is the one
that the node waits for. -/
structure Mirrors (n : Node) (c : NrpdConfig) (current : Option ServerRef) : Prop where
  counts : n.config.Recounted c
  current : n.Current current

/-- **One call.** The calls that a call of a node makes can be made on every configuration that
mirrors it, and on every clock that goes on with the readings that they take. -/
theorem Mirrors.run (h : m.Mirrors c current) (hconfigured : m.config.configuredServers = [])
    (hsound : m.Sound k) (hk : k + call.receives < 67108864)
    (hrun : call.run m = some (m', sent)) :
    ∃ made c' current' j, Makes m call made ∧ m'.Mirrors c' current' ∧
      (m.clock.skip j).LaterThan m'.clock ∧ ∀ d, m.clock.AgreeFor d j →
        after ClientCall.run made ⟨c, d, current⟩ = some ⟨c', d.skip j, current'⟩ := by
  obtain ⟨made, s, hmade, hafter, hcounts, hcurrent, hlater⟩ :=
    exists_after_of_run hconfigured hsound hk h.current hrun
  obtain ⟨c', hcounts', hafter'⟩ := ClientCall.recounted_after h.counts hafter
  have hreads : IsReader ClientRun.ofClock fun clock =>
      after ClientCall.run made (ClientRun.ofClock (c, current) clock) :=
    IsReader.after (fun state call => call.isReader_run state) made (c, current)
  obtain ⟨state, j, hstate, hagree⟩ := hreads m.clock _ hafter'
  obtain ⟨hconfig, hclock, hsame⟩ := ClientRun.mk.inj hstate
  rw [hconfig] at hcounts'
  rw [hclock] at hlater
  rw [hsame] at hcurrent
  exact ⟨made, state.1, state.2, j, hmade, ⟨hcounts.trans hcounts', hcurrent⟩, hlater, hagree⟩

/-- **Runs.** The same for the calls of a run, which take their readings in between. -/
theorem Mirrors.after (h : m.Mirrors c current) (hconfigured : m.config.configuredServers = [])
    (hsound : m.Sound k) (hfew : k + (calls.map NodeCall.receives).sum < 67108864)
    (hafter : Runs.after NodeCall.log calls (m, log) = some (m', log')) :
    ∃ made c' current' f taken, MakesAll m calls made ∧ m'.Mirrors c' current' ∧
      m.clock.LaterThan m'.clock ∧ StrictMono f ∧
      (∀ i < taken, m.clock.taken + f i < m'.clock.taken) ∧
      ∀ d : SteadyClock, (∀ i, (d.skip i).now = (m.clock.skip (f i)).now) →
        Runs.after ClientCall.run made ⟨c, d, current⟩ = some ⟨c', d.skip taken, current'⟩ := by
  induction calls generalizing m log k c current with
  | nil =>
    obtain ⟨rfl, rfl⟩ := Prod.mk.inj (Option.some.inj hafter)
    exact ⟨[], c, current, id, 0, .nil m, h, .refl _, strictMono_id,
      fun i hi => absurd hi (Nat.not_lt_zero i), fun d _ => rfl⟩
  | cons call calls ih =>
    obtain ⟨⟨_, _⟩, hlog, hrest⟩ := Option.bind_eq_some_iff.1 hafter
    obtain ⟨⟨m₁, sent⟩, hrun, hleft⟩ := Option.map_eq_some_iff.1 hlog
    obtain ⟨rfl, rfl⟩ := Prod.mk.inj hleft
    rw [List.map_cons, List.sum_cons, ← Nat.add_assoc] at hfew
    have hk : k + call.receives < 67108864 := by omega
    obtain ⟨made, c₁, current₁, j, hmade, hmirrors, hlater, hfirst⟩ :=
      h.run hconfigured hsound hk hrun
    obtain ⟨madeAll, c', current', g, taken, hmadeAll, hmirrors', hlast, hg, htaken, hrest'⟩ :=
      ih hmirrors (configuredServers_of_run hconfigured hsound hk hrun) (hsound.run hk hrun)
        hfew hrest
    -- the readings of the other calls begin behind those that all threads take in this one
    have hnext := (LaterThan.skip m.clock j).trans hlater
    obtain ⟨e, he⟩ := hnext.exists_skip
    have hle : j ≤ e := by
      have hlate : m.clock.taken + j ≤ m₁.clock.taken := hlater.2
      rw [he] at hlate
      exact Nat.le_of_add_le_add_left hlate
    have hend : m₁.clock.taken = m.clock.taken + e := congrArg SteadyClock.taken he
    refine ⟨made ++ madeAll, c', current', splice j e g, j + taken, .cons hrun hmade hmadeAll,
      hmirrors', hnext.trans hlast, strictMono_splice hg hle, fun i hi => ?_, fun d hd => ?_⟩
    · by_cases hi' : i < j
      · have hlate : m₁.clock.taken ≤ m'.clock.taken := hlast.2
        rw [splice_of_lt hi']
        omega
      · obtain ⟨i, rfl⟩ := Nat.exists_eq_add_of_le (Nat.le_of_not_lt hi')
        rw [splice_add, ← Nat.add_assoc, ← hend]
        exact htaken i (by omega)
    · have hnow : m.clock.AgreeFor d j := fun i hi => by rw [hd, splice_of_lt hi]
      rw [after_append, hfirst d hnow, Option.bind_some]
      rw [hrest' (d.skip j) fun i => by
        rw [skip_skip, hd, splice_add, he, skip_skip], skip_skip]

/-- **The client.** In every run of a node without configured servers, with its server, the
cleanings and any datagrams in between: the calls on the configuration that its client makes are a
run of the client's calls alone, from the configuration at the start, on a clock that leaves out
readings of the clock of the node, is steady if that one is, and is not ahead of it. What they
leave is the configuration of the node, apart from the cached counts, and the server that the node
waits for. -/
theorem Ran.refines (h : n.Ran calls n' log) (hconfigured : n.config.configuredServers = []) :
    ∃ made f s, MakesAll n calls made ∧ StrictMono f ∧
      (n.clock.Steady → (n.clock.thinned f).Steady) ∧
      Runs.after ClientCall.run made ⟨n.config, n.clock.thinned f, none⟩ = some s ∧
      n'.config.Recounted s.config ∧ n'.Current s.current ∧
      ∀ i < s.clock.taken, n.clock.taken + f i < n'.clock.taken := by
  have hstart : n.Mirrors n.config none := ⟨.refl _, fun ref href => by
    rw [h.start.asked] at href
    cases href⟩
  obtain ⟨made, c', current', f, taken, hmade, hmirrors, -, hf, htaken, hafter⟩ :=
    hstart.after hconfigured h.start.sound h.few h.after
  refine ⟨made, f, _, hmade, hf, fun hsteady => hsteady.thinned hf.monotone,
    hafter (n.clock.thinned f) fun i => now_skip_thinned n.clock f i, hmirrors.counts,
    hmirrors.current, fun i hi => htaken i ?_⟩
  exact hi.trans_eq (Nat.zero_add taken)

/-- A node whose server answers, and whose caches are cleaned, while its client waits. -/
theorem Ran.refines_example :
    let calls := [NodeCall.sendRequest true true,
      .serve peersRequestBytes (.inet #v[10, 0, 0, 9] 4000), .cleanBannedServers,
      .receiveResponse (requestCalls (.datagram [0, 9, 2, 1, 0, 5, 5, 1, 7]))]
    ∃ n' log made f s, sampleNode.Ran calls n' log ∧ MakesAll sampleNode calls made ∧
      Runs.after ClientCall.run made ⟨sampleNode.config, sampleNode.clock.thinned f, none⟩ =
        some s ∧ s.config.activeServers.elems.length = 1 := by
  intro calls
  obtain ⟨n', log, hran, hlength⟩ := exists_ran_sampleNode calls
    (·.1.config.activeServers.elems.length) 1 (by decide) (by decide)
  obtain ⟨made, f, s, hmade, -, -, hafter, hcounts, -⟩ := hran.refines rfl
  obtain ⟨n₄, n₆, hsame⟩ := hcounts
  refine ⟨n', log, made, f, s, hran, hmade, hafter, ?_⟩
  rw [hsame]
  exact hlength

end Node

end Nrpd
