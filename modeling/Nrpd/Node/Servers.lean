import Nrpd.Client.Intake
import Nrpd.Node

/-!
# The servers of a node

The client of a node over whole runs. As long as it knows a server it has somebody to ask, and when
it comes back from `recv` its turn ends, unless it has asked a configured server. A server becomes
active for one reason only: the node sent it a request and accepted an answer; and it is active
right behind the turn in which the answer is accepted.

## Main definitions

* `NrpdConfig.Endpoints`: what is known about the endpoints of the two lists.
* `Node.Hears`: an answer that is accepted.
* `Node.Changes`: what a call does to the records.
* `Node.Answered`: an accepted answer to a request that was sent.

## Main results

* `Node.Ran.client_ends`: the turns of the client.
* `Node.changes_of_run`, `Node.endpoints_of_run`: what a call does to the records, and to the
  endpoints of the lists.
* `Node.Ran.active_answered`: why a server is active.
* `Node.Ran.answered_active`: when a server becomes active.
-/

namespace Nrpd

open SteadyClock NrpdConfig ServerRecord

/-! ### The turns of the client -/

section Waits

variable {c : NrpdConfig} {clock : SteadyClock} {ref : ServerRef}

/-- A failure of a server of one of the lists can be reported. -/
theorem Waits.exists_counted (h : Waits c clock ref) (hlisted : ∀ i, ref ≠ .configured i) :
    ∃ counted, c.incrementServerFailCount ref clock = some counted := by
  have hstep : ClientRun.InStep ⟨c, clock, some ref⟩ := listed_of_ne hlisted ▸ h.inStep
  obtain ⟨serv, hserv, hplace⟩ := hstep.exists_server rfl
  by_cases hmany : failsOut serv = true
  · rcases hplace with ⟨i, rfl, hit, hget, hprob⟩ | ⟨i, rfl, hit, hget, hprob⟩
    · obtain ⟨n₄, n₆, hcounted⟩ := incrementServerFailCount_active clock hit hget hprob hmany
      exact ⟨_, hcounted⟩
    · obtain ⟨n₄, n₆, hcounted⟩ :=
        incrementServerFailCount_probationary clock hit hget hprob hmany
      exact ⟨_, hcounted⟩
  · exact ⟨_, incrementServerFailCount_of_few clock hserv (by simpa using hmany)⟩

/-- A success of a server of one of the lists can be reported. -/
theorem Waits.exists_marked (h : Waits c clock ref) (hlisted : ∀ i, ref ≠ .configured i) :
    ∃ marked, c.markServerSuccessful ref clock = some marked := by
  have hstep : ClientRun.InStep ⟨c, clock, some ref⟩ := listed_of_ne hlisted ▸ h.inStep
  obtain ⟨serv, hserv, ⟨i, rfl, -, -, hprob⟩ | ⟨i, rfl, hit, hget, hprob⟩⟩ :=
    hstep.exists_server rfl
  · exact ⟨_, markServerSuccessful_active clock hserv hprob⟩
  · obtain ⟨n₄, n₆, hmarked⟩ := markServerSuccessful_probationary clock hit hget hprob
    exact ⟨_, hmarked⟩

end Waits

/-! ### Reports -/

namespace NrpdConfig

/-- Two configurations with the same records. -/
structure SameRecords (c c' : NrpdConfig) : Prop where
  configured : c'.configuredServers = c.configuredServers
  active : c'.activeServers = c.activeServers
  probationary : c'.probationaryServers = c.probationaryServers

/-- A configuration without the record of a server of one of the two lists. -/
def withoutServer (c : NrpdConfig) : ServerRef → NrpdConfig
  | .configured _ => c
  | .active i => { c with activeServers := c.activeServers.eraseIdx i }
  | .probationary i => { c with probationaryServers := c.probationaryServers.eraseIdx i }

end NrpdConfig

section Reports

variable {c c' : NrpdConfig} {clock clock' : SteadyClock} {ref : ServerRef}

/-- **Failures.** The record is changed where it is, or removed when it has failed too often. -/
theorem Waits.of_incrementServerFailCount (h : Waits c clock ref)
    (hrun : c.incrementServerFailCount ref clock = some (c', clock')) :
    ∃ serv, c.server? ref = some serv ∧
      (failsOut serv = false ∧
          (c.updateServer ref (failed clock.now) (host_failed clock.now)).SameRecords c' ∨
        failsOut serv = true ∧ (∀ i, ref ≠ .configured i) ∧
          (c.withoutServer ref).SameRecords c') := by
  obtain ⟨serv, hserv, -⟩ := Option.bind_eq_some_iff.1 hrun
  refine ⟨serv, hserv, ?_⟩
  by_cases hmany : failsOut serv = true
  · refine .inr ⟨hmany, ?_⟩
    by_cases hconfigured : ∃ i, ref = .configured i
    · obtain ⟨i, rfl⟩ := hconfigured
      rw [(h.fallback i rfl).incrementServerFailCount_eq_none hserv hmany] at hrun
      cases hrun
    have hne : ∀ i, ref ≠ .configured i := fun i hi => hconfigured ⟨i, hi⟩
    have hstep : ClientRun.InStep ⟨c, clock, some ref⟩ := listed_of_ne hne ▸ h.inStep
    obtain ⟨serv', hserv', hplace⟩ := hstep.exists_server rfl
    obtain rfl := Option.some.inj (hserv.symm.trans hserv')
    refine ⟨hne, ?_⟩
    rcases hplace with ⟨i, rfl, hit, hget, hprob⟩ | ⟨i, rfl, hit, hget, hprob⟩
    · obtain ⟨n₄, n₆, hdropped⟩ := incrementServerFailCount_active clock hit hget hprob hmany
      obtain ⟨rfl, -⟩ := Prod.mk.inj (Option.some.inj (hdropped.symm.trans hrun))
      exact ⟨rfl, rfl, rfl⟩
    · obtain ⟨n₄, n₆, hdropped⟩ :=
        incrementServerFailCount_probationary clock hit hget hprob hmany
      obtain ⟨rfl, -⟩ := Prod.mk.inj (Option.some.inj (hdropped.symm.trans hrun))
      exact ⟨rfl, rfl, rfl⟩
  · have hfew : failsOut serv = false := by simpa using hmany
    rw [incrementServerFailCount_of_few clock hserv hfew] at hrun
    obtain ⟨rfl, -⟩ := Prod.mk.inj (Option.some.inj hrun)
    exact .inl ⟨hfew, rfl, rfl, rfl⟩

/-- **Successes.** The record is changed where it is, or moves to the set of active servers. -/
theorem Waits.of_markServerSuccessful (h : Waits c clock ref)
    (hrun : c.markServerSuccessful ref clock = some (c', clock')) :
    ∃ serv, c.server? ref = some serv ∧
      ((c.updateServer ref (succeeded clock.now) (host_succeeded clock.now)).SameRecords c' ∨
        ∃ i, ref = .probationary i ∧
          SameRecords { c.withoutServer ref with
            activeServers := (c.activeServers.emplace (succeeded clock.now serv)).1 } c') := by
  obtain ⟨serv, hserv, -⟩ := Option.bind_eq_some_iff.1 hrun
  refine ⟨serv, hserv, ?_⟩
  by_cases hprob : serv.probationary = true
  · by_cases hconfigured : ∃ i, ref = .configured i
    · obtain ⟨i, rfl⟩ := hconfigured
      rw [(h.fallback i rfl).markServerSuccessful_eq_none hserv hprob] at hrun
      cases hrun
    have hlisted := listed_of_ne fun i hi => hconfigured ⟨i, hi⟩
    have hstep : ClientRun.InStep ⟨c, clock, some ref⟩ := hlisted ▸ h.inStep
    obtain ⟨serv', hserv', hplace⟩ := hstep.exists_server rfl
    obtain rfl := Option.some.inj (hserv.symm.trans hserv')
    rcases hplace with ⟨i, rfl, -, -, hactive⟩ | ⟨i, rfl, hit, hget, -⟩
    · rw [hprob] at hactive
      cases hactive
    · obtain ⟨n₄, n₆, hpromoted⟩ := markServerSuccessful_probationary clock hit hget hprob
      obtain ⟨rfl, -⟩ := Prod.mk.inj (Option.some.inj (hpromoted.symm.trans hrun))
      exact .inr ⟨i, rfl, rfl, rfl, rfl⟩
  · rw [markServerSuccessful_active clock hserv (by simpa using hprob)] at hrun
    obtain ⟨rfl, -⟩ := Prod.mk.inj (Option.some.inj hrun)
    exact .inl ⟨rfl, rfl, rfl⟩

end Reports

namespace Node

variable {n n' : Node} {calls : List NodeCall} {log : List Sent} {call : NodeCall}
  {sent : Option Sent} {k : ℕ}

/-- The client of a node comes back from `recv` with a datagram, and accepts what is in its buffer
then. -/
def Hears (n : Node) (calls : SystemCalls) (packet : Mem) (os : List ℕ) : Prop :=
  ∃ bytes, calls.received = .datagram bytes ∧
    packet = n.client.buffer.write 0 (bytes.take maxResponseMessageSize) ∧
    IsResponsePacket packet os

/-- **Success.** An answer of a server of one of the lists, if it is accepted, is taken and its
success is reported. -/
theorem exists_accepted {system : SystemCalls} {packet : Mem} {os : List ℕ} {ref : ServerRef}
    (hwaits : Waits n.config n.clock ref) (hasked : n.asked = some ref)
    (hlisted : ∀ i, ref ≠ .configured i) (hhears : n.Hears system packet os) :
    ∃ (parsed : ClientState) (marked : NrpdConfig × SteadyClock),
      parsed.intake = (messagesAt packet os).foldl (Intake.take ref) n.client.intake ∧
      Waits parsed.config parsed.clock ref ∧
      parsed.config.markServerSuccessful ref parsed.clock = some marked ∧
      NodeCall.run n (.receiveResponse system) = some (n.withClient (ClientState.addTimeEntropy
        { parsed with config := marked.1, clock := marked.2 } system) none, none) := by
  obtain ⟨bytes, hreceived, rfl, hos⟩ := hhears
  set buffer := n.client.buffer.write 0 (bytes.take maxResponseMessageSize) with hbuffer
  have hvalid := validateResponsePacket_iff.2 ⟨os, hos⟩
  obtain ⟨parsed, hparsed, hintake⟩ :=
    parseResponse_eq_take (s := { n.client with buffer := buffer }) hos ref
  obtain ⟨hparsedWaits, -⟩ := hwaits.parseResponse hvalid hparsed
  obtain ⟨marked, hmarked⟩ := hparsedWaits.exists_marked hlisted
  refine ⟨parsed, marked, hintake, hparsedWaits, hmarked, ?_⟩
  simp only [NodeCall.run, hasked, ClientState.receiveResponse, hreceived, ← hbuffer, hvalid,
    hparsed, ClientState.reportSuccess, hmarked, Option.bind_eq_bind, Option.bind_some, if_true]

/-- **The turns of the client.** In every state that a node reaches, the iterator that is stepped
back from the first active server being the end: a client that waits for nobody finds a server to
ask if and only if it knows one; and a client that has asked a server of one of the two lists, and
comes back from `recv`, ends its turn, whatever has been received. -/
theorem Ran.client_ends (h : n.Ran calls n' log) :
    (n'.asked = none → ∀ connected sent,
      ((NodeCall.run n' (.sendRequest connected sent)).isSome ↔
        n'.config.activeServers.elems ≠ [] ∨ n'.config.probationaryServers ≠ [] ∨
          n'.config.configuredServers ≠ [])) ∧
    ∀ ref, n'.asked = some ref → (∀ i, ref ≠ .configured i) → ∀ calls,
      (NodeCall.run n' (.receiveResponse calls)).isSome := by
  have hsound := h.sound
  refine ⟨fun hasked connected sent => ?_, fun ref hasked hlisted calls => ?_⟩
  · rw [← hasNext_iff hsound.idle.activeIterator hsound.idle.probationaryIterator]
    simp only [NodeCall.run, hasked]
    constructor
    · intro hrun
      obtain ⟨left, hrun⟩ := Option.isSome_iff_exists.1 hrun
      obtain ⟨asked, hsend, -⟩ := Option.bind_eq_some_iff.1 hrun
      obtain ⟨next, record, hnext, hrecord, -⟩ := ClientState.of_sendRequest hsend
      exact ⟨next.1, next.2, record, hnext, hrecord⟩
    · rintro ⟨ref, c', serv, hnext, hserv⟩
      have hsend : (n'.client.sendRequest connected sent).isSome := by
        have hnext' : n'.client.config.getNextServer = some (ref, c') := hnext
        simp only [ClientState.sendRequest, hnext', hserv, Option.bind_eq_bind, Option.bind_some]
        by_cases hearly : n'.client.clock.now ≤ serv.lastaccessTime + seconds serv.retryTime
        · rw [if_pos hearly]
          rfl
        · rw [if_neg hearly]
          cases (constructRequest c' serv maxResponseMessageSize n'.client.buffer).1 with
          | none => rfl
          | some requestSize => cases connected && sent <;> rfl
      obtain ⟨asked, hsend⟩ := Option.isSome_iff_exists.1 hsend
      rw [hsend]
      rfl
  · have hwaits := hsound.waits ref hasked
    have hfailure (client : ClientState) (hconfig : client.config = n'.config)
        (hclock : client.clock = n'.clock) :
        ∃ reported, client.reportFailure ref = some reported := by
      obtain ⟨counted, hcounted⟩ := hwaits.exists_counted hlisted
      exact ⟨_, by rw [ClientState.reportFailure, hconfig, hclock, hcounted]; rfl⟩
    have hends {received : ClientState × (ServerRef → List ServerRef)}
        (hreceived : n'.client.receiveResponse ref calls = some received) :
        (NodeCall.run n' (.receiveResponse calls)).isSome = true := by
      simp only [NodeCall.run, hasked, hreceived, Option.bind_eq_bind, Option.bind_some,
        Option.isSome_some]
    cases hcalls : calls.received with
    | timedOut =>
      obtain ⟨reported, hreported⟩ := hfailure n'.client rfl rfl
      exact hends (by rw [ClientState.receiveResponse, hcalls]; exact hreported)
    | failed => exact hends (by rw [ClientState.receiveResponse, hcalls])
    | datagram bytes =>
      set buffer := n'.client.buffer.write 0 (bytes.take maxResponseMessageSize) with hbuffer
      obtain ⟨valid, hvalid⟩ := validateResponsePacket_isSome buffer
      cases valid with
      | false =>
        obtain ⟨reported, hreported⟩ := hfailure { n'.client with buffer := buffer } rfl rfl
        refine hends (?_ : _ = some reported)
        simp only [ClientState.receiveResponse, hcalls, ← hbuffer, hvalid, Option.bind_eq_bind,
          Option.bind_some, Bool.false_eq_true, if_false]
        exact hreported
      | true =>
        obtain ⟨os, hos⟩ := validateResponsePacket_iff.1 hvalid
        obtain ⟨_, _, -, -, -, hrun⟩ :=
          exists_accepted hwaits hasked hlisted ⟨bytes, hcalls, hbuffer, hos⟩
        rw [hrun]
        rfl

/-- A node that waits for its server. -/
theorem Ran.client_ends_example : ∃ n' log,
    sampleNode.Ran [.sendRequest true true] n' log ∧ n'.asked = some (.probationary 0) ∧
      ∀ calls, (NodeCall.run n' (.receiveResponse calls)).isSome := by
  obtain ⟨n', log, hran, hasked⟩ := exists_ran_sampleNode [.sendRequest true true] (·.1.asked)
    (some (.probationary 0)) (by decide) (by decide)
  exact ⟨n', log, hran, hasked, hran.client_ends.2 (.probationary 0) hasked
    fun i hi => ServerRef.noConfusion hi⟩

end Node

/-! ### The endpoints of the lists -/

/-- Every place keeps its record, and the record its endpoint. -/
def NrpdConfig.KeepsEndpoints (c c' : NrpdConfig) : Prop :=
  ∀ place r, c.server? place = some r → ∃ r', c'.server? place = some r' ∧ endpoint r' = endpoint r

/-- The endpoints of the active servers are of one kind, those of the probationary servers of
another one. -/
structure NrpdConfig.Endpoints (A P : Host × UInt16 → Prop) (c : NrpdConfig) : Prop where
  active : ∀ r ∈ c.activeServers.elems, A (endpoint r)
  probationary : ∀ r ∈ c.probationaryServers, P (endpoint r)

section Endpoints

variable {A P : Host × UInt16 → Prop} {c c' : NrpdConfig} {clock clock' : SteadyClock}
  {ref : ServerRef} {serv : ServerRecord}

theorem ServerRecord.KeepsServer.endpoint_eq {f : ServerRecord → ServerRecord} (hf : KeepsServer f)
    (r : ServerRecord) : endpoint (f r) = endpoint r := Prod.ext (hf.host r) (hf.port r)

theorem NrpdConfig.Endpoints.mono {A' P' : Host × UInt16 → Prop} (h : c.Endpoints A P)
    (hA : ∀ e, A e → A' e) (hP : ∀ e, P e → P' e) : c.Endpoints A' P' where
  active r hr := hA _ (h.active r hr)
  probationary r hr := hP _ (h.probationary r hr)

theorem NrpdConfig.Endpoints.congr (h : c.Endpoints A P) (hsame : c.SameRecords c') :
    c'.Endpoints A P where
  active := hsame.active ▸ h.active
  probationary := hsame.probationary ▸ h.probationary

/-- A record that is changed where it is. -/
theorem NrpdConfig.Endpoints.updateServer (h : c.Endpoints A P) (ref : ServerRef)
    {f : ServerRecord → ServerRecord} (hf : KeepsServer f) :
    (c.updateServer ref f hf.host).Endpoints A P where
  active r hr := by
    rcases mem_active_updateServer hf.host hr with hr | ⟨x, hx, -, rfl⟩
    · exact h.active r hr
    · exact (hf.endpoint_eq x).symm ▸ h.active x hx
  probationary r hr := by
    rcases mem_probationary_updateServer hf.host hr with hr | ⟨x, hx, -, rfl⟩
    · exact h.probationary r hr
    · exact (hf.endpoint_eq x).symm ▸ h.probationary x hx

theorem NrpdConfig.KeepsEndpoints.updateServer (c : NrpdConfig) (ref : ServerRef)
    {f : ServerRecord → ServerRecord} (hf : KeepsServer f) :
    c.KeepsEndpoints (c.updateServer ref f hf.host) := by
  intro place r hr
  rw [server?_updateServer, hr]
  by_cases hplace : place = ref
  · rw [if_pos hplace]
    exact ⟨f r, rfl, hf.endpoint_eq r⟩
  · rw [if_neg hplace]
    exact ⟨r, rfl, rfl⟩

/-- New records at the end of the probationary list. -/
theorem NrpdConfig.Endpoints.addServers (h : c.Endpoints A P) {servs : List ServerRecord}
    (hservs : ∀ serv ∈ servs, P (endpoint serv)) (clock : SteadyClock) :
    (addServers servs c clock).1.Endpoints A P ∧
      c.KeepsEndpoints (addServers servs c clock).1 := by
  refine addServers_invariant (P := fun c' => c'.Endpoints A P ∧ c.KeepsEndpoints c') servs
    (fun c' clock serv hserv hc _ => ⟨⟨hc.1.active, fun r hr => ?_⟩, fun place r hr => ?_⟩) clock
    ⟨h, fun _ r hr => ⟨r, hr, rfl⟩⟩
  · rcases List.mem_append.1 hr with hr | hr
    · exact hc.1.probationary r hr
    · rw [List.mem_singleton.1 hr]
      exact hservs serv hserv
  · obtain ⟨r', hr', hsame⟩ := hc.2 place r hr
    refine ⟨r', ?_, hsame⟩
    cases place with
    | probationary i =>
      obtain ⟨hi, -⟩ := List.getElem?_eq_some_iff.1 hr'
      exact (List.getElem?_append_left hi).trans hr'
    | _ => exact hr'

/-- **Messages.** The client takes new endpoints from the peers that a message lists. -/
theorem NrpdConfig.Endpoints.take {s : Intake} (h : s.config.Endpoints A P) (ref : ServerRef)
    {msg : ResponseMessage} (hmsg : ∀ e ∈ msg.servers, P e) :
    (s.take ref msg).config.Endpoints A P ∧ s.config.KeepsEndpoints (s.take ref msg).config := by
  have hrefl : s.config.KeepsEndpoints s.config := fun _ r hr => ⟨r, hr, rfl⟩
  have hpeers (enabled : Bool) : (s.takePeers enabled msg.servers).config.Endpoints A P ∧
      s.config.KeepsEndpoints (s.takePeers enabled msg.servers).config := by
    cases enabled with
    | false => exact ⟨h, hrefl⟩
    | true =>
      refine h.addServers (fun serv hserv => ?_) s.clock
      obtain ⟨e, he, rfl⟩ := List.mem_map.1 hserv
      exact hmsg e he
  cases msg with
  | entropy bytes => exact ⟨h, hrefl⟩
  | ip4peers peers => exact hpeers _
  | ip6peers peers => exact hpeers _
  | reject entries =>
    exact ⟨h.updateServer ref (keepsServer_parseRejectMessage entries),
      KeepsEndpoints.updateServer s.config ref (keepsServer_parseRejectMessage entries)⟩

theorem NrpdConfig.Endpoints.foldl_take {msgs : List ResponseMessage} (ref : ServerRef)
    (hmsgs : ∀ msg ∈ msgs, ∀ e ∈ msg.servers, P e) {s : Intake} (h : s.config.Endpoints A P) :
    (msgs.foldl (Intake.take ref) s).config.Endpoints A P ∧
      s.config.KeepsEndpoints (msgs.foldl (Intake.take ref) s).config := by
  induction msgs generalizing s with
  | nil => exact ⟨h, fun _ r hr => ⟨r, hr, rfl⟩⟩
  | cons msg msgs ih =>
    obtain ⟨htaken, hkept⟩ := h.take ref (hmsgs msg List.mem_cons_self)
    obtain ⟨hrest, hkept'⟩ := ih (fun msg hmsg => hmsgs msg (List.mem_cons_of_mem _ hmsg)) htaken
    refine ⟨hrest, fun place r hr => ?_⟩
    obtain ⟨r', hr', hsame⟩ := hkept place r hr
    obtain ⟨r'', hr'', hsame'⟩ := hkept' place r' hr'
    exact ⟨r'', hr'', hsame'.trans hsame⟩

theorem NrpdConfig.Endpoints.withoutServer (h : c.Endpoints A P) (ref : ServerRef) :
    (c.withoutServer ref).Endpoints A P := by
  cases ref with
  | configured i => exact h
  | active i => exact ⟨fun r hr => h.active r (List.mem_of_mem_eraseIdx hr), h.probationary⟩
  | probationary i => exact ⟨h.active, fun r hr => h.probationary r (List.mem_of_mem_eraseIdx hr)⟩

/-- **Failures.** They make no server active. -/
theorem NrpdConfig.Endpoints.incrementServerFailCount (h : c.Endpoints A P)
    (hwaits : Waits c clock ref) (hrun : c.incrementServerFailCount ref clock = some (c', clock')) :
    c'.Endpoints A P := by
  obtain ⟨serv, -, ⟨-, hsame⟩ | ⟨-, -, hsame⟩⟩ := hwaits.of_incrementServerFailCount hrun
  · exact (h.updateServer ref (keepsServer_failed clock.now)).congr hsame
  · exact (h.withoutServer ref).congr hsame

/-- **Successes.** They make the server active that is waited for, and no other one. -/
theorem NrpdConfig.Endpoints.markServerSuccessful (h : c.Endpoints A P)
    (hwaits : Waits c clock ref)
    (hanswered : (∀ i, ref ≠ .configured i) → ∀ serv, c.server? ref = some serv → A (endpoint serv))
    (hrun : c.markServerSuccessful ref clock = some (c', clock')) : c'.Endpoints A P := by
  obtain ⟨serv, hserv, hsame | ⟨i, rfl, hsame⟩⟩ := hwaits.of_markServerSuccessful hrun
  · exact (h.updateServer ref (keepsServer_succeeded clock.now)).congr hsame
  · refine NrpdConfig.Endpoints.congr ⟨fun r hr => ?_, ?_⟩ hsame
    · rcases OrderedSet.mem_of_mem_emplace hr with rfl | hr
      · exact hanswered (fun i hi => ServerRef.noConfusion hi) serv hserv
      · exact h.active r hr
    · exact (h.withoutServer (.probationary i)).probationary

end Endpoints

namespace Node

variable {n n' : Node} {calls : List NodeCall} {log : List Sent} {call : NodeCall}
  {sent : Option Sent} {k : ℕ}

/-- What a call does to the records of a node: nothing, or the client comes back from `recv` and
either reports a failure of the server that it waits for, or takes the messages of an answer and
reports a success. -/
inductive Changes (n : Node) (c' : NrpdConfig) : NodeCall → Prop
  | same {call : NodeCall} (hsame : n.config.SameRecords c')
      (hidle : ∀ system, call = .receiveResponse system → system.received = .failed) :
      Changes n c' call
  | failure {system : SystemCalls} {ref : ServerRef} {clock' : SteadyClock}
      (hasked : n.asked = some ref) (hwaits : Waits n.config n.clock ref)
      (hcounted : n.config.incrementServerFailCount ref n.clock = some (c', clock')) :
      Changes n c' (.receiveResponse system)
  | success {system : SystemCalls} {packet : Mem} {os : List ℕ} {ref : ServerRef}
      {parsed : ClientState} {clock' : SteadyClock} (hasked : n.asked = some ref)
      (hwaits : Waits n.config n.clock ref) (hhears : n.Hears system packet os)
      (hintake : parsed.intake = (messagesAt packet os).foldl (Intake.take ref) n.client.intake)
      (hparsed : Waits parsed.config parsed.clock ref)
      (hmarked : parsed.config.markServerSuccessful ref parsed.clock = some (c', clock')) :
      Changes n c' (.receiveResponse system)

/-- **One call.** Nothing else happens to the records. -/
theorem changes_of_run (hsound : n.Sound k) (hk : k + call.receives < 67108864)
    (hrun : call.run n = some (n', sent)) : n.Changes n'.config call := by
  cases call with
  | serve bytes srcAddr =>
    have hserves := serves_of_run hsound.counts (hsound.few.trans_lt (by omega)) hrun
    have hsame := hserves.readBy.1.recounted.samePlaces
    exact .same ⟨hsame.configured, hsame.active, hsame.probationary⟩ fun _ h => by cases h
  | sendRequest connected sent =>
    obtain ⟨-, asked, hsend, rfl, -⟩ := NodeCall.of_sendRequest hrun
    obtain ⟨next, record, hnext, -, hconfig, -⟩ := ClientState.of_sendRequest hsend
    obtain ⟨ia, ip, flag, -, -, heq, -⟩ := getNextServer_eq_some hnext
    refine .same ?_ fun _ h => by cases h
    show n.config.SameRecords asked.1.config
    rw [hconfig, heq]
    exact ⟨rfl, rfl, rfl⟩
  | receiveResponse system =>
    obtain ⟨ref, received, hasked, hreceived, rfl, -⟩ := NodeCall.of_receiveResponse hrun
    have hwaits := hsound.waits ref hasked
    have hfailure {client : ClientState} (hconfig : client.config = n.config)
        (hclock : client.clock = n.clock) (hreported : client.reportFailure ref = some received) :
        n.Changes received.1.config (.receiveResponse system) := by
      obtain ⟨counted, hcounted, hreported⟩ := Option.bind_eq_some_iff.1 hreported
      obtain rfl := Option.some.inj hreported
      rw [hconfig, hclock] at hcounted
      exact .failure hasked hwaits hcounted
    rw [ClientState.receiveResponse] at hreceived
    cases hcalls : system.received with
    | timedOut =>
      rw [hcalls] at hreceived
      exact hfailure rfl rfl hreceived
    | failed =>
      rw [hcalls] at hreceived
      obtain rfl := Option.some.inj hreceived
      refine .same ⟨rfl, rfl, rfl⟩ fun system' h => ?_
      obtain rfl := NodeCall.receiveResponse.inj h
      exact hcalls
    | datagram bytes =>
      rw [hcalls] at hreceived
      obtain ⟨valid, hvalid, hreceived⟩ := Option.bind_eq_some_iff.1 hreceived
      cases valid with
      | false =>
        rw [if_neg Bool.false_ne_true] at hreceived
        exact hfailure (by rfl) (by rfl) hreceived
      | true =>
        rw [if_pos rfl] at hreceived
        obtain ⟨parsed, hparsed, hreceived⟩ := Option.bind_eq_some_iff.1 hreceived
        obtain ⟨reported, hreported, hreceived⟩ := Option.bind_eq_some_iff.1 hreceived
        obtain ⟨marked, hmarked, hreported⟩ := Option.bind_eq_some_iff.1 hreported
        obtain rfl := Option.some.inj hreported
        obtain rfl := Option.some.inj hreceived
        obtain ⟨os, hos⟩ := validateResponsePacket_iff.1 hvalid
        obtain ⟨parsed', hparsed', hintake⟩ := parseResponse_eq_take hos ref
        obtain rfl := Option.some.inj (hparsed.symm.trans hparsed')
        obtain ⟨hparsedWaits, -⟩ := Waits.parseResponse hwaits hvalid hparsed
        show n.Changes (ClientState.addTimeEntropy _ _).config _
        rw [config_addTimeEntropy]
        exact .success hasked hwaits ⟨bytes, hcalls, rfl, hos⟩ hintake hparsedWaits hmarked
  | cleanRecentClients =>
    obtain ⟨rfl, -⟩ := Prod.mk.inj (Option.some.inj hrun)
    exact .same ⟨rfl, rfl, rfl⟩ fun _ h => by cases h
  | cleanBannedServers =>
    obtain ⟨rfl, -⟩ := Prod.mk.inj (Option.some.inj hrun)
    exact .same ⟨rfl, rfl, rfl⟩ fun _ h => by cases h

/-- **One call.** An active server is new when the client hears an answer of it, and a probationary
one when an answer lists it. -/
theorem endpoints_of_run {A P : Host × UInt16 → Prop} (h : n.config.Endpoints A P)
    (hsound : n.Sound k) (hk : k + call.receives < 67108864)
    (hrun : call.run n = some (n', sent))
    (hanswered : ∀ calls packet os ref serv, call = .receiveResponse calls →
      n.Hears calls packet os → n.asked = some ref → n.config.server? ref = some serv →
      A (endpoint serv))
    (hlisted : ∀ calls packet os, call = .receiveResponse calls → n.Hears calls packet os →
      ∀ msg ∈ messagesAt packet os, ∀ e ∈ msg.servers, P e) :
    n'.config.Endpoints A P := by
  cases changes_of_run hsound hk hrun with
  | same hsame => exact h.congr hsame
  | failure hasked hwaits hcounted => exact h.incrementServerFailCount hwaits hcounted
  | @success system packet os ref parsed _ hasked hwaits hhears hintake hparsed hmarked =>
    obtain ⟨htook, hkept⟩ := NrpdConfig.Endpoints.foldl_take ref
      (hlisted system packet os rfl hhears) (s := n.client.intake) h
    have hconfig : parsed.config = ((messagesAt packet os).foldl (Intake.take ref)
        n.client.intake).config := congrArg Intake.config hintake
    refine NrpdConfig.Endpoints.markServerSuccessful (hconfig ▸ htook) hparsed
      (fun hne serv hserv => ?_) hmarked
    have hstep : ClientRun.InStep ⟨n.config, n.clock, some ref⟩ := listed_of_ne hne ▸ hwaits.inStep
    obtain ⟨serv₀, hserv₀, -⟩ := hstep.exists_server rfl
    obtain ⟨serv', hserv', hsame⟩ := hkept ref serv₀ hserv₀
    rw [← hconfig, hserv] at hserv'
    obtain rfl := Option.some.inj hserv'
    exact hsame ▸ hanswered system packet os ref serv₀ rfl hhears hasked hserv₀

/-! ### Active servers -/

/-- The client of a node waits for a server that it has sent a request to. -/
def AskedSent (s : Node × List Sent) : Prop :=
  ∀ ref, s.1.asked = some ref → ∃ serv request bytes, s.1.config.server? ref = some serv ∧
    Sent.request request bytes ∈ s.2 ∧ endpoint request.record = endpoint serv

theorem AskedSent.congr (h : AskedSent (n, log)) (hasked : n'.asked = n.asked)
    (hsame : SamePlaces n.config n'.config) : AskedSent (n', log ++ sent.toList) := by
  intro ref href
  obtain ⟨serv, request, bytes, hserv, hmem, hendpoint⟩ := h ref (hasked ▸ href)
  refine ⟨serv, request, bytes, ?_, List.mem_append_left _ hmem, hendpoint⟩
  rw [← hserv]
  show n'.config.server? ref = n.config.server? ref
  cases ref with
  | configured i => exact congrArg (·[i]?) hsame.configured
  | active i => exact congrArg (fun active => active.elems[i]?) hsame.active
  | probationary i => exact congrArg (·[i]?) hsame.probationary

/-- **One call.** -/
theorem AskedSent.run (h : AskedSent (n, log)) (hsound : n.Sound k)
    (hk : k + call.receives < 67108864) (hrun : call.run n = some (n', sent)) :
    AskedSent (n', log ++ sent.toList) := by
  cases call with
  | serve bytes srcAddr =>
    have hserves := serves_of_run hsound.counts (hsound.few.trans_lt (by omega)) hrun
    obtain ⟨hread, hasked⟩ := hserves.readBy
    exact h.congr hasked hread.recounted.samePlaces
  | sendRequest connected sent' =>
    obtain ⟨-, asked, hsend, rfl, rfl⟩ := NodeCall.of_sendRequest hrun
    obtain ⟨next, record, -, hrecord, hconfig, -, -, hrequest⟩ :=
      ClientState.of_sendRequest hsend
    intro ref href
    obtain ⟨⟨request, bytes⟩, hsome, rfl⟩ := Option.map_eq_some_iff.1 href
    obtain ⟨hserver, hsame, -⟩ := hrequest request bytes hsome
    refine ⟨record, request, bytes, ?_, ?_, congrArg endpoint hsame⟩
    · show asked.1.config.server? request.server = some record
      rw [hconfig, hserver, hrecord]
    · rw [hsome]
      exact List.mem_append_right _ List.mem_cons_self
  | receiveResponse calls =>
    obtain ⟨ref, received, -, -, rfl, -⟩ := NodeCall.of_receiveResponse hrun
    intro ref href
    cases href
  | cleanRecentClients =>
    obtain ⟨rfl, rfl⟩ := Prod.mk.inj (Option.some.inj hrun)
    exact h.congr rfl ⟨rfl, rfl, rfl, rfl, rfl⟩
  | cleanBannedServers =>
    obtain ⟨rfl, rfl⟩ := Prod.mk.inj (Option.some.inj hrun)
    exact h.congr rfl ⟨rfl, rfl, rfl, rfl, rfl⟩

/-- In a run, the node sent a request to an endpoint, and accepted a packet while it waited for the
server with this endpoint. -/
def Answered (n : Node) (calls : List NodeCall) (e : Host × UInt16) (packet : Mem) (os : List ℕ) :
    Prop :=
  ∃ before system after waiting log ref serv request bytes,
    calls = before ++ .receiveResponse system :: after ∧ n.Ran before waiting log ∧
    waiting.Hears system packet os ∧ waiting.asked = some ref ∧
    waiting.config.server? ref = some serv ∧ endpoint serv = e ∧
    Sent.request request bytes ∈ log ∧ endpoint request.record = e

/-- In a run, the node accepted an answer of the server with an endpoint. -/
def AnsweredBy (n : Node) (calls : List NodeCall) (e : Host × UInt16) : Prop :=
  ∃ packet os, n.Answered calls e packet os

theorem Answered.append {e : Host × UInt16} {packet : Mem} {os : List ℕ}
    (h : n.Answered calls e packet os) (more : List NodeCall) :
    n.Answered (calls ++ more) e packet os := by
  obtain ⟨before, system, after, waiting, log, ref, serv, request, bytes, rfl, hrest⟩ := h
  exact ⟨before, system, after ++ more, waiting, log, ref, serv, request, bytes,
    by rw [List.append_assoc, List.cons_append], hrest⟩

theorem AnsweredBy.append {e : Host × UInt16} (h : n.AnsweredBy calls e) (more : List NodeCall) :
    n.AnsweredBy (calls ++ more) e := by
  obtain ⟨packet, os, h⟩ := h
  exact ⟨packet, os, h.append more⟩

/-- A run without its last call. -/
theorem Ran.init (h : n.Ran (calls ++ [call]) n' log) :
    ∃ m log' sent, n.Ran calls m log' ∧ call.run m = some (n', sent) ∧
      log = log' ++ sent.toList ∧ m.Sound
        (n.config.activeServers.elems.length + (calls.map NodeCall.receives).sum) ∧
      n.config.activeServers.elems.length + (calls.map NodeCall.receives).sum + call.receives <
        67108864 := by
  obtain ⟨hstart, hfew, hafter⟩ := h
  obtain ⟨⟨m, log'⟩, hinit, hlast⟩ := Runs.after_concat hafter
  obtain ⟨left, hrun, hleft⟩ := Option.map_eq_some_iff.1 hlast
  obtain ⟨rfl, rfl⟩ := Prod.mk.inj hleft
  have hcount : n.config.activeServers.elems.length + (calls.map NodeCall.receives).sum +
      call.receives < 67108864 := by
    simp only [List.map_append, List.sum_append, List.map_cons, List.map_nil, List.sum_cons,
      List.sum_nil] at hfew
    omega
  have hran : n.Ran calls m log' := ⟨hstart, by omega, hinit⟩
  exact ⟨m, log', left.2, hran, hrun, rfl, hran.sound, hcount⟩

/-- The server that a node waits for is known, and was sent a request. -/
theorem Ran.askedSent (h : n.Ran calls n' log) : AskedSent (n', log) :=
  h.invariant (fun ref href => by
    rw [h.start.asked] at href
    cases href) fun _ _ _ _ _ _ hsound hk h hrun => h.run hsound hk hrun

/-- An answer that is accepted at the end of a run. -/
theorem answered_of_hears {system : SystemCalls} {packet : Mem} {os : List ℕ} {ref : ServerRef}
    {serv : ServerRecord} (h : n.Ran calls n' log) (hhears : n'.Hears system packet os)
    (hasked : n'.asked = some ref) (hserv : n'.config.server? ref = some serv) :
    n.Answered (calls ++ [.receiveResponse system]) (endpoint serv) packet os := by
  obtain ⟨serv', request, bytes, hserv', hmem, hendpoint⟩ := h.askedSent ref hasked
  obtain rfl := Option.some.inj (hserv.symm.trans hserv')
  exact ⟨calls, system, [], n', log, ref, serv, request, bytes, rfl, h, hhears, hasked, hserv, rfl,
    hmem, hendpoint⟩

/-- The active servers of a node have answered, or were active at the start. -/
theorem Ran.endpointsAnswered (h : n.Ran calls n' log) :
    n'.config.Endpoints (fun e =>
      (∃ r₀ ∈ n.config.activeServers.elems, endpoint r₀ = e) ∨ n.AnsweredBy calls e)
      (fun _ => True) := by
  induction calls using List.reverseRecOn generalizing n' log with
  | nil =>
    obtain ⟨rfl, -⟩ := Prod.mk.inj (Option.some.inj h.after)
    exact ⟨fun r hr => .inl ⟨r, hr, rfl⟩, fun _ _ => trivial⟩
  | append_singleton calls call ih =>
    obtain ⟨m, log', sent, hran, hrun, -, hsound, hk⟩ := h.init
    have hbefore := (ih hran).mono (fun e he => he.imp_right (·.append [call])) fun _ h => h
    refine endpoints_of_run hbefore hsound hk hrun ?_ fun _ _ _ _ _ _ _ _ _ => trivial
    rintro system packet os ref serv rfl hhears hasked hserv
    exact .inr ⟨packet, os, answered_of_hears hran hhears hasked hserv⟩

/-- **Active servers.** In every run, a server that is active was active at the start, or the node
sent a request to its endpoint and accepted an answer while it waited for it. -/
theorem Ran.active_answered (h : n.Ran calls n' log) :
    ∀ r ∈ n'.config.activeServers.elems,
      (∃ r₀ ∈ n.config.activeServers.elems, endpoint r₀ = endpoint r) ∨
        n.AnsweredBy calls (endpoint r) :=
  h.endpointsAnswered.active

/-- A node whose server has answered. -/
theorem Ran.active_answered_example :
    let calls := [NodeCall.sendRequest true true,
      .receiveResponse (requestCalls (.datagram [0, 9, 2, 1, 0, 5, 5, 1, 7]))]
    ∃ n' log, sampleNode.Ran calls n' log ∧ ∃ r ∈ n'.config.activeServers.elems,
      sampleNode.AnsweredBy calls (endpoint r) := by
  intro calls
  obtain ⟨n', log, hran, hlength⟩ := exists_ran_sampleNode calls
    (·.1.config.activeServers.elems.length) 1 (by decide) (by decide)
  obtain ⟨r, hr⟩ := List.exists_mem_of_length_pos (Nat.lt_of_lt_of_eq Nat.one_pos hlength.symm)
  refine ⟨n', log, hran, r, hr, (hran.active_answered r hr).resolve_left fun hold => ?_⟩
  obtain ⟨r₀, hr₀, -⟩ := hold
  cases hr₀

/-- **Promotions.** In every run, when the client waits for a probationary server and accepts an
answer, its turn ends, and right behind it the address of the server is that of an active one. -/
theorem Ran.answered_active (h : n.Ran calls n' log) {system : SystemCalls} {packet : Mem}
    {os : List ℕ} {i : ℕ} {serv : ServerRecord} (hhears : n'.Hears system packet os)
    (hasked : n'.asked = some (.probationary i))
    (hserv : n'.config.server? (.probationary i) = some serv) :
    ∃ left, NodeCall.run n' (.receiveResponse system) = some (left, none) ∧
      ∃ r ∈ left.config.activeServers.elems, r.host = serv.host := by
  have hwaits := h.sound.waits _ hasked
  have hlisted (j : ℕ) : ServerRef.probationary i ≠ .configured j := nofun
  obtain ⟨parsed, marked, hintake, hparsedWaits, hmarked, hrun⟩ :=
    exists_accepted hwaits hasked hlisted hhears
  refine ⟨_, hrun, ?_⟩
  show ∃ r ∈ (ClientState.addTimeEntropy _ _).config.activeServers.elems, r.host = serv.host
  rw [config_addTimeEntropy]
  -- the record is still at its place behind the messages of the answer
  have hany : n'.client.intake.config.Endpoints (fun _ => True) fun _ => True :=
    ⟨fun _ _ => trivial, fun _ _ => trivial⟩
  have hmsgs : ∀ msg ∈ messagesAt packet os, ∀ e ∈ msg.servers, True :=
    fun _ _ _ _ => trivial
  obtain ⟨-, hkept⟩ := NrpdConfig.Endpoints.foldl_take (.probationary i) hmsgs hany
  obtain ⟨serv', hserv', hsame⟩ := hkept _ serv hserv
  rw [← congrArg Intake.config hintake] at hserv'
  have hstep : ClientRun.InStep ⟨parsed.config, parsed.clock, some (.probationary i)⟩ :=
    hparsedWaits.inStep
  obtain ⟨serv'', hserv'', hplace⟩ := hstep.exists_server rfl
  obtain rfl := Option.some.inj (hserv'.symm.trans hserv'')
  rcases hplace with ⟨j, hj, -⟩ | ⟨j, hj, hit, hget, hprob⟩
  · cases hj
  · obtain rfl := ServerRef.probationary.inj hj
    obtain ⟨n₄, n₆, hpromoted⟩ :=
      markServerSuccessful_probationary parsed.clock hit hget hprob
    obtain rfl := Option.some.inj (hmarked.symm.trans hpromoted)
    obtain ⟨r, hr, hequiv⟩ := parsed.config.activeServers.exists_equiv_emplace
      (succeeded parsed.clock.now serv')
    refine ⟨r, hr, (equiv_lt_iff.1 hequiv).trans ?_⟩
    exact (host_succeeded _ serv').trans (congrArg Prod.fst hsame)

/-- A node whose probationary server answers. -/
theorem Ran.answered_active_example : ∃ n' log left serv,
    sampleNode.Ran [.sendRequest true true] n' log ∧
      n'.config.server? (.probationary 0) = some serv ∧
      NodeCall.run n' (.receiveResponse
        (requestCalls (.datagram [0, 9, 2, 1, 0, 5, 5, 1, 7]))) = some (left, none) ∧
      ∃ r ∈ left.config.activeServers.elems, r.host = serv.host := by
  obtain ⟨n', log, hran, hstate⟩ := exists_ran_sampleNode [.sendRequest true true]
    (fun s => (s.1.asked, (s.1.config.server? (.probationary 0)).isSome,
      validateResponsePacket (s.1.client.buffer.write 0 [0, 9, 2, 1, 0, 5, 5, 1, 7])))
    (some (.probationary 0), true, some true) (by decide) (by decide)
  obtain ⟨hasked, hstate⟩ := Prod.mk.inj hstate
  obtain ⟨hsome, hvalid⟩ := Prod.mk.inj hstate
  obtain ⟨serv, hserv⟩ := Option.isSome_iff_exists.1 hsome
  obtain ⟨os, hos⟩ := validateResponsePacket_iff.1 hvalid
  have hhears : n'.Hears (requestCalls (.datagram [0, 9, 2, 1, 0, 5, 5, 1, 7])) _ os :=
    ⟨_, rfl, rfl, hos⟩
  obtain ⟨left, hrun, hactive⟩ := hran.answered_active hhears hasked hserv
  exact ⟨n', log, left, serv, hran, hserv, hrun, hactive⟩

end Node

end Nrpd
