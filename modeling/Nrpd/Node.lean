import Nrpd.Cache.RateLimiter
import Nrpd.Client.ClientLoop
import Nrpd.Config.ConfiguredServers
import Nrpd.Server.Refinement

/-!
# A node

The program of `main.cpp`: a server and a client, each with a thread of its own, that share a
configuration. The client's thread is seen when it waits in `recv`, so the server answers between
the request and its response; the caches are cleaned by threads of their own at any time.

A turn of the server, and each of the two parts of a turn of the client, is one step here that no
other thread interrupts. In the program `ActiveServerCount` scans the set under the lock and stores
the count outside of it, and the server takes the list behind the count. No run of a node has a
removal between the scan and the store, or between the count and the list, which is the matter of
`Nrpd.Server.SharedConfig`. Nor does a run go on where the program reads the front of an empty list,
or through an iterator that has no element: the call has no result then.

## Main definitions

* `ClientState.sendRequest`: a turn of `ClientLoop` up to `send`.
* `Node`, `NodeCall`, `NodeCall.run`: the states of a node, and what its threads do.
* `connectServer`, `Sent.dest`: the addresses that packets go to.
* `Node.Sound`: the invariant.

## Main results

* `clientTurn_eq`: the two parts of a turn of `ClientLoop`.
* `Node.Sound.run`, `Node.Ran.sound`: what one call and every run keep.
-/

namespace Nrpd

open SteadyClock NrpdConfig ServerRecord Runs

/-! ### The two parts of a turn -/

/-- A turn of `ClientLoop` up to `send`: the request that was sent, if one was, and its bytes. -/
def ClientState.sendRequest (s : ClientState) (connected sent : Bool) :
    Option (ClientState × Option (Request × List UInt8)) := do
  let next ← s.config.getNextServer
  let record ← next.2.server? next.1
  let checked := { s with config := next.2, clock := s.clock.tick }
  if s.clock.now ≤ record.lastaccessTime + seconds record.retryTime then some (checked, none)
  else
    let built := constructRequest next.2 record maxResponseMessageSize s.buffer
    let ready := { checked with buffer := built.2 }
    match built.1 with
    | none => some (ready, none)
    | some requestSize =>
      if connected && sent then
        some ({ ready with clock := ready.clock.tick },
          some (⟨next.1, record, ready.clock.now⟩, built.2.read 0 requestSize))
      else some (ready, none)

/-- What is sent, and to whom: the request for the next server, whose retry time has passed. -/
theorem ClientState.of_sendRequest {s : ClientState} {connected sent : Bool}
    {asked : ClientState × Option (Request × List UInt8)}
    (h : s.sendRequest connected sent = some asked) :
    ∃ next record, s.config.getNextServer = some next ∧ next.2.server? next.1 = some record ∧
      asked.1.config = next.2 ∧ s.clock.LaterThan asked.1.clock ∧ asked.1.sink = s.sink ∧
      ∀ request bytes, asked.2 = some (request, bytes) →
        request.server = next.1 ∧ request.record = record ∧
        ∃ requestSize, constructRequest next.2 record maxResponseMessageSize s.buffer =
            (some requestSize, asked.1.buffer) ∧
          bytes = asked.1.buffer.read 0 requestSize := by
  obtain ⟨next, hnext, h⟩ := Option.bind_eq_some_iff.1 h
  obtain ⟨record, hrecord, h⟩ := Option.bind_eq_some_iff.1 h
  refine ⟨next, record, hnext, hrecord, ?_⟩
  simp only at h
  by_cases hearly : s.clock.now ≤ record.lastaccessTime + seconds record.retryTime
  · rw [if_pos hearly] at h
    obtain rfl := Option.some.inj h
    exact ⟨rfl, .tick _, rfl, fun _ _ hnone => nomatch hnone⟩
  rw [if_neg hearly] at h
  cases hbuilt : (constructRequest next.2 record maxResponseMessageSize s.buffer).1 with
  | none =>
    rw [hbuilt] at h
    obtain rfl := Option.some.inj h
    exact ⟨rfl, .tick _, rfl, fun _ _ hnone => nomatch hnone⟩
  | some requestSize =>
    rw [hbuilt] at h
    by_cases hsent : (connected && sent) = true
    · simp only [if_pos hsent] at h
      obtain rfl := Option.some.inj h
      refine ⟨rfl, (LaterThan.tick _).trans (.tick _), rfl, fun request bytes hrequest => ?_⟩
      obtain ⟨rfl, rfl⟩ := Prod.mk.inj (Option.some.inj hrequest)
      exact ⟨rfl, rfl, requestSize, Prod.ext hbuilt rfl, rfl⟩
    · simp only [if_neg hsent] at h
      obtain rfl := Option.some.inj h
      exact ⟨rfl, .tick _, rfl, fun _ _ hnone => nomatch hnone⟩

/-- **Turns.** Nothing else happens in a turn of `ClientLoop`. -/
theorem clientTurn_eq (s : ClientState) (calls : SystemCalls) :
    clientTurn s calls =
      (s.sendRequest calls.connected calls.sent).bind fun asked =>
        match asked.2 with
        | none => some ⟨asked.1, none, fun place => [place]⟩
        | some (request, _) =>
          (asked.1.receiveResponse request.server calls).map fun received =>
            ⟨received.1, some request, received.2⟩ := by
  rw [clientTurn, ClientState.sendRequest]
  cases hnext : s.config.getNextServer with
  | none => rfl
  | some next =>
    simp only [Option.bind_eq_bind, Option.bind_some]
    cases hrecord : next.2.server? next.1 with
    | none => rfl
    | some record =>
      simp only [Option.bind_some]
      by_cases hearly : s.clock.now ≤ record.lastaccessTime + seconds record.retryTime
      · rw [if_pos hearly, if_pos hearly]
        rfl
      · rw [if_neg hearly, if_neg hearly]
        cases hbuilt : (constructRequest next.2 record maxResponseMessageSize s.buffer).1 with
        | none => rfl
        | some requestSize =>
          simp only [Option.isSome_some, Bool.true_and]
          by_cases hsent : (calls.connected && calls.sent) = true
          · rw [if_pos hsent, if_pos hsent]
            simp only [Option.bind_some]
            cases ClientState.receiveResponse _ _ calls <;> rfl
          · rw [if_neg hsent, if_neg hsent]
            rfl

/-! ### Nodes -/

/-- A node: the client, with the configuration and the clock that it shares with the server, the
other fields of the server, and the server that the client waits for. -/
structure Node where
  client : ClientState
  recentClients : MruCache SockaddrStorage
  random : RandomDevice
  mtu : ℤ
  asked : Option ServerRef

namespace Node

/-- The configuration. -/
abbrev config (n : Node) : NrpdConfig := n.client.config

/-- The clock. -/
abbrev clock (n : Node) : SteadyClock := n.client.clock

/-- The server of a node. -/
def server (n : Node) : NrpdServer := ⟨n.recentClients, n.config, n.random, n.mtu⟩

/-- The node with what its server leaves. -/
def withServer (n : Node) (server : NrpdServer) (clock : SteadyClock) : Node where
  client := { n.client with config := server.config, clock := clock }
  recentClients := server.recentClients
  random := server.random
  mtu := server.mtu
  asked := n.asked

/-- The node with what its client leaves. -/
def withClient (n : Node) (client : ClientState) (asked : Option ServerRef) : Node :=
  { n with client := client, asked := asked }

end Node

/-- What `recvfrom` leaves in the buffer of `ServerLoop`, which was cleared. -/
def requestBuffer (bytes : List UInt8) : Mem := Mem.zero.write 0 (bytes.take maxRequestMessageSize)

/-- A packet that the server sent, and the time that the cache holds for the client behind it. -/
structure Reply where
  dest : SockaddrStorage
  time : ℤ
  bytes : List UInt8

/-- What the threads of a node do: the server receives a datagram, the client sends a request or
comes back from `recv`, or one of the caches is cleaned. -/
inductive NodeCall where
  | serve (bytes : List UInt8) (srcAddr : SockaddrStorage)
  | sendRequest (connected sent : Bool)
  | receiveResponse (calls : SystemCalls)
  | cleanRecentClients
  | cleanBannedServers

/-- What a node sends: a request, or a packet of its server. -/
inductive Sent where
  | request (request : Request) (bytes : List UInt8)
  | reply (reply : Reply)

/-- The address that `ConnectServer` gives to `connect`. The fields that it leaves as they are, the
scope of an IPv6 address among them, are no part of the model. -/
def connectServer (server : ServerRecord) : SockaddrStorage :=
  match server.host with
  | .ip6 host6 => .inet6 host6 server.port
  | .ip4 host4 => .inet host4 server.port

/-- The address that a packet goes to. -/
def Sent.dest : Sent → SockaddrStorage
  | request asked _ => connectServer asked.record
  | reply answer => answer.dest

/-- What a call does; there is no result when it does not end, when the program is stopped, and when
the client reads through an iterator that has no element. -/
def NodeCall.run (n : Node) : NodeCall → Option (Node × Option Sent)
  | serve bytes srcAddr => do
    let turn ← serverTurn n.server (requestBuffer bytes) srcAddr n.clock
    let left := n.withServer turn.2.1 turn.2.2
    match turn.1 with
    | .ignored => some (left, none)
    | .stopped => none
    | .sent packet messageLength =>
      let time := n.recentClients.recordedTime srcAddr n.clock
      some (left, some (.reply ⟨srcAddr, time, packet.read 0 messageLength.toNat⟩))
  | sendRequest connected sent =>
    match n.asked with
    | some _ => none
    | none => do
      let asked ← n.client.sendRequest connected sent
      some (n.withClient asked.1 (asked.2.map (·.1.server)),
        asked.2.map fun request => .request request.1 request.2)
  | receiveResponse calls => do
    let ref ← n.asked
    let received ← n.client.receiveResponse ref calls
    some (n.withClient received.1 none, none)
  | cleanRecentClients =>
    let cleaned := n.recentClients.clean n.clock
    some ({ n with recentClients := cleaned.1, client := { n.client with clock := cleaned.2 } },
      none)
  | cleanBannedServers =>
    let cleaned := n.config.bannedServers.clean n.clock
    let config := { n.config with bannedServers := cleaned.1 }
    some ({ n with client := { n.client with config := config, clock := cleaned.2 } }, none)

/-- A client that sends a request waits for nobody. -/
theorem NodeCall.of_sendRequest {n n' : Node} {connected sent : Bool} {packet : Option Sent}
    (h : NodeCall.run n (.sendRequest connected sent) = some (n', packet)) :
    n.asked = none ∧ ∃ asked, n.client.sendRequest connected sent = some asked ∧
      n' = n.withClient asked.1 (asked.2.map (·.1.server)) ∧
      packet = asked.2.map fun request => .request request.1 request.2 := by
  cases hasked : n.asked with
  | some ref =>
    simp only [NodeCall.run, hasked] at h
    cases h
  | none =>
    simp only [NodeCall.run, hasked] at h
    obtain ⟨asked, hsend, h⟩ := Option.bind_eq_some_iff.1 h
    obtain ⟨rfl, rfl⟩ := Prod.mk.inj (Option.some.inj h)
    exact ⟨rfl, asked, hsend, rfl, rfl⟩

/-- The request that a node sends is the one of its client. -/
theorem NodeCall.of_request {n n' : Node} {connected sent : Bool} {request : Request}
    {bytes : List UInt8} (h : NodeCall.run n (.sendRequest connected sent) =
      some (n', some (.request request bytes))) :
    ∃ asked, n.client.sendRequest connected sent = some asked ∧
      asked.2 = some (request, bytes) := by
  obtain ⟨-, asked, hsend, -, hsent⟩ := NodeCall.of_sendRequest h
  obtain ⟨⟨request', bytes'⟩, hsome, hpair⟩ := Option.map_eq_some_iff.1 hsent.symm
  obtain ⟨rfl, rfl⟩ := Sent.request.inj hpair
  exact ⟨asked, hsend, hsome⟩

/-- The server of a node leaves the client and sends no request. -/
theorem NodeCall.of_serve {n n' : Node} {bytes : List UInt8} {srcAddr : SockaddrStorage}
    {packet : Option Sent} (h : NodeCall.run n (.serve bytes srcAddr) = some (n', packet)) :
    (∃ server clock, n' = n.withServer server clock) ∧
      ∀ request bytes, packet ≠ some (.request request bytes) := by
  obtain ⟨turn, -, h⟩ := Option.bind_eq_some_iff.1 h
  cases hturn : turn.1 with
  | stopped =>
    simp only [hturn] at h
    cases h
  | ignored =>
    simp only [hturn] at h
    obtain ⟨rfl, rfl⟩ := Prod.mk.inj (Option.some.inj h)
    exact ⟨⟨_, _, rfl⟩, fun _ _ h => by cases h⟩
  | sent packet messageLength =>
    simp only [hturn] at h
    obtain ⟨rfl, rfl⟩ := Prod.mk.inj (Option.some.inj h)
    exact ⟨⟨_, _, rfl⟩, fun _ _ h => by cases h⟩

/-- A packet of the server goes to the address that the datagram came from. -/
theorem NodeCall.of_reply {n n' : Node} {call : NodeCall} {reply : Reply}
    (h : call.run n = some (n', some (.reply reply))) :
    ∃ bytes, call = .serve bytes reply.dest := by
  cases call with
  | serve bytes srcAddr =>
    obtain ⟨turn, -, h⟩ := Option.bind_eq_some_iff.1 h
    cases hturn : turn.1 with
    | sent packet messageLength =>
      simp only [hturn] at h
      obtain ⟨-, hsent⟩ := Prod.mk.inj (Option.some.inj h)
      obtain rfl := Sent.reply.inj (Option.some.inj hsent)
      exact ⟨bytes, rfl⟩
    | _ =>
      simp only [hturn] at h
      cases h
  | sendRequest connected sent =>
    obtain ⟨-, asked, -, -, hsent⟩ := NodeCall.of_sendRequest h
    obtain ⟨_, -, hrequest⟩ := Option.map_eq_some_iff.1 hsent.symm
    cases hrequest
  | receiveResponse system =>
    obtain ⟨_, h⟩ := Option.bind_eq_some_iff.1 h
    obtain ⟨_, -, h⟩ := Option.bind_eq_some_iff.1 h.2
    cases h
  | _ => cases h

/-- A client that comes back from `recv` waits for a server. -/
theorem NodeCall.of_receiveResponse {n n' : Node} {calls : SystemCalls} {packet : Option Sent}
    (h : NodeCall.run n (.receiveResponse calls) = some (n', packet)) :
    ∃ ref received, n.asked = some ref ∧ n.client.receiveResponse ref calls = some received ∧
      n' = n.withClient received.1 none ∧ packet = none := by
  obtain ⟨ref, hasked, h⟩ := Option.bind_eq_some_iff.1 h
  obtain ⟨received, hreceived, h⟩ := Option.bind_eq_some_iff.1 h
  obtain ⟨rfl, rfl⟩ := Prod.mk.inj (Option.some.inj h)
  exact ⟨ref, received, hasked, hreceived, rfl, rfl⟩

/-- How often the client comes back from `recv`. -/
def NodeCall.receives : NodeCall → ℕ
  | receiveResponse _ => 1
  | _ => 0

/-- A call of a node, with everything that was sent. -/
def NodeCall.log (s : Node × List Sent) (call : NodeCall) : Option (Node × List Sent) :=
  (call.run s.1).map fun left => (left.1, s.2 ++ left.2.toList)

/-! ### The turns of the server -/

namespace Node

/-- The answer of a node to the messages at the offsets `os` of a request, and the random device
behind it. -/
def answer (n : Node) (buffer : Mem) (srcAddr : SockaddrStorage) (os : List ℕ) :
    List ResponseMessage × RandomDevice :=
  n.config.responder.respond (mtuFor srcAddr).toNat n.random (requestsAt buffer os)

/-- What the server of a node does with a datagram. -/
inductive Serves (n : Node) (bytes : List UInt8) (srcAddr : SockaddrStorage) :
    Node × Option Sent → Prop
  | malformed (hvalid : validateRequestPacket (requestBuffer bytes) = some false) :
    Serves n bytes srcAddr (n, none)
  | tooSoon (hvalid : validateRequestPacket (requestBuffer bytes) = some true)
    (hrecent : (n.recentClients.isPresentAdd srcAddr n.clock).response = true) :
    Serves n bytes srcAddr
      (n.withServer { n.server with
        recentClients := (n.recentClients.isPresentAdd srcAddr n.clock).cache }
        (n.recentClients.isPresentAdd srcAddr n.clock).clock, none)
  | answered {os : List ℕ} {config : NrpdConfig} (hos : IsRequestPacket (requestBuffer bytes) os)
    (hnew : (n.recentClients.isPresentAdd srcAddr n.clock).response = false)
    (hread : n.config.ReadBy config)
    (hfits : 4 + encodedSize (n.answer (requestBuffer bytes) srcAddr os).1 ≤
      (mtuFor srcAddr).toNat) :
    Serves n bytes srcAddr
      (n.withServer ⟨(n.recentClients.isPresentAdd srcAddr n.clock).cache, config,
          (n.answer (requestBuffer bytes) srcAddr os).2, mtuFor srcAddr⟩
        (n.recentClients.isPresentAdd srcAddr n.clock).clock,
        some (.reply ⟨srcAddr, n.recentClients.recordedTime srcAddr n.clock,
          replyBytes (requestBuffer bytes) (n.answer (requestBuffer bytes) srcAddr os).1⟩))

variable {n : Node} {bytes : List UInt8} {srcAddr : SockaddrStorage} {left : Node × Option Sent}

/-- **The server.** While the counts are below the truth, its turn ends when the validator does. -/
theorem exists_serves (hcounts : n.config.CountsBelow)
    (hfew : n.config.activeServers.elems.length < 67108864) {valid : Bool}
    (hvalid : validateRequestPacket (requestBuffer bytes) = some valid) :
    ∃ left, NodeCall.run n (.serve bytes srcAddr) = some left ∧ n.Serves bytes srcAddr left := by
  cases valid with
  | false =>
    have hturn : serverTurn n.server (requestBuffer bytes) srcAddr n.clock =
        some (.ignored, n.server, n.clock) := by
      simp only [serverTurn, hvalid, Option.bind_eq_bind, Option.bind_some, Bool.not_false, if_true]
    refine ⟨(n, none), ?_, .malformed hvalid⟩
    simp only [NodeCall.run, hturn, Option.bind_eq_bind, Option.bind_some]
    rfl
  | true =>
    by_cases hrecent : (n.recentClients.isPresentAdd srcAddr n.clock).response = true
    · have hturn : serverTurn n.server (requestBuffer bytes) srcAddr n.clock =
          some (.ignored, { n.server with
            recentClients := (n.recentClients.isPresentAdd srcAddr n.clock).cache },
            (n.recentClients.isPresentAdd srcAddr n.clock).clock) := by
        simp only [serverTurn, hvalid, server, hrecent, Option.bind_eq_bind, Option.bind_some,
          Bool.not_true, Bool.false_eq_true, if_false, if_true]
      refine ⟨_, ?_, .tooSoon hvalid hrecent⟩
      simp only [NodeCall.run, hturn, Option.bind_eq_bind, Option.bind_some]
    · obtain ⟨os, hos⟩ := validateRequestPacket_iff.1 hvalid
      have hnew := Bool.eq_false_iff.2 hrecent
      obtain ⟨config, hread, hfits, hturn⟩ := serverTurn_refines hos
        (show n.server.config.CountsBelow from hcounts) hfew hnew
      refine ⟨_, ?_, .answered hos hnew hread hfits⟩
      simp only [NodeCall.run, hturn, Option.bind_eq_bind, Option.bind_some, Int.toNat_natCast,
        read_write_responseBytes]
      rfl

theorem serves_of_run (hcounts : n.config.CountsBelow)
    (hfew : n.config.activeServers.elems.length < 67108864)
    (hrun : NodeCall.run n (.serve bytes srcAddr) = some left) : n.Serves bytes srcAddr left := by
  cases hvalid : validateRequestPacket (requestBuffer bytes) with
  | none =>
    simp only [NodeCall.run, serverTurn, hvalid, Option.bind_eq_bind, Option.bind_none] at hrun
    cases hrun
  | some valid =>
    obtain ⟨left', hrun', hserves⟩ :
        ∃ left, NodeCall.run n (.serve bytes srcAddr) = some left ∧ n.Serves bytes srcAddr left :=
      exists_serves hcounts hfew hvalid
    obtain rfl := Option.some.inj (hrun.symm.trans hrun')
    exact hserves

/-- The server reads the configuration at most, and leaves what the client asked for. -/
theorem Serves.readBy (h : n.Serves bytes srcAddr left) :
    n.config.ReadBy left.1.config ∧ left.1.asked = n.asked := by
  cases h with
  | malformed => exact ⟨.refl _, rfl⟩
  | tooSoon => exact ⟨.refl _, rfl⟩
  | answered _ _ hread => exact ⟨hread, rfl⟩

end Node

/-! ### Messages of a response -/

/-- A message changes no count and adds no active server. -/
theorem counts_of_message {s s' : ClientRun} {call : ClientCall} (hmessage : call.IsMessage)
    (hrun : call.run s = some s') :
    SameCounts s.config s'.config ∧ s'.current = s.current ∧
      s'.config.activeServers.elems.length = s.config.activeServers.elems.length := by
  cases call with
  | addServersFromMessage m msg =>
    obtain rfl := Option.some.inj hrun
    rw [addServersFromMessage_snd]
    refine ⟨sameCounts_addServers _ _ _, rfl, ?_⟩
    exact addServers_invariant (P := fun c =>
      c.activeServers.elems.length = s.config.activeServers.elems.length) _
      (fun _ _ _ _ hc _ => hc) s.clock rfl
  | parseRejectMessage entries =>
    obtain ⟨ref, -, hrun⟩ := Option.bind_eq_some_iff.1 hrun
    obtain rfl := Option.some.inj hrun
    exact ⟨sameCounts_updateServer _ ref (host_parseRejectMessage entries), rfl,
      (length_updateServer _ ref (host_parseRejectMessage entries)).1⟩
  | _ => cases hmessage

/-- The iterators stay where they are when a configured record is changed. -/
theorem ClientRun.InStep.updateConfigured {c : NrpdConfig} {clock : SteadyClock}
    (h : ClientRun.InStep ⟨c, clock, none⟩) (i : ℕ) {f : ServerRecord → ServerRecord}
    (hf : ∀ r, (f r).host = r.host) (clock' : SteadyClock) :
    ClientRun.InStep ⟨c.updateServer (.configured i) f hf, clock', none⟩ where
  active := h.active
  probationary := h.probationary
  activeIterator := h.activeIterator
  probationaryIterator := h.probationaryIterator
  current := h.current

theorem NrpdConfig.AtFallback.updateConfigured {c : NrpdConfig} (h : c.AtFallback) (i : ℕ)
    {f : ServerRecord → ServerRecord} (hf : ∀ r, (f r).host = r.host) :
    (c.updateServer (.configured i) f hf).AtFallback where
  active := h.active
  activeIterator := h.activeIterator
  probationaryIterator := h.probationaryIterator
  configured := by
    have hlength := List.length_pos_iff.2 h.configured
    refine List.length_pos_iff.1 ?_
    rw [updateServer, List.length_modify]
    exact hlength

/-- The server that the client waits for is the element of the iterator of its list, or a configured
one while neither list has a server. -/
structure Waits (c : NrpdConfig) (clock : SteadyClock) (ref : ServerRef) : Prop where
  inStep : ClientRun.InStep ⟨c, clock, ref.listed⟩
  fallback : ∀ i, ref = .configured i → c.AtFallback

section Waits

variable {s s' : ClientRun} {call : ClientCall} {ref : ServerRef} {c c' : NrpdConfig}
  {clock clock' : SteadyClock}

theorem listed_of_ne (h : ∀ i, ref ≠ .configured i) : ref.listed = some ref := by
  cases ref with
  | configured i => exact absurd rfl (h i)
  | _ => rfl

/-- **Messages.** While the client takes a message, the iterators stay in step. -/
theorem Waits.message (h : Waits s.config s.clock ref) (hcurrent : s.current = some ref)
    (hmessage : call.IsMessage) (hrun : call.run s = some s') :
    Waits s'.config s'.clock ref := by
  obtain ⟨c, clock, current⟩ := s
  obtain rfl : current = some ref := hcurrent
  by_cases hconfigured : ∃ i, ref = .configured i
  · obtain ⟨i, rfl⟩ := hconfigured
    have hfallback := h.fallback i rfl
    cases call with
    | addServersFromMessage m msg =>
      obtain rfl := Option.some.inj hrun
      rw [addServersFromMessage_snd]
      have hnew : ∀ serv ∈ entriesOf m msg, serv.probationary = true := fun serv hserv => by
        obtain ⟨ip, port, rfl⟩ := exists_new_of_mem_entriesOf hserv
        rfl
      have hstep := h.inStep.added hnew clock (addServers (entriesOf m msg) c clock).2
      refine ⟨hstep, fun _ _ => ?_⟩
      exact addServers_invariant (P := AtFallback) _
        (fun c _ _ _ hc _ => ⟨hc.active, hc.activeIterator, hc.probationaryIterator,
          hc.configured⟩) clock hfallback
    | parseRejectMessage entries =>
      obtain rfl := Option.some.inj hrun
      have hhost := host_parseRejectMessage entries
      exact ⟨h.inStep.updateConfigured i hhost _, fun _ _ => hfallback.updateConfigured i hhost⟩
    | _ => cases hmessage
  · have hlisted := listed_of_ne fun i hi => hconfigured ⟨i, hi⟩
    have hstep : ClientRun.InStep ⟨c, clock, some ref⟩ := hlisted ▸ h.inStep
    have heffect := ClientCall.effect hstep hrun
    have hstep' := heffect.inStep hstep
    obtain ⟨-, hcurrent, -⟩ := counts_of_message hmessage hrun
    obtain ⟨c', clock', current'⟩ := s'
    obtain rfl : current' = some ref := hcurrent
    exact ⟨hlisted.symm ▸ hstep', fun i hi => absurd ⟨i, hi⟩ hconfigured⟩

theorem ClientRun.InStep.idle {current : Option ServerRef}
    (h : ClientRun.InStep ⟨c, clock, current⟩) (clock' : SteadyClock) :
    ClientRun.InStep ⟨c, clock', none⟩ where
  active := h.active
  probationary := h.probationary
  activeIterator := h.activeIterator
  probationaryIterator := h.probationaryIterator
  current _ href := nomatch href

/-- **Responses.** Behind a response, the client still waits for its server, and no count has
changed. -/
theorem Waits.parseResponse {client client' : ClientState} {m : Mem}
    (h : Waits client.config client.clock ref) (hvalid : validateResponsePacket m = some true)
    (hrun : parseResponse ref maxResponseMessageSize { client with buffer := m } = some client') :
    Waits client'.config client'.clock ref ∧ SameCounts client.config client'.config ∧
      client'.config.activeServers.elems.length = client.config.activeServers.elems.length := by
  obtain ⟨response, hresponse⟩ := exists_acceptedResponse hvalid
  obtain ⟨client'', hparse, hcalls⟩ := parseResponse_calls response client ref
  rw [hresponse] at hparse
  obtain rfl := Option.some.inj (hrun.symm.trans hparse)
  have hinv := after_invariant (P := fun s : ClientRun => s.current = some ref ∧
    Waits s.config s.clock ref ∧ SameCounts client.config s.config ∧
    s.config.activeServers.elems.length = client.config.activeServers.elems.length)
    (fun call hcall s s' hs _ hrun => ?_) ⟨rfl, h, ⟨fun _ => rfl, fun _ => rfl⟩, rfl⟩
    (allMeet_true _ _) hcalls
  · exact hinv.2
  · obtain ⟨hcurrent, hwaits, hsame, hlength⟩ := hs
    have hmessage := isMessage_of_mem_filterMap hcall
    obtain ⟨hsame', hcurrent', hlength'⟩ := counts_of_message hmessage hrun
    exact ⟨hcurrent'.trans hcurrent, hwaits.message hcurrent hmessage hrun, hsame.trans hsame',
      hlength'.trans hlength⟩

/-- **Successes.** They leave the iterators in step. -/
theorem Waits.markServerSuccessful (h : Waits c clock ref)
    (hrun : c.markServerSuccessful ref clock = some (c', clock')) :
    ClientRun.InStep ⟨c', clock', none⟩ := by
  by_cases hconfigured : ∃ i, ref = .configured i
  · obtain ⟨i, rfl⟩ := hconfigured
    obtain ⟨serv, hserv, -⟩ := Option.bind_eq_some_iff.1 hrun
    have hprob : serv.probationary = false := by
      by_contra hprob
      rw [(h.fallback i rfl).markServerSuccessful_eq_none hserv (by simpa using hprob)] at hrun
      cases hrun
    rw [markServerSuccessful_active clock hserv hprob] at hrun
    obtain ⟨rfl, rfl⟩ := Prod.mk.inj (Option.some.inj hrun)
    exact h.inStep.updateConfigured i _ _
  · have hlisted := listed_of_ne fun i hi => hconfigured ⟨i, hi⟩
    have hstep : ClientRun.InStep ⟨c, clock, some ref⟩ := hlisted ▸ h.inStep
    obtain ⟨serv, hserv, -⟩ := hstep.exists_server rfl
    have hcall : ClientCall.run ⟨c, clock, some ref⟩ .markServerSuccessful =
        some ⟨c', clock', if serv.probationary then none else some ref⟩ := by
      simp only [ClientCall.run, ClientRun.server_of_current rfl hserv, hrun, Option.bind_eq_bind,
        Option.bind_some]
    exact ((ClientCall.effect hstep hcall).inStep hstep).idle clock'

/-- **Failures.** They leave the iterators in step, and the counts below the truth. -/
theorem Waits.incrementServerFailCount (h : Waits c clock ref) (hcounts : c.CountsBelow)
    (hlow : ∀ ipv6, -2147483648 < c.cachedCount ipv6)
    (hrun : c.incrementServerFailCount ref clock = some (c', clock')) :
    ClientRun.InStep ⟨c', clock', none⟩ ∧ c'.CountsBelow := by
  by_cases hconfigured : ∃ i, ref = .configured i
  · obtain ⟨i, rfl⟩ := hconfigured
    obtain ⟨serv, hserv, -⟩ := Option.bind_eq_some_iff.1 hrun
    have hfew : failsOut serv = false := by
      by_contra hmany
      rw [(h.fallback i rfl).incrementServerFailCount_eq_none hserv (by simpa using hmany)] at hrun
      cases hrun
    rw [incrementServerFailCount_of_few clock hserv hfew] at hrun
    obtain ⟨rfl, rfl⟩ := Prod.mk.inj (Option.some.inj hrun)
    exact ⟨h.inStep.updateConfigured i _ _, hcounts.of_same (sameCounts_updateServer _ _ _)⟩
  · have hlisted := listed_of_ne fun i hi => hconfigured ⟨i, hi⟩
    have hstep : ClientRun.InStep ⟨c, clock, some ref⟩ := hlisted ▸ h.inStep
    obtain ⟨serv, hserv, hplace⟩ := hstep.exists_server rfl
    have hcall : ClientCall.run ⟨c, clock, some ref⟩ .incrementServerFailCount =
        some ⟨c', clock', if failsOut serv then none else some ref⟩ := by
      simp only [ClientCall.run, ClientRun.server_of_current rfl hserv, hrun, Option.bind_eq_bind,
        Option.bind_some]
    refine ⟨((ClientCall.effect hstep hcall).inStep hstep).idle clock', ?_⟩
    refine hcounts.incrementServerFailCount hserv (fun hactive => ?_) (fun _ => hlow _) hrun
    rcases hplace with ⟨i, rfl, hit, -⟩ | ⟨i, rfl, -, -, hprob⟩
    · exact ⟨i, rfl, hit⟩
    · rw [hactive] at hprob
      cases hprob

end Waits

/-! ### The invariant -/

namespace NrpdConfig

/-- Two configurations with the same records and iterators. -/
structure SamePlaces (c c' : NrpdConfig) : Prop where
  configured : c'.configuredServers = c.configuredServers
  active : c'.activeServers = c.activeServers
  probationary : c'.probationaryServers = c.probationaryServers
  activeIterator : c'.activeIterator = c.activeIterator
  probationaryIterator : c'.probationaryIterator = c.probationaryIterator

theorem Recounted.samePlaces {c c' : NrpdConfig} (h : c.Recounted c') : SamePlaces c c' := by
  obtain ⟨n₄, n₆, rfl⟩ := h
  exact ⟨rfl, rfl, rfl, rfl, rfl⟩

end NrpdConfig

theorem ClientRun.InStep.congr {c c' : NrpdConfig} {clock : SteadyClock}
    {current : Option ServerRef} (h : ClientRun.InStep ⟨c, clock, current⟩)
    (hsame : SamePlaces c c') (clock' : SteadyClock) : ClientRun.InStep ⟨c', clock', current⟩ where
  active := hsame.active ▸ h.active
  probationary := hsame.probationary ▸ h.probationary
  activeIterator := by
    rw [hsame.active, hsame.activeIterator]
    exact h.activeIterator
  probationaryIterator := by
    rw [hsame.probationary, hsame.probationaryIterator]
    exact h.probationaryIterator
  current ref href := by
    have hpoints := h.current ref href
    cases ref with
    | configured i => exact hpoints
    | active i => exact hsame.activeIterator.trans hpoints
    | probationary i => exact hsame.probationaryIterator.trans hpoints

theorem Waits.congr {c c' : NrpdConfig} {clock : SteadyClock} {ref : ServerRef}
    (h : Waits c clock ref) (hsame : SamePlaces c c') (clock' : SteadyClock) :
    Waits c' clock' ref where
  inStep := h.inStep.congr hsame clock'
  fallback i hi := by
    have hfallback := h.fallback i hi
    exact ⟨hsame.active ▸ hfallback.active, hsame.activeIterator.trans hfallback.activeIterator,
      hsame.probationaryIterator.trans hfallback.probationaryIterator,
      hsame.configured ▸ hfallback.configured⟩

/-- The server that `GetNextServer` returns is waited for. -/
theorem waits_getNextServer {c c' : NrpdConfig} {clock : SteadyClock} {ref : ServerRef}
    (h : ClientRun.InStep ⟨c, clock, none⟩) (hnext : c.getNextServer = some (ref, c')) :
    Waits c' clock ref := by
  have hcall : ClientCall.run ⟨c, clock, none⟩ .getNextServer = some ⟨c', clock, ref.listed⟩ := by
    simp only [ClientCall.run, hnext, Option.bind_eq_bind, Option.bind_some]
  refine ⟨(ClientCall.effect h hcall).inStep h, ?_⟩
  rintro i rfl
  obtain ⟨ia, ip, flag, hia, hip, -, href⟩ := getNextServer_eq_some hnext
  have hempty {it it' : ListIter} {n : ℕ} {place : ℕ → ServerRef} (hvalid : it.Valid n)
      (hadvance : it.advance n = some it') (hnone : refOf place it' = none) : n = 0 := by
    by_contra hne
    rw [ListIter.advance_of_valid (Nat.pos_of_ne_zero hne) hvalid] at hadvance
    obtain rfl := Option.some.inj hadvance
    cases hnone
  rcases href with ⟨href, -⟩ | ⟨href, -⟩ | ⟨-, -, hactive, hprob, -⟩
  · obtain ⟨j, -, hj⟩ := refOf_eq_some href
    cases hj
  · obtain ⟨j, -, hj⟩ := refOf_eq_some href
    cases hj
  · exact (atFallback_of_getNextServer
      (List.length_eq_zero_iff.1 (hempty h.activeIterator hia hactive))
      (List.length_eq_zero_iff.1 (hempty h.probationaryIterator hip hprob)) hnext).2

namespace Node

/-- Behind `k` answers: the iterators are in step, no cached count is larger than the number of
servers of its family or has been stepped down more than `k` times, and there are at most `k`
active servers. -/
structure Sound (k : ℕ) (n : Node) : Prop where
  idle : ClientRun.InStep ⟨n.config, n.clock, none⟩
  waits : ∀ ref, n.asked = some ref → Waits n.config n.clock ref
  counts : n.config.CountsBelow
  low : ∀ ipv6, -1 - (k : ℤ) ≤ n.config.cachedCount ipv6
  few : n.config.activeServers.elems.length ≤ k

variable {n n' : Node} {k : ℕ} {sent : Option Sent}

/-- A step that moves no record and reads the counts at most. -/
theorem Sound.read (h : n.Sound k) (hk : k < 67108864) (hsame : SamePlaces n.config n'.config)
    (hcounts : n'.config.CountsBelow) (hasked : n'.asked = n.asked)
    (hcached : ∀ ipv6, n'.config.cachedCount ipv6 = n.config.cachedCount ipv6 ∨
      n'.config.cachedCount ipv6 = FixedWidth.i32 (n.config.activeOf ipv6).length) :
    n'.Sound k where
  idle := h.idle.congr hsame n'.clock
  waits ref href := (h.waits ref (hasked ▸ href)).congr hsame n'.clock
  counts := hcounts
  low ipv6 := by
    have hlow := h.low ipv6
    have hfew := h.few
    have hle : (n.config.activeOf ipv6).length ≤ n.config.activeServers.elems.length :=
      List.length_filter_le _ _
    rcases hcached ipv6 with hcached | hcached
    · rw [hcached]
      exact hlow
    · rw [hcached, FixedWidth.i32_natCast (by omega)]
      omega
  few := by
    have hactive := hsame.active
    rw [hactive]
    exact h.few

/-- A failure of the server that is waited for is reported. -/
theorem Sound.reportFailure (h : n.Sound k) (hk : k < 67108864) {ref : ServerRef}
    (hasked : n.asked = some ref) {client : ClientState} (hconfig : client.config = n.config)
    (hclock : client.clock = n.clock) {received : ClientState × (ServerRef → List ServerRef)}
    (hreceived : client.reportFailure ref = some received) :
    (n.withClient received.1 none).Sound (k + 1) := by
  obtain ⟨counted, hcounted, hreceived⟩ := Option.bind_eq_some_iff.1 hreceived
  obtain rfl := Option.some.inj hreceived
  rw [hconfig, hclock] at hcounted
  have hlow (ipv6 : Bool) := h.low ipv6
  obtain ⟨hstep, hcounts⟩ := (h.waits ref hasked).incrementServerFailCount h.counts
    (fun ipv6 => by have := hlow ipv6; omega) hcounted
  obtain ⟨hmoves, hactive⟩ := incrementServerFailCount_moves h.counts
    (fun ipv6 => by have := hlow ipv6; omega) hcounted
  refine ⟨hstep, (fun _ hnone => by cases hnone), hcounts, fun ipv6 => ?_, ?_⟩
  · have := hlow ipv6
    have hmove : n.config.cachedCount ipv6 - 1 ≤ counted.1.cachedCount ipv6 := hmoves ipv6
    show _ ≤ counted.1.cachedCount ipv6
    push_cast
    omega
  · exact hactive.trans (h.few.trans (Nat.le_succ k))

/-- Entropy from the clock changes nothing of the configuration. -/
theorem config_addTimeEntropy (s : ClientState) (calls : SystemCalls) :
    (s.addTimeEntropy calls).config = s.config := by
  rw [ClientState.addTimeEntropy]
  split <;> rfl

/-- The client comes back from `recv`. -/
theorem Sound.received (h : n.Sound k) (hk : k < 67108864) {ref : ServerRef}
    (hasked : n.asked = some ref) {calls : SystemCalls}
    {received : ClientState × (ServerRef → List ServerRef)}
    (hreceived : n.client.receiveResponse ref calls = some received) :
    (n.withClient received.1 none).Sound (k + 1) := by
  rw [ClientState.receiveResponse] at hreceived
  cases hcalls : calls.received with
  | timedOut =>
    rw [hcalls] at hreceived
    exact h.reportFailure hk hasked rfl rfl hreceived
  | failed =>
    rw [hcalls] at hreceived
    obtain rfl := Option.some.inj hreceived
    refine ⟨h.idle, (fun _ hnone => by cases hnone), h.counts, fun ipv6 => ?_,
      h.few.trans (Nat.le_succ k)⟩
    have hlow : -1 - (k : ℤ) ≤ n.client.config.cachedCount ipv6 := h.low ipv6
    show _ ≤ n.client.config.cachedCount ipv6
    push_cast
    omega
  | datagram bytes =>
    rw [hcalls] at hreceived
    obtain ⟨valid, hvalid, hreceived⟩ := Option.bind_eq_some_iff.1 hreceived
    cases valid with
    | false =>
      rw [if_neg Bool.false_ne_true] at hreceived
      refine h.reportFailure hk hasked ?_ ?_ hreceived
      · rfl
      · rfl
    | true =>
      rw [if_pos rfl] at hreceived
      obtain ⟨parsed, hparsed, hreceived⟩ := Option.bind_eq_some_iff.1 hreceived
      obtain ⟨reported, hreported, hreceived⟩ := Option.bind_eq_some_iff.1 hreceived
      obtain ⟨marked, hmarked, hreported⟩ := Option.bind_eq_some_iff.1 hreported
      obtain rfl := Option.some.inj hreported
      obtain rfl := Option.some.inj hreceived
      obtain ⟨hwaits, hsame, hlength⟩ := Waits.parseResponse (h.waits ref hasked) hvalid hparsed
      have hfew : n.client.config.activeServers.elems.length ≤ k := h.few
      have hcounts := h.counts.of_same hsame
      obtain ⟨hmoves, hactive⟩ := markServerSuccessful_moves hcounts (by rw [hlength]; omega)
        hmarked
      rw [hlength] at hactive
      refine ⟨?_, (fun _ hnone => by cases hnone), ?_, fun ipv6 => ?_, ?_⟩
      · show ClientRun.InStep ⟨(ClientState.addTimeEntropy _ _).config, _, none⟩
        rw [config_addTimeEntropy]
        exact (hwaits.markServerSuccessful hmarked).idle _
      · show (ClientState.addTimeEntropy _ _).config.CountsBelow
        rw [config_addTimeEntropy]
        exact hcounts.markServerSuccessful hmarked
      · have hlow : -1 - (k : ℤ) ≤ n.client.config.cachedCount ipv6 := h.low ipv6
        have hmove := hmoves ipv6
        rw [hsame.cached] at hmove
        show _ ≤ (ClientState.addTimeEntropy _ _).config.cachedCount ipv6
        rw [config_addTimeEntropy]
        push_cast
        exact le_trans (by omega) hmove
      · show (ClientState.addTimeEntropy _ _).config.activeServers.elems.length ≤ k + 1
        rw [config_addTimeEntropy]
        exact hactive.trans (Nat.succ_le_succ hfew)

/-- **One call.** Every call keeps the invariant. -/
theorem Sound.run (h : n.Sound k) {call : NodeCall} (hk : k + call.receives < 67108864)
    (hrun : call.run n = some (n', sent)) : n'.Sound (k + call.receives) := by
  have hfew := h.few
  have hlimit : k < 67108864 := by omega
  cases call with
  | serve bytes srcAddr =>
    have hserves := serves_of_run h.counts (show _ < 67108864 by omega) hrun
    obtain ⟨hread, hasked⟩ := hserves.readBy
    exact h.read hlimit hread.recounted.samePlaces (hread.countsBelow h.counts) hasked
      hread.cachedCount
  | sendRequest connected sent =>
    obtain ⟨-, asked, hsend, rfl, -⟩ := NodeCall.of_sendRequest hrun
    obtain ⟨next, record, hnext, -, hconfig, -, -, hrequest⟩ := ClientState.of_sendRequest hsend
    have hwaits := waits_getNextServer h.idle hnext
    have hcounts := sameCounts_getNextServer hnext
    have hactive : next.2.activeServers = n.config.activeServers := by
      obtain ⟨ia, ip, flag, -, -, heq, -⟩ := getNextServer_eq_some hnext
      rw [heq]
    refine ⟨?_, fun ref href => ?_, ?_, fun ipv6 => ?_, ?_⟩
    · show ClientRun.InStep ⟨asked.1.config, asked.1.clock, none⟩
      rw [hconfig]
      exact hwaits.inStep.idle asked.1.clock
    · obtain ⟨⟨request, bytes⟩, hasked, rfl⟩ := Option.map_eq_some_iff.1 href
      show Waits asked.1.config asked.1.clock request.server
      rw [hconfig, (hrequest request bytes hasked).1]
      exact hwaits.congr ⟨rfl, rfl, rfl, rfl, rfl⟩ _
    · show asked.1.config.CountsBelow
      rw [hconfig]
      exact h.counts.of_same hcounts
    · show _ ≤ asked.1.config.cachedCount ipv6
      have hlow : -1 - (k : ℤ) ≤ n.client.config.cachedCount ipv6 := h.low ipv6
      rw [hconfig, hcounts.cached]
      exact hlow
    · show asked.1.config.activeServers.elems.length ≤ k
      rw [hconfig, hactive]
      exact hfew
  | receiveResponse calls =>
    obtain ⟨ref, received, hasked, hreceived, rfl, -⟩ := NodeCall.of_receiveResponse hrun
    exact h.received hlimit hasked hreceived
  | cleanRecentClients =>
    obtain ⟨rfl, -⟩ := Prod.mk.inj (Option.some.inj hrun)
    exact h.read hlimit ⟨rfl, rfl, rfl, rfl, rfl⟩ h.counts rfl fun _ => .inl rfl
  | cleanBannedServers =>
    obtain ⟨rfl, -⟩ := Prod.mk.inj (Option.some.inj hrun)
    exact h.read hlimit ⟨rfl, rfl, rfl, rfl, rfl⟩ (h.counts.withBannedServers _) rfl
      fun _ => .inl rfl

/-- A node before its first call: a client that has asked nobody, counts that are unknown, and an
empty cache of clients. -/
structure AtStart (n : Node) : Prop where
  client : ClientRun.AtStart ⟨n.config, n.clock, none⟩
  counts : ∀ ipv6, n.config.cachedCount ipv6 = -1
  asked : n.asked = none
  recentClients : ∀ srcAddr, n.recentClients.recentClients.get? srcAddr = none
  lifetimeSeconds : n.recentClients.lifetimeSeconds = clientMinRetrySeconds

theorem AtStart.sound (h : n.AtStart) : n.Sound n.config.activeServers.elems.length where
  idle := h.client.inStep
  waits ref href := by
    rw [h.asked] at href
    cases href
  counts := by
    refine ⟨fun ipv6 => ?_, fun ipv6 => ?_⟩ <;> rw [h.counts ipv6]
    · omega
    · omega
  low ipv6 := by
    rw [h.counts ipv6]
    omega
  few := le_rfl

/-- The runs of a node, with what was sent in them: from a start on, and with so few active servers
and answers, less than 2 ^ 26, that the sizes of peers messages do not overflow. -/
structure Ran (n : Node) (calls : List NodeCall) (n' : Node) (log : List Sent) : Prop where
  start : n.AtStart
  few : n.config.activeServers.elems.length + (calls.map NodeCall.receives).sum < 67108864
  after : Runs.after NodeCall.log calls (n, []) = some (n', log)

variable {calls : List NodeCall} {log : List Sent}

/-- **Every run.** -/
theorem Ran.sound (h : n.Ran calls n' log) :
    n'.Sound (n.config.activeServers.elems.length + (calls.map NodeCall.receives).sum) := by
  refine Runs.after_counted (P := fun k (s : Node × List Sent) => s.1.Sound k)
    (fun k call s s' hk hs hlog => ?_) h.start.sound h.few h.after
  obtain ⟨left, hrun, rfl⟩ := Option.map_eq_some_iff.1 hlog
  exact hs.run hk hrun

/-- **Invariant rule.** What holds at the start, and is kept by every call of a sound node, holds of
every state reached and what was sent until then. -/
theorem Ran.invariant {P : Node × List Sent → Prop} (h : n.Ran calls n' log) (hstart : P (n, []))
    (hcall : ∀ k (call : NodeCall) n n' log sent, n.Sound k → k + call.receives < 67108864 →
      P (n, log) → call.run n = some (n', sent) → P (n', log ++ sent.toList)) :
    P (n', log) := by
  have hrun : n'.Sound (n.config.activeServers.elems.length + (calls.map NodeCall.receives).sum) ∧
      P (n', log) := by
    refine Runs.after_counted (P := fun k (s : Node × List Sent) => s.1.Sound k ∧ P s)
      (fun k call s s' hk hs hlog => ?_) ⟨h.start.sound, hstart⟩ h.few h.after
    obtain ⟨left, hrun, rfl⟩ := Option.map_eq_some_iff.1 hlog
    exact ⟨hs.1.run hk hrun, hcall k call s.1 left.1 s.2 left.2 hs.1 hk hs.2 hrun⟩
  exact hrun.2

end Node

/-- A node with one probationary server. -/
def sampleNode : Node where
  client := oneServerClient 100
  recentClients := (MruCache.new clientMinRetrySeconds (oneServerClient 100).clock).1
  random := steadyDevice
  mtu := maxIp6PacketSize
  asked := none

theorem atStart_sampleNode : sampleNode.AtStart where
  client := by
    refine ⟨(fun _ hr => nomatch hr), fun r hr => ?_, rfl, rfl, rfl⟩
    obtain rfl := List.mem_singleton.1 hr
    rfl
  counts ipv6 := by cases ipv6 <;> rfl
  asked := rfl
  recentClients _ := rfl
  lifetimeSeconds := rfl

theorem exists_ran_sampleNode {β : Type*} (calls : List NodeCall) (f : Node × List Sent → β)
    (value : β) (h : (Runs.after NodeCall.log calls (sampleNode, [])).map f = some value)
    (hfew : (calls.map NodeCall.receives).sum < 67108864) :
    ∃ n' log, sampleNode.Ran calls n' log ∧ f (n', log) = value := by
  obtain ⟨⟨n', log⟩, hafter, hvalue⟩ := Option.map_eq_some_iff.1 h
  refine ⟨n', log, ⟨atStart_sampleNode, ?_, hafter⟩, hvalue⟩
  rw [show sampleNode.config.activeServers.elems.length = 0 from rfl, Nat.zero_add]
  exact hfew

/-- The node sends a request when it is told to. -/
theorem exists_request_sampleNode : ∃ a' request bytes,
    NodeCall.run sampleNode (.sendRequest true true) =
      some (a', some (.request request bytes)) := by
  have hsent : ((NodeCall.run sampleNode (.sendRequest true true)).map fun left =>
      match left.2 with
      | some (.request _ _) => true
      | some (.reply _) => false
      | none => false) = some true := by decide
  obtain ⟨⟨a', sent⟩, hrun, hsome⟩ := Option.map_eq_some_iff.1 hsent
  cases sent with
  | none => cases hsome
  | some sent =>
    cases sent with
    | reply reply => cases hsome
    | request request bytes => exact ⟨a', request, bytes, hrun⟩

end Nrpd
