import Nrpd.Client.Intake
import Nrpd.Client.Requests
import Nrpd.Node.Service

/-!
# A request and what comes of it

A client sends a request, the server of another node answers, and the client takes the answer. The
bytes that are sent say what was asked for, and the bytes that come back say what the responder
answered: on both ways the packets survive the wire, whatever the buffers hold behind them.

## Main definitions

* `requestedMessages`: what a client asks a server for.
* `Writes`: a draft of a request with given messages.
* `Tells`: bytes that are a packet whose messages are of one kind, whoever reads them.

## Main results

* `read_constructRequest`: the bytes of a request.
* `messagesAt_of_responseBytes`, `exists_isResponsePacket`: the bytes of an answer.
* `Node.tells_of_run`: the packets of a node.
* `Node.Ran.round`: the two nodes.
-/

namespace Nrpd

open FixedWidth Segments NrpdConfig

/-! ### Requests -/

/-- What a client asks a server for: entropy of the size of its configuration, and as many peers as
there are. -/
def requestedMessages (c : NrpdConfig) (server : ServerRecord) : List (UInt8 × UInt8) :=
  (requestedTypes c server).map fun t =>
    (t.code, if t = .entropy then .ofNat (u8 c.defaultEntropySize.val) else 0)

theorem length_requestedMessages (c : NrpdConfig) (server : ServerRecord) :
    1 ≤ (requestedMessages c server).length ∧ (requestedMessages c server).length ≤ 3 := by
  rw [requestedMessages, List.length_map, requestedTypes]
  split_ifs <;> decide

/-- A client asks for known types. -/
theorem exists_type_of_mem_requestedMessages {c : NrpdConfig} {server : ServerRecord}
    {request : UInt8 × UInt8} (h : request ∈ requestedMessages c server) :
    ∃ t : NrpdMsgType, 4 ≤ t.code.toNat ∧ t.code.toNat ≤ 6 ∧ request.1 = t.code := by
  obtain ⟨t, ht, rfl⟩ := List.mem_map.1 h
  refine ⟨t, ?_, ?_, rfl⟩ <;> rcases mem_requestedTypes ht with rfl | rfl | rfl <;> decide

/-- A draft has the bytes of given messages. -/
structure Writes (draft : RequestDraft) (requests : List (UInt8 × UInt8)) : Prop where
  msg : draft.msg = some (4 + 4 * requests.length)
  msgCount : draft.msgCount = requests.length
  msgSize : draft.msgSize = 4 + 4 * requests.length
  bytes : draft.buffer.read 4 (4 * requests.length) = requests.flatMap bareBytes

section Requests

variable {draft : RequestDraft} {requests : List (UInt8 × UInt8)}

theorem Writes.push (h : Writes draft requests) (request : UInt8 × UInt8) :
    Writes (draft.push (some (4 + 4 * requests.length + 4),
      draft.buffer.write (4 + 4 * requests.length) (bareBytes request)))
      (requests ++ [request]) where
  msg := by
    simp only [RequestDraft.push, List.length_append, List.length_singleton, Nat.mul_succ,
      Nat.add_assoc]
  msgCount := by
    simp only [RequestDraft.push, h.msgCount, List.length_append, List.length_singleton]
  msgSize := by
    simp only [RequestDraft.push, h.msgSize, List.length_append, List.length_singleton,
      nrpMessageHeaderSize]
    omega
  bytes := by
    have hold : (draft.buffer.write (4 + 4 * requests.length) (bareBytes request)).read 4
        (4 * requests.length) = draft.buffer.read 4 (4 * requests.length) :=
      Mem.read_eq_iff.2 fun i hi => Mem.write_of_notMem (.inl (by omega))
    have hnew : (draft.buffer.write (4 + 4 * requests.length) (bareBytes request)).read
        (4 + 4 * requests.length) 4 = bareBytes request := Mem.read_write _ _ _
    rw [List.length_append, List.length_singleton, Nat.mul_succ, Mem.read_append]
    show (draft.buffer.write _ _).read 4 _ ++ (draft.buffer.write _ _).read _ 4 = _
    rw [hold, hnew, h.bytes, List.flatMap_append, List.flatMap_singleton]

theorem Writes.pushPeers (h : Writes draft requests) {t : NrpdMsgType}
    (ht : t = .ip4peers ∨ t = .ip6peers) (supported : Bool) :
    Writes (draft.pushPeers t supported) (requests ++ if supported then [(t.code, 0)] else []) := by
  cases supported with
  | false => simpa only [RequestDraft.pushPeers, Bool.false_eq_true, if_false, List.append_nil]
  | true =>
    have hvalid : ¬ (t ≠ .ip4peers ∧ t ≠ .ip6peers) := by
      rcases ht with rfl | rfl <;> simp
    rw [RequestDraft.pushPeers, if_pos rfl, h.msg, generateRequestPeersMessage, if_neg hvalid]
    exact h.push (t.code, 0)

/-- The packet header goes in front. -/
theorem Writes.read_packet (h : Writes draft requests) (hpos : 1 ≤ requests.length)
    (hle : requests.length ≤ 255) :
    ∃ pkt, generatePacketHeader (u16 draft.msgSize) .request (.ofNat (u8 draft.msgCount)) (some 0)
        draft.buffer = (some 4, pkt) ∧
      pkt.read 0 (4 + 4 * requests.length) = requestBytes requests := by
  have hbyte : (UInt8.ofNat requests.length).toNat = requests.length := by
    rw [UInt8.toNat_ofNat', Nat.mod_eq_of_lt (by omega)]
  have hcount : UInt8.ofNat requests.length ≠ 0 := fun hzero => by
    rw [hzero, UInt8.toNat_zero] at hbyte
    omega
  set header := headerBytes (4 + 4 * requests.length) NrpdMsgType.request.code
    (.ofNat requests.length) with hheader
  refine ⟨draft.buffer.write 0 header, ?_, ?_⟩
  · rw [h.msgSize, h.msgCount, u16_of_lt (by omega) (by omega), Int.toNat_natCast,
      u8_natCast (by omega), generatePacketHeader, if_neg (by simp), if_neg (by simp; omega),
      if_neg hcount]
  · have hfront : (draft.buffer.write 0 header).read 0 4 = header := Mem.read_write _ _ _
    have hbehind : (draft.buffer.write 0 header).read 4 (4 * requests.length) =
        draft.buffer.read 4 (4 * requests.length) :=
      Mem.read_eq_iff.2 fun i _ => Mem.write_of_notMem (.inr (by simp [hheader]))
    rw [Mem.read_append, hfront, Nat.zero_add, hbehind, h.bytes]
    rfl

/-- **The bytes of a request.** `ConstructRequest` writes what is asked for, whatever is in the
buffer. -/
theorem read_constructRequest (c : NrpdConfig) (server : ServerRecord) (buffer : Mem) :
    ∃ pkt, constructRequest c server maxResponseMessageSize buffer =
        (some (4 + 4 * (requestedMessages c server).length), pkt) ∧
      pkt.read 0 (4 + 4 * (requestedMessages c server).length) =
        requestBytes (requestedMessages c server) := by
  have hbuf : ¬ maxResponseMessageSize < nrpMessageHeaderSize * serverMsgSupportCount server := by
    have := server.signkey.toNat_le
    have := server.ip4Peers.toNat_le
    have := server.ip6Peers.toNat_le
    simp only [maxResponseMessageSize, nrpMessageHeaderSize, serverMsgSupportCount]
    omega
  set empty : RequestDraft := ⟨some pktMessages, buffer, 0, nrpPacketHeaderSize⟩ with hempty
  have hstart : Writes empty [] := ⟨rfl, rfl, rfl, rfl⟩
  have hentropy := hstart.push (NrpdMsgType.entropy.code, .ofNat (u8 c.defaultEntropySize.val))
  have hpeers := (hentropy.pushPeers (.inl rfl) (server.ip4Peers && c.clientEnableIp4)).pushPeers
    (.inr rfl) (server.ip6Peers && c.clientEnableIp6)
  have hrequests : [] ++ [(NrpdMsgType.entropy.code, UInt8.ofNat (u8 c.defaultEntropySize.val))] ++
      (if server.ip4Peers && c.clientEnableIp4 then [(NrpdMsgType.ip4peers.code, 0)] else []) ++
      (if server.ip6Peers && c.clientEnableIp6 then [(NrpdMsgType.ip6peers.code, 0)] else []) =
        requestedMessages c server := by
    rw [requestedMessages, requestedTypes]
    split_ifs <;> rfl
  rw [hrequests] at hpeers
  obtain ⟨hmin, hmax⟩ := length_requestedMessages c server
  obtain ⟨pkt, hpkt, hread⟩ := hpeers.read_packet hmin (by omega)
  refine ⟨pkt, ?_, hread⟩
  have hsize := hpeers.msgSize
  simp only [constructRequest, if_neg hbuf, ← hempty]
  rw [show generateRequestEntropyMessage (.ofNat (u8 c.defaultEntropySize.val)) empty.msg
    empty.buffer = (some (4 + 4 * ([] : List (UInt8 × UInt8)).length + 4), empty.buffer.write
      (4 + 4 * ([] : List (UInt8 × UInt8)).length) (bareBytes (NrpdMsgType.entropy.code,
        .ofNat (u8 c.defaultEntropySize.val)))) from rfl, hpkt, hsize]
  rfl

end Requests

/-! ### Answers -/

section Answers

variable {m buffer : Mem} {os : List ℕ} {msgs : List ResponseMessage}

/-- A message has at least five bytes. -/
theorem mul_length_le_encodedSize (hcount : ∀ msg ∈ msgs, 1 ≤ msg.count) :
    5 * msgs.length ≤ encodedSize msgs := by
  induction msgs with
  | nil => exact Nat.zero_le _
  | cons msg msgs ih =>
    have hrest := ih fun msg hmsg => hcount msg (List.mem_cons_of_mem _ hmsg)
    have hrecords : 1 ≤ msg.count * recordSize msg.msgType := by
      refine Nat.mul_pos (hcount msg List.mem_cons_self) ?_
      cases msg <;> simp [ResponseMessage.msgType, recordSize]
    rw [encodedSize_cons, ResponseMessage.length_bytes, List.length_cons]
    omega

/-- A buffer that holds an answer. -/
theorem read_responseBytes (hne : msgs ≠ []) (hsize : 4 + encodedSize msgs ≤ maxResponseMessageSize)
    (m : Mem) :
    pktLength (m.write 0 (responseBytes msgs)) = 4 + encodedSize msgs ∧
      pktMsgType (m.write 0 (responseBytes msgs)) = NrpdMsgType.response.code ∧
      pktMsgCount (m.write 0 (responseBytes msgs)) = .ofNat msgs.length ∧
      (m.write 0 (responseBytes msgs)).read 4 (encodedSize msgs) =
        msgs.flatMap ResponseMessage.bytes := by
  have hmax : 4 + encodedSize msgs ≤ 65507 := hsize
  rw [responseBytes, if_neg hne]
  obtain ⟨hheader, hmessages⟩ := Mem.read_eq_append (m.read_write 0
    (headerBytes (4 + encodedSize msgs) NrpdMsgType.response.code (.ofNat msgs.length) ++
      msgs.flatMap ResponseMessage.bytes))
  obtain ⟨hlength, htype, hcount⟩ := header_of_read (by omega) hheader
  exact ⟨hlength, htype, hcount, hmessages⟩

/-- **Answers as they are read.** A client that accepts an answer reads its messages. -/
theorem messagesAt_of_responseBytes (hne : msgs ≠ []) (hcount : ∀ msg ∈ msgs, msg.count ≤ maxByte)
    (hsize : 4 + encodedSize msgs ≤ maxResponseMessageSize)
    (hpkt : IsResponsePacket (m.write 0 (responseBytes msgs)) os) :
    messagesAt (m.write 0 (responseBytes msgs)) os = msgs := by
  obtain ⟨hlength, -, -, hmessages⟩ := read_responseBytes hne hsize m
  refine messagesAt_of_read hcount hmessages ?_
  rw [← hlength]
  exact hpkt.tiles

/-- **Answers are accepted.** -/
theorem exists_isResponsePacket (hne : msgs ≠ []) (hwellFormed : ∀ msg ∈ msgs, msg.WellFormed)
    (hsize : 4 + encodedSize msgs ≤ 1236) (m : Mem) :
    ∃ os, IsResponsePacket (m.write 0 (responseBytes msgs)) os := by
  have hmax : 4 + encodedSize msgs ≤ maxResponseMessageSize :=
    hsize.trans (show 1236 ≤ 65507 by omega)
  obtain ⟨hlength, htype, hcount, hmessages⟩ := read_responseBytes hne hmax m
  obtain ⟨os, htiles, hos, hall⟩ := exists_tiles_of_read hwellFormed hmessages
  have hpos := List.length_pos_iff.2 hne
  have hfew := mul_length_le_encodedSize fun msg hmsg => (hwellFormed msg hmsg).count_pos
  have hbyte : (UInt8.ofNat msgs.length).toNat = msgs.length := by
    rw [UInt8.toNat_ofNat', Nat.mod_eq_of_lt (by omega)]
  rw [← hcount] at hbyte
  exact ⟨os, hlength ▸ hmax, htype, by omega, by omega, hlength ▸ htiles, hall⟩

/-- **No answer.** The first bytes of a request are not a response. -/
theorem validateResponsePacket_of_request (m : Mem)
    (htype : pktMsgType buffer = NrpdMsgType.request.code) :
    validateResponsePacket (m.write 0 (buffer.read 0 4)) = some false := by
  obtain ⟨valid, hvalid⟩ := validateResponsePacket_isSome (m.write 0 (buffer.read 0 4))
  cases valid with
  | false => exact hvalid
  | true =>
    obtain ⟨os, hos⟩ := validateResponsePacket_iff.1 hvalid
    have hsame : pktMsgType (m.write 0 (buffer.read 0 4)) = pktMsgType buffer := by
      have hlt : 2 < (buffer.read 0 4).length := by simp
      have hbyte := Mem.write_of_lt (m := m) (a := 0) hlt
      rw [Mem.getElem_read hlt] at hbyte
      exact hbyte
    have hother := hos.type_eq
    rw [hsame, htype] at hother
    cases hother

end Answers

/-! ### The client -/

section Client

variable {bytes : List UInt8} {calls : SystemCalls}

/-- **Success.** A client takes the messages of a datagram that it accepts, and reports a success of
the server. -/
theorem receiveResponse_of_isResponsePacket {os : List ℕ} (s : ClientState) (ref : ServerRef)
    (hreceived : calls.received = .datagram bytes) (hshort : bytes.length ≤ maxResponseMessageSize)
    (hpkt : IsResponsePacket (s.buffer.write 0 bytes) os) :
    ∃ parsed : ClientState,
      parsed.intake = (messagesAt (s.buffer.write 0 bytes) os).foldl (Intake.take ref) s.intake ∧
      s.receiveResponse ref calls = (parsed.reportSuccess ref).map fun reported =>
        (reported.1.addTimeEntropy calls, reported.2) := by
  obtain ⟨parsed, hparsed, hintake⟩ :=
    parseResponse_eq_take (s := { s with buffer := s.buffer.write 0 bytes }) hpkt ref
  refine ⟨parsed, hintake, ?_⟩
  rw [ClientState.receiveResponse, hreceived]
  simp only [List.take_of_length_le hshort, validateResponsePacket_iff.2 ⟨os, hpkt⟩, hparsed,
    Option.bind_eq_bind, Option.bind_some, if_true]
  cases parsed.reportSuccess ref <;> rfl

/-- **Failure.** A client reports a failure of the server for a datagram that it does not accept,
and takes nothing. -/
theorem receiveResponse_of_rejected (s : ClientState) (ref : ServerRef)
    (hreceived : calls.received = .datagram bytes) (hshort : bytes.length ≤ maxResponseMessageSize)
    (hvalid : validateResponsePacket (s.buffer.write 0 bytes) = some false) :
    ∃ received : ClientState, received.intake = s.intake ∧
      s.receiveResponse ref calls = received.reportFailure ref := by
  refine ⟨{ s with buffer := s.buffer.write 0 bytes }, rfl, ?_⟩
  rw [ClientState.receiveResponse, hreceived]
  simp only [List.take_of_length_le hshort, hvalid, Option.bind_eq_bind, Option.bind_some,
    Bool.false_eq_true, if_false]

end Client

/-! ### Packets -/

/-- A packet of a server whose messages are all of one kind. -/
def Tells (Q : ResponseMessage → Prop) (bytes : List UInt8) : Prop :=
  ∃ buffer msgs, pktMsgType buffer = NrpdMsgType.request.code ∧ bytes = replyBytes buffer msgs ∧
    (∀ msg ∈ msgs, msg.count ≤ maxByte) ∧ 4 + encodedSize msgs ≤ 1236 ∧ ∀ msg ∈ msgs, Q msg

theorem ofFamilies_responder (c : NrpdConfig) : c.responder.OfFamilies := by
  intro ipv6 e he
  obtain ⟨r, hr, rfl⟩ := List.mem_map.1 he
  exact ipv6_of_mem_activeOf (List.mem_of_mem_take hr)

theorem entropySize_responder_le (c : NrpdConfig) : c.responder.entropySize ≤ 255 := by
  have hsize := c.defaultEntropySize.property
  show c.defaultEntropySize.val.toNat ≤ 255
  omega

theorem toNat_mtuFor_le (srcAddr : SockaddrStorage) : (mtuFor srcAddr).toNat ≤ 1236 := by
  have hmtu := mtuFor_mem srcAddr
  omega

section Packets

variable {Q Q' : ResponseMessage → Prop} {bytes : List UInt8}

theorem Tells.mono (h : Tells Q bytes) (hQ : ∀ msg, Q msg → Q' msg) : Tells Q' bytes := by
  obtain ⟨buffer, msgs, htype, hbytes, hcount, hsize, hall⟩ := h
  exact ⟨buffer, msgs, htype, hbytes, hcount, hsize, fun msg hmsg => hQ msg (hall msg hmsg)⟩

theorem Tells.length_le (h : Tells Q bytes) : bytes.length ≤ maxResponseMessageSize := by
  obtain ⟨buffer, msgs, -, rfl, -, hsize, -⟩ := h
  exact (length_replyBytes buffer msgs).trans_le (hsize.trans (by simp))

/-- A client that accepts the packet reads messages of this kind. -/
theorem Tells.heard (h : Tells Q bytes) {m : Mem} {os : List ℕ}
    (hpkt : IsResponsePacket (m.write 0 (bytes.take maxResponseMessageSize)) os) :
    ∀ msg ∈ messagesAt (m.write 0 (bytes.take maxResponseMessageSize)) os, Q msg := by
  rw [List.take_of_length_le h.length_le] at hpkt ⊢
  obtain ⟨buffer, msgs, htype, rfl, hcount, hsize, hall⟩ := h
  by_cases hnil : msgs = []
  · rw [replyBytes, if_pos hnil] at hpkt
    have hvalid := validateResponsePacket_of_request m htype
    rw [validateResponsePacket_iff.2 ⟨os, hpkt⟩] at hvalid
    cases hvalid
  · rw [replyBytes, if_neg hnil] at hpkt ⊢
    rw [messagesAt_of_responseBytes hnil hcount (hsize.trans (by simp)) hpkt]
    exact hall

/-- The packet that a server sends has the messages of its answer. -/
theorem Node.Serves.tells {n n' : Node} {srcAddr : SockaddrStorage} {reply : Reply}
    (h : n.Serves bytes srcAddr (n', some (.reply reply)))
    (hanswer : ∀ os, ∀ msg ∈ (n.answer (requestBuffer bytes) srcAddr os).1, Q msg) :
    Tells Q reply.bytes := by
  cases h with
  | @answered os config hos hnew hread hfits =>
    refine ⟨_, _, hos.type_eq, rfl, fun msg hmsg => ?_, hfits.trans (toNat_mtuFor_le srcAddr),
      hanswer os⟩
    refine (Responder.count_of_mem_respond (ofFamilies_responder _) (entropySize_responder_le _)
      (toNat_mtuFor_le srcAddr) ?_ hmsg).2
    rw [requestsAt, List.length_map]
    exact Nat.le_of_lt_succ hos.length_lt

/-- **Packets.** What holds of the messages of every answer holds of the packet of a call. -/
theorem Node.tells_of_run {n n' : Node} {call : NodeCall} {sent : Option Sent} {k : ℕ}
    (hanswer : ∀ bytes srcAddr os,
      ∀ msg ∈ (n.answer (requestBuffer bytes) srcAddr os).1, Q msg)
    (hsound : n.Sound k) (hk : k + call.receives < 67108864)
    (hrun : call.run n = some (n', sent)) {reply : Reply} (hreply : reply ∈ replies sent.toList) :
    Tells Q reply.bytes := by
  by_cases hserve : ∃ bytes srcAddr, call = .serve bytes srcAddr
  · obtain ⟨bytes, srcAddr, rfl⟩ := hserve
    have hserves := Node.serves_of_run hsound.counts (hsound.few.trans_lt (by omega)) hrun
    obtain rfl := mem_replies_toList hreply
    exact hserves.tells fun os => hanswer bytes srcAddr os
  · have hapart := Node.apart_of_run hrun fun bytes srcAddr heq => hserve ⟨bytes, srcAddr, heq⟩
    rw [hapart.silent] at hreply
    cases hreply

/-- The servers that an answer lists are active. -/
theorem Node.servers_of_mem_answer {n : Node} {buffer : Mem} {srcAddr : SockaddrStorage}
    {os : List ℕ} {A : Host × UInt16 → Prop}
    (h : ∀ r ∈ n.config.activeServers.elems, A (endpoint r)) {msg : ResponseMessage}
    (hmsg : msg ∈ (n.answer buffer srcAddr os).1) : ∀ e ∈ msg.servers, A e := by
  intro e he
  obtain ⟨ipv6, hlisted⟩ := Responder.listsOwn_of_mem_respond hmsg e he
  obtain ⟨r, hr, rfl⟩ := List.mem_map.1 hlisted
  exact h r (List.mem_of_mem_filter (List.mem_of_mem_take hr))

end Packets

/-! ### The round -/

/-- The bytes that a node sends are those of a request, and its receiver reads the messages. -/
theorem Node.requestsAt_of_run {a a' : Node} {connected sent : Bool} {request : Request}
    {bytes : List UInt8} (hsend : NodeCall.run a (.sendRequest connected sent) =
      some (a', some (.request request bytes))) :
    ∃ os, IsRequestPacket (requestBuffer bytes) os ∧
      requestsAt (requestBuffer bytes) os = requestedMessages a.config request.record := by
  obtain ⟨asked, hrun, hsome⟩ := NodeCall.of_request hsend
  obtain ⟨next, record, hnext, -, -, -, -, hrequest⟩ := ClientState.of_sendRequest hrun
  obtain ⟨-, rfl, requestSize, hbuilt, rfl⟩ := hrequest _ _ hsome
  obtain ⟨pkt, hpkt, hread⟩ := read_constructRequest next.2 request.record a.client.buffer
  obtain ⟨hsize, rfl⟩ := Prod.mk.inj (hbuilt.symm.trans hpkt)
  obtain rfl := Option.some.inj hsize
  have hsame : requestedMessages next.2 request.record =
      requestedMessages a.config request.record := by
    obtain ⟨ia, ip, flag, -, -, heq, -⟩ := getNextServer_eq_some hnext
    rw [heq]
    rfl
  rw [hsame] at hread ⊢
  obtain ⟨hmin, hmax⟩ := length_requestedMessages a.config request.record
  refine requestsAt_of_read hmin (hmax.trans (by simp)) (fun message hmessage => ?_) ?_
  · obtain ⟨t, hge, hle, htype⟩ := exists_type_of_mem_requestedMessages hmessage
    rw [htype]
    exact ⟨hge, hle⟩
  · rw [hread, requestBuffer, List.take_of_length_le
      (by rw [length_requestBytes, maxRequestMessageSize]; omega), ← length_requestBytes]
    exact Mem.read_write _ _ _

/-- **A round.** A node sends a request, and it reaches the server of another node, which has not
seen the client for a minute. The server sends the answer of its responder to what was asked for,
or the first bytes of the request when there is none, in a turn that is one step. A client that
receives the packet, whenever that is, takes its messages one after the other and reports a success
of the server that it waits for; when the answer has no message, it takes nothing and reports a
failure. -/
theorem Node.Ran.round {n a a' b : Node} {calls : List NodeCall} {log : List Sent}
    {connected sent : Bool} {request : Request} {bytes : List UInt8} {srcAddr : SockaddrStorage}
    (hsend : NodeCall.run a (.sendRequest connected sent) =
      some (a', some (.request request bytes)))
    (hb : n.Ran calls b log)
    (hnew : (b.recentClients.isPresentAdd srcAddr b.clock).response = false) :
    let msgs := (b.config.responder.respond (mtuFor srcAddr).toNat b.random
      (requestedMessages a.config request.record)).1
    ∃ b' reply, NodeCall.run b (.serve bytes srcAddr) = some (b', some (.reply reply)) ∧
      reply.dest = srcAddr ∧ reply.bytes = replyBytes (requestBuffer bytes) msgs ∧
      ∀ (waiting : Node) (ref : ServerRef) (system : SystemCalls), waiting.asked = some ref →
        system.received = .datagram reply.bytes →
        (msgs ≠ [] → ∃ parsed : ClientState,
          parsed.intake = msgs.foldl (Intake.take ref) waiting.client.intake ∧
          NodeCall.run waiting (.receiveResponse system) = (parsed.reportSuccess ref).map
            fun reported => (waiting.withClient (reported.1.addTimeEntropy system) none, none)) ∧
        (msgs = [] → ∃ received : ClientState, received.intake = waiting.client.intake ∧
          NodeCall.run waiting (.receiveResponse system) = (received.reportFailure ref).map
            fun reported => (waiting.withClient reported.1 none, none)) := by
  intro msgs
  obtain ⟨os, hos, hrequests⟩ := requestsAt_of_run hsend
  have hsound := hb.sound
  obtain ⟨left, hrun, hserves⟩ : ∃ left, NodeCall.run b (.serve bytes srcAddr) = some left ∧
      b.Serves bytes srcAddr left :=
    exists_serves hsound.counts (hsound.few.trans_lt hb.few)
      (validateRequestPacket_iff.2 ⟨os, hos⟩)
  cases hserves with
  | malformed hvalid =>
    rw [validateRequestPacket_iff.2 ⟨os, hos⟩] at hvalid
    cases hvalid
  | tooSoon _ hrecent =>
    rw [hnew] at hrecent
    cases hrecent
  | @answered os' config hos' _ hread hfits =>
    obtain rfl := hos.tiles.unique hos'.tiles
    have hmsgs : (b.answer (requestBuffer bytes) srcAddr os).1 = msgs := by
      rw [answer, hrequests]
    rw [hmsgs] at hrun hfits
    have hsize := hfits.trans (toNat_mtuFor_le srcAddr)
    refine ⟨_, _, hrun, rfl, rfl,
      fun waiting ref system hasked hreceived => ⟨fun hne => ?_, fun hnil => ?_⟩⟩
    · have hwellFormed : ∀ msg ∈ msgs, msg.WellFormed := fun msg hmsg => by
        refine Responder.wellFormed_of_mem_respond (ofFamilies_responder _)
          (entropySize_responder_le _) (toNat_mtuFor_le srcAddr) ?_
          (fun message hmessage => ?_) hmsg
        · exact (length_requestedMessages _ _).2.trans (by omega)
        · obtain ⟨t, hge, -, htype⟩ := exists_type_of_mem_requestedMessages hmessage
          exact ⟨t, hge, htype⟩
      rw [replyBytes, if_neg hne] at hreceived
      have hmax : 4 + encodedSize msgs ≤ maxResponseMessageSize := hsize.trans (by simp)
      obtain ⟨os', hpkt⟩ := exists_isResponsePacket hne hwellFormed hsize waiting.client.buffer
      obtain ⟨parsed, hintake, hreceive⟩ := receiveResponse_of_isResponsePacket waiting.client ref
        hreceived ((length_responseBytes hne).trans_le hmax) hpkt
      rw [messagesAt_of_responseBytes hne (fun msg hmsg => (hwellFormed msg hmsg).count_le) hmax
        hpkt] at hintake
      refine ⟨parsed, hintake, ?_⟩
      simp only [NodeCall.run, hasked, hreceive, Option.bind_eq_bind, Option.bind_some]
      cases parsed.reportSuccess ref <;> rfl
    · rw [hnil, replyBytes, if_pos rfl] at hreceived
      obtain ⟨received, hintake, hreceive⟩ := receiveResponse_of_rejected waiting.client ref
        hreceived (by simp) (validateResponsePacket_of_request waiting.client.buffer hos.type_eq)
      refine ⟨received, hintake, ?_⟩
      simp only [NodeCall.run, hasked, hreceive, Option.bind_eq_bind, Option.bind_some]
      cases received.reportFailure ref <;> rfl

/-- Two nodes with one server each. -/
theorem Node.Ran.round_example : ∃ a' request bytes b' reply,
    NodeCall.run sampleNode (.sendRequest true true) = some (a', some (.request request bytes)) ∧
      NodeCall.run sampleNode (.serve bytes (.inet #v[10, 0, 0, 9] 4000)) =
        some (b', some (.reply reply)) := by
  obtain ⟨n', log, hran, -⟩ := exists_ran_sampleNode [] (·.2.length) 0 (by decide) (by decide)
  obtain ⟨rfl, -⟩ := Prod.mk.inj (Option.some.inj hran.after)
  obtain ⟨a', request, bytes, hsend⟩ := exists_request_sampleNode
  have hnew : (sampleNode.recentClients.isPresentAdd (.inet #v[10, 0, 0, 9] 4000)
      sampleNode.clock).response = false := by decide
  obtain ⟨b', reply, hserve, -⟩ := Node.Ran.round hsend hran hnew
  exact ⟨a', request, bytes, b', reply, hsend, hserve⟩

end Nrpd
