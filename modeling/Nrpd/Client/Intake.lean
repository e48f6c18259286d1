import Nrpd.Client.Sessions
import Nrpd.Server.Responder

/-!
# What a client is for

A client takes the messages of a response one after the other: entropy goes to its random device,
masked with bits that are read from the device; peers of the families that it uses are added to its
servers; rejections are noted in the record of the server that was asked. `ParseResponse` does this,
on a packet that the validator accepts, with the messages as they were received: the masking of
entropy in the receive buffer is not seen by the messages behind it, and what the buffer holds
behind the packet is not seen at all.

## Main definitions

* `Intake`: a client without its buffer.
* `Intake.take`: what a message does to it.
* `messagesAt`: the messages of a packet, as values.

## Main results

* `parseResponse_eq_take`: `ParseResponse` takes the messages of the packet.
* `decodeMessages_of_isResponsePacket`: they are the ones that a reader finds.
-/

namespace Nrpd

open FuelLoop Segments NrpdConfig

/-- A client without its buffer. -/
structure Intake where
  config : NrpdConfig
  clock : SteadyClock
  random : RandomDevice
  sink : RandomSink
  secrets : ℕ → Mem

/-- What a client is without its buffer. -/
def ClientState.intake (s : ClientState) : Intake :=
  ⟨s.config, s.clock, s.random, s.sink, s.secrets⟩

namespace Intake

/-- Entropy goes to the random device, masked with a secret if there is one. -/
def takeEntropy (s : Intake) (bytes : List UInt8) : Intake :=
  let secret := s.random.delivered ((bytes.length + 7) / 8)
  let kept :=
    if secret = [] then bytes else maskEntropy ((s.secrets s.random.taken).write 0 secret) bytes
  { s with random := s.random.skip 1, sink := (s.sink.write kept).2 }

/-- Servers are added, unless their family is not used. -/
def takePeers (s : Intake) (enabled : Bool) (servers : List (Host × UInt16)) : Intake :=
  if enabled then
    let added := addServers (servers.map fun e => .new e.1 e.2) s.config s.clock
    { s with config := added.1, clock := added.2 }
  else s

/-- Rejections are noted in the record of a server. -/
def takeRejections (s : Intake) (server : ServerRef) (entries : List NrpMessageReject) : Intake :=
  { s with
    config := s.config.updateServer server (parseRejectMessage entries)
      (host_parseRejectMessage entries) }

/-- What a message does to a client that has asked a server. -/
def take (server : ServerRef) (s : Intake) (msg : ResponseMessage) : Intake :=
  match msg with
  | .entropy bytes => s.takeEntropy bytes
  | .ip4peers _ => s.takePeers s.config.clientEnableIp4 msg.servers
  | .ip6peers _ => s.takePeers s.config.clientEnableIp6 msg.servers
  | .reject entries => s.takeRejections server entries

end Intake

/-- The messages at offsets of a packet, as values. -/
def messagesAt (m : Mem) (os : List ℕ) : List ResponseMessage := os.filterMap (messageAt m)

/-! ### Messages as values -/

section Messages

variable {m m' : Mem} {o : ℕ} {msg : ResponseMessage}

theorem exists_messageAt (h : IsResponseMessage m o) : ∃ msg, messageAt m o = some msg := by
  have hcode {t : NrpdMsgType} (ht : hdrMsgType m o = t.code) :
      NrpdMsgType.ofCode (hdrMsgType m o) = some t := NrpdMsgType.ofCode_eq_some.2 ht
  rw [messageAt]
  cases h with
  | reject htype =>
    rw [hcode htype]
    exact ⟨_, rfl⟩
  | ip4peers htype =>
    rw [hcode htype]
    exact ⟨_, rfl⟩
  | entropy htype =>
    rw [hcode htype]
    exact ⟨_, rfl⟩
  | ip6peers htype =>
    rw [hcode htype]
    exact ⟨_, rfl⟩

/-- A message is told by its own bytes. -/
theorem messageAt_congr (h : IsResponseMessage m o)
    (hagree : m.AgreeOn m' o (o + hdrLength m o)) : messageAt m' o = messageAt m o := by
  have hge := h.hdrLength_ge
  have htype : hdrMsgType m' o = hdrMsgType m o :=
    (hdrMsgType_congr hagree (Nat.le_refl o) (by omega)).symm
  have hcount : hdrCountOrSize m' o = hdrCountOrSize m o :=
    (hdrCountOrSize_congr hagree (Nat.le_refl o) (by omega)).symm
  have hsame {k : ℕ} (hk : hdrLength m o = 4 + k * (hdrCountOrSize m o).toNat) {i j : ℕ}
      (hi : i < (hdrCountOrSize m o).toNat) (hj : j < k) :
      m' (hdrContent o + i * k + j) = m (hdrContent o + i * k + j) := by
    have hrecord : i * k + k ≤ k * (hdrCountOrSize m o).toNat := by
      rw [← Nat.succ_mul, Nat.mul_comm k]
      exact Nat.mul_le_mul_right k hi
    refine (hagree _ ?_ ?_).symm <;> simp only [hdrContent] <;> omega
  rw [messageAt, messageAt, htype, hcount]
  cases h with
  | entropy ht hlen =>
    rw [NrpdMsgType.ofCode_eq_some.2 ht]
    simp only [Option.some.injEq, ResponseMessage.entropy.injEq]
    exact (hagree.read (by simp only [hdrContent]; omega) (by simp only [hdrContent]; omega)).symm
  | ip4peers ht hlen =>
    rw [NrpdMsgType.ofCode_eq_some.2 ht]
    simp only [Option.some.injEq, ResponseMessage.ip4peers.injEq]
    refine List.map_congr_left fun i hi => congrArg Vector.ofFn (funext fun j => ?_)
    exact hsame hlen (List.mem_range.1 hi) j.isLt
  | ip6peers ht hlen =>
    rw [NrpdMsgType.ofCode_eq_some.2 ht]
    simp only [Option.some.injEq, ResponseMessage.ip6peers.injEq]
    refine List.map_congr_left fun i hi => congrArg Vector.ofFn (funext fun j => ?_)
    exact hsame hlen (List.mem_range.1 hi) j.isLt
  | reject ht hpos hlen =>
    rw [NrpdMsgType.ofCode_eq_some.2 ht]
    simp only [Option.some.injEq, ResponseMessage.reject.injEq]
    refine List.map_congr_left fun i hi => ?_
    have h0 := hsame hlen (List.mem_range.1 hi) (show 0 < 2 by omega)
    have h1 := hsame hlen (List.mem_range.1 hi) (show 1 < 2 by omega)
    rw [rejectEntryAt, rejectEntryAt]
    exact congrArg₂ NrpMessageReject.mk h0 h1

/-- The records of the peers of a message are those of its servers. -/
theorem entriesOf_eq_map_servers (hmsg : messageAt m o = some msg)
    (hpeers : hdrMsgType m o = NrpdMsgType.ip4peers.code ∨
      hdrMsgType m o = NrpdMsgType.ip6peers.code) :
    entriesOf m o = msg.servers.map fun e => ServerRecord.new e.1 e.2 := by
  rcases hpeers with htype | htype
  · have hcode := NrpdMsgType.ofCode_eq_some.2 htype
    rw [messageAt, hcode] at hmsg
    obtain rfl := Option.some.inj hmsg
    rw [entriesOf, if_neg (by simp [htype]), peersOf, ResponseMessage.servers, List.map_map,
      List.map_map]
    refine List.map_congr_left fun i _ => ?_
    rw [if_pos htype]
    simp only [Function.comp_apply, serverOfIp4, ServerRecord.ofIp4Peer, Vector.getElem_ofFn]
    rfl
  · have hcode := NrpdMsgType.ofCode_eq_some.2 htype
    rw [messageAt, hcode] at hmsg
    obtain rfl := Option.some.inj hmsg
    have hother : hdrMsgType m o ≠ NrpdMsgType.ip4peers.code := by
      rw [htype]
      decide
    rw [entriesOf, if_neg (by simp [htype]), peersOf, ResponseMessage.servers, List.map_map,
      List.map_map]
    refine List.map_congr_left fun i _ => ?_
    rw [if_neg hother]
    simp only [Function.comp_apply, serverOfIp6, ServerRecord.ofIp6Peer, Vector.getElem_ofFn]
    rfl

end Messages

/-! ### One message -/

section Take

variable {s : ClientState} {o : ℕ} {msg : ResponseMessage}

/-- Entropy is consumed as it was masked. -/
theorem intake_takeEntropy (s : ClientState) (o : ℕ) :
    (s.takeEntropy o).intake = s.intake.takeEntropy
      (s.buffer.read (hdrContent o) (hdrCountOrSize s.buffer o).toNat) := by
  have hsize : ¬ (hdrCountOrSize s.buffer o).toNat > maxEntropySize := by
    have := (hdrCountOrSize s.buffer o).toNat_lt
    simp only [maxEntropySize]
    omega
  simp only [ClientState.takeEntropy, ClientState.intake, Intake.takeEntropy, scrambleEntropy,
    if_neg hsize, Mem.length_read, RandomDevice.delivered]
  have hconsume (m : Mem) :
      (consumeEntropy (hdrCountOrSize s.buffer o).toNat (hdrContent o) m s.sink).2 =
        (s.sink.write (m.read (hdrContent o) (hdrCountOrSize s.buffer o).toNat)).2 := by
    rw [consumeEntropy, if_neg hsize]
  cases hread : (s.random.read (((hdrCountOrSize s.buffer o).toNat + 7) / 8)).1 with
  | none => simp only [hconsume, Option.getD_none, if_true, RandomDevice.read_snd]
  | some secret =>
    cases secret with
    | nil => simp only [hconsume, Option.getD_some, if_true, RandomDevice.read_snd]
    | cons byte secret =>
      have hmasked (mask : List UInt8) (hlength : mask.length = (hdrCountOrSize s.buffer o).toNat) :
          (s.buffer.write (hdrContent o) mask).read (hdrContent o)
            (hdrCountOrSize s.buffer o).toNat = mask := by
        rw [← hlength]
        exact Mem.read_write _ _ _
      simp only [hconsume, Option.getD_some, reduceCtorEq, if_false, RandomDevice.read_snd]
      rw [hmasked _ (by rw [length_maskEntropy, Mem.length_read])]

/-- **One message.** It is taken as the value that it is. -/
theorem intake_takeMessage (server : ServerRef) (hmsg : messageAt s.buffer o = some msg) :
    (s.takeMessage server o).intake = s.intake.take server msg := by
  have hpeers (enabled : Bool) (hfamily : hdrMsgType s.buffer o = NrpdMsgType.ip4peers.code ∨
      hdrMsgType s.buffer o = NrpdMsgType.ip6peers.code) :
      (s.takePeers enabled o).intake = s.intake.takePeers enabled msg.servers := by
    rw [ClientState.takePeers, Intake.takePeers, ← entriesOf_eq_map_servers hmsg hfamily]
    cases enabled with
    | false => rfl
    | true =>
      simp only [if_true, addServersFromMessage_snd]
      rfl
  cases htype : NrpdMsgType.ofCode (hdrMsgType s.buffer o) with
  | none =>
    rw [messageAt, htype] at hmsg
    cases hmsg
  | some type =>
    have hcode := NrpdMsgType.ofCode_eq_some.1 htype
    rw [ClientState.takeMessage, htype]
    rw [messageAt, htype] at hmsg
    cases type with
    | ip4peers =>
      obtain rfl := Option.some.inj hmsg
      exact hpeers _ (.inl hcode)
    | ip6peers =>
      obtain rfl := Option.some.inj hmsg
      exact hpeers _ (.inr hcode)
    | entropy =>
      obtain rfl := Option.some.inj hmsg
      exact intake_takeEntropy s o
    | reject =>
      obtain rfl := Option.some.inj hmsg
      rfl
    | _ => cases hmsg

end Take

/-! ### The loop -/

section Loop

variable {m : Mem} {os : List ℕ} {ref : ServerRef}

/-- What is kept between the messages: those that are not taken yet stand as they were received. -/
structure Taken (m : Mem) (os : List ℕ) (first : ClientState) (ref : ServerRef) (pre : List ℕ)
    (s : ClientState) : Prop where
  headers : SameHeaders m s.buffer os
  behind : ∀ o ∈ os, o ∉ pre → m.AgreeOn s.buffer o (o + hdrLength m o)
  count : s.msgCount = pre.length
  intake : s.intake = (messagesAt m pre).foldl (Intake.take ref) first.intake

theorem Taken.visit {first s : ClientState} {pre : List ℕ} {o : ℕ} (h : Taken m os first ref pre s)
    (hpkt : IsResponsePacket m os) (ho : o ∈ os) (hnew : o ∉ pre) :
    Taken m os first ref (pre ++ [o]) ((responseWalk ref maxResponseMessageSize).visit o s) where
  headers := h.headers.takeMessage hpkt ref ho
  behind o' ho' hbehind i hi hi' := by
    obtain ⟨hne, hne'⟩ : o' ∉ pre ∧ o' ≠ o := by simpa using hbehind
    obtain ⟨bytes, hbuffer, hbytes⟩ := s.buffer_takeMessage ref o
    have hinside : bytes.length + 4 ≤ hdrLength m o := by
      have hlen := (hpkt.messages o ho).hdrLength_ge
      rcases hbytes with rfl | ⟨htype, hlength⟩
      · rw [List.length_nil]
        omega
      · obtain ⟨t, -, ht, hrecords⟩ := (hpkt.messages o ho).hasRecords
        rw [← h.headers.hdrMsgType_eq ho, ht] at htype
        obtain rfl := NrpdMsgType.code_injective htype
        rw [hrecords, hlength, h.headers.hdrCountOrSize_eq ho, recordSize, Nat.one_mul,
          Nat.add_comm]
    show m i = (s.takeMessage ref o).buffer i
    rw [h.behind o' ho' hne i hi hi', hbuffer, Mem.write_of_notMem]
    simp only [hdrContent]
    rcases hpkt.tiles.eq_or_disjoint ho ho' with rfl | hafter | hbefore
    · exact absurd rfl hne'
    · omega
    · omega
  count := by simp [responseWalk, h.count]
  intake := by
    obtain ⟨msg, hmsg⟩ := exists_messageAt (hpkt.messages o ho)
    have hreceived : messageAt s.buffer o = some msg :=
      (messageAt_congr (hpkt.messages o ho) (h.behind o ho hnew)).trans hmsg
    show (s.takeMessage ref o).intake = _
    rw [intake_takeMessage ref hreceived, h.intake, messagesAt, messagesAt, List.filterMap_append,
      List.foldl_append, List.filterMap_cons, hmsg]
    rfl

/-- The offsets of the messages of a packet are distinct. -/
theorem IsResponsePacket.nodup (h : IsResponsePacket m os) : os.Nodup := by
  have htiles := h.tiles
  generalize pktMessages = a at htiles
  generalize pktLength m = b at htiles
  clear h
  induction htiles with
  | nil => exact .nil
  | cons hpos htail ih =>
    refine List.nodup_cons.2 ⟨fun hmem => ?_, ih⟩
    have := (htail.bounds _ hmem).1
    omega

/-- **`ParseResponse` is the intake.** On a packet that the validator accepts it ends, and leaves
the client as the messages of the packet leave it, taken as values, one after the other. -/
theorem parseResponse_eq_take {s : ClientState} (hpkt : IsResponsePacket s.buffer os)
    (ref : ServerRef) :
    ∃ s', parseResponse ref maxResponseMessageSize s = some s' ∧
      s'.intake = (messagesAt s.buffer os).foldl (Intake.take ref) s.intake := by
  refine ⟨_, parseResponse_eq hpkt ref, ?_⟩
  refine ((responseWalk ref maxResponseMessageSize).visitAll_invariant
    (Taken s.buffer os s ref) ?_ ?_ ?_).intake
  · rintro pre o ⟨post, hos⟩ t ht -
    have hnodup := hpkt.nodup
    rw [hos] at hnodup
    exact ht.visit hpkt (by simp [hos]) fun hmem =>
      (List.nodup_append.1 hnodup).2.2 o hmem o List.mem_cons_self rfl
  · rintro pre o ⟨post, hos⟩ t ht hguard
    rw [guard_responseWalk hpkt ht.headers hos ht.count] at hguard
    cases hguard
  · exact ⟨.refl _ _, fun _ _ _ _ _ _ => rfl, rfl, rfl⟩

/-- **Messages that were written.** Where the bytes of messages stand, these are the messages. -/
theorem messagesAt_of_read {msgs : List ResponseMessage} {a : ℕ}
    (hcount : ∀ msg ∈ msgs, msg.count ≤ maxByte)
    (hread : m.read a (encodedSize msgs) = msgs.flatMap ResponseMessage.bytes)
    (htiles : Tiles (hdrLength m) a os (a + encodedSize msgs)) : messagesAt m os = msgs := by
  generalize hend : a + encodedSize msgs = b at htiles
  induction msgs generalizing a os with
  | nil =>
    cases htiles with
    | nil => rfl
    | cons hpos htail =>
      have hle := htail.le
      have hnone : encodedSize [] = 0 := rfl
      omega
  | cons msg msgs ih =>
    obtain ⟨hfirst, hrest⟩ := Mem.read_eq_append hread
    have hholds := holdsMessage_of_count_le (hcount msg List.mem_cons_self) hfirst
    have hsize := msg.length_bytes
    rw [encodedSize_cons, ← Nat.add_assoc] at hend
    cases htiles with
    | nil => omega
    | cons hpos htail =>
      rw [hholds.length] at htail
      have htaken := ih (fun msg hmsg => hcount msg (List.mem_cons_of_mem _ hmsg)) hrest hend htail
      rw [messagesAt, List.filterMap_cons, hholds.messageAt_eq]
      exact congrArg (msg :: ·) htaken

/-- **Readers.** The messages of a packet are the ones that a reader finds. -/
theorem decodeMessages_of_isResponsePacket (hpkt : IsResponsePacket m os) :
    decodeMessages m (pktMsgCount m).toNat pktMessages = some (messagesAt m os) := by
  rw [← hpkt.count_eq]
  have htiles := hpkt.tiles
  have hmessages := hpkt.messages
  generalize pktMessages = a at htiles
  clear hpkt
  induction os generalizing a with
  | nil =>
    cases htiles
    rw [List.length_nil, decodeMessages, endOfPacket, if_neg (by omega)]
    rfl
  | cons o os ih =>
    cases htiles with
    | cons hpos htail =>
      have hle := htail.le
      obtain ⟨msg, hmsg⟩ := exists_messageAt (hmessages _ List.mem_cons_self)
      rw [List.length_cons, decodeMessages, endOfPacket, if_pos (by omega), hmsg, nextMessage,
        ih (fun o ho => hmessages o (List.mem_cons_of_mem _ ho)) _ htail, messagesAt, messagesAt,
        List.filterMap_cons, hmsg]
      rfl

/-- **A client takes values.** Whatever is in the buffer of a client, if the validator accepts it:
a reader finds messages in it, and `ParseResponse` ends and leaves the client as these messages
leave it, taken one after the other. Neither the bytes behind the packet nor the masking of entropy
in the buffer makes a difference. -/
theorem parseResponse_refines {s : ClientState}
    (hvalid : validateResponsePacket s.buffer = some true) (ref : ServerRef) :
    ∃ msgs s', decodeMessages s.buffer (pktMsgCount s.buffer).toNat pktMessages = some msgs ∧
      parseResponse ref maxResponseMessageSize s = some s' ∧
      s'.intake = msgs.foldl (Intake.take ref) s.intake := by
  obtain ⟨os, hos⟩ := validateResponsePacket_iff.1 hvalid
  obtain ⟨s', hparse, hintake⟩ := parseResponse_eq_take hos ref
  exact ⟨messagesAt s.buffer os, s', decodeMessages_of_isResponsePacket hos, hparse, hintake⟩

/-- The entropy is masked before it is written, and the byte behind the packet is not read. -/
theorem parseResponse_refines_example :
    let s := { newClient mixedResponse with
      random := ⟨fun _ n => some ⟨List.replicate n 5, by simp⟩, 0⟩ }
    let msgs : List ResponseMessage :=
      [.reject [⟨NrpdMsgType.certchain.code, NrpdRejectReason.unsupported.code⟩],
        .ip4peers [#v[10, 0, 0, 9, 31, 144]], .entropy [1, 2, 3]]
    ∃ s', decodeMessages mixedResponse 3 pktMessages = some msgs ∧
      parseResponse (.active 0) maxResponseMessageSize s = some s' ∧
      s'.intake = msgs.foldl (Intake.take (.active 0)) s.intake ∧
      s'.sink.written = [[1, 0, 3]] := by
  intro s msgs
  obtain ⟨msgs', s', hdecoded, hparse, hintake⟩ :=
    parseResponse_refines (s := s) (by decide) (.active 0)
  have hmsgs : decodeMessages mixedResponse 3 pktMessages = some msgs := rfl
  obtain rfl := Option.some.inj (hmsgs.symm.trans hdecoded)
  refine ⟨s', hmsgs, hparse, hintake, ?_⟩
  rw [show s'.sink = s'.intake.sink from rfl, hintake]
  decide

end Loop

end Nrpd
