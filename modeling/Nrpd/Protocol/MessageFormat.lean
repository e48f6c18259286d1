import Nrpd.Lib.ByteMemory

/-!
# Message types, header fields and size limits

The constants and structures of `protocol.h`. A packet is a byte memory that starts at address
`0`; a pointer into it is an offset. A packet header and a message header have the same shape:
a two-byte length in network byte order, a type byte and a count byte. The messages follow the
packet header, and the content of a message follows its header.

## Main definitions

* `NrpdMsgType`, `NrpdRejectReason`: the enumerations, with their values on the wire.
* `hdrLength`, `hdrMsgType`, `hdrCountOrSize`, `hdrContent`: the fields of `Nrp_Header_Message`.
* `pktLength`, `pktMsgType`, `pktMsgCount`, `pktMessages`: the fields of `Nrp_Header_Packet`.
* `nextMessage`, `endOfPacket`: the pointer arithmetic of the walkers.
-/

namespace Nrpd

/-! ### Enumerations -/

/-- `nrpd_msg_type`. -/
inductive NrpdMsgType where
  | request
  | response
  | reject
  | ip4peers
  | entropy
  | ip6peers
  | certchain
  | signkey
  | encryptionkey
  | secureentropy
  deriving DecidableEq, Repr

namespace NrpdMsgType

/-- The value of a message type on the wire. -/
def code : NrpdMsgType → UInt8
  | request => 1
  | response => 2
  | reject => 3
  | ip4peers => 4
  | entropy => 5
  | ip6peers => 6
  | certchain => 7
  | signkey => 8
  | encryptionkey => 9
  | secureentropy => 10

/-- The message type a byte stands for, if any. -/
def ofCode (b : UInt8) : Option NrpdMsgType :=
  match b.toNat with
  | 1 => some request
  | 2 => some response
  | 3 => some reject
  | 4 => some ip4peers
  | 5 => some entropy
  | 6 => some ip6peers
  | 7 => some certchain
  | 8 => some signkey
  | 9 => some encryptionkey
  | 10 => some secureentropy
  | _ => none

@[simp] theorem ofCode_code (t : NrpdMsgType) : ofCode t.code = some t := by
  cases t <;> rfl

theorem ofCode_eq_some {b : UInt8} {t : NrpdMsgType} : ofCode b = some t ↔ b = t.code := by
  constructor
  · intro h
    apply UInt8.toNat_inj.1
    rw [ofCode] at h
    split at h <;> first
      | (obtain rfl := Option.some.inj h; assumption)
      | cases h
  · rintro rfl
    exact ofCode_code t

theorem ofCode_eq_none {b : UInt8} (h : ofCode b = none) : b.toNat = 0 ∨ 11 ≤ b.toNat := by
  rw [ofCode] at h
  grind

theorem code_injective {t t' : NrpdMsgType} (h : t.code = t'.code) : t = t' := by
  have := ofCode_code t
  rw [h, ofCode_code] at this
  exact (Option.some.inj this).symm

end NrpdMsgType

/-- `request_msg_min`: the smallest type a request message may have. -/
def requestMsgMin : UInt8 := NrpdMsgType.ip4peers.code

/-- `response_msg_min`: the smallest type a response message may have. -/
def responseMsgMin : UInt8 := NrpdMsgType.reject.code

/-- `nrpd_msg_type_max`: the first value that is no message type. -/
def nrpdMsgTypeMax : UInt8 := 11

/-- `nrpd_reject_reason`. -/
inductive NrpdRejectReason where
  | unspecified
  | busy
  | shuttingdown
  | unsupported
  deriving DecidableEq, Repr

namespace NrpdRejectReason

/-- The value of a reject reason on the wire. -/
def code : NrpdRejectReason → UInt8
  | unspecified => 0
  | busy => 1
  | shuttingdown => 2
  | unsupported => 3

/-- The reject reason a byte stands for, if any. -/
def ofCode (b : UInt8) : Option NrpdRejectReason :=
  match b.toNat with
  | 0 => some unspecified
  | 1 => some busy
  | 2 => some shuttingdown
  | 3 => some unsupported
  | _ => none

end NrpdRejectReason

/-- `nrpd_reject_reason_max`: the first value that is no reject reason. -/
def nrpdRejectReasonMax : UInt8 := 4

/-! ### Sizes and limits -/

/-- `sizeof(Nrp_Message_Reject)`. -/
@[simp] abbrev sizeofReject : ℕ := 2

/-- `sizeof(Nrp_Message_Ip4Peer)`. -/
@[simp] abbrev sizeofIp4Peer : ℕ := 6

/-- `sizeof(Nrp_Message_Ip6Peer)`. -/
@[simp] abbrev sizeofIp6Peer : ℕ := 18

/-- The size of one record in the content of a message. -/
def recordSize : NrpdMsgType → ℕ
  | .reject => sizeofReject
  | .ip4peers => sizeofIp4Peer
  | .entropy => 1
  | .ip6peers => sizeofIp6Peer
  | _ => 0

/-- `MAX_BYTE`. -/
@[simp] abbrev maxByte : ℕ := 255

/-- `NRP_PACKET_HEADER_SIZE`. -/
@[simp] abbrev nrpPacketHeaderSize : ℕ := 4

/-- `NRP_MESSAGE_HEADER_SIZE`. -/
@[simp] abbrev nrpMessageHeaderSize : ℕ := 4

/-- `MAX_REQUEST_MESSAGE_SIZE`. -/
@[simp] abbrev maxRequestMessageSize : ℕ := 65507

/-- `MAX_RESPONSE_MESSAGE_SIZE`. -/
@[simp] abbrev maxResponseMessageSize : ℕ := 65507

/-- `MAX_REJECT_MESSAGE_SIZE`. -/
@[simp] abbrev maxRejectMessageSize : ℕ := nrpMessageHeaderSize + maxByte * sizeofReject

/-- `DEFAULT_ENTROPY_SIZE`. -/
@[simp] abbrev defaultEntropySize : ℕ := 8

/-- `MAX_ENTROPY_SIZE`. -/
@[simp] abbrev maxEntropySize : ℕ := 512

/-- `CLIENT_MIN_RETRY_SECONDS`. -/
@[simp] abbrev clientMinRetrySeconds : ℤ := 60

/-- `CLIENT_MAX_SERVER_TIMEOUT_COUNT`. -/
@[simp] abbrev clientMaxServerTimeoutCount : ℤ := 5

/-- `MAX_IP6_PACKET_SIZE`. -/
@[simp] abbrev maxIp6PacketSize : ℤ := 1236

/-- `MAX_IP4_PACKET_SIZE`. -/
@[simp] abbrev maxIp4PacketSize : ℤ := 532

/-! ### Header fields -/

/-- `ntohs(hdr->length)` of the message header at `hdr`. -/
def hdrLength (m : Mem) (hdr : ℕ) : ℕ := m.be16 hdr

/-- `hdr->msgType`. -/
def hdrMsgType (m : Mem) (hdr : ℕ) : UInt8 := m (hdr + 2)

/-- `hdr->countOrSize`. -/
def hdrCountOrSize (m : Mem) (hdr : ℕ) : UInt8 := m (hdr + 3)

/-- `hdr->content`. -/
@[simp] abbrev hdrContent (hdr : ℕ) : ℕ := hdr + 4

/-- `ntohs(pkt->length)` of the packet header at the start of the memory. -/
def pktLength (m : Mem) : ℕ := m.be16 0

/-- `pkt->msgType`. -/
def pktMsgType (m : Mem) : UInt8 := m 2

/-- `pkt->msgCount`. -/
def pktMsgCount (m : Mem) : UInt8 := m 3

/-- `pkt->messages`. -/
@[simp] abbrev pktMessages : ℕ := 4

/-- `NextMessage(msg)`: the offset behind the message, by its own length field. -/
def nextMessage (m : Mem) (msg : ℕ) : ℕ := msg + hdrLength m msg

/-- `EndOfPacket(pkt)`, by the packet's own length field. -/
def endOfPacket (m : Mem) : ℕ := pktLength m

theorem hdrLength_lt (m : Mem) (hdr : ℕ) : hdrLength m hdr < 65536 := m.be16_lt hdr

/-- `Nrp_Message_Reject`: one entry of a reject message. -/
structure NrpMessageReject where
  msgType : UInt8
  reason : UInt8
  deriving DecidableEq, Repr

/-- The reject entry at an offset. -/
def rejectEntryAt (m : Mem) (msg : ℕ) : NrpMessageReject := ⟨m msg, m (msg + 1)⟩

/-! ### Header fields of memories that agree -/

section Congr

variable {m m' : Mem} {hdr hdr' n : ℕ}

theorem hdrLength_of_read_eq (h : m.read hdr n = m'.read hdr' n) (hn : 2 ≤ n) :
    hdrLength m hdr = hdrLength m' hdr' := by
  have hbytes := Mem.read_eq_iff.1 h
  have h0 : m hdr = m' hdr' := hbytes 0 (by omega)
  have h1 : m (hdr + 1) = m' (hdr' + 1) := hbytes 1 (by omega)
  rw [hdrLength, hdrLength, Mem.be16, Mem.be16, h0, h1]

theorem hdrMsgType_of_read_eq (h : m.read hdr n = m'.read hdr' n) (hn : 3 ≤ n) :
    hdrMsgType m hdr = hdrMsgType m' hdr' :=
  Mem.read_eq_iff.1 h 2 (by omega)

theorem hdrCountOrSize_of_read_eq (h : m.read hdr n = m'.read hdr' n) (hn : 4 ≤ n) :
    hdrCountOrSize m hdr = hdrCountOrSize m' hdr' :=
  Mem.read_eq_iff.1 h 3 (by omega)

end Congr

theorem hdrLength_congr {m m' : Mem} {a b hdr : ℕ} (h : m.AgreeOn m' a b) (ha : a ≤ hdr)
    (hb : hdr + 2 ≤ b) : hdrLength m hdr = hdrLength m' hdr :=
  h.be16 ha hb

theorem hdrMsgType_congr {m m' : Mem} {a b hdr : ℕ} (h : m.AgreeOn m' a b) (ha : a ≤ hdr)
    (hb : hdr + 3 ≤ b) : hdrMsgType m hdr = hdrMsgType m' hdr :=
  h _ (by omega) (by omega)

theorem hdrCountOrSize_congr {m m' : Mem} {a b hdr : ℕ} (h : m.AgreeOn m' a b) (ha : a ≤ hdr)
    (hb : hdr + 4 ≤ b) : hdrCountOrSize m hdr = hdrCountOrSize m' hdr :=
  h _ (by omega) (by omega)

end Nrpd
