import Nrpd.Protocol.ResponseGrammar

/-!
# Message generation

The generators of `protocol.cpp`. A generator writes a message at a pointer and returns the pointer
behind what it wrote; a null pointer is `none`, and a generator that returns it has written nothing.

## Main definitions

* `headerBytes`, `putMessage`: a header, and a header with its content.
* `generateRequestEntropyMessage`, `generateRequestPeersMessage`: the messages of a request.
* `generateResponseEntropyMessage`, `generateResponsePeersMessage`, `generateRejectHeader`,
  `generateRejectMessage`: the messages of a response.
* `generatePacketHeader`: the header of either packet.

## Main results

* `generateResponseEntropyMessage_of_fits`, `generateResponsePeersMessage_of_fits`: what is
  generated when it fits the buffer.
* `isResponseMessage_putMessage`: a message that is generated is one of the grammar.
-/

namespace Nrpd

open FixedWidth

/-- The bytes of a message header or of a packet header. -/
def headerBytes (length : ℕ) (type count : UInt8) : List UInt8 := be16Bytes length ++ [type, count]

/-- Store a message: its header, and its content behind it. -/
def putMessage (m : Mem) (hdr length : ℕ) (type count : UInt8) (content : List UInt8) : Mem :=
  (m.write hdr (headerBytes length type count)).write (hdrContent hdr) content

/-- `NextMessage(msg, count)`. -/
def nextMessageBy (msg count : ℕ) : ℕ := msg + u16 count

/-! ### Requests -/

/-- `GenerateRequestEntropyMessage`. -/
def generateRequestEntropyMessage (requestedEntropy : UInt8) (hdr : Option ℕ) (m : Mem) :
    Option ℕ × Mem :=
  match hdr with
  | none => (none, m)
  | some hdr =>
    (some (hdrContent hdr),
      m.write hdr (headerBytes nrpMessageHeaderSize NrpdMsgType.entropy.code requestedEntropy))

/-- `GenerateRequestPeersMessage`. -/
def generateRequestPeersMessage (ipType : NrpdMsgType) (countOfPeers : UInt8) (buffer : Option ℕ)
    (m : Mem) : Option ℕ × Mem :=
  match buffer with
  | none => (none, m)
  | some buffer =>
    if ipType ≠ .ip4peers ∧ ipType ≠ .ip6peers then (none, m)
    else
      (some (hdrContent buffer),
        m.write buffer (headerBytes nrpMessageHeaderSize ipType.code countOfPeers))

/-! ### Responses -/

/-- `GenerateResponseEntropyMessage`. -/
def generateResponseEntropyMessage (entropyLength : UInt8) (entropy : Option (List UInt8))
    (bufferSize : ℕ) (buffer : Option ℕ) (m : Mem) : Option ℕ × Mem :=
  match entropy, buffer with
  | none, _ => (none, m)
  | some _, none => (none, m)
  | some entropy, some buffer =>
    if entropyLength = 0 then (none, m)
    else if bufferSize < nrpMessageHeaderSize + entropyLength.toNat then (none, m)
    else
      (some (nextMessageBy (hdrContent buffer) entropyLength.toNat),
        putMessage m buffer (nrpMessageHeaderSize + entropyLength.toNat) NrpdMsgType.entropy.code
          entropyLength (entropy.take entropyLength.toNat))

/-- `GenerateResponsePeersMessage`. -/
def generateResponsePeersMessage (ipType : NrpdMsgType) (countOfPeers : UInt8)
    (listOfPeers : Option (List UInt8)) (bufferSize : ℕ) (buffer : Option ℕ) (m : Mem) :
    Option ℕ × Mem :=
  match buffer, listOfPeers with
  | none, _ => (none, m)
  | some _, none => (none, m)
  | some buffer, some listOfPeers =>
    if ipType ≠ .ip4peers ∧ ipType ≠ .ip6peers then (none, m)
    else if countOfPeers = 0 then (none, m)
    else
      let contentSize := countOfPeers.toNat *
        (if ipType = .ip4peers then sizeofIp4Peer else sizeofIp6Peer)
      if bufferSize < nrpMessageHeaderSize + contentSize then (none, m)
      else
        (some (nextMessageBy (hdrContent buffer) contentSize),
          putMessage m buffer (nrpMessageHeaderSize + contentSize) ipType.code countOfPeers
            (listOfPeers.take contentSize))

/-- `GenerateRejectHeader`. -/
def generateRejectHeader (count : UInt8) (hdr : Option ℕ) (m : Mem) : Option ℕ × Mem :=
  match hdr with
  | none => (none, m)
  | some hdr =>
    (some (hdrContent hdr),
      m.write hdr (headerBytes (nrpMessageHeaderSize + sizeofReject * count.toNat)
        NrpdMsgType.reject.code count))

/-- `GenerateRejectMessage`. -/
def generateRejectMessage (reason message : UInt8) (hdr : Option ℕ) (m : Mem) : Option ℕ × Mem :=
  if reason ≥ nrpdRejectReasonMax then (none, m)
  else
    match hdr with
    | none => (none, m)
    | some hdr => (some (nextMessageBy hdr sizeofReject), m.write hdr [message, reason])

/-! ### Packets -/

/-- `GeneratePacketHeader`. -/
def generatePacketHeader (length : ℕ) (type : NrpdMsgType) (msgCount : UInt8) (buffer : Option ℕ)
    (m : Mem) : Option ℕ × Mem :=
  match buffer with
  | none => (none, m)
  | some buffer =>
    if type ≠ .request ∧ type ≠ .response then (none, m)
    else if length >
      (if type = .request then maxRequestMessageSize else maxResponseMessageSize) then
      (none, m)
    else if msgCount = 0 then (none, m)
    else (some (buffer + 4), m.write buffer (headerBytes length type.code msgCount))

/-! ### What was written reads back -/

section ReadBack

variable {m : Mem} {a length : ℕ} {type count : UInt8} {content : List UInt8}

@[simp] theorem length_headerBytes : (headerBytes length type count).length = 4 := rfl

theorem hdrLength_write_headerBytes (h : length < 65536) :
    hdrLength (m.write a (headerBytes length type count)) a = length := by
  have h0 : m.write a (headerBytes length type count) a = UInt8.ofNat (length / 256) :=
    Mem.write_of_lt (i := 0) (by simp)
  have h1 : m.write a (headerBytes length type count) (a + 1) = UInt8.ofNat (length % 256) :=
    Mem.write_of_lt (i := 1) (by simp)
  rw [hdrLength, Mem.be16, h0, h1, UInt8.toNat_ofNat', UInt8.toNat_ofNat']
  omega

theorem hdrMsgType_write_headerBytes :
    hdrMsgType (m.write a (headerBytes length type count)) a = type :=
  Mem.write_of_lt (i := 2) (by simp)

theorem hdrCountOrSize_write_headerBytes :
    hdrCountOrSize (m.write a (headerBytes length type count)) a = count :=
  Mem.write_of_lt (i := 3) (by simp)

/-- A header that stands somewhere, with its fields. -/
theorem header_of_read (hlt : length < 65536) (hread : m.read a 4 = headerBytes length type count) :
    hdrLength m a = length ∧ hdrMsgType m a = type ∧ hdrCountOrSize m a = count := by
  have hwritten : m.read a 4 = (Mem.zero.write a (headerBytes length type count)).read a 4 :=
    hread.trans (Mem.read_write _ _ _).symm
  refine ⟨?_, ?_, ?_⟩
  · rw [hdrLength_of_read_eq hwritten (by omega), hdrLength_write_headerBytes hlt]
  · rw [hdrMsgType_of_read_eq hwritten (by omega), hdrMsgType_write_headerBytes]
  · rw [hdrCountOrSize_of_read_eq hwritten (by omega), hdrCountOrSize_write_headerBytes]

/-- The content of a message is written behind its header. -/
private theorem agreeOn_putMessage :
    (m.write a (headerBytes length type count)).AgreeOn (putMessage m a length type count content)
      a (a + 4) :=
  fun _ _ hi => (Mem.write_of_notMem (.inl hi)).symm

theorem hdrLength_putMessage (h : length < 65536) :
    hdrLength (putMessage m a length type count content) a = length := by
  rw [← hdrLength_congr agreeOn_putMessage (Nat.le_refl a) (by omega),
    hdrLength_write_headerBytes h]

theorem hdrMsgType_putMessage :
    hdrMsgType (putMessage m a length type count content) a = type := by
  rw [← hdrMsgType_congr agreeOn_putMessage (Nat.le_refl a) (by omega),
    hdrMsgType_write_headerBytes]

theorem hdrCountOrSize_putMessage :
    hdrCountOrSize (putMessage m a length type count content) a = count := by
  rw [← hdrCountOrSize_congr agreeOn_putMessage (Nat.le_refl a) (by omega),
    hdrCountOrSize_write_headerBytes]

end ReadBack

/-! ### Messages that fit -/

section Fits

variable {m : Mem} {a bufferSize : ℕ} {count : UInt8} {content : List UInt8}

theorem generateResponseEntropyMessage_of_fits (hpos : count ≠ 0)
    (hfit : 4 + count.toNat ≤ bufferSize) :
    generateResponseEntropyMessage count (some content) bufferSize (some a) m =
      (some (nextMessageBy (a + 4) count.toNat),
        putMessage m a (4 + count.toNat) NrpdMsgType.entropy.code count
          (content.take count.toNat)) := by
  simp only [generateResponseEntropyMessage, if_neg hpos, if_neg (Nat.not_lt.2 hfit)]

theorem generateResponsePeersMessage_of_fits {t : NrpdMsgType} (ht : t = .ip4peers ∨ t = .ip6peers)
    (hpos : count ≠ 0) (hfit : 4 + count.toNat * recordSize t ≤ bufferSize) :
    generateResponsePeersMessage t count (some content) bufferSize (some a) m =
      (some (nextMessageBy (a + 4) (count.toNat * recordSize t)),
        putMessage m a (4 + count.toNat * recordSize t) t.code count
          (content.take (count.toNat * recordSize t))) := by
  rcases ht with rfl | rfl <;>
    simp only [recordSize] at hfit <;>
    simp [generateResponsePeersMessage, recordSize, hpos, Nat.not_lt.2 hfit]

/-- **Generated messages.** A message with the length of its records is one of the grammar. -/
theorem isResponseMessage_putMessage (m : Mem) (a : ℕ) (count : UInt8) (content : List UInt8)
    {t : NrpdMsgType} (ht : t = .ip4peers ∨ t = .entropy ∨ t = .ip6peers) :
    IsResponseMessage (putMessage m a (4 + count.toNat * recordSize t) t.code count content) a := by
  have hcount := count.toNat_lt
  rcases ht with rfl | rfl | rfl <;> simp only [recordSize, sizeofIp4Peer, sizeofIp6Peer]
  · refine .ip4peers hdrMsgType_putMessage ?_
    rw [hdrLength_putMessage (by omega), hdrCountOrSize_putMessage, Nat.mul_comm]
  · refine .entropy hdrMsgType_putMessage ?_
    rw [hdrLength_putMessage (by omega), hdrCountOrSize_putMessage, Nat.mul_one]
  · refine .ip6peers hdrMsgType_putMessage ?_
    rw [hdrLength_putMessage (by omega), hdrCountOrSize_putMessage, Nat.mul_comm]

end Fits

end Nrpd
