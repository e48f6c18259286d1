import Nrpd.Protocol.Generation

/-!
# Responses survive the wire

A response is a list of messages, each with its records: bytes of entropy, peers, or reject entries.
It is written with the generators of `protocol.cpp`, message behind message, and read with
`NextMessage`. What the generators write is a packet that the validator accepts, and the reader
finds the messages that were written.

## Main definitions

* `ResponseMessage`, `Response`: messages, and the lists of messages that fit a packet.
* `ResponseMessage.generate`, `generateResponse`: the calls of the generators.
* `messageAt`, `decodeMessages`: reading a packet with `NextMessage`.

## Main results

* `generateResponse_eq`: the bytes that the generators write.
* `generateResponse_roundTrip`: they are accepted, and read back.
-/

namespace Nrpd

open FixedWidth FuelLoop Segments

/-! ### Messages -/

/-- A message of a response, with its records. -/
inductive ResponseMessage where
  | entropy (bytes : List UInt8)
  | ip4peers (peers : List (Vector UInt8 sizeofIp4Peer))
  | ip6peers (peers : List (Vector UInt8 sizeofIp6Peer))
  | reject (entries : List NrpMessageReject)
  deriving DecidableEq

/-- The bytes of a reject entry. -/
def rejectBytes (rej : NrpMessageReject) : List UInt8 := [rej.msgType, rej.reason]

namespace ResponseMessage

/-- The type of a message. -/
def msgType : ResponseMessage → NrpdMsgType
  | entropy _ => .entropy
  | ip4peers _ => .ip4peers
  | ip6peers _ => .ip6peers
  | reject _ => .reject

/-- The number of records. -/
def count : ResponseMessage → ℕ
  | entropy bytes => bytes.length
  | ip4peers peers => peers.length
  | ip6peers peers => peers.length
  | reject entries => entries.length

/-- The bytes of the records. -/
def content : ResponseMessage → List UInt8
  | entropy bytes => bytes
  | ip4peers peers => peers.flatMap Vector.toList
  | ip6peers peers => peers.flatMap Vector.toList
  | reject entries => entries.flatMap rejectBytes

/-- The reject entries of a message. -/
def entries : ResponseMessage → List NrpMessageReject
  | reject entries => entries
  | _ => []

/-- A message as it stands in a packet. -/
def bytes (msg : ResponseMessage) : List UInt8 :=
  headerBytes (nrpMessageHeaderSize + msg.content.length) msg.msgType.code (.ofNat msg.count) ++
    msg.content

/-- A message has between one and 255 records, and its reject entries are ones of the grammar. -/
structure WellFormed (msg : ResponseMessage) : Prop where
  count_pos : 1 ≤ msg.count
  count_le : msg.count ≤ maxByte
  entries : ∀ rej ∈ msg.entries, IsRejectEntry rej

end ResponseMessage

/-- The number of bytes that messages take. -/
def encodedSize (msgs : List ResponseMessage) : ℕ := (msgs.flatMap ResponseMessage.bytes).length

/-- The messages of a response that fits a packet. -/
structure Response where
  messages : List ResponseMessage
  nonempty : messages ≠ []
  length_le : messages.length ≤ maxByte
  wellFormed : ∀ msg ∈ messages, msg.WellFormed
  size_le : nrpPacketHeaderSize + encodedSize messages ≤ maxResponseMessageSize

/-! ### Writing -/

/-- What a generator returned and wrote, unless it returned a null pointer. -/
def generated (result : Option ℕ × Mem) : Option (ℕ × Mem) := result.1.map (·, result.2)

/-- `GenerateRejectMessage` for one entry after the other; `none` as soon as it returns a null
pointer. -/
def generateRejectMessages : List NrpMessageReject → ℕ → Mem → Option (ℕ × Mem)
  | [], hdr, m => some (hdr, m)
  | rej :: entries, hdr, m => do
    let next ← generated (generateRejectMessage rej.reason rej.msgType (some hdr) m)
    generateRejectMessages entries next.1 next.2

/-- The generator of a message, with the room in the buffer. -/
def ResponseMessage.generate (bufferSize buffer : ℕ) (m : Mem) :
    ResponseMessage → Option (ℕ × Mem)
  | entropy bytes =>
    generated (generateResponseEntropyMessage (.ofNat bytes.length) (some bytes) bufferSize
      (some buffer) m)
  | ip4peers peers =>
    generated (generateResponsePeersMessage .ip4peers (.ofNat peers.length)
      (some (peers.flatMap Vector.toList)) bufferSize (some buffer) m)
  | ip6peers peers =>
    generated (generateResponsePeersMessage .ip6peers (.ofNat peers.length)
      (some (peers.flatMap Vector.toList)) bufferSize (some buffer) m)
  | reject entries => do
    let header ← generated (generateRejectHeader (.ofNat entries.length) (some buffer) m)
    generateRejectMessages entries header.1 header.2

/-- The generators of messages, each at the pointer that the one before it returned, in a buffer of
`size` bytes; `none` as soon as one returns a null pointer. -/
def generateMessages (size : ℕ) : List ResponseMessage → ℕ → Mem → Option (ℕ × Mem)
  | [], buffer, m => some (buffer, m)
  | msg :: msgs, buffer, m => do
    let next ← msg.generate (size - buffer) buffer m
    generateMessages size msgs next.1 next.2

/-- `GeneratePacketHeader`, and the generators of the messages behind it. -/
def generateResponse (size : ℕ) (msgs : List ResponseMessage) (m : Mem) : Option (ℕ × Mem) := do
  let header ← generated (generatePacketHeader (nrpPacketHeaderSize + encodedSize msgs) .response
    (.ofNat msgs.length) (some 0) m)
  generateMessages size msgs header.1 header.2

/-! ### Reading -/

/-- The message at an offset, with its records. -/
def messageAt (m : Mem) (hdr : ℕ) : Option ResponseMessage :=
  let count := (hdrCountOrSize m hdr).toNat
  match NrpdMsgType.ofCode (hdrMsgType m hdr) with
  | some .entropy =>
    some (.entropy (m.read (hdrContent hdr) count))
  | some .ip4peers =>
    some (.ip4peers ((List.range count).map fun i =>
      .ofFn fun j => m (hdrContent hdr + i * sizeofIp4Peer + j)))
  | some .ip6peers =>
    some (.ip6peers ((List.range count).map fun i =>
      .ofFn fun j => m (hdrContent hdr + i * sizeofIp6Peer + j)))
  | some .reject =>
    some (.reject ((List.range count).map fun i =>
      rejectEntryAt m (hdrContent hdr + i * sizeofReject)))
  | _ => none

/-- The messages from an offset to the end of the packet, at most `fuel` of them. -/
def decodeMessages (m : Mem) : ℕ → ℕ → Option (List ResponseMessage)
  | 0, hdr => if hdr < endOfPacket m then none else some []
  | fuel + 1, hdr =>
    if hdr < endOfPacket m then do
      let msg ← messageAt m hdr
      let msgs ← decodeMessages m fuel (nextMessage m hdr)
      some (msg :: msgs)
    else some []

/-! ### The bytes that are written -/

section Bytes

variable {m : Mem} {a size : ℕ} {msg : ResponseMessage} {msgs : List ResponseMessage}

theorem putMessage_eq (m : Mem) (a length : ℕ) (type count : UInt8) (content : List UInt8) :
    putMessage m a length type count content =
      m.write a (headerBytes length type count ++ content) :=
  m.write_append a (headerBytes length type count) content

/-- Every record takes the bytes of its type. -/
theorem ResponseMessage.length_content (msg : ResponseMessage) :
    msg.content.length = msg.count * recordSize msg.msgType := by
  cases msg with
  | entropy bytes => exact (Nat.mul_one _).symm
  | ip4peers peers => exact Mem.length_flatMap_of_length fun peer _ => peer.length_toList
  | ip6peers peers => exact Mem.length_flatMap_of_length fun peer _ => peer.length_toList
  | reject entries => exact Mem.length_flatMap_of_length fun rej _ => rfl

theorem ResponseMessage.length_bytes (msg : ResponseMessage) :
    msg.bytes.length = 4 + msg.count * recordSize msg.msgType := by
  rw [bytes, List.length_append, length_headerBytes, length_content]

theorem ResponseMessage.WellFormed.count_toNat (h : msg.WellFormed) :
    (UInt8.ofNat msg.count).toNat = msg.count ∧ UInt8.ofNat msg.count ≠ 0 := by
  have hcount : (UInt8.ofNat msg.count).toNat = msg.count := by
    rw [UInt8.toNat_ofNat', Nat.mod_eq_of_lt (Nat.lt_succ_of_le h.count_le)]
  refine ⟨hcount, fun hzero => ?_⟩
  have hpos := h.count_pos
  rw [hzero, UInt8.toNat_zero] at hcount
  omega

/-- A message is shorter than the limit of the validator. -/
theorem ResponseMessage.length_content_le (msg : ResponseMessage) (hle : msg.count ≤ maxByte) :
    msg.content.length ≤ 4590 := by
  have hsize : recordSize msg.msgType ≤ 18 := by cases msg <;> simp [msgType, recordSize]
  rw [length_content]
  exact Nat.mul_le_mul hle hsize

theorem ResponseMessage.WellFormed.length_content_lt (h : msg.WellFormed) :
    msg.content.length ≤ 4590 :=
  msg.length_content_le h.count_le

/-- **Reject entries.** They are written one behind the other. -/
theorem generateRejectMessages_eq {entries : List NrpMessageReject}
    (h : ∀ rej ∈ entries, IsRejectEntry rej) (a : ℕ) (m : Mem) :
    generateRejectMessages entries a m =
      some (a + (entries.flatMap rejectBytes).length, m.write a (entries.flatMap rejectBytes)) := by
  induction entries generalizing a m with
  | nil => simp [generateRejectMessages]
  | cons rej entries ih =>
    have hreason : ¬ rej.reason ≥ nrpdRejectReasonMax :=
      (isRejectEntry_iff.1 (h rej List.mem_cons_self)).2
    have hfirst : generated (generateRejectMessage rej.reason rej.msgType (some a) m) =
        some (a + 2, m.write a (rejectBytes rej)) := by
      rw [generateRejectMessage, if_neg hreason]
      rfl
    have hmem : (m.write a (rejectBytes rej)).write (a + 2) (entries.flatMap rejectBytes) =
        m.write a ((rej :: entries).flatMap rejectBytes) :=
      m.write_append a (rejectBytes rej) (entries.flatMap rejectBytes)
    rw [generateRejectMessages, hfirst, Option.bind_eq_bind, Option.bind_some,
      ih (fun rej hrej => h rej (List.mem_cons_of_mem _ hrej)), hmem]
    simp only [List.flatMap_cons, List.length_append, Nat.add_assoc]
    rfl

theorem generateResponseEntropyMessage_of_length {data : List UInt8}
    (hcount : (UInt8.ofNat data.length).toNat = data.length) (hne : UInt8.ofNat data.length ≠ 0)
    (hfit : 4 + data.length ≤ size) :
    generateResponseEntropyMessage (.ofNat data.length) (some data) size (some a) m =
      (some (nextMessageBy (a + 4) data.length),
        putMessage m a (4 + data.length) NrpdMsgType.entropy.code (.ofNat data.length)
          (data.take data.length)) := by
  rw [generateResponseEntropyMessage_of_fits hne (by rw [hcount]; exact hfit), hcount]

theorem generateResponsePeersMessage_of_length {t : NrpdMsgType} {count : ℕ} {content : List UInt8}
    (ht : t = .ip4peers ∨ t = .ip6peers) (hcount : (UInt8.ofNat count).toNat = count)
    (hne : UInt8.ofNat count ≠ 0) (hlength : content.length = count * recordSize t)
    (hfit : 4 + content.length ≤ size) :
    generateResponsePeersMessage t (.ofNat count) (some content) size (some a) m =
      (some (nextMessageBy (a + 4) content.length),
        putMessage m a (4 + content.length) t.code (.ofNat count)
          (content.take content.length)) := by
  rw [generateResponsePeersMessage_of_fits ht hne (by rw [hcount, ← hlength]; exact hfit), hcount,
    ← hlength]

/-- **One message.** A message that fits is written as it stands in a packet, and the generator
returns the pointer behind it. -/
theorem ResponseMessage.generate_eq (h : msg.WellFormed) (hfit : msg.bytes.length ≤ size) (a : ℕ)
    (m : Mem) :
    msg.generate size a m = some (a + msg.bytes.length, m.write a msg.bytes) := by
  obtain ⟨hcount, hne⟩ := h.count_toNat
  have hlength := msg.length_content
  have hsmall := h.length_content_lt
  have hbytes : msg.bytes.length = 4 + msg.content.length := by
    rw [bytes, List.length_append, length_headerBytes]
  rw [hbytes] at hfit ⊢
  have hnext : nextMessageBy (a + 4) msg.content.length = a + (4 + msg.content.length) := by
    rw [nextMessageBy, u16_of_lt (by omega) (by omega), Int.toNat_natCast, Nat.add_assoc]
  -- the message that a generator puts into the buffer
  have hput : generated (some (nextMessageBy (a + 4) msg.content.length),
      putMessage m a (4 + msg.content.length) msg.msgType.code (.ofNat msg.count)
        (msg.content.take msg.content.length)) =
      some (a + (4 + msg.content.length), m.write a msg.bytes) := by
    rw [List.take_length, putMessage_eq, hnext]
    rfl
  cases msg with
  | entropy data =>
    exact (congrArg generated (generateResponseEntropyMessage_of_length hcount hne hfit)).trans hput
  | ip4peers peers =>
    have hwrite := generateResponsePeersMessage_of_length (m := m) (a := a) (.inl rfl) hcount hne
      hlength hfit
    exact (congrArg generated hwrite).trans hput
  | ip6peers peers =>
    have hwrite := generateResponsePeersMessage_of_length (m := m) (a := a) (.inr rfl) hcount hne
      hlength hfit
    exact (congrArg generated hwrite).trans hput
  | reject entries =>
    have hcount : (UInt8.ofNat entries.length).toNat = entries.length := hcount
    have hentries : ∀ rej ∈ entries, IsRejectEntry rej := h.entries
    have hsize :
        sizeofReject * entries.length = (ResponseMessage.reject entries).content.length := by
      rw [hlength, Nat.mul_comm]
      rfl
    have hheader : generated (generateRejectHeader (.ofNat entries.length) (some a) m) =
        some (a + 4, m.write a (headerBytes (4 + (ResponseMessage.reject entries).content.length)
          NrpdMsgType.reject.code (.ofNat entries.length))) := by
      rw [generateRejectHeader, hcount, hsize]
      rfl
    rw [generate, hheader, Option.bind_eq_bind, Option.bind_some,
      generateRejectMessages_eq hentries, Nat.add_assoc]
    refine congrArg (fun written => some (_, written)) ?_
    exact m.write_append a (headerBytes (4 + (ResponseMessage.reject entries).content.length) _ _) _

theorem encodedSize_cons (msg : ResponseMessage) (msgs : List ResponseMessage) :
    encodedSize (msg :: msgs) = msg.bytes.length + encodedSize msgs := by
  rw [encodedSize, List.flatMap_cons, List.length_append, encodedSize]

/-- **All messages.** They are written one behind the other. -/
theorem generateMessages_eq (h : ∀ msg ∈ msgs, msg.WellFormed) (a : ℕ)
    (hfit : a + encodedSize msgs ≤ size) (m : Mem) :
    generateMessages size msgs a m =
      some (a + encodedSize msgs, m.write a (msgs.flatMap ResponseMessage.bytes)) := by
  induction msgs generalizing a m with
  | nil => simp [generateMessages, encodedSize]
  | cons msg msgs ih =>
    rw [encodedSize_cons] at hfit ⊢
    rw [generateMessages, ResponseMessage.generate_eq (h msg List.mem_cons_self) (by omega),
      Option.bind_eq_bind, Option.bind_some,
      ih (fun msg hmsg => h msg (List.mem_cons_of_mem _ hmsg)) _ (by omega), Mem.write_append,
      Nat.add_assoc]
    rfl

/-- A response as it stands in a packet. -/
def Response.bytes (r : Response) : List UInt8 :=
  headerBytes (nrpPacketHeaderSize + encodedSize r.messages) NrpdMsgType.response.code
    (.ofNat r.messages.length) ++ r.messages.flatMap ResponseMessage.bytes

theorem Response.length_toNat (r : Response) :
    (UInt8.ofNat r.messages.length).toNat = r.messages.length ∧
      UInt8.ofNat r.messages.length ≠ 0 := by
  have hlt : r.messages.length < 256 := Nat.lt_succ_of_le r.length_le
  have hlength : (UInt8.ofNat r.messages.length).toNat = r.messages.length := by
    rw [UInt8.toNat_ofNat', Nat.mod_eq_of_lt hlt]
  refine ⟨hlength, fun hzero => r.nonempty ?_⟩
  rw [hzero, UInt8.toNat_zero] at hlength
  exact List.length_eq_zero_iff.1 hlength.symm

/-- **The packet.** No generator returns a null pointer, and they write the packet of the
response. -/
theorem generateResponse_eq (r : Response) (hsize : 4 + encodedSize r.messages ≤ size) (m : Mem) :
    generateResponse size r.messages m =
      some (4 + encodedSize r.messages, m.write 0 r.bytes) := by
  have hheader : generated (generatePacketHeader (4 + encodedSize r.messages) .response
      (.ofNat r.messages.length) (some 0) m) =
      some (4, m.write 0 (headerBytes (4 + encodedSize r.messages) NrpdMsgType.response.code
        (.ofNat r.messages.length))) := by
    have hmax := Nat.not_lt.2 r.size_le
    simp only [generatePacketHeader, if_neg r.length_toNat.2]
    simp only [nrpPacketHeaderSize] at hmax
    simp [generated, hmax]
  rw [generateResponse, hheader, Option.bind_eq_bind, Option.bind_some,
    generateMessages_eq r.wellFormed 4 hsize]
  exact congrArg (fun written => some (_, written)) (m.write_append 0 (headerBytes _ _ _) _)

end Bytes

/-! ### The packet is accepted -/

section Reading

variable {m : Mem} {a : ℕ} {msg : ResponseMessage} {msgs : List ResponseMessage}

/-- A memory that holds the bytes of a message holds its header and its records. -/
structure HoldsMessage (m : Mem) (a : ℕ) (msg : ResponseMessage) : Prop where
  length : hdrLength m a = msg.bytes.length
  msgType : hdrMsgType m a = msg.msgType.code
  count : (hdrCountOrSize m a).toNat = msg.count
  content : m.read (a + 4) msg.content.length = msg.content

theorem holdsMessage_of_count_le (hle : msg.count ≤ maxByte)
    (hread : m.read a msg.bytes.length = msg.bytes) : HoldsMessage m a msg := by
  obtain ⟨hheader, hcontent⟩ := Mem.read_eq_append hread
  have hsmall := msg.length_content_le hle
  obtain ⟨hlength, htype, hcount⟩ :=
    header_of_read (show nrpMessageHeaderSize + msg.content.length < 65536 by simp; omega) hheader
  refine ⟨?_, htype, ?_, hcontent⟩
  · rw [hlength, ResponseMessage.bytes, List.length_append, length_headerBytes]
  · rw [hcount, UInt8.toNat_ofNat', Nat.mod_eq_of_lt (Nat.lt_succ_of_le hle)]

theorem holdsMessage_of_read (h : msg.WellFormed) (hread : m.read a msg.bytes.length = msg.bytes) :
    HoldsMessage m a msg :=
  holdsMessage_of_count_le h.count_le hread

/-- The entries of a reject message, where they stand. -/
theorem HoldsMessage.entries_eq {entries : List NrpMessageReject}
    (h : HoldsMessage m a (.reject entries)) :
    ((List.range entries.length).map fun i => rejectEntryAt m (a + 4 + i * sizeofReject)) =
      entries := by
  have hback : ∀ rej ∈ entries, ∀ o, m.read o sizeofReject = rejectBytes rej →
      rejectEntryAt m o = id rej := by
    intro rej _ o hread
    have hbytes : [m o, m (o + 1)] = [rej.msgType, rej.reason] := hread
    simp only [List.cons.injEq, and_true] at hbytes
    rw [rejectEntryAt, hbytes.1, hbytes.2]
    rfl
  have hsize : ∀ rej ∈ entries, (rejectBytes rej).length = sizeofReject := fun _ _ => rfl
  have hmap := Mem.map_range_of_read_flatMap hsize hback h.content
  rwa [List.map_id] at hmap

/-- The peers of a message, where they stand. -/
theorem map_range_ofFn {n : ℕ} {peers : List (Vector UInt8 n)}
    (h : m.read a (peers.flatMap Vector.toList).length = peers.flatMap Vector.toList) :
    ((List.range peers.length).map fun i => Vector.ofFn fun j : Fin n => m (a + i * n + j)) =
      peers := by
  have hback : ∀ peer ∈ peers, ∀ o, m.read o n = peer.toList →
      (Vector.ofFn fun j : Fin n => m (o + j)) = id peer := fun _ _ _ hread =>
        Mem.ofFn_of_read hread
  have hmap := Mem.map_range_of_read_flatMap (fun peer _ => peer.length_toList) hback h
  rwa [List.map_id] at hmap

/-- **Reading one message.** It is the one that was written. -/
theorem HoldsMessage.messageAt_eq (h : HoldsMessage m a msg) : messageAt m a = some msg := by
  have htype : NrpdMsgType.ofCode (hdrMsgType m a) = some msg.msgType := by
    rw [h.msgType, NrpdMsgType.ofCode_code]
  simp only [messageAt, h.count, htype]
  cases msg with
  | entropy data => exact congrArg (some ∘ ResponseMessage.entropy) h.content
  | ip4peers peers => exact congrArg (some ∘ ResponseMessage.ip4peers) (map_range_ofFn h.content)
  | ip6peers peers => exact congrArg (some ∘ ResponseMessage.ip6peers) (map_range_ofFn h.content)
  | reject entries => exact congrArg (some ∘ ResponseMessage.reject) h.entries_eq

/-- **Accepting one message.** It is one of the grammar. -/
theorem HoldsMessage.isResponseMessage (h : HoldsMessage m a msg) (hmsg : msg.WellFormed) :
    IsResponseMessage m a := by
  have hcount := h.count
  have hlength : hdrLength m a = 4 + recordSize msg.msgType * (hdrCountOrSize m a).toNat := by
    rw [h.length, msg.length_bytes, hcount, Nat.mul_comm]
  cases msg with
  | entropy data => exact .entropy h.msgType (hlength.trans (congrArg (4 + ·) (Nat.one_mul _)))
  | ip4peers peers => exact .ip4peers h.msgType hlength
  | ip6peers peers => exact .ip6peers h.msgType hlength
  | reject entries =>
    refine .reject h.msgType (hcount ▸ hmsg.count_pos) hlength ?_
    intro i hi
    have hi : i < entries.length := Nat.lt_of_lt_of_eq hi hcount
    have hentry : rejectEntryAt m (a + 4 + i * sizeofReject) = entries[i] := by
      have := List.getElem_of_eq h.entries_eq (i := i) (by simpa using hi)
      simpa using this
    rw [Nat.mul_comm, hentry]
    exact hmsg.entries _ (List.getElem_mem hi)

/-- **All messages.** Where the bytes of messages stand, messages of the grammar fill the region. -/
theorem exists_tiles_of_read (h : ∀ msg ∈ msgs, msg.WellFormed)
    (hread : m.read a (encodedSize msgs) = msgs.flatMap ResponseMessage.bytes) :
    ∃ os, Tiles (hdrLength m) a os (a + encodedSize msgs) ∧ os.length = msgs.length ∧
      ∀ o ∈ os, IsResponseMessage m o := by
  induction msgs generalizing a with
  | nil => exact ⟨[], .nil a, rfl, by simp⟩
  | cons msg msgs ih =>
    obtain ⟨hfirst, hrest⟩ := Mem.read_eq_append hread
    have hmsg := h msg List.mem_cons_self
    have hholds := holdsMessage_of_read hmsg hfirst
    obtain ⟨os, htiles, hlength, hall⟩ :=
      ih (fun msg hmsg => h msg (List.mem_cons_of_mem _ hmsg)) hrest
    have hpos : 0 < hdrLength m a := by rw [hholds.length, msg.length_bytes]; omega
    rw [← hholds.length, Nat.add_assoc] at htiles
    refine ⟨a :: os, ?_, by rw [List.length_cons, List.length_cons, hlength], ?_⟩
    · rw [encodedSize_cons, ← hholds.length]
      exact .cons hpos htiles
    · intro o ho
      rcases List.mem_cons.1 ho with rfl | ho
      · exact hholds.isResponseMessage hmsg
      · exact hall o ho

/-- **Reading all messages.** The walk finds the messages that stand before the end of the packet.
-/
theorem decodeMessages_eq (h : ∀ msg ∈ msgs, msg.WellFormed)
    (hread : m.read a (encodedSize msgs) = msgs.flatMap ResponseMessage.bytes)
    (hend : endOfPacket m = a + encodedSize msgs) :
    decodeMessages m msgs.length a = some msgs := by
  induction msgs generalizing a with
  | nil => simp [decodeMessages, hend, encodedSize]
  | cons msg msgs ih =>
    obtain ⟨hfirst, hrest⟩ := Mem.read_eq_append hread
    have hholds := holdsMessage_of_read (h msg List.mem_cons_self) hfirst
    rw [encodedSize_cons, ← Nat.add_assoc] at hend
    have hlt : a < endOfPacket m := by rw [hend, msg.length_bytes]; omega
    have hnext : nextMessage m a = a + msg.bytes.length := by rw [nextMessage, hholds.length]
    have hrest := ih (fun msg hmsg => h msg (List.mem_cons_of_mem _ hmsg)) hrest hend
    rw [List.length_cons, decodeMessages, if_pos hlt, hholds.messageAt_eq, hnext, hrest]
    rfl

end Reading

/-! ### The round trip -/

/-- The packet of a response holds its header and its messages. -/
theorem Response.reads_back (r : Response) (m : Mem) :
    pktLength (m.write 0 r.bytes) = 4 + encodedSize r.messages ∧
      pktMsgType (m.write 0 r.bytes) = NrpdMsgType.response.code ∧
      (pktMsgCount (m.write 0 r.bytes)).toNat = r.messages.length ∧
      (m.write 0 r.bytes).read 4 (encodedSize r.messages) =
        r.messages.flatMap ResponseMessage.bytes := by
  obtain ⟨hheader, hmessages⟩ := Mem.read_eq_append (m.read_write 0 r.bytes)
  have hmax : 4 + encodedSize r.messages ≤ 65507 := r.size_le
  have hwritten : (m.write 0 r.bytes).read 0 4 = (Mem.zero.write 0 (headerBytes
      (4 + encodedSize r.messages) NrpdMsgType.response.code
      (.ofNat r.messages.length))).read 0 4 :=
    hheader.trans (Mem.read_write _ _ _).symm
  refine ⟨?_, ?_, ?_, hmessages⟩
  · exact (hdrLength_of_read_eq hwritten (by omega)).trans (hdrLength_write_headerBytes (by omega))
  · exact (hdrMsgType_of_read_eq hwritten (by omega)).trans hdrMsgType_write_headerBytes
  · rw [← r.length_toNat.1]
    exact congrArg UInt8.toNat
      ((hdrCountOrSize_of_read_eq hwritten (by omega)).trans hdrCountOrSize_write_headerBytes)

/-- **Responses survive the wire.** In a buffer with room for the packet, whatever it held before,
no generator returns a null pointer; the packet is accepted, and its messages are those that were
written. -/
theorem generateResponse_roundTrip (r : Response) {size : ℕ}
    (hsize : 4 + encodedSize r.messages ≤ size) (m : Mem) :
    ∃ packet, generateResponse size r.messages m = some (4 + encodedSize r.messages, packet) ∧
      validateResponsePacket packet = some true ∧
      decodeMessages packet (pktMsgCount packet).toNat pktMessages = some r.messages := by
  obtain ⟨hlength, htype, hcount, hmessages⟩ := r.reads_back m
  refine ⟨_, generateResponse_eq r hsize m, validateResponsePacket_iff.2 ?_, ?_⟩
  · obtain ⟨os, htiles, hos, hall⟩ := exists_tiles_of_read r.wellFormed hmessages
    have hpos := List.length_pos_iff.2 r.nonempty
    exact ⟨os, hlength ▸ r.size_le, htype, by omega, by omega, hlength ▸ htiles, hall⟩
  · rw [hcount]
    exact decodeMessages_eq r.wellFormed hmessages hlength

/-- A response with an entropy message and a reject message. -/
def sampleResponse : Response where
  messages := [.entropy [7, 8, 9], .reject [⟨NrpdMsgType.signkey.code, 3⟩]]
  nonempty := by decide
  length_le := by decide
  wellFormed := by
    intro msg hmsg
    rcases List.mem_cons.1 hmsg with rfl | hmsg
    · exact ⟨by decide, by decide, by simp [ResponseMessage.entries]⟩
    · rw [List.mem_singleton.1 hmsg]
      refine ⟨by decide, by decide, fun rej hrej => ?_⟩
      rw [List.mem_singleton.1 hrej]
      exact ⟨⟨.signkey, by decide, rfl⟩, by decide⟩
  size_le := by decide

theorem generateResponse_roundTrip_example :
    ∃ packet, generateResponse 1024 sampleResponse.messages Mem.zero =
        some (4 + encodedSize sampleResponse.messages, packet) ∧
      validateResponsePacket packet = some true ∧
      decodeMessages packet (pktMsgCount packet).toNat pktMessages = some sampleResponse.messages :=
  generateResponse_roundTrip sampleResponse (by decide) Mem.zero

end Nrpd
