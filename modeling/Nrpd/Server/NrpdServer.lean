import Nrpd.Config.NrpdConfig
import Nrpd.Lib.RandomDevice
import Nrpd.Protocol.Generation

/-!
# The server

`NrpdServer` of `server.cpp`: the answer to a request. The answers to the messages of a request are
buffers of their own, which `ServerLoop` copies into the packet behind a fresh header. Sizes are
computed in `int` and `unsigned int`, where products wrap round.

## Main definitions

* `calculateMessageSize`, `calculateMessageSize?`, `calculateRemainingBytes`: the arithmetic of
  sizes.
* `generatePeersResponse`, `generateEntropyResponse`: the answers to single messages.
* `ParseState`, `parseMessages`: the loop over the messages of a request, and the reject message.
* `copyMessages`, `assemblePacket`: the packet.
* `NrpdServer`, `initializeServer`, `serverTurn`: the state, and one turn of `ServerLoop`.
-/

namespace Nrpd

open FixedWidth FuelLoop Segments

/-! ### Sizes -/

/-- `CalculateMessageSize`: the size of the message, and the count of records in it. -/
def calculateMessageSize (availableBytes : ℕ) (messageSize messageCount : ℤ) : ℕ × ℤ :=
  if availableBytes < nrpMessageHeaderSize then (0, messageCount)
  else
    let responseSize := u32 (nrpMessageHeaderSize + messageSize * messageCount)
    if availableBytes ≥ responseSize then (responseSize, messageCount)
    else
      let availableMessageCount : ℕ := (availableBytes - nrpMessageHeaderSize) / u32 messageSize
      if availableMessageCount = 0 then (0, messageCount)
      else
        (u32 (nrpMessageHeaderSize + messageSize * i32 availableMessageCount),
          i32 availableMessageCount)

/-- `CalculateMessageSize` with a check on its division: no result when it divides by zero. -/
def calculateMessageSize? (availableBytes : ℕ) (messageSize messageCount : ℤ) : Option (ℕ × ℤ) :=
  if availableBytes < nrpMessageHeaderSize then some (0, messageCount)
  else
    let responseSize := u32 (nrpMessageHeaderSize + messageSize * messageCount)
    if availableBytes ≥ responseSize then some (responseSize, messageCount)
    else if u32 messageSize = 0 then none
    else
      let availableMessageCount : ℕ := (availableBytes - nrpMessageHeaderSize) / u32 messageSize
      if availableMessageCount = 0 then some (0, messageCount)
      else
        some (u32 (nrpMessageHeaderSize + messageSize * i32 availableMessageCount),
          i32 availableMessageCount)

/-- `CalculateRemainingBytes`. -/
def calculateRemainingBytes (availableBytes : ℤ) (rejCount : ℕ) : ℤ :=
  if i32 rejCount > 0 then
    i32 (availableBytes - (nrpMessageHeaderSize + i32 rejCount * sizeofReject))
  else availableBytes

/-! ### Answers to single messages -/

/-- A generated message, its size, and what the generation left behind. -/
structure Answer (σ : Type*) where
  buffer : Option Mem
  outResponseSize : ℤ
  state : σ

/-- `GeneratePeersResponse`. -/
def generatePeersResponse (c : NrpdConfig) (type : NrpdMsgType) (msgCount availableBytes : ℤ) :
    Answer NrpdConfig :=
  let size : ℤ := if type = .ip6peers then sizeofIp6Peer else sizeofIp4Peer
  let counted := c.activeServerCount type
  let msgCount := if msgCount ≤ 0 then counted.1 else min counted.1 msgCount
  if msgCount = 0 then ⟨none, 0, counted.2⟩
  else
    let sized := calculateMessageSize (u32 availableBytes) size msgCount
    let outResponseSize := i32 sized.1
    if outResponseSize = 0 then ⟨none, outResponseSize, counted.2⟩
    else
      let data := counted.2.getServerList type sized.2
      let generated := generateResponsePeersMessage type (.ofNat (u8 sized.2)) data.1
        (u32 outResponseSize) (some 0) Mem.zero
      ⟨generated.1.map fun _ => generated.2, outResponseSize, data.2⟩

/-- `GenerateEntropyResponse`. -/
def generateEntropyResponse (c : NrpdConfig) (random : RandomDevice) (size bytesRemaining : ℤ) :
    Answer RandomDevice :=
  let size := if size ≤ 0 then c.defaultEntropySize.val else size
  let sized := calculateMessageSize (u32 bytesRemaining) 1 size
  let actualSize := i32 sized.1
  if actualSize = 0 then ⟨none, 0, random⟩
  else
    let dataSize := actualSize - nrpMessageHeaderSize
    let result := random.read dataSize.toNat
    match result.1 with
    | none => ⟨none, 0, result.2⟩
    | some data =>
      let readSize : ℤ := data.length
      if readSize = 0 then ⟨none, 0, result.2⟩
      else
        let actualSize :=
          if readSize < dataSize then nrpMessageHeaderSize + readSize else actualSize
        let generated := generateResponseEntropyMessage (.ofNat (u8 readSize)) (some data)
          (u32 actualSize) (some 0) Mem.zero
        match generated.1 with
        | some _ => ⟨some generated.2, actualSize, result.2⟩
        | none => ⟨none, 0, result.2⟩

/-! ### The messages of a request -/

/-- The variables of `ParseMessages`, with the configuration and the random device. -/
structure ParseState where
  config : NrpdConfig
  random : RandomDevice
  bytesRemaining : ℤ
  outMessageLength : ℤ
  rejections : List NrpMessageReject
  msgs : List Mem

namespace ParseState

/-- `CalculateRemainingBytes` on the variables of the loop. -/
def available (s : ParseState) : ℤ := calculateRemainingBytes s.bytesRemaining s.rejections.length

/-- Append an answer, if there is one. -/
def push (s : ParseState) (buffer : Option Mem) (responseSize : ℤ) : ParseState :=
  match buffer with
  | none => s
  | some tempMsgBuffer =>
    { s with
      msgs := s.msgs ++ [tempMsgBuffer]
      bytesRemaining := s.bytesRemaining - responseSize
      outMessageLength := s.outMessageLength + responseSize }

/-- Note a message type as unsupported. -/
def reject (s : ParseState) (msgType : UInt8) : ParseState :=
  { s with rejections := s.rejections ++ [⟨msgType, NrpdRejectReason.unsupported.code⟩] }

/-- The branch of the loop for the peers types. -/
def answerPeers (s : ParseState) (type : NrpdMsgType) (count : UInt8) : ParseState :=
  if s.config.enablePeersResponse type then
    let answer := generatePeersResponse s.config type count.toNat s.available
    { s with config := answer.state }.push answer.buffer answer.outResponseSize
  else s.reject type.code

/-- The branch of the loop for entropy. -/
def answerEntropy (s : ParseState) (size : UInt8) : ParseState :=
  let answer := generateEntropyResponse s.config s.random size.toNat s.available
  { s with random := answer.state }.push answer.buffer answer.outResponseSize

/-- The body of the loop, for a message with the given type and count. -/
def answer (s : ParseState) (msgType count : UInt8) : ParseState :=
  match NrpdMsgType.ofCode msgType with
  | some .ip4peers => s.answerPeers .ip4peers count
  | some .ip6peers => s.answerPeers .ip6peers count
  | some .entropy => s.answerEntropy count
  | _ => s.reject msgType

end ParseState

/-- The loop of `ParseMessages` over the messages of a request. -/
def parseWalk (pkt : Mem) : Walk ParseState where
  guard currentMsg s := currentMsg < endOfPacket pkt && s.available > 0
  visit currentMsg s := s.answer (hdrMsgType pkt currentMsg) (hdrCountOrSize pkt currentMsg)
  next _ currentMsg := nextMessage pkt currentMsg

/-- The loop that writes the reject entries, up to the end of the message. -/
def writeRejections (stop : ℕ) : List NrpMessageReject → Option ℕ × Mem → Mem
  | [], written => written.2
  | rej :: rejections, (rejectMsg, m) =>
    if rejectMsg.any (· ≥ stop) then m
    else writeRejections stop rejections (generateRejectMessage rej.reason rej.msgType rejectMsg m)

/-- The reject message with as many of the rejections as are counted. -/
def rejectMessage (rejections : List NrpMessageReject) (msgCount : ℤ) : Mem :=
  writeRejections (nextMessageBy 0 (u16 (nrpMessageHeaderSize + msgCount * sizeofReject)))
    rejections (generateRejectHeader (.ofNat (u8 msgCount)) (some 0) Mem.zero)

/-- The end of `ParseMessages`: the reject message goes to the front, if it fits. -/
def ParseState.pushRejections (s : ParseState) : ParseState :=
  if s.rejections.isEmpty then s
  else
    let sized := calculateMessageSize (u32 s.bytesRemaining) sizeofReject (i32 s.rejections.length)
    let responseSize := i32 sized.1
    if responseSize > 0 then
      { s with
        msgs := rejectMessage s.rejections sized.2 :: s.msgs
        outMessageLength := s.outMessageLength + responseSize }
    else s

/-- The variables of `ParseMessages` before the loop. -/
def ParseState.start (mtu : ℤ) (c : NrpdConfig) (random : RandomDevice) : ParseState where
  config := c
  random := random
  bytesRemaining := mtu - nrpPacketHeaderSize
  outMessageLength := 0
  rejections := []
  msgs := []

/-- `ParseMessages`: whether it succeeds, and what it leaves; `none` is a loop that never ends. -/
def parseMessages (pkt : Mem) (mtu : ℤ) (c : NrpdConfig) (random : RandomDevice) :
    Option (Bool × ParseState) :=
  if mtu ≤ nrpPacketHeaderSize then some (false, .start mtu c random)
  else
    (run (parseWalk pkt).turn (pktLength pkt + 1) (pktMessages, .start mtu c random)).map
      fun left => (true, left.2.pushRejections)

/-! ### The packet -/

/-- The loop of `ServerLoop` that copies the messages behind the packet header; `none` is a write
through a null pointer. -/
def copyMessages : List Mem → Option ℕ → Mem → Option Mem
  | [], _, buffer => some buffer
  | _ :: _, none, _ => none
  | buf :: msgs, some msg, buffer =>
    let buffer := buffer.write msg (buf.read 0 (hdrLength buf 0))
    copyMessages msgs (some (nextMessage buffer msg)) buffer

/-- The packet that `ServerLoop` makes of the messages, over the buffer that holds the request. -/
def assemblePacket (buffer : Mem) (messageLength : ℤ) (msgs : List Mem) : Option Mem :=
  let header := generatePacketHeader (u16 messageLength) .response (.ofNat (u8 msgs.length))
    (some 0) buffer
  copyMessages msgs header.1 header.2

/-! ### Clients -/

/-- `sockaddr_storage`: an address and a port, or a family that is neither IPv4 nor IPv6. -/
inductive SockaddrStorage where
  | inet (addr : Vector UInt8 4) (port : UInt16)
  | inet6 (addr : Vector UInt8 16) (port : UInt16)
  | other (family : ℕ)
  deriving DecidableEq, Repr

namespace SockaddrStorage

/-- `operator==`: families and addresses, for the families that have one. -/
def beq : SockaddrStorage → SockaddrStorage → Bool
  | inet a _, inet b _ => a == b
  | inet6 a _, inet6 b _ => a == b
  | _, _ => false

instance : BEq SockaddrStorage := ⟨beq⟩

/-- The address, for the families that have one. -/
def host? : SockaddrStorage → Option Host
  | inet addr _ => some (.ip4 addr)
  | inet6 addr _ => some (.ip6 addr)
  | other _ => none

theorem beq_iff {s t : SockaddrStorage} :
    (s == t) = true ↔ ∃ host, s.host? = some host ∧ t.host? = some host := by
  cases s with
  | inet a p =>
    cases t with
    | inet b q =>
      have haddr : ((inet a p == inet b q) = true) = ((a == b) = true) := rfl
      rw [haddr, beq_iff_eq]
      simp [host?, eq_comm]
    | inet6 b q => simp [BEq.beq, beq, host?]
    | other g => simp [BEq.beq, beq, host?]
  | inet6 a p =>
    cases t with
    | inet b q => simp [BEq.beq, beq, host?]
    | inet6 b q =>
      have haddr : ((inet6 a p == inet6 b q) = true) = ((a == b) = true) := rfl
      rw [haddr, beq_iff_eq]
      simp [host?, eq_comm]
    | other g => simp [BEq.beq, beq, host?]
  | other f => simp [BEq.beq, beq, host?]

/-- Addresses of other families are equal to none, themselves included. -/
instance : PartialEquivBEq SockaddrStorage where
  symm h := by
    obtain ⟨host, hs, ht⟩ := beq_iff.1 h
    exact beq_iff.2 ⟨host, ht, hs⟩
  trans h h' := by
    obtain ⟨host, hs, ht⟩ := beq_iff.1 h
    obtain ⟨host', ht', hu⟩ := beq_iff.1 h'
    obtain rfl := Option.some.inj (ht.symm.trans ht')
    exact beq_iff.2 ⟨host, hs, hu⟩

section Hash

variable {w : ℕ} (hashWord : List UInt8 → BitVec w)

/-- The loop of `hash<sockaddr_storage>` over the words of an IPv6 address, from place `i` on. -/
def hashWords (addr : List UInt8) (result : BitVec w) : List ℕ → BitVec w
  | [] => result
  | i :: places =>
    hashWords addr (result ^^^ (hashWord ((addr.drop (4 * i)).take 4) <<< i)) places

/-- `hash<sockaddr_storage>`, from `hash<unsigned int>` of the word with some bytes, for a `size_t`
of `w` bits. -/
def hash : SockaddrStorage → BitVec w
  | inet addr _ => hashWord addr.toList
  | inet6 addr _ => hashWords hashWord addr.toList 0#w (List.range 4)
  | other _ => 0#w

/-- Equal addresses have equal hashes. -/
theorem hash_congr {s t : SockaddrStorage} (h : (s == t) = true) :
    s.hash hashWord = t.hash hashWord := by
  obtain ⟨host, hs, ht⟩ := beq_iff.1 h
  cases s <;> cases t <;> cases hs <;> cases ht <;> rfl

/-- The cache of clients may look an address up by its hash. -/
theorem get?_bucket {V : Type*} (m : EntryMap SockaddrStorage V) (s : SockaddrStorage) :
    ((m.bucket (hash hashWord) s).find? fun e => e.1 == s).map Prod.snd = m.get? s :=
  m.find?_bucket (fun _ _ => hash_congr hashWord) s

end Hash

end SockaddrStorage

/-- `IsAddressIp4`: the first twelve bytes of an IPv6 address are compared with zeroes. -/
def isAddressIp4 : SockaddrStorage → Bool
  | .inet _ _ => true
  | .inet6 addr _ => addr.toList.take 12 == List.replicate 12 0
  | .other _ => false

/-! ### The loop of the server -/

/-- The fields of `NrpdServer`, with the random device behind its descriptor. -/
structure NrpdServer where
  recentClients : MruCache SockaddrStorage
  config : NrpdConfig
  random : RandomDevice
  mtu : ℤ

/-- What `InitializeServer` leaves, when the socket and the random device can be opened. -/
def initializeServer (config : NrpdConfig) (random : RandomDevice) (clock : SteadyClock) :
    NrpdServer × SteadyClock :=
  let recentClients := MruCache.new clientMinRetrySeconds clock
  (⟨recentClients.1, config, random, maxIp6PacketSize⟩, recentClients.2)

/-- How a turn of `ServerLoop` ends for a datagram that was received: it is ignored, the program is
stopped by the assertion or by a write through a null pointer, or `sendto` is called. -/
inductive ServerOutcome where
  | ignored
  | stopped
  | sent (buffer : Mem) (messageLength : ℤ)

/-- The end of a turn of `ServerLoop`, behind `ParseMessages`. -/
def sendPacket (buffer : Mem) (mtu : ℤ) (parsed : ParseState) : ServerOutcome :=
  let messageLength := parsed.outMessageLength + nrpPacketHeaderSize
  if messageLength ≤ mtu then
    match assemblePacket buffer messageLength parsed.msgs with
    | some packet => .sent packet messageLength
    | none => .stopped
  else .stopped

/-- The MTU for a client. -/
def mtuFor (srcAddr : SockaddrStorage) : ℤ :=
  if isAddressIp4 srcAddr then maxIp4PacketSize else maxIp6PacketSize

/-- A turn of `ServerLoop` for a datagram in the buffer; `none` is a turn that never ends. -/
def serverTurn (server : NrpdServer) (buffer : Mem) (srcAddr : SockaddrStorage)
    (clock : SteadyClock) : Option (ServerOutcome × NrpdServer × SteadyClock) := do
  let valid ← validateRequestPacket buffer
  if !valid then some (.ignored, server, clock)
  else
    let recent := server.recentClients.isPresentAdd srcAddr clock
    let server := { server with recentClients := recent.cache }
    if recent.response then some (.ignored, server, recent.clock)
    else
      let server := { server with mtu := mtuFor srcAddr }
      let parsed ← parseMessages buffer server.mtu server.config server.random
      let left := { server with config := parsed.2.config, random := parsed.2.random }
      if !parsed.1 then some (.ignored, left, recent.clock)
      else some (sendPacket buffer server.mtu parsed.2, left, recent.clock)

end Nrpd
