import Nrpd.Config.NrpdConfig
import Nrpd.Lib.RandomDevice
import Nrpd.Protocol.Generation

/-!
# The client

`NrpdClient` of `client.cpp`: the request it builds, and what it does with the messages of a
response. Entropy is masked in the receive buffer itself. The server that was asked is a reference
to a record of the configuration.

## Main definitions

* `constructRequest`: the request for a server.
* `scrambleEntropy`, `consumeEntropy`, `parseRejectMessage`: the messages of a response.
* `ClientState`, `parseResponse`: the loop over the messages of a response.
-/

namespace Nrpd

open FixedWidth FuelLoop Segments

/-! ### Requests -/

/-- The headers that `ConstructRequest` counts before it writes: that of the packet, that of the
entropy message, and one for each message type of the server. -/
def serverMsgSupportCount (server : ServerRecord) : ℕ :=
  2 + server.signkey.toNat + server.ip4Peers.toNat + server.ip6Peers.toNat

/-- The variables of `ConstructRequest`. -/
structure RequestDraft where
  msg : Option ℕ
  buffer : Mem
  msgCount : ℕ
  msgSize : ℕ

/-- Append a generated message. -/
def RequestDraft.push (draft : RequestDraft) (generated : Option ℕ × Mem) : RequestDraft where
  msg := generated.1
  buffer := generated.2
  msgCount := draft.msgCount + 1
  msgSize := draft.msgSize + nrpMessageHeaderSize

/-- Ask for as many peers as the server has, if the server and the client support the family. -/
def RequestDraft.pushPeers (draft : RequestDraft) (ipType : NrpdMsgType) (supported : Bool) :
    RequestDraft :=
  if supported then draft.push (generateRequestPeersMessage ipType 0 draft.msg draft.buffer)
  else draft

/-- `ConstructRequest`: the size of the packet, if it succeeds, and the buffer. A server with a
signing key is asked for nothing else than one without. -/
def constructRequest (c : NrpdConfig) (server : ServerRecord) (bufSize : ℕ) (buffer : Mem) :
    Option ℕ × Mem :=
  if bufSize < nrpMessageHeaderSize * serverMsgSupportCount server then (none, buffer)
  else
    let empty : RequestDraft := ⟨some pktMessages, buffer, 0, nrpPacketHeaderSize⟩
    let entropy := empty.push
      (generateRequestEntropyMessage (.ofNat (u8 c.defaultEntropySize.val)) empty.msg empty.buffer)
    let peers := (entropy.pushPeers .ip4peers (server.ip4Peers && c.clientEnableIp4)).pushPeers
      .ip6peers (server.ip6Peers && c.clientEnableIp6)
    let header := generatePacketHeader (u16 peers.msgSize) .request (.ofNat (u8 peers.msgCount))
      (some 0) peers.buffer
    (header.1.map fun _ => peers.msgSize, header.2)

/-! ### Entropy -/

/-- The bytes that are left of received entropy: each is kept or zeroed by one bit of the secret. -/
def maskEntropy (secret : Mem) (entropy : List UInt8) : List UInt8 :=
  entropy.mapIdx fun idx byte => byte * ((secret (idx / 8) >>> .ofNat (idx % 8)) &&& 1)

/-- `ScrambleEntropy`, for entropy that is not null: whether it succeeds, the device and the buffer.
The array for the secret is not initialized, and the read may fill only a part of it. -/
def scrambleEntropy (bufSize entropy : ℕ) (random : RandomDevice) (secret m : Mem) :
    Bool × RandomDevice × Mem :=
  if bufSize > maxEntropySize then (false, random, m)
  else
    -- `ceil(bufSize / 8.0f)`
    let bytes := (bufSize + 7) / 8
    let result := random.read bytes
    match result.1 with
    | none | some [] => (false, result.2, m)
    | some data =>
      (true, result.2,
        m.write entropy (maskEntropy (secret.write 0 data) (m.read entropy bufSize)))

/-- `ConsumeEntropy`, for entropy that is not null: whether it succeeds, and the device. -/
def consumeEntropy (bufSize entropy : ℕ) (m : Mem) (sink : RandomSink) : Bool × RandomSink :=
  if bufSize > maxEntropySize then (false, sink)
  else
    let result := sink.write (m.read entropy bufSize)
    (result.1 > 0, result.2)

/-! ### Rejections -/

/-- The entries of the reject message at an offset. -/
def rejectEntries (m : Mem) (msg : ℕ) : List NrpMessageReject :=
  (List.range (hdrCountOrSize m msg).toNat).map fun i =>
    rejectEntryAt m (hdrContent msg + i * sizeofReject)

/-- What `ParseRejectMessage` does for one entry. The factor `1.25` of the retry time is converted
to the integral type of the duration, which makes it `1`. -/
def applyReject (server : ServerRecord) (rej : NrpMessageReject) : ServerRecord :=
  match NrpdRejectReason.ofCode rej.reason with
  | some .busy => { server with retryTime := server.retryTime * 1 }
  | some .shuttingdown => { server with shuttingdown := true }
  | some .unsupported =>
    match NrpdMsgType.ofCode rej.msgType with
    | some .ip4peers => { server with ip4Peers := false }
    | some .ip6peers => { server with ip6Peers := false }
    | some .signkey => { server with signkey := false }
    | _ => server
  | _ => server

/-- `ParseRejectMessage`, for the entries of the message. -/
def parseRejectMessage (entries : List NrpMessageReject) (server : ServerRecord) : ServerRecord :=
  entries.foldl applyReject server

theorem host_applyReject (server : ServerRecord) (rej : NrpMessageReject) :
    (applyReject server rej).host = server.host := by
  rw [applyReject]
  split <;> first | rfl | split <;> rfl

theorem host_parseRejectMessage (entries : List NrpMessageReject) (server : ServerRecord) :
    (parseRejectMessage entries server).host = server.host := by
  induction entries generalizing server with
  | nil => rfl
  | cons rej entries ih => exact (ih _).trans (host_applyReject server rej)

/-- Rejections change the flags of a record, and nothing else. -/
theorem parseRejectMessage_eq (entries : List NrpMessageReject) (server : ServerRecord) :
    ∃ ip4Peers ip6Peers signkey shuttingdown, parseRejectMessage entries server =
      { server with
        ip4Peers := ip4Peers
        ip6Peers := ip6Peers
        signkey := signkey
        shuttingdown := shuttingdown } := by
  induction entries generalizing server with
  | nil => exact ⟨_, _, _, _, rfl⟩
  | cons rej entries ih =>
    obtain ⟨ip4Peers, ip6Peers, signkey, shuttingdown, htail⟩ := ih (applyReject server rej)
    refine ⟨ip4Peers, ip6Peers, signkey, shuttingdown, htail.trans ?_⟩
    rw [applyReject]
    split
    · rw [Int.mul_one]
    · rfl
    · split <;> rfl
    · rfl

/-! ### The messages of a response -/

/-- What `ParseResponse` reads and writes: the configuration and the clock, the random device as a
source and as a sink, the memory that the array for the secret takes in each call, the receive
buffer, and the count of messages. -/
structure ClientState where
  config : NrpdConfig
  clock : SteadyClock
  random : RandomDevice
  sink : RandomSink
  secrets : ℕ → Mem
  buffer : Mem
  msgCount : ℕ

namespace ClientState

/-- The branch of the loop for entropy. It is consumed whether it was masked or not. -/
def takeEntropy (s : ClientState) (msg : ℕ) : ClientState :=
  let bufSize := (hdrCountOrSize s.buffer msg).toNat
  let masked :=
    scrambleEntropy bufSize (hdrContent msg) s.random (s.secrets s.random.taken) s.buffer
  let consumed := consumeEntropy bufSize (hdrContent msg) masked.2.2 s.sink
  { s with random := masked.2.1, buffer := masked.2.2, sink := consumed.2 }

/-- The branch of the loop for a peers type. -/
def takePeers (s : ClientState) (enabled : Bool) (msg : ℕ) : ClientState :=
  if enabled then
    let added := s.config.addServersFromMessage s.buffer msg s.clock
    { s with config := added.2.1, clock := added.2.2 }
  else s

/-- The branch of the loop for rejections. -/
def takeRejections (s : ClientState) (server : ServerRef) (msg : ℕ) : ClientState :=
  let entries := rejectEntries s.buffer msg
  let config := s.config.updateServer server (parseRejectMessage entries)
    (host_parseRejectMessage entries)
  { s with config := config }

/-- The body of the loop. -/
def takeMessage (s : ClientState) (server : ServerRef) (msg : ℕ) : ClientState :=
  match NrpdMsgType.ofCode (hdrMsgType s.buffer msg) with
  | some .entropy => s.takeEntropy msg
  | some .ip4peers => s.takePeers s.config.clientEnableIp4 msg
  | some .ip6peers => s.takePeers s.config.clientEnableIp6 msg
  | some .reject => s.takeRejections server msg
  | _ => s

end ClientState

/-- The loop of `ParseResponse`. -/
def responseWalk (server : ServerRef) (bufSize : ℕ) : Walk ClientState where
  guard msg s := msg < bufSize && msg < endOfPacket s.buffer &&
    s.msgCount < (pktMsgCount s.buffer).toNat
  visit msg s := { s.takeMessage server msg with msgCount := s.msgCount + 1 }
  next s msg := nextMessage s.buffer msg

/-- The state and the offset before the loop of `ParseResponse`. -/
def responseStart (s : ClientState) : ℕ × ClientState := (pktMessages, { s with msgCount := 0 })

/-- `ParseResponse`, which always succeeds; `none` is a loop of more turns than a packet counts
messages. -/
def parseResponse (server : ServerRef) (bufSize : ℕ) (s : ClientState) : Option ClientState :=
  (run (responseWalk server bufSize).turn (maxByte + 1) (responseStart s)).map (·.2)

end Nrpd
