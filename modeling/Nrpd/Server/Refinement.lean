import Nrpd.Config.CountBounds
import Nrpd.Protocol.RequestRoundTrip
import Nrpd.Server.Packets
import Nrpd.Server.PeersAnswers
import Nrpd.Server.Responder

/-!
# The server is a responder

Byte for byte, what `ServerLoop` sends for a request is the answer of the responder with the servers
that are counted: its messages behind a fresh header. The buffers of `ParseMessages` stand for the
messages of a draft, turn after turn of its loop.

## Main definitions

* `NrpdConfig.responder`: the responder that a configuration stands for.
* `responseBytes`, `replyBytes`: messages as a packet, and what is sent for them.
* `Encodes`: a buffer has a message at its front.
* `Drafts`: the variables of `ParseMessages` stand for a draft.

## Main results

* `Drafts.answer`: a turn of the loop.
* `Drafts.visitAll`, `Drafts.pushRejections`: the loop, and the end of `ParseMessages`.
* `assemblePacket_eq`: the packet.
* `serverTurn_refines`: the turns of the server.
-/

namespace Nrpd

open FixedWidth FuelLoop NrpdConfig Segments

/-! ### Answers as bytes -/

/-- The bytes of a packet with messages; none when there are no messages. -/
def responseBytes (msgs : List ResponseMessage) : List UInt8 :=
  if msgs = [] then []
  else
    headerBytes (4 + encodedSize msgs) NrpdMsgType.response.code (.ofNat msgs.length) ++
      msgs.flatMap ResponseMessage.bytes

/-- A buffer has a message at its front. -/
structure Encodes (m : Mem) (msg : ResponseMessage) : Prop where
  length : hdrLength m 0 = msg.bytes.length
  bytes : m.read 0 msg.bytes.length = msg.bytes

/-- What is sent for messages from the buffer of a request: when there are no messages, the first
bytes of the request are. -/
def replyBytes (buffer : Mem) (msgs : List ResponseMessage) : List UInt8 :=
  if msgs = [] then buffer.read 0 4 else responseBytes msgs

theorem length_responseBytes {msgs : List ResponseMessage} (h : msgs ≠ []) :
    (responseBytes msgs).length = 4 + encodedSize msgs := by
  rw [responseBytes, if_neg h, List.length_append, length_headerBytes, encodedSize]

theorem read_write_responseBytes (buffer : Mem) (msgs : List ResponseMessage) :
    (buffer.write 0 (responseBytes msgs)).read 0 (4 + encodedSize msgs) =
      replyBytes buffer msgs := by
  by_cases hnil : msgs = []
  · subst hnil
    rw [replyBytes, if_pos rfl, responseBytes, if_pos rfl, Mem.write_nil]
    rfl
  · rw [replyBytes, if_neg hnil, ← length_responseBytes hnil]
    exact Mem.read_write buffer 0 _

theorem length_replyBytes (buffer : Mem) (msgs : List ResponseMessage) :
    (replyBytes buffer msgs).length = 4 + encodedSize msgs := by
  rw [← read_write_responseBytes, Mem.length_read]

section Encodes

variable {m : Mem} {msg : ResponseMessage} {entries : List NrpMessageReject}

/-- A message that is put into an empty buffer. -/
theorem encodes_putMessage (hlt : msg.bytes.length < 65536) :
    Encodes (putMessage Mem.zero 0 (4 + msg.content.length) msg.msgType.code (.ofNat msg.count)
      msg.content) msg := by
  have hlength : msg.bytes.length = 4 + msg.content.length := by
    rw [ResponseMessage.bytes, List.length_append, length_headerBytes]
  refine ⟨?_, ?_⟩
  · rw [hlength] at hlt ⊢
    rw [hdrLength_putMessage hlt]
  · rw [putMessage_eq]
    exact Mem.read_write _ _ _

/-- Two bytes that are read as a number. -/
theorem be16Bytes_be16 (m : Mem) (a : ℕ) : be16Bytes (m.be16 a) = [m a, m (a + 1)] := by
  have hhigh := (m a).toNat_lt
  have hlow := (m (a + 1)).toNat_lt
  have hdiv : m.be16 a / 256 = (m a).toNat := by rw [Mem.be16]; omega
  have hmod : m.be16 a % 256 = (m (a + 1)).toNat := by rw [Mem.be16]; omega
  rw [be16Bytes, hdiv, hmod, UInt8.ofNat_toNat, UInt8.ofNat_toNat]

/-- Four bytes that are read as a header. -/
theorem read_header (m : Mem) (a : ℕ) :
    m.read a 4 = headerBytes (hdrLength m a) (hdrMsgType m a) (hdrCountOrSize m a) := by
  rw [headerBytes, hdrLength, be16Bytes_be16]
  rfl

/-- Entries that stand behind each other. -/
theorem read_of_rejectEntryAt {a : ℕ}
    (h : ∀ (i : ℕ) (hi : i < entries.length), rejectEntryAt m (a + 2 * i) = entries[i]) :
    m.read a (2 * entries.length) = entries.flatMap rejectBytes := by
  induction entries generalizing a with
  | nil => rfl
  | cons entry entries ih =>
    have hentry : rejectEntryAt m a = entry := h 0 (Nat.succ_pos _)
    have hbytes : m.read a 2 = rejectBytes entry := by
      rw [← hentry]
      rfl
    have hrest : m.read (a + 2) (2 * entries.length) = entries.flatMap rejectBytes := by
      refine ih fun i hi => ?_
      have hnext := h (i + 1) (Nat.succ_lt_succ hi)
      rwa [show a + 2 * (i + 1) = a + 2 + 2 * i by omega] at hnext
    rw [List.length_cons, show 2 * (entries.length + 1) = 2 + 2 * entries.length by omega,
      Mem.read_append, hbytes, hrest, List.flatMap_cons]

/-- A reject message is encoded. -/
theorem IsRejection.encodes (h : IsRejection m entries) : Encodes m (.reject entries) := by
  have hlength : (ResponseMessage.reject entries).bytes.length = 4 + 2 * entries.length := by
    rw [ResponseMessage.length_bytes, Nat.mul_comm]
    rfl
  have hcontent : (ResponseMessage.reject entries).content.length = 2 * entries.length := by
    rw [ResponseMessage.length_content, Nat.mul_comm]
    rfl
  have hcount : hdrCountOrSize m 0 = .ofNat entries.length := by
    rw [← h.count, UInt8.ofNat_toNat]
  refine ⟨h.length.trans hlength.symm, ?_⟩
  rw [hlength, Mem.read_append, read_header, h.length, h.msgType, hcount,
    read_of_rejectEntryAt (a := 0 + 4) fun i hi => by rw [Nat.zero_add]; exact h.entry i hi,
    ResponseMessage.bytes, hcontent]
  rfl

/-- The entry of a server has the bytes that are copied for it. -/
theorem exists_entry (record : ServerRecord) :
    (record.ipv6 = false →
      ∃ peer, ip4Entry (endpoint record) = some peer ∧ peer.toList = peerBytes record) ∧
    (record.ipv6 = true →
      ∃ peer, ip6Entry (endpoint record) = some peer ∧ peer.toList = peerBytes record) := by
  have hport : (portBytes record.port).toList = be16Bytes record.port.toNat := rfl
  rw [ServerRecord.ipv6, endpoint, peerBytes, ← hport]
  cases record.host with
  | ip4 b =>
    refine ⟨fun _ => ⟨_, rfl, Vector.toList_append⟩, fun h => ?_⟩
    cases h
  | ip6 b =>
    refine ⟨fun h => ?_, fun _ => ⟨_, rfl, Vector.toList_append⟩⟩
    cases h

theorem flatMap_toList_filterMap {n : ℕ} {records : List ServerRecord}
    {entry : Host × UInt16 → Option (Vector UInt8 n)}
    (h : ∀ r ∈ records, ∃ peer, entry (endpoint r) = some peer ∧ peer.toList = peerBytes r) :
    (((records.map endpoint).filterMap entry).flatMap Vector.toList =
      records.flatMap peerBytes) ∧
    ((records.map endpoint).filterMap entry).length = records.length := by
  induction records with
  | nil => exact ⟨rfl, rfl⟩
  | cons record records ih =>
    obtain ⟨peer, hpeer, hbytes⟩ := h record List.mem_cons_self
    obtain ⟨hflat, hlength⟩ := ih fun r hr => h r (List.mem_cons_of_mem _ hr)
    rw [List.map_cons, List.filterMap_cons_some hpeer]
    refine ⟨?_, ?_⟩
    · rw [List.flatMap_cons, List.flatMap_cons, hbytes, hflat]
    · rw [List.length_cons, List.length_cons, hlength]

/-- The message with servers of a family has the bytes that are copied for them. -/
theorem ofPeers_endpoints {type : NrpdMsgType} (htype : isPeersType type = true)
    {records : List ServerRecord} (h : ∀ r ∈ records, r.ipv6 = isIp6Peers type) :
    let msg := ResponseMessage.ofPeers (isIp6Peers type) (records.map endpoint)
    msg.msgType = type ∧ msg.count = records.length ∧ msg.content = records.flatMap peerBytes := by
  cases type with
  | ip4peers =>
    obtain ⟨hflat, hlength⟩ := flatMap_toList_filterMap fun r hr => (exists_entry r).1 (h r hr)
    exact ⟨rfl, hlength, hflat⟩
  | ip6peers =>
    obtain ⟨hflat, hlength⟩ := flatMap_toList_filterMap fun r hr => (exists_entry r).2 (h r hr)
    exact ⟨rfl, hlength, hflat⟩
  | _ => cases htype

end Encodes

/-! ### What the server reads of its configuration -/

namespace NrpdConfig

/-- The responder that a configuration stands for: it lists the servers that are counted. -/
def responder (c : NrpdConfig) : Responder where
  servers ipv6 := ((c.activeOf ipv6).take (c.knownCount ipv6).toNat).map endpoint
  enabled ipv6 := if ipv6 then c.enableIp6Peers else c.enableIp4Peers
  entropySize := c.defaultEntropySize.val.toNat

/-- A configuration after it has been read: cached counts may be new, and the answers are the same.
-/
structure ReadBy (c c' : NrpdConfig) : Prop where
  recounted : c.Recounted c'
  sameAnswers : c.SameAnswers c'
  countsBelow : c.CountsBelow → c'.CountsBelow
  cachedCount : ∀ ipv6, c'.cachedCount ipv6 = c.cachedCount ipv6 ∨
    c'.cachedCount ipv6 = i32 (c.activeOf ipv6).length

variable {c c' c'' : NrpdConfig}

theorem ReadBy.refl (c : NrpdConfig) : c.ReadBy c := ⟨.refl c, .refl c, id, fun _ => .inl rfl⟩

theorem Recounted.activeOf_eq (h : c.Recounted c') (ipv6 : Bool) :
    c'.activeOf ipv6 = c.activeOf ipv6 := by
  obtain ⟨n₄, n₆, rfl⟩ := h
  rfl

theorem ReadBy.trans (h : c.ReadBy c') (h' : c'.ReadBy c'') : c.ReadBy c'' where
  recounted := h.recounted.trans h'.recounted
  sameAnswers := h.sameAnswers.trans h'.sameAnswers
  countsBelow := h'.countsBelow ∘ h.countsBelow
  cachedCount ipv6 := by
    rcases h'.cachedCount ipv6 with hcached | hcached
    · rw [hcached]
      exact h.cachedCount ipv6
    · rw [h.recounted.activeOf_eq] at hcached
      exact .inr hcached

theorem readBy_activeServerCount (c : NrpdConfig) (type : NrpdMsgType) :
    c.ReadBy (c.activeServerCount type).2 where
  recounted := recounted_activeServerCount c type
  sameAnswers := sameAnswers_activeServerCount c type
  countsBelow h := h.activeServerCount type
  cachedCount ipv6 := by
    simp only [activeServerCount]
    split_ifs
    · exact .inl rfl
    · exact .inl rfl
    · rw [cachedCount_setCachedCount]
      by_cases hv : ipv6 = isIp6Peers type
      · rw [if_pos hv, hv]
        exact .inr rfl
      · rw [if_neg hv]
        exact .inl rfl

theorem readBy_getServerList (c : NrpdConfig) (type : NrpdMsgType) (count : ℤ) :
    c.ReadBy (c.getServerList type count).2 where
  recounted := recounted_getServerList c type count
  sameAnswers := sameAnswers_getServerList c type count
  countsBelow h := h.getServerList type count
  cachedCount ipv6 := by
    simp only [getServerList]
    split_ifs
    · exact .inl rfl
    · exact (readBy_activeServerCount c type).cachedCount ipv6
    · exact (readBy_activeServerCount c type).cachedCount ipv6

theorem readBy_generatePeersResponse (c : NrpdConfig) (type : NrpdMsgType) (count available : ℤ) :
    c.ReadBy (generatePeersResponse c type count available).state := by
  have hcounted := readBy_activeServerCount c type
  simp only [generatePeersResponse]
  generalize (if type = .ip6peers then (sizeofIp6Peer : ℤ) else sizeofIp4Peer) = size
  generalize (if count ≤ 0 then (c.activeServerCount type).1
    else min (c.activeServerCount type).1 count) = n
  split_ifs
  · exact hcounted
  · exact hcounted
  · exact hcounted.trans (readBy_getServerList _ type _)

theorem ReadBy.knownCount_eq (h : c.ReadBy c') (ipv6 : Bool) :
    c'.knownCount ipv6 = c.knownCount ipv6 := by
  have hcount (type : NrpdMsgType) (htype : isPeersType type = true) :
      c'.knownCount (isIp6Peers type) = c.knownCount (isIp6Peers type) := by
    have hsame := h.sameAnswers.count type
    rwa [activeServerCount_fst, activeServerCount_fst, if_pos htype, if_pos htype] at hsame
  cases ipv6 with
  | false => exact hcount .ip4peers rfl
  | true => exact hcount .ip6peers rfl

/-- Reading does not change the answers. -/
theorem ReadBy.responder_eq (h : c.ReadBy c') : c'.responder = c.responder := by
  have hknown := h.knownCount_eq
  obtain ⟨n₄, n₆, rfl⟩ := h.recounted
  simp only [responder, hknown]
  rfl

end NrpdConfig

/-! ### Answers to single messages -/

section Peers

variable {c : NrpdConfig} {type : NrpdMsgType} {available : ℕ}

/-- The servers that a responder lists are the ones that `GeneratePeersResponse` asks for. -/
theorem take_servers_responder (hcounts : c.CountsBelow) (htype : isPeersType type = true)
    (count : UInt8) (available : ℕ) :
    let servers := c.responder.servers (isIp6Peers type)
    servers.take (min (if count = 0 then servers.length else count.toNat)
        ((available - 4) / sizeofPeer (isIp6Peers type))) =
      ((c.activeOf (isIp6Peers type)).take
        (fittingCount available (recordSize type) (requestedPeers c type count))).map endpoint := by
  have hknown := hcounts.knownCount_le (isIp6Peers type)
  have hcounted : (c.activeServerCount type).1 = c.knownCount (isIp6Peers type) := by
    rw [activeServerCount_fst, if_pos htype]
  have hlength : (c.responder.servers (isIp6Peers type)).length =
      (c.knownCount (isIp6Peers type)).toNat := by
    rw [responder, List.length_map, List.length_take]
    omega
  simp only [hlength]
  rw [fittingCount, requestedPeers, hcounted, (recordSize_eq_sizeofPeer htype).1]
  simp only [responder]
  rw [← List.map_take, List.take_take]
  congr 2
  split_ifs <;> omega

/-- **Peers.** The message for servers that are there and counted. -/
theorem peersMessage_encodes (htype : isPeersType type = true) {k : ℕ} (hpos : 1 ≤ k)
    (hmax : k ≤ 255) (hcounted : (k : ℤ) ≤ (c.activeServerCount type).1)
    (hthere : k ≤ (c.activeOf (isIp6Peers type)).length) :
    let msg := ResponseMessage.ofPeers (isIp6Peers type)
      (((c.activeOf (isIp6Peers type)).take k).map endpoint)
    msg.bytes.length = 4 + recordSize type * k ∧
      ∃ m, peersMessage c type k (4 + recordSize type * k) = some m ∧ Encodes m msg := by
  have hsame := (c.sameAnswers_activeServerCount type).count type
  have hcases : type = .ip4peers ∨ type = .ip6peers := by
    cases type <;> simp [isPeersType] at htype <;> simp
  have hsmall := (recordSize_of_isPeersType htype).2.2
  have hmul : recordSize type * k ≤ 18 * 255 := Nat.mul_le_mul hsmall hmax
  have hlength : ((c.activeOf (isIp6Peers type)).take k).length = k := by
    rw [List.length_take, Nat.min_eq_left hthere]
  have hfamily : ∀ r ∈ (c.activeOf (isIp6Peers type)).take k, r.ipv6 = isIp6Peers type :=
    fun r hr => ipv6_of_mem_activeOf (List.mem_of_mem_take hr)
  obtain ⟨hmsgType, hcount, hcontent⟩ := ofPeers_endpoints htype hfamily
  set msg := ResponseMessage.ofPeers (isIp6Peers type)
    (((c.activeOf (isIp6Peers type)).take k).map endpoint) with hmsg
  rw [hlength] at hcount
  have hbytes : msg.content.length = k * recordSize type := by
    rw [msg.length_content, hcount, hmsgType]
  have hsize : msg.bytes.length = 4 + recordSize type * k := by
    rw [msg.length_bytes, hcount, hmsgType, Nat.mul_comm]
  have hbyte : (UInt8.ofNat k).toNat = k := by rw [UInt8.toNat_ofNat', Nat.mod_eq_of_lt (by omega)]
  have hne : UInt8.ofNat k ≠ 0 := fun hzero => by
    rw [hzero, UInt8.toNat_zero] at hbyte
    omega
  have hmin : min (c.activeServerCount type).1.toNat k = k := by omega
  have hdata := getServerList_eq (c := (c.activeServerCount type).2) htype
    (n := (c.activeServerCount type).1.toNat) (k := k) (by rw [hsame]; omega) (by omega) hpos
    (by rw [activeOf_activeServerCount, hmin]; exact hthere) (by omega)
  rw [activeOf_activeServerCount, hmin, ← hcontent] at hdata
  refine ⟨hsize, _, ?_, encodes_putMessage (by omega)⟩
  rw [peersMessage, hdata, u8_natCast (by omega), generateResponsePeersMessage_of_length hcases
    hbyte hne hbytes (by rw [hbytes, Nat.mul_comm]), List.take_length, hmsgType, hcount]
  rfl

/-- **Peers.** The answer of `GeneratePeersResponse` is the one of the responder. -/
theorem generatePeersResponse_encodes (hcounts : c.CountsBelow) (hfit : c.SizesFit)
    (htype : isPeersType type = true) (hmax : available ≤ 1232) (count : UInt8) :
    let listed := ((c.activeOf (isIp6Peers type)).take
      (fittingCount available (recordSize type) (requestedPeers c type count))).map endpoint
    let msg := ResponseMessage.ofPeers (isIp6Peers type) listed
    let answer := generatePeersResponse c type count.toNat available
    (listed = [] → answer.buffer = none) ∧
      (listed ≠ [] → msg.bytes.length ≤ available ∧ answer.outResponseSize = msg.bytes.length ∧
        ∃ m, answer.buffer = some m ∧ Encodes m msg) := by
  have hspec := generatePeersResponse_spec count hfit htype hmax
  have hknown := hcounts.knownCount_le (isIp6Peers type)
  have hcounted : (c.activeServerCount type).1 = c.knownCount (isIp6Peers type) := by
    rw [activeServerCount_fst, if_pos htype]
  obtain ⟨-, hmin, hsmall⟩ := recordSize_of_isPeersType htype
  have hfitting : fittingCount available (recordSize type) (requestedPeers c type count) ≤
      requestedPeers c type count := fittingCount_le_messageCount
  have hle := hfitting.trans (requestedPeers_le c type count)
  set k := fittingCount available (recordSize type) (requestedPeers c type count) with hk
  have hempty : ((c.activeOf (isIp6Peers type)).take k).map endpoint = [] ↔ k = 0 := by
    rw [List.map_eq_nil_iff, ← List.length_eq_zero_iff, List.length_take]
    omega
  have hsome : k ≠ 0 ↔ (c.activeServerCount type).1 ≠ 0 ∧ 4 + recordSize type ≤ available := by
    refine ⟨fun hne => ⟨fun hzero => ?_, ?_⟩, fun ⟨hne, hroom⟩ => ?_⟩
    · rw [hzero] at hle
      omega
    · by_contra hroom
      have hquot : (available - 4) / recordSize type = 0 := Nat.div_eq_of_lt (by omega)
      rw [hk, fittingCount, hquot] at hne
      exact hne (Nat.min_zero _)
    · have hnonneg := (hfit type htype).1
      exact (fittingCount_pos (by omega) (requestedPeers_pos (by omega)) hroom).ne'
  refine ⟨fun hnil => hspec.none fun h => hsome.2 h (hempty.1 hnil), fun hnil => ?_⟩
  have hne : k ≠ 0 := mt hempty.2 hnil
  obtain ⟨hcount, hroom⟩ := hsome.1 hne
  have hnonneg := (hfit type htype).1
  have hpos : 0 < requestedPeers c type count := requestedPeers_pos (by omega)
  obtain ⟨hsize, m, hmessage, hencodes⟩ := peersMessage_encodes htype (c := c) (k := k) (by omega)
    (Nat.le_of_lt_succ (fittingCount_lt hmax hmin)) (by omega) (by omega)
  have hfits : 4 + recordSize type * k ≤ available :=
    hk ▸ size_fittingCount_le (recordSize type) (requestedPeers c type count) (by omega)
  have hsized := calculateMessageSize_eq (show available < 2147483648 by omega)
    (show 0 < recordSize type by omega) hpos (size_requestedPeers_lt hfit htype)
  rw [if_pos hroom, ← hk] at hsized
  have hasked : askedFor c type (count.toNat : ℕ) = requestedPeers c type count :=
    requestedPeers_eq hfit htype
  obtain ⟨hout, hbuffer⟩ := (((generatePeersResponse_of_asked htype
    (show available < 65536 by omega) hasked).2 (by omega)) _ _ hsized (by omega)).2 (by omega)
  exact ⟨hsize ▸ hfits, hout.trans (congrArg Nat.cast hsize.symm), m, hbuffer.trans hmessage,
    hencodes⟩

end Peers

section Entropy

variable {c : NrpdConfig} {random : RandomDevice} {available : ℕ}

theorem encodes_entropy {data : List UInt8} (hpos : data ≠ []) (hlt : data.length < 256) :
    let generated := generateResponseEntropyMessage (.ofNat data.length) (some data)
      (4 + data.length) (some 0) Mem.zero
    generated.1.isSome = true ∧ Encodes generated.2 (.entropy data) := by
  have hbyte : (UInt8.ofNat data.length).toNat = data.length := by
    rw [UInt8.toNat_ofNat', Nat.mod_eq_of_lt hlt]
  have hne : UInt8.ofNat data.length ≠ 0 := fun hzero => by
    rw [hzero] at hbyte
    exact hpos (List.length_eq_zero_iff.1 hbyte.symm)
  have hsize : (ResponseMessage.entropy data).bytes.length = 4 + data.length := by
    rw [ResponseMessage.length_bytes]
    exact congrArg (4 + ·) (Nat.mul_one _)
  simp only [generateResponseEntropyMessage_of_length hbyte hne (Nat.le_refl _), List.take_length]
  have hbytes : (ResponseMessage.entropy data).bytes.length < 65536 := by omega
  exact ⟨rfl, encodes_putMessage hbytes⟩

/-- **Entropy.** The answer of `GenerateEntropyResponse` is the one of the responder. -/
theorem generateEntropyResponse_encodes (c : NrpdConfig) (random : RandomDevice) (size : UInt8)
    (hmax : available ≤ 1232) :
    let data := random.delivered (min (requestedEntropy c size) (available - 4))
    let msg := ResponseMessage.entropy data
    let answer := generateEntropyResponse c random size.toNat available
    (available < 5 → answer.state = random ∧ answer.buffer = none) ∧
      (5 ≤ available → answer.state = random.skip 1 ∧ (data = [] → answer.buffer = none) ∧
        (data ≠ [] → msg.bytes.length ≤ available ∧ answer.outResponseSize = msg.bytes.length ∧
          ∃ m, answer.buffer = some m ∧ Encodes m msg)) := by
  obtain ⟨hpos, hlt⟩ := requestedEntropy_mem c size
  have hsized := calculateMessageSize_eq (by omega : available < 2147483648) Nat.one_pos hpos
    (by omega)
  rw [fittingCount, Nat.div_one] at hsized
  simp only [Int.natCast_one, Nat.one_mul, Nat.reduceAdd] at hsized
  simp only [generateEntropyResponse, requestedEntropy_eq,
    u32_natCast (show available < 4294967296 by omega), hsized]
  set k := min (requestedEntropy c size) (available - 4) with hk
  refine ⟨fun hfull => ?_, fun hroom => ?_⟩
  · simp only [if_neg (show ¬ 5 ≤ available by omega)]
    exact ⟨rfl, rfl⟩
  · have hdataSize : ((4 + k : ℕ) : ℤ) - ((4 : ℕ) : ℤ) = k := by omega
    have hdelivered : random.delivered k = (random.read k).1.getD [] := rfl
    simp only [if_pos hroom]
    rw [i32_natCast (by omega), if_neg (by omega), hdataSize, Int.toNat_natCast]
    cases hread : (random.read k).1 with
    | none =>
      rw [hread, Option.getD_none] at hdelivered
      exact ⟨rfl, fun _ => rfl, fun hne => absurd hdelivered hne⟩
    | some data =>
      have hlen := RandomDevice.length_le_of_read hread
      rw [hread, Option.getD_some] at hdelivered
      simp only [hdelivered]
      by_cases hnil : data = []
      · simp only [hnil, List.length_nil, Int.natCast_zero, if_true]
        exact ⟨rfl, fun _ => trivial, fun hne => absurd rfl hne⟩
      · have hdata : 0 < data.length := List.length_pos_iff.2 hnil
        have hactual : (if (data.length : ℤ) < k then ((4 : ℕ) : ℤ) + data.length
            else ((4 + k : ℕ) : ℤ)) = ((4 + data.length : ℕ) : ℤ) := by
          split_ifs <;> omega
        have hbytes : (ResponseMessage.entropy data).bytes.length = 4 + data.length := by
          rw [ResponseMessage.length_bytes]
          exact congrArg (4 + ·) (Nat.mul_one _)
        obtain ⟨hsome, hencodes⟩ := encodes_entropy hnil (show data.length < 256 by omega)
        obtain ⟨p, hp⟩ := Option.isSome_iff_exists.1 hsome
        simp only [hactual, u8_natCast (show data.length < 256 by omega),
          u32_natCast (show 4 + data.length < 4294967296 by omega), hp]
        rw [if_neg (by omega)]
        exact ⟨rfl, fun h => absurd h hnil, fun _ => ⟨by omega, by rw [hbytes], _, rfl, hencodes⟩⟩

end Entropy

/-! ### The loop -/

/-- The variables of `ParseMessages` stand for a draft. -/
structure Drafts (c : NrpdConfig) (s : ParseState) (d : Responder.Draft) : Prop where
  config : c.ReadBy s.config
  random : s.random = d.device
  remaining : s.bytesRemaining = d.room
  room : d.room ≤ 1232
  rejections : s.rejections = d.rejected.map (⟨·, NrpdRejectReason.unsupported.code⟩)
  messages : List.Forall₂ Encodes s.msgs d.messages
  length : s.outMessageLength = encodedSize d.messages

namespace Drafts

variable {c : NrpdConfig} {s : ParseState} {d : Responder.Draft} {m : Mem} {msg : ResponseMessage}
  {msgType count : UInt8}

theorem start (c : NrpdConfig) (random : RandomDevice) {mtu : ℕ} (hmin : 4 ≤ mtu)
    (hmax : mtu ≤ 1236) : Drafts c (.start mtu c random) ⟨mtu - 4, [], [], random⟩ where
  config := .refl c
  random := rfl
  remaining := by simp [ParseState.start]; omega
  room := by simp only; omega
  rejections := rfl
  messages := .nil
  length := rfl

/-- The bytes that are available are those of the draft. -/
theorem available_eq (h : Drafts c s d) (hlt : d.rejected.length < 256) :
    s.available.toNat = d.available := by
  have hroom := h.room
  have hremaining := h.remaining
  have hlength : s.rejections.length = d.rejected.length := by
    rw [h.rejections, List.length_map]
  have hnil : s.rejections = [] ↔ d.rejected = [] := by rw [h.rejections, List.map_eq_nil_iff]
  rw [s.available_eq (by omega) (by omega) (by omega), Responder.Draft.available, hlength]
  simp only [hnil]
  split_ifs <;> omega

/-- An answer that is appended. -/
theorem push (h : Drafts c s d) (hm : Encodes m msg) (hfit : msg.bytes.length ≤ d.room) :
    Drafts c (s.push (some m) msg.bytes.length) (d.say msg) where
  config := h.config
  random := h.random
  remaining := by
    have hremaining := h.remaining
    simp only [ParseState.push, Responder.Draft.say]
    omega
  room := (Nat.sub_le _ _).trans h.room
  rejections := h.rejections
  messages := List.rel_append h.messages (.cons hm .nil)
  length := by
    have hlength := h.length
    simp only [ParseState.push, Responder.Draft.say, encodedSize, List.flatMap_append,
      List.length_append, List.flatMap_cons, List.flatMap_nil, List.append_nil] at hlength ⊢
    omega

theorem reject (h : Drafts c s d) (msgType : UInt8) :
    Drafts c (s.reject msgType) (d.reject msgType) :=
  have hrejections : (s.reject msgType).rejections =
      (d.reject msgType).rejected.map (⟨·, NrpdRejectReason.unsupported.code⟩) := by
    rw [ParseState.reject, Responder.Draft.reject, h.rejections, List.map_append]
    rfl
  { h with rejections := hrejections }

/-- A configuration that was read. -/
theorem withConfig (h : Drafts c s d) {c' : NrpdConfig} (hread : s.config.ReadBy c') :
    Drafts c { s with config := c' } d :=
  { h with config := h.config.trans hread }

/-- A device that was read. -/
theorem withRandom (h : Drafts c s d) (random : RandomDevice) :
    Drafts c { s with random := random } { d with device := random } :=
  { h with random := rfl }

section Turn

variable (h : Drafts c s d) (hcounts : c.CountsBelow) (hfit : c.SizesFit)
  (hlt : d.rejected.length < 256) (hpos : 0 < s.available)
include h hlt hpos

theorem exists_available :
    s.available = d.available ∧ d.available ≤ d.room := by
  have havailable := h.available_eq hlt
  refine ⟨by omega, ?_⟩
  rw [Responder.Draft.available]
  split_ifs <;> omega

include hcounts hfit

/-- The branch for the peers types. -/
theorem answerPeers {type : NrpdMsgType} (htype : isPeersType type = true) (count : UInt8) :
    Drafts c (s.answerPeers type count)
      (if c.responder.enabled (isIp6Peers type) then c.responder.list d (isIp6Peers type) count
        else d.reject type.code) := by
  obtain ⟨havailable, hle⟩ := h.exists_available hlt hpos
  have hroom := h.room
  have henabled : c.responder.enabled (isIp6Peers type) = s.config.enablePeersResponse type := by
    rw [h.config.sameAnswers.enabled]
    cases type <;> first | rfl | cases htype
  rw [ParseState.answerPeers, henabled]
  by_cases henable : s.config.enablePeersResponse type = true
  · have hread := readBy_generatePeersResponse s.config type count.toNat s.available
    have hencodes := generatePeersResponse_encodes (h.config.countsBelow hcounts)
      (hfit.congr h.config.sameAnswers) htype (hle.trans hroom) count
    have htake := take_servers_responder (h.config.countsBelow hcounts) htype count d.available
    rw [h.config.responder_eq] at htake
    simp only at hencodes htake
    rw [if_pos henable, if_pos henable, Responder.list]
    simp only [htake, havailable]
    rw [havailable] at hread
    by_cases hnil : ((s.config.activeOf (isIp6Peers type)).take (fittingCount d.available
        (recordSize type) (requestedPeers s.config type count))).map endpoint = []
    · rw [if_pos hnil, hencodes.1 hnil]
      exact h.withConfig hread
    · obtain ⟨hsize, hout, m, hbuffer, hm⟩ := hencodes.2 hnil
      rw [if_neg hnil, hbuffer, hout]
      exact (h.withConfig hread).push hm (hsize.trans hle)
  · rw [if_neg henable, if_neg henable]
    exact h.reject type.code

omit hcounts hfit in
/-- The branch for entropy. -/
theorem answerEntropy (size : UInt8) :
    Drafts c (s.answerEntropy size) (c.responder.draw d size) := by
  obtain ⟨havailable, hle⟩ := h.exists_available hlt hpos
  have hroom := h.room
  have hwanted : (if size = 0 then c.responder.entropySize else size.toNat) =
      requestedEntropy s.config size := by
    rw [requestedEntropy, h.config.sameAnswers.entropySize]
    rfl
  have hencodes := generateEntropyResponse_encodes s.config s.random size (hle.trans hroom)
  simp only [← havailable] at hencodes
  rw [ParseState.answerEntropy, Responder.draw]
  simp only [hwanted, ← h.random]
  by_cases hfull : d.available < 5
  · obtain ⟨hstate, hbuffer⟩ := hencodes.1 hfull
    rw [if_pos hfull, hstate, hbuffer]
    exact h
  · obtain ⟨hstate, hnone, hsome⟩ := hencodes.2 (by omega)
    rw [if_neg hfull, hstate]
    by_cases hnil : s.random.delivered (min (requestedEntropy s.config size) (d.available - 4)) = []
    · rw [if_pos hnil, hnone hnil]
      exact h.withRandom _
    · obtain ⟨hsize, hout, m, hbuffer, hm⟩ := hsome hnil
      rw [if_neg hnil, hbuffer, hout]
      exact (h.withRandom _).push hm (hsize.trans hle)

/-- **Turns.** A turn of the loop answers one message of the request. -/
theorem answer (msgType count : UInt8) :
    Drafts c (s.answer msgType count) (c.responder.answerOne d msgType count) := by
  cases htype : NrpdMsgType.ofCode msgType with
  | none =>
    simp only [ParseState.answer, Responder.answerOne, htype]
    exact h.reject msgType
  | some type =>
    obtain rfl := NrpdMsgType.ofCode_eq_some.1 htype
    cases type <;> simp only [ParseState.answer, Responder.answerOne, htype]
    case ip4peers =>
      exact h.answerPeers hcounts hfit hlt hpos (show isPeersType .ip4peers = true from rfl) count
    case ip6peers =>
      exact h.answerPeers hcounts hfit hlt hpos (show isPeersType .ip6peers = true from rfl) count
    case entropy => exact h.answerEntropy hlt hpos count
    all_goals exact h.reject _

end Turn

/-- **The loop.** It answers the messages of the request. -/
theorem visitAll {pkt : Mem} {os : List ℕ} (h : Drafts c s d) (hcounts : c.CountsBelow)
    (hfit : c.SizesFit) (hend : ∀ o ∈ os, o < endOfPacket pkt)
    (hlt : d.rejected.length + os.length < 256) :
    Drafts c ((parseWalk pkt).visitAll os s) (c.responder.answer (requestsAt pkt os) d) := by
  induction os generalizing s d with
  | nil => exact h
  | cons o os ih =>
    rw [List.length_cons] at hlt
    have havailable := h.available_eq (by omega)
    have hguard : (parseWalk pkt).guard o s = decide (s.available > 0) := by
      simp only [parseWalk, hend o List.mem_cons_self, decide_true, Bool.true_and]
    rw [requestsAt, List.map_cons, Responder.answer]
    by_cases hpos : 0 < s.available
    · have hrejected := Responder.length_rejected_answerOne_le c.responder d (hdrMsgType pkt o)
        (hdrCountOrSize pkt o)
      rw [if_neg (by omega), Walk.visitAll_cons_of_guard _ (hguard.trans (decide_eq_true hpos))]
      exact ih (h.answer hcounts hfit (by omega) hpos _ _)
        (fun o' ho' => hend o' (List.mem_cons_of_mem _ ho')) (by omega)
    · rw [if_pos (by omega),
        Walk.visitAll_cons_of_not_guard _ (hguard.trans (decide_eq_false hpos))]
      exact h

/-- **The end.** The rejections that fit go to the front. -/
theorem pushRejections (h : Drafts c s d) (hlt : d.rejected.length < 256) :
    c.ReadBy s.pushRejections.config ∧ s.pushRejections.random = d.device ∧
      List.Forall₂ Encodes s.pushRejections.msgs d.finish ∧
      s.pushRejections.outMessageLength = encodedSize d.finish := by
  have hlength : s.rejections.length = d.rejected.length := by
    rw [h.rejections, List.length_map]
  have hroom := h.room
  have hentries : (d.rejected.take ((d.room - 4) / 2)).map
      (NrpMessageReject.mk · NrpdRejectReason.unsupported.code) =
      s.rejections.take (fittingCount d.room 2 s.rejections.length) := by
    rw [h.rejections, fittingCount, ← List.map_take, List.length_map, List.take_eq_take_min,
      Nat.min_comm]
  rw [Responder.Draft.finish, hentries]
  by_cases hnil : s.rejections = []
  · have hempty : s.pushRejections = s := by rw [ParseState.pushRejections, hnil]; rfl
    rw [hempty, hnil, List.take_nil, if_pos rfl]
    exact ⟨h.config, h.random, h.messages, h.length⟩
  · have hpush := pushRejections_eq h.remaining hroom hnil (by omega)
    have hpos := List.length_pos_iff.2 hnil
    by_cases hsix : 6 ≤ d.room
    · have hfits := fittingCount_pos Nat.two_pos hpos (show 4 + 2 ≤ d.room by omega)
      have hle : fittingCount d.room 2 s.rejections.length ≤ s.rejections.length :=
        fittingCount_le_messageCount
      have hreasons : ∀ rej ∈ s.rejections, rej.reason < nrpdRejectReasonMax := by
        intro rej hrej
        rw [h.rejections] at hrej
        obtain ⟨msgType, -, rfl⟩ := List.mem_map.1 hrej
        show NrpdRejectReason.unsupported.code < nrpdRejectReasonMax
        decide
      have hencodes := (isRejection_rejectMessage hle (by omega) hreasons).encodes
      have hsome : s.rejections.take (fittingCount d.room 2 s.rejections.length) ≠ [] := by
        rw [ne_eq, ← List.length_eq_zero_iff, List.length_take]
        omega
      have hbytes : (ResponseMessage.reject (s.rejections.take
          (fittingCount d.room 2 s.rejections.length))).bytes.length =
          4 + 2 * fittingCount d.room 2 s.rejections.length := by
        rw [ResponseMessage.length_bytes, ResponseMessage.count, List.length_take,
          Nat.min_eq_left hle, Nat.mul_comm]
        rfl
      rw [if_pos hsix] at hpush
      rw [hpush, if_neg hsome, encodedSize_cons, hbytes]
      refine ⟨h.config, h.random, .cons hencodes h.messages, ?_⟩
      have := h.length
      simp only
      omega
    · have hzero : fittingCount d.room 2 s.rejections.length = 0 := by
        rw [fittingCount, Nat.div_eq_of_lt (by omega), Nat.min_zero]
      rw [if_neg hsix] at hpush
      rw [hpush, hzero, List.take_zero, if_pos rfl]
      exact ⟨h.config, h.random, h.messages, h.length⟩

end Drafts

/-! ### The packet -/

section Packet

variable {bufs : List Mem} {msgs : List ResponseMessage}

/-- **Copied messages.** They are written one behind the other. -/
theorem copyMessages_eq (h : List.Forall₂ Encodes bufs msgs) (a : ℕ) (buffer : Mem) :
    copyMessages bufs (some a) buffer =
      some (buffer.write a (msgs.flatMap ResponseMessage.bytes)) := by
  induction h generalizing a buffer with
  | nil => rw [copyMessages, List.flatMap_nil, Mem.write_nil]
  | @cons buf msg bufs msgs hencodes _ ih =>
    have h4 : 2 ≤ msg.bytes.length := by rw [msg.length_bytes]; omega
    have hread : (buffer.write a msg.bytes).read a msg.bytes.length =
        buf.read 0 msg.bytes.length := by
      rw [Mem.read_write, hencodes.bytes]
    have hnext : nextMessage (buffer.write a msg.bytes) a = a + msg.bytes.length := by
      rw [nextMessage, hdrLength_of_read_eq hread h4, hencodes.length]
    rw [copyMessages, hencodes.length, hencodes.bytes, hnext, ih, Mem.write_append,
      List.flatMap_cons]

/-- **The packet.** The messages stand behind a fresh header, if there are any. -/
theorem assemblePacket_eq (h : List.Forall₂ Encodes bufs msgs) (hcount : msgs.length ≤ 255)
    (hmax : 4 + encodedSize msgs ≤ 65507) (buffer : Mem) :
    assemblePacket buffer (4 + encodedSize msgs : ℕ) bufs =
      some (buffer.write 0 (responseBytes msgs)) := by
  have hlength := h.length_eq
  by_cases hnil : msgs = []
  · subst hnil
    obtain rfl := List.forall₂_nil_right_iff.1 h
    rw [assemblePacket_nil, responseBytes, if_pos rfl, Mem.write_nil]
  · have hpos := List.length_pos_iff.2 hnil
    have hne : UInt8.ofNat bufs.length ≠ 0 := fun hzero => by
      have hbyte : (UInt8.ofNat bufs.length).toNat = bufs.length := by
        rw [UInt8.toNat_ofNat', Nat.mod_eq_of_lt (by omega)]
      rw [hzero, UInt8.toNat_zero] at hbyte
      omega
    have hheader : generatePacketHeader (4 + encodedSize msgs) .response (.ofNat bufs.length)
        (some 0) buffer = (some 4, buffer.write 0 (headerBytes (4 + encodedSize msgs)
          NrpdMsgType.response.code (.ofNat bufs.length))) := by
      simp only [generatePacketHeader]
      rw [if_neg (by simp), if_neg (by simp; omega), if_neg hne]
    have hfour : (headerBytes (4 + encodedSize msgs) NrpdMsgType.response.code
        (.ofNat bufs.length)).length = 4 := length_headerBytes
    rw [assemblePacket, u16_of_lt (by omega) (by omega), Int.toNat_natCast, u8_natCast (by omega),
      hheader, responseBytes, if_neg hnil, ← hlength]
    simp only
    rw [copyMessages_eq h, ← hfour]
    exact congrArg some (Mem.write_append buffer 0 _ _)

end Packet

/-! ### The turn -/

theorem NrpdConfig.CountsBelow.sizesFit {c : NrpdConfig} (h : c.CountsBelow)
    (hactive : c.activeServers.elems.length < 67108864) : c.SizesFit := by
  refine CountsFit.sizesFit ⟨hactive, fun ipv6 => .inr ?_⟩
  have hbelow := h.below ipv6
  have hle : (c.activeOf ipv6).length ≤ c.activeServers.elems.length := List.length_filter_le _ _
  cases ipv6 with
  | false =>
    simp only [sizeofPeer, sizeofIp4Peer, Bool.false_eq_true, if_false]
    omega
  | true =>
    simp only [sizeofPeer, sizeofIp6Peer, if_true]
    omega

theorem mtuFor_mem (srcAddr : SockaddrStorage) : 263 ≤ mtuFor srcAddr ∧ mtuFor srcAddr ≤ 1236 := by
  rw [mtuFor]
  split <;> simp

section Turn

variable {server : NrpdServer} {buffer : Mem} {srcAddr : SockaddrStorage} {clock : SteadyClock}
  {os : List ℕ}

/-- What `ParseMessages` returns is the answer of the responder. -/
theorem parseMessages_refines {c : NrpdConfig} (random : RandomDevice) {mtu : ℕ}
    (hos : IsRequestPacket buffer os) (hcounts : c.CountsBelow) (hfit : c.SizesFit)
    (hmin : 263 ≤ mtu) (hmax : mtu ≤ 1236) :
    let answer := c.responder.respond mtu random (requestsAt buffer os)
    ∃ s, parseMessages buffer mtu c random = some (true, s) ∧ c.ReadBy s.config ∧
      s.random = answer.2 ∧ List.Forall₂ Encodes s.msgs answer.1 ∧
      s.outMessageLength = encodedSize answer.1 ∧ 4 + encodedSize answer.1 ≤ mtu ∧
      answer.1.length ≤ 255 := by
  have hlt := hos.length_lt
  have hend : ∀ o ∈ os, o < endOfPacket buffer := fun o ho => by
    have hbounds := hos.bounds o ho
    rw [endOfPacket]
    omega
  have hloop := (Drafts.start c random (show 4 ≤ mtu by omega) hmax).visitAll hcounts hfit hend
    (by simpa using hlt)
  have hrejected : (c.responder.answer (requestsAt buffer os)
      ⟨mtu - 4, [], [], random⟩).rejected.length < 256 := by
    have hle := Responder.length_rejected_answer_le c.responder (requestsAt buffer os)
      ⟨mtu - 4, [], [], random⟩
    rw [requestsAt, List.length_map] at hle
    exact (hle.trans (Nat.le_of_eq (Nat.zero_add _))).trans_lt hlt
  obtain ⟨hread, hrandom, hmessages, hlength⟩ := hloop.pushRejections hrejected
  have hlow : (263 : ℤ) ≤ mtu := by omega
  have hhigh : (mtu : ℤ) ≤ 1236 := by omega
  have hparse := parseMessages_eq (c := c) random hos hlow
  obtain ⟨s, hparse', hreply⟩ := parseMessages_spec random hos hfit hlow hhigh
  obtain rfl : _ = s := (Prod.mk.inj (Option.some.inj (hparse.symm.trans hparse'))).2
  refine ⟨_, hparse, hread, hrandom, hmessages, hlength, ?_, ?_⟩
  · have hfits := hreply.fits
    rw [hlength] at hfits
    exact_mod_cast hfits
  · exact hmessages.length_eq.symm.le.trans hreply.count

/-- **The server is a responder.** For a request of a client that is not a recent one, `ServerLoop`
sends the messages of the responder behind a fresh header; when there are none, it sends the first
four bytes of the request. The random device is left where the responder leaves it, and of the
configuration only the cached counts may be new. -/
theorem serverTurn_refines (hos : IsRequestPacket buffer os) (hcounts : server.config.CountsBelow)
    (hactive : server.config.activeServers.elems.length < 67108864)
    (hnew : (server.recentClients.isPresentAdd srcAddr clock).response = false) :
    let recent := server.recentClients.isPresentAdd srcAddr clock
    let answer := server.config.responder.respond (mtuFor srcAddr).toNat server.random
      (requestsAt buffer os)
    ∃ config, server.config.ReadBy config ∧ 4 + encodedSize answer.1 ≤ (mtuFor srcAddr).toNat ∧
      serverTurn server buffer srcAddr clock =
        some (.sent (buffer.write 0 (responseBytes answer.1)) (4 + encodedSize answer.1 : ℕ),
          ⟨recent.cache, config, answer.2, mtuFor srcAddr⟩, recent.clock) := by
  have hvalid := validateRequestPacket_iff.2 ⟨os, hos⟩
  obtain ⟨hmin, hmax⟩ := mtuFor_mem srcAddr
  have hcast : ((mtuFor srcAddr).toNat : ℤ) = mtuFor srcAddr := Int.toNat_of_nonneg (by omega)
  obtain ⟨s, hparse, hread, hrandom, hmessages, hlength, hfits, hcount⟩ := parseMessages_refines
    server.random hos hcounts (hcounts.sizesFit hactive)
    (show 263 ≤ (mtuFor srcAddr).toNat by omega) (by omega)
  rw [hcast] at hparse
  have hpacket := assemblePacket_eq hmessages hcount (by omega) buffer
  have hsum : s.outMessageLength + (nrpPacketHeaderSize : ℤ) =
      (4 + encodedSize (server.config.responder.respond (mtuFor srcAddr).toNat server.random
        (requestsAt buffer os)).1 : ℕ) := by
    rw [hlength]
    push_cast
    omega
  refine ⟨s.config, hread, hfits, ?_⟩
  simp only [serverTurn, hvalid, hnew, hparse, sendPacket, hsum, hpacket, Option.bind_eq_bind,
    Option.bind_some, Bool.not_true, Bool.false_eq_true, if_false, ← hrandom]
  rw [if_pos (by omega)]

end Turn

end Nrpd
