import Nrpd.Server.Replies

/-!
# The packet of an answer

The packet that `ServerLoop` sends: a fresh header, and the messages behind it in their order. When
there is no message, no header is written, and what is sent is the start of the request.

## Main definitions

* `Holds`: a buffer holds a message at an offset.
* `HasResponseHeader`: a packet starts with a response header for the messages that follow.

## Main results

* `copyMessages_spec`, `assemblePacket_spec`: the messages in the packet.
-/

namespace Nrpd

open FixedWidth FuelLoop Segments

/-! ### Copied messages -/

/-- A buffer holds a message at an offset. -/
def Holds (buffer : Mem) (o : ℕ) (m : Mem) : Prop :=
  buffer.read o (hdrLength m 0) = m.read 0 (hdrLength m 0)

section Copy

variable {buffer : Mem} {msgs : List Mem}

theorem Holds.hdrLength_eq {o : ℕ} {m : Mem} (h : Holds buffer o m) (h4 : 4 ≤ hdrLength m 0) :
    hdrLength buffer o = hdrLength m 0 :=
  hdrLength_of_read_eq h (by omega)

/-- **Copied messages.** The messages lie behind each other in their order, and nothing before them
is changed. -/
theorem copyMessages_spec (buffer : Mem) (a : ℕ) (hmsgs : ∀ m ∈ msgs, 4 ≤ hdrLength m 0) :
    ∃ buffer' os, copyMessages msgs (some a) buffer = some buffer' ∧
      buffer'.AgreeOn buffer 0 a ∧ List.Forall₂ (Holds buffer') os msgs ∧
      Tiles (hdrLength buffer') a os (a + (msgs.map (hdrLength · 0)).sum) := by
  induction msgs generalizing buffer a with
  | nil => exact ⟨buffer, [], rfl, fun _ _ _ => rfl, .nil, .nil a⟩
  | cons m msgs ih =>
    have h4 : 4 ≤ hdrLength m 0 := hmsgs m List.mem_cons_self
    set written := buffer.write a (m.read 0 (hdrLength m 0)) with hwritten
    have hholds : Holds written a m := by
      have := Mem.read_write buffer a (m.read 0 (hdrLength m 0))
      rwa [Mem.length_read] at this
    have hnext : nextMessage written a = a + hdrLength m 0 := by
      rw [nextMessage, hholds.hdrLength_eq h4]
    obtain ⟨buffer', os, hcopy, hagree, hall, htiles⟩ := ih written (a + hdrLength m 0)
      fun m' hm' => hmsgs m' (List.mem_cons_of_mem _ hm')
    have hholds' : Holds buffer' a m :=
      (hagree.read (Nat.zero_le a) (Nat.le_refl _)).trans hholds
    have hlength := hholds'.hdrLength_eq h4
    refine ⟨buffer', a :: os, ?_, fun i h0 hi => ?_, .cons hholds' hall, ?_⟩
    · rw [copyMessages, ← hwritten, hnext, hcopy]
    · rw [hagree i h0 (by omega), hwritten, Mem.write_of_notMem (.inl hi)]
    · rw [List.map_cons, List.sum_cons, ← Nat.add_assoc]
      rw [← hlength] at htiles ⊢
      exact .cons (by omega) htiles

end Copy

/-! ### The packet -/

/-- A packet of `n` bytes starts with a response header for the messages that follow. -/
structure HasResponseHeader (packet : Mem) (n : ℤ) : Prop where
  type_eq : pktMsgType packet = NrpdMsgType.response.code
  length_eq : (pktLength packet : ℤ) = n
  count_pos : 1 ≤ (pktMsgCount packet).toNat
  messages : ∃ os, os.length = (pktMsgCount packet).toNat ∧
    Tiles (hdrLength packet) pktMessages os (pktLength packet)

section Assemble

variable {buffer : Mem} {msgs : List Mem}

/-- Without a message the buffer is left as it is. -/
theorem assemblePacket_nil (messageLength : ℤ) :
    assemblePacket buffer messageLength [] = some buffer := by
  simp only [assemblePacket, List.length_nil, generatePacketHeader]
  split_ifs <;> simp_all [copyMessages, u8]

/-- **The packet.** It has a header for the messages, which follow in their order. -/
theorem assemblePacket_spec (buffer : Mem) {messageLength : ℕ} (hne : msgs ≠ [])
    (hcount : msgs.length ≤ 255)
    (hmsgs : ∀ m ∈ msgs, 4 ≤ hdrLength m 0)
    (hlength : messageLength = 4 + (msgs.map (hdrLength · 0)).sum) (hmax : messageLength ≤ 65507) :
    ∃ packet os, assemblePacket buffer messageLength msgs = some packet ∧
      pktMsgType packet = NrpdMsgType.response.code ∧ pktLength packet = messageLength ∧
      (pktMsgCount packet).toNat = os.length ∧ os.length = msgs.length ∧
      List.Forall₂ (Holds packet) os msgs ∧ Tiles (hdrLength packet) 4 os messageLength := by
  have hpos := List.length_pos_iff.2 hne
  have hbyte : (UInt8.ofNat msgs.length).toNat = msgs.length := by
    rw [UInt8.toNat_ofNat', Nat.mod_eq_of_lt (by omega)]
  have hcountne : UInt8.ofNat msgs.length ≠ 0 := fun h => by
    rw [h] at hbyte
    exact hpos.ne hbyte
  have hu16 : u16 messageLength = messageLength := by
    rw [u16_of_lt (by omega) (by omega), Int.toNat_natCast]
  have hheader : generatePacketHeader (u16 messageLength) .response (.ofNat (u8 msgs.length))
      (some 0) buffer = (some 4, buffer.write 0
        (headerBytes messageLength NrpdMsgType.response.code (.ofNat msgs.length))) := by
    rw [hu16, u8_natCast (by omega), generatePacketHeader, if_neg (by simp),
      if_neg (by simp; omega),
      if_neg hcountne]
  obtain ⟨packet, os, hcopy, hagree, hall, htiles⟩ := copyMessages_spec (buffer.write 0
    (headerBytes messageLength NrpdMsgType.response.code (.ofNat msgs.length))) 4 hmsgs
  have hos := hall.length_eq
  refine ⟨packet, os, ?_, ?_, ?_, ?_, hos, hall, by rwa [hlength]⟩
  · rw [assemblePacket, hheader, hcopy]
  · exact (hdrMsgType_congr hagree (Nat.le_refl 0) (by omega)).trans hdrMsgType_write_headerBytes
  · exact (hdrLength_congr hagree (Nat.le_refl 0) (by omega)).trans
      (hdrLength_write_headerBytes (by omega))
  · have hread : pktMsgCount packet = UInt8.ofNat msgs.length :=
      (hdrCountOrSize_congr hagree (Nat.le_refl 0)
        (by omega)).trans hdrCountOrSize_write_headerBytes
    rw [hread, hbyte, hos]

end Assemble

/-! ### The packet of a reply -/

section Reply

variable {pkt packet : Mem} {c : NrpdConfig} {random : RandomDevice} {mtu : ℤ} {os : List ℕ}
  {s : ParseState} {msgs : List Mem}

theorem IsReply.hdrLength_ge (h : IsReply pkt c random mtu os s) :
    ∀ m ∈ s.msgs, 4 ≤ hdrLength m 0 := by
  intro m hm
  rcases h.reject_or_answer hm with ⟨entries, -, -, hrejection⟩ | ⟨hanswer, -⟩
  · rw [hrejection.length]
    omega
  · exact hanswer.hdrLength_ge

/-- The packet of a reply with messages. -/
theorem IsReply.assemblePacket (h : IsReply pkt c random mtu os s) (hmax : mtu ≤ 1236)
    (hne : s.msgs ≠ []) (buffer : Mem) :
    ∃ packet os', Nrpd.assemblePacket buffer (s.outMessageLength + 4) s.msgs = some packet ∧
      pktMsgType packet = NrpdMsgType.response.code ∧
      (pktLength packet : ℤ) = s.outMessageLength + 4 ∧ pktLength packet ≤ 65507 ∧
      os'.length = (pktMsgCount packet).toNat ∧ 1 ≤ os'.length ∧
      Tiles (hdrLength packet) pktMessages os' (pktLength packet) ∧
      List.Forall₂ (Holds packet) os' s.msgs := by
  have hfits := h.fits
  have hlength := h.length
  have hpos := List.length_pos_iff.2 hne
  obtain ⟨packet, os', hpacket, htype, hlen, hcount, hos', hall, htiles⟩ :=
    assemblePacket_spec buffer
    hne h.count h.hdrLength_ge (show 4 + (s.msgs.map (hdrLength · 0)).sum = _ from rfl) (by omega)
  have hcast : s.outMessageLength + 4 = ((4 + (s.msgs.map (hdrLength · 0)).sum : ℕ) : ℤ) := by
    omega
  refine ⟨packet, os', by rw [hcast, hpacket], htype, by omega, by omega, hcount.symm, by omega,
    by rwa [hlen], hall⟩

/-! ### The header that is sent -/

/-- Some message of a request brings an answer: a message of a type that is rejected, one for peers
of a family with active servers, or one for entropy when the device delivers some. -/
def BringsReply (c : NrpdConfig) (random : RandomDevice) (pkt : Mem) : Prop :=
  ∃ os, IsRequestPacket pkt os ∧ productive c pkt os random = true

theorem bringsReply_iff (hos : IsRequestPacket pkt os) :
    BringsReply c random pkt ↔ productive c pkt os random = true := by
  constructor
  · rintro ⟨os', hos', hproductive⟩
    rwa [hos.tiles.unique hos'.tiles]
  · exact fun h => ⟨os, hos, h⟩

/-- The packet of a reply fits the MTU, and is sent. -/
theorem IsReply.sendPacket_of_assemblePacket (h : IsReply pkt c random mtu os s) (buffer : Mem)
    (hpacket : Nrpd.assemblePacket buffer (s.outMessageLength + 4) s.msgs = some packet) :
    Nrpd.sendPacket buffer mtu s = .sent packet (s.outMessageLength + 4) := by
  have hfits := h.fits
  have hle : s.outMessageLength + nrpPacketHeaderSize ≤ mtu := by simp; omega
  simp only [Nrpd.sendPacket, if_pos hle]
  rw [show s.outMessageLength + ((nrpPacketHeaderSize : ℕ) : ℤ) = s.outMessageLength + 4 from rfl,
    hpacket]

/-- What is sent for a reply. -/
theorem IsReply.sendPacket (h : IsReply pkt c random mtu os s) (hmax : mtu ≤ 1236) (buffer : Mem) :
    (s.msgs = [] → Nrpd.sendPacket buffer mtu s = .sent buffer 4) ∧
      (s.msgs ≠ [] →
        ∃ packet, Nrpd.sendPacket buffer mtu s = .sent packet (s.outMessageLength + 4) ∧
        HasResponseHeader packet (s.outMessageLength + 4)) := by
  constructor
  · intro hnil
    have hzero : s.outMessageLength = 0 := by rw [h.length, hnil]; rfl
    have hsent := h.sendPacket_of_assemblePacket buffer
      (by rw [hnil, assemblePacket_nil])
    rwa [hzero] at hsent
  · intro hne
    obtain ⟨packet, os', hpacket, htype, hlen, -, hcount, hpos, htiles, -⟩ :=
      h.assemblePacket hmax hne buffer
    exact ⟨packet, h.sendPacket_of_assemblePacket buffer hpacket, htype, hlen, by omega, os',
      hcount, htiles⟩

/-- **What is sent.** What `ServerLoop` sends starts with a response header for the messages that
follow if and only if some message of the request brings an answer. -/
theorem serverTurn_hasResponseHeader_iff {server : NrpdServer} {buffer : Mem}
    {srcAddr : SockaddrStorage} {clock : SteadyClock} {n : ℤ} {left : NrpdServer × SteadyClock}
    (hfit : server.config.SizesFit)
    (hsent : serverTurn server buffer srcAddr clock = some (.sent packet n, left)) :
    HasResponseHeader packet n ↔ BringsReply server.config server.random buffer := by
  obtain ⟨valid, hvalid, hturn⟩ := Option.bind_eq_some_iff.1 hsent
  cases valid with
  | false => simp at hturn
  | true =>
    obtain ⟨os, hos⟩ := validateRequestPacket_iff.1 hvalid
    have hrange : 263 ≤ mtuFor srcAddr ∧ mtuFor srcAddr ≤ 1236 := by
      rw [mtuFor]
      split <;> simp
    obtain ⟨s, hparse, hreply⟩ :=
      parseMessages_spec server.random hos hfit hrange.1 hrange.2
    obtain ⟨hnone, hsome⟩ := hreply.sendPacket hrange.2 buffer
    simp only [Bool.not_true, Bool.false_eq_true, if_false] at hturn
    split at hturn
    · simp at hturn
    · rw [hparse] at hturn
      simp only [Option.bind_eq_bind, Option.bind_some, Bool.not_true, Bool.false_eq_true, if_false,
        Option.some.injEq, Prod.mk.injEq] at hturn
      rw [bringsReply_iff hos, ← hreply.nonempty]
      by_cases hmsgs : s.msgs = []
      · obtain ⟨rfl, rfl⟩ : buffer = packet ∧ 4 = n := by
          simpa [hnone hmsgs] using hturn.1
        refine iff_of_false (fun h => ?_) (not_not.2 hmsgs)
        exact absurd (hos.type_eq.symm.trans h.type_eq) (by decide)
      · obtain ⟨packet', hsend, hheader⟩ := hsome hmsgs
        obtain ⟨rfl, rfl⟩ : packet' = packet ∧ s.outMessageLength + 4 = n := by
          simpa [hsend] using hturn.1
        exact iff_of_true hheader hmsgs

/-- A server with a new configuration, which has no servers, and a device that cannot be read. -/
def newServer : NrpdServer × SteadyClock :=
  initializeServer (NrpdConfig.new true true ⟨fun _ => 0, 0⟩).1 ⟨fun _ _ => none, 0⟩ ⟨fun _ => 0, 0⟩

theorem delivers_steadyDevice : steadyDevice.Delivers := by
  intro k n hpos
  refine ⟨_, rfl, fun hnil => ?_⟩
  have := congrArg List.length hnil
  simp at this
  omega

/-- A request for a signing key. -/
def signkeyRequest : Mem := fun a => [0, 8, 1, 1, 0, 4, 8, 0].getD a 0

theorem isRequestPacket_signkeyRequest : IsRequestPacket signkeyRequest [4] where
  length_le := by decide
  type_eq := by decide
  count_pos := by decide
  count_eq := by decide
  tiles := .cons (by decide) (.nil 8)
  messages o ho := by
    obtain rfl := List.mem_singleton.1 ho
    exact .other (by decide) (by decide)

/-- A request for a signing key is answered with a rejection. -/
theorem serverTurn_hasResponseHeader_example :
    ∃ packet n left, serverTurn newServer.1 signkeyRequest (.inet #v[10, 0, 0, 1] 8080)
        newServer.2 = some (.sent packet n, left) ∧ HasResponseHeader packet n := by
  obtain ⟨packet, n, left, hsent⟩ : ∃ packet n left, serverTurn newServer.1 signkeyRequest
      (.inet #v[10, 0, 0, 1] 8080) newServer.2 = some (.sent packet n, left) := ⟨_, _, _, rfl⟩
  have hcounts : newServer.1.config.CountsFit :=
    ⟨by decide, fun ipv6 => .inl (by cases ipv6 <;> decide)⟩
  exact ⟨packet, n, left, hsent, (serverTurn_hasResponseHeader_iff hcounts.sizesFit hsent).2
    ⟨[4], isRequestPacket_signkeyRequest, by decide⟩⟩

/-- Without active servers, a request for peers alone is answered with its own header. -/
theorem serverTurn_echoes :
    ∃ packet left, validateRequestPacket ip6Request = some true ∧
      serverTurn newServer.1 ip6Request (.inet #v[10, 0, 0, 1] 8080) newServer.2 =
        some (.sent packet 4, left) ∧
      pktMsgType packet = NrpdMsgType.request.code ∧ ¬ HasResponseHeader packet 4 := by
  refine ⟨_, _, by decide, rfl, by decide, fun h => ?_⟩
  exact absurd h.type_eq (by decide)

/-! ### The validator and the packet -/

/-- The reject messages among the messages name known types only. -/
def RejectsKnownTypes (msgs : List Mem) : Prop :=
  ∀ m ∈ msgs, hdrMsgType m 0 = NrpdMsgType.reject.code →
    ∀ i < (hdrCountOrSize m 0).toNat, (rejectEntryAt m (4 + 2 * i)).msgType < nrpdMsgTypeMax

/-- A rejection of a request is an entry of the grammar when it names a known type. -/
theorem isRejectEntry_iff_of_mem_rejectionsOf (hos : IsRequestPacket pkt os)
    {rej : NrpMessageReject} (hrej : rej ∈ rejectionsOf c pkt os) :
    IsRejectEntry rej ↔ rej.msgType < nrpdMsgTypeMax := by
  obtain ⟨msgType, hmem, rfl⟩ := List.mem_map.1 hrej
  obtain ⟨hmem, hrejects⟩ := List.mem_filter.1 hmem
  obtain ⟨o, ho, rfl⟩ := List.mem_map.1 hmem
  have hmin : ¬ hdrMsgType pkt o < requestMsgMin := by
    rw [UInt8.lt_iff_toNat_lt]
    exact Nat.not_lt.2 (hos.msgType_ge o ho)
  have hentropy : hdrMsgType pkt o ≠ NrpdMsgType.entropy.code := by
    intro h
    rw [h] at hrejects
    exact absurd hrejects (by simp [rejectsType])
  rw [isRejectEntry_iff]
  simp only [hmin, hentropy, or_false]
  exact ⟨fun h => UInt8.not_le.1 h.1, fun h => ⟨UInt8.not_le.2 h, by decide⟩⟩

/-- The messages of a reply are those of the grammar when the rejections name known types. -/
theorem IsReply.forall_isResponseMessage_iff (h : IsReply pkt c random mtu os s)
    (hos : IsRequestPacket pkt os) :
    (∀ m ∈ s.msgs, IsResponseMessage m 0) ↔ RejectsKnownTypes s.msgs := by
  refine forall₂_congr fun m hm => ?_
  rcases h.reject_or_answer hm with ⟨entries, hne, hleading, hrejection⟩ | ⟨hanswer, htype⟩
  · rw [hrejection.isResponseMessage_iff hne, List.forall_mem_iff_getElem, hrejection.count]
    simp only [hrejection.msgType, true_imp_iff]
    refine forall₂_congr fun i hi => ?_
    rw [hrejection.entry i hi]
    exact isRejectEntry_iff_of_mem_rejectionsOf hos (hleading.subset (List.getElem_mem hi))
  · exact iff_of_true hanswer fun hreject => absurd hreject htype

/-- A request of known types gets rejections of known types. -/
theorem IsReply.rejectsKnownTypes (h : IsReply pkt c random mtu os s)
    (hknown : ∀ o ∈ os, hdrMsgType pkt o < nrpdMsgTypeMax) : RejectsKnownTypes s.msgs := by
  intro m hm hreject i hi
  rcases h.reject_or_answer hm with ⟨entries, -, hleading, hrejection⟩ | ⟨-, htype⟩
  · rw [hrejection.count] at hi
    rw [hrejection.entry i hi]
    obtain ⟨msgType, hmem, hentry⟩ := List.mem_map.1 (hleading.subset (List.getElem_mem hi))
    obtain ⟨o, ho, rfl⟩ := List.mem_map.1 (List.mem_of_mem_filter hmem)
    rw [← hentry]
    exact hknown o ho
  · exact absurd hreject htype

theorem Holds.isResponseMessage_iff {buffer m : Mem} {o : ℕ} (h : Holds buffer o m)
    (h4 : 4 ≤ hdrLength m 0) : IsResponseMessage buffer o ↔ IsResponseMessage m 0 := by
  have hlength := h.hdrLength_eq h4
  exact ⟨fun hmsg => hmsg.congr (by rw [hlength]; exact h), fun hmsg => hmsg.congr h.symm⟩

/-- Messages that a buffer holds are those of the grammar when they are so in the buffer. -/
theorem forall_isResponseMessage_iff_of_holds {buffer : Mem} {os' : List ℕ}
    (h : List.Forall₂ (Holds buffer) os' msgs) (h4 : ∀ m ∈ msgs, 4 ≤ hdrLength m 0) :
    (∀ o ∈ os', IsResponseMessage buffer o) ↔ ∀ m ∈ msgs, IsResponseMessage m 0 := by
  induction h with
  | nil => simp
  | cons hholds hall ih =>
    rw [List.forall_mem_cons] at h4
    rw [List.forall_mem_cons, List.forall_mem_cons, hholds.isResponseMessage_iff h4.1, ih h4.2]

/-- **Server and validator.** The packet of a reply with messages is accepted by the validator of
responses if and only if its reject message names known types only. -/
theorem IsReply.validateResponsePacket_iff (h : IsReply pkt c random mtu os s)
    (hos : IsRequestPacket pkt os) (hmax : mtu ≤ 1236) (hne : s.msgs ≠ []) (buffer : Mem) :
    ∃ packet, Nrpd.assemblePacket buffer (s.outMessageLength + 4) s.msgs = some packet ∧
      (validateResponsePacket packet = some true ↔ RejectsKnownTypes s.msgs) := by
  obtain ⟨packet, os', hpacket, htype, -, hle, hcount, hpos, htiles, hall⟩ :=
    h.assemblePacket hmax hne buffer
  refine ⟨packet, hpacket, ?_⟩
  rw [Nrpd.validateResponsePacket_iff, ← h.forall_isResponseMessage_iff hos,
    ← forall_isResponseMessage_iff_of_holds hall h.hdrLength_ge]
  constructor
  · rintro ⟨os'', hos''⟩
    rw [htiles.unique hos''.tiles]
    exact hos''.messages
  · exact fun hmessages => ⟨os', hle, htype, by omega, hcount, htiles, hmessages⟩

/-- **Accepted answers.** As long as the sizes of peers messages are in range, the packet that is
assembled for a request is accepted by the validator of responses if and only if its reject message
names known types only, which is so when all types of the request are known. -/
theorem assemblePacket_accepted_iff (hvalid : validateRequestPacket pkt = some true)
    (hmtu : mtu = maxIp4PacketSize ∨ mtu = maxIp6PacketSize) (hfit : c.SizesFit)
    (hparse : parseMessages pkt mtu c random = some (true, s)) (hne : s.msgs ≠ []) :
    ∃ packet, assemblePacket pkt (s.outMessageLength + 4) s.msgs = some packet ∧
      (validateResponsePacket packet = some true ↔ RejectsKnownTypes s.msgs) ∧
      ((∀ os, IsRequestPacket pkt os → ∀ o ∈ os, hdrMsgType pkt o < nrpdMsgTypeMax) →
        validateResponsePacket packet = some true) := by
  obtain ⟨os, hos⟩ := validateRequestPacket_iff.1 hvalid
  have hrange : 263 ≤ mtu ∧ mtu ≤ 1236 := by
    rcases hmtu with rfl | rfl <;> simp
  obtain ⟨s', hparse', hreply⟩ := parseMessages_spec random hos hfit hrange.1 hrange.2
  obtain rfl : s = s' := by simpa [hparse] using hparse'
  obtain ⟨packet, hpacket, hiff⟩ := hreply.validateResponsePacket_iff hos hrange.2 hne pkt
  exact ⟨packet, hpacket, hiff, fun hknown => hiff.2 (hreply.rejectsKnownTypes (hknown os hos))⟩

/-- The answer to a request for a signing key is accepted. -/
theorem assemblePacket_accepted_example :
    ∃ s packet, parseMessages signkeyRequest maxIp4PacketSize newServer.1.config
        newServer.1.random = some (true, s) ∧
      assemblePacket signkeyRequest (s.outMessageLength + 4) s.msgs = some packet ∧
      validateResponsePacket packet = some true := by
  obtain ⟨s, hs, hne⟩ : ∃ s, parseMessages signkeyRequest maxIp4PacketSize newServer.1.config
      newServer.1.random = some (true, s) ∧ s.msgs ≠ [] := ⟨_, rfl, List.cons_ne_nil _ _⟩
  have hcounts : newServer.1.config.CountsFit :=
    ⟨by decide, fun ipv6 => .inl (by cases ipv6 <;> decide)⟩
  obtain ⟨packet, hpacket, -, haccepted⟩ :=
    assemblePacket_accepted_iff (by decide) (.inl rfl) hcounts.sizesFit hs hne
  refine ⟨s, packet, hs, hpacket, haccepted fun os hos => ?_⟩
  rw [hos.tiles.unique isRequestPacket_signkeyRequest.tiles]
  decide

/-- A message of an unknown type is rejected as unsupported, and the validator of responses does not
accept the rejection; nor does it accept an answer with a peers message whose size has wrapped
round. -/
theorem assemblePacket_refused :
    (∃ s packet, validateRequestPacket (fun a => [0, 8, 1, 1, 0, 4, 11, 0].getD a 0) = some true ∧
      parseMessages (fun a => [0, 8, 1, 1, 0, 4, 11, 0].getD a 0) maxIp4PacketSize
        newServer.1.config newServer.1.random = some (true, s) ∧ s.msgs ≠ [] ∧
      assemblePacket (fun a => [0, 8, 1, 1, 0, 4, 11, 0].getD a 0) (s.outMessageLength + 4)
        s.msgs = some packet ∧
      validateResponsePacket packet = some false) ∧
    ∃ s packet, validateRequestPacket ip6Request = some true ∧
      parseMessages ip6Request maxIp6PacketSize overcountingConfig newServer.1.random =
        some (true, s) ∧ s.msgs ≠ [] ∧
      assemblePacket ip6Request (s.outMessageLength + 4) s.msgs = some packet ∧
      validateResponsePacket packet = some false :=
  ⟨⟨_, _, by decide, rfl, List.cons_ne_nil _ _, rfl, by decide⟩,
    ⟨_, _, by decide, rfl, List.cons_ne_nil _ _, rfl, by decide⟩⟩

end Reply

end Nrpd
