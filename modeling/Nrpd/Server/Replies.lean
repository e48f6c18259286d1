import Nrpd.Config.Rotation
import Nrpd.Server.Accounting

/-!
# Replies

What `ParseMessages` returns. The rejections that fit are the entries of one reject message, which
goes to the front; the messages behind it are those of the loop.

## Main definitions

* `IsRejection`: a reject message with given entries.
* `IsReply`: what `ParseMessages` returns for a request.

## Main results

* `isRejection_rejectMessage`: the message that is built.
* `IsRejection.isResponseMessage_iff`: when it is one of the grammar.
* `parseMessages_spec`: `ParseMessages` returns a reply.
* `parseMessages_accounts`: its messages, their sizes and their order.
-/

namespace Nrpd

open FixedWidth FuelLoop Segments

/-! ### The reject message -/

/-- A reject message with given entries. -/
structure IsRejection (m : Mem) (entries : List NrpMessageReject) : Prop where
  msgType : hdrMsgType m 0 = NrpdMsgType.reject.code
  count : (hdrCountOrSize m 0).toNat = entries.length
  length : hdrLength m 0 = 4 + 2 * entries.length
  entry : ∀ (i : ℕ) (h : i < entries.length), rejectEntryAt m (4 + 2 * i) = entries[i]

section RejectMessage

variable {rejections entries : List NrpMessageReject} {m : Mem}

/-- The entries are written behind each other, and nothing before them is changed. -/
private theorem writeRejections_spec {p j : ℕ}
    (hreasons : ∀ rej ∈ rejections, rej.reason < nrpdRejectReasonMax) :
    (writeRejections (p + 2 * j) rejections (some p, m)).AgreeOn m 0 p ∧
      ∀ (i : ℕ) (h : i < (rejections.take j).length),
        rejectEntryAt (writeRejections (p + 2 * j) rejections (some p, m)) (p + 2 * i) =
          (rejections.take j)[i] := by
  induction rejections generalizing p j m with
  | nil => exact ⟨fun _ _ _ => rfl, fun i h => by simp at h⟩
  | cons rej rejections ih =>
    cases j with
    | zero =>
      have hstop : writeRejections (p + 2 * 0) (rej :: rejections) (some p, m) = m := by
        simp [writeRejections]
      rw [hstop]
      exact ⟨fun _ _ _ => rfl, fun i h => by simp at h⟩
    | succ j =>
      have hreason : ¬ rej.reason ≥ nrpdRejectReasonMax :=
        UInt8.not_le.2 (hreasons rej List.mem_cons_self)
      have hnext : nextMessageBy p sizeofReject = p + 2 := rfl
      have hstep : writeRejections (p + 2 * (j + 1)) (rej :: rejections) (some p, m) =
          writeRejections (p + 2 + 2 * j) rejections
            (some (p + 2), m.write p [rej.msgType, rej.reason]) := by
        have hgo : ¬ p ≥ p + 2 * (j + 1) := by omega
        rw [writeRejections, Option.any_some, decide_eq_false hgo, generateRejectMessage,
          if_neg hreason, hnext, show p + 2 * (j + 1) = p + 2 + 2 * j by omega]
        rfl
      obtain ⟨hagree, hentries⟩ := ih (p := p + 2) (j := j)
        (m := m.write p [rej.msgType, rej.reason])
        fun r hr => hreasons r (List.mem_cons_of_mem _ hr)
      rw [hstep]
      refine ⟨fun i h0 hi => ?_, fun i hi => ?_⟩
      · rw [hagree i h0 (by omega), Mem.write_of_notMem (.inl hi)]
      · cases i with
        | zero =>
          have h0 : m.write p [rej.msgType, rej.reason] p = rej.msgType :=
            Mem.write_of_lt (i := 0) (by simp)
          have h1 : m.write p [rej.msgType, rej.reason] (p + 1) = rej.reason :=
            Mem.write_of_lt (i := 1) (by simp)
          rw [show p + 2 * 0 = p from rfl, rejectEntryAt, hagree p (by omega) (by omega),
            hagree (p + 1) (by omega) (by omega), h0, h1]
          rfl
        | succ i =>
          rw [show p + 2 * (i + 1) = p + 2 + 2 * i by omega, hentries i (by simp at hi ⊢; omega)]
          rfl

/-- **The reject message.** It has as many of the rejections as its count says. -/
theorem isRejection_rejectMessage {k : ℕ} (hk : k ≤ rejections.length) (hlt : k < 256)
    (hreasons : ∀ rej ∈ rejections, rej.reason < nrpdRejectReasonMax) :
    IsRejection (rejectMessage rejections k) (rejections.take k) := by
  have hbyte : (UInt8.ofNat k).toNat = k := by rw [UInt8.toNat_ofNat', Nat.mod_eq_of_lt hlt]
  have hstop : nextMessageBy 0 (u16 (nrpMessageHeaderSize + k * sizeofReject)) = 4 + 2 * k := by
    have hsize : u16 (nrpMessageHeaderSize + k * sizeofReject) = 4 + 2 * k := by
      rw [u16_of_lt (by simp; omega) (by simp; omega)]
      simp
      omega
    rw [hsize, nextMessageBy, u16_of_lt (by omega) (by omega)]
    omega
  have hmessage : rejectMessage rejections k = writeRejections (4 + 2 * k) rejections
      (some 4, Mem.zero.write 0
        (headerBytes (4 + 2 * k) NrpdMsgType.reject.code (.ofNat k))) := by
    rw [rejectMessage, hstop, u8_natCast hlt, generateRejectHeader, hbyte]
  obtain ⟨hagree, hentries⟩ := writeRejections_spec (p := 4) (j := k) (m := Mem.zero.write 0
    (headerBytes (4 + 2 * k) NrpdMsgType.reject.code (.ofNat k))) hreasons
  have hlength : (rejections.take k).length = k := by rw [List.length_take, Nat.min_eq_left hk]
  rw [hmessage]
  refine ⟨?_, ?_, ?_, hentries⟩
  · rw [hdrMsgType_congr hagree (Nat.le_refl 0) (by omega), hdrMsgType_write_headerBytes]
  · rw [hdrCountOrSize_congr hagree (Nat.le_refl 0) (by omega), hdrCountOrSize_write_headerBytes,
      hbyte, hlength]
  · rw [hdrLength_congr hagree (Nat.le_refl 0) (by omega), hdrLength_write_headerBytes (by omega),
      hlength]

/-- A reject message is one of the grammar when all of its entries are. -/
theorem IsRejection.isResponseMessage_iff (h : IsRejection m entries) (hne : entries ≠ []) :
    IsResponseMessage m 0 ↔ ∀ rej ∈ entries, IsRejectEntry rej := by
  have hpos := List.length_pos_iff.2 hne
  have hget : (∀ i < (hdrCountOrSize m 0).toNat, IsRejectEntry (rejectEntryAt m (0 + 4 + 2 * i))) ↔
      ∀ rej ∈ entries, IsRejectEntry rej := by
    rw [h.count, List.forall_mem_iff_getElem]
    simp only [Nat.zero_add]
    exact forall_congr' fun i => forall_congr' fun hi => by rw [h.entry i hi]
  rw [← hget]
  constructor
  · rintro (⟨-, -, -, hentries⟩ | ⟨htype, -⟩ | ⟨htype, -⟩ | ⟨htype, -⟩)
    · exact hentries
    all_goals
      rw [h.msgType] at htype
      exact absurd htype (by decide)
  · exact .reject h.msgType (by rw [h.count]; exact hpos) (by rw [h.count, h.length])

end RejectMessage

/-! ### The reply -/

/-- What `ParseMessages` returns for a request: a reject message, if there are rejections that fit,
and messages that answer messages of the request in their order. -/
structure IsReply (pkt : Mem) (c : NrpdConfig) (random : RandomDevice) (mtu : ℤ) (os : List ℕ)
    (s : ParseState) : Prop where
  config : c.SameAnswers s.config
  length : s.outMessageLength = ((s.msgs.map (hdrLength · 0)).sum : ℕ)
  fits : 4 + s.outMessageLength ≤ mtu
  count : s.msgs.length ≤ 255
  split : ∃ rejected answers, s.msgs = rejected ++ answers ∧
    (rejected = [] ∨ ∃ m entries, rejected = [m] ∧ entries ≠ [] ∧
      entries <+: rejectionsOf c pkt os ∧ IsRejection m entries) ∧
    (∀ m ∈ answers, IsResponseMessage m 0) ∧
    (answers.map (hdrMsgType · 0)).Sublist
      ((os.map (hdrMsgType pkt)).filter (!rejectsType c ·))
  nonempty : s.msgs ≠ [] ↔ productive c pkt os random = true

section Reply

variable {pkt : Mem} {c : NrpdConfig} {random : RandomDevice} {mtu : ℤ} {pre os : List ℕ}
  {s : ParseState}

theorem rejectionsOf_mono (h : pre <+: os) : rejectionsOf c pkt pre <+: rejectionsOf c pkt os :=
  ((h.map _).filter _).map _

theorem reason_of_mem_rejectionsOf :
    ∀ rej ∈ rejectionsOf c pkt os, rej.reason = NrpdRejectReason.unsupported.code := by
  intro rej hrej
  obtain ⟨msgType, -, rfl⟩ := List.mem_map.1 hrej
  rfl

/-- At most one message comes before those of the loop. -/
theorem pushRejections_cases (s : ParseState) : s.pushRejections = s ∨ ∃ rejected length,
    s.pushRejections = { s with msgs := rejected :: s.msgs, outMessageLength := length } := by
  rw [ParseState.pushRejections]
  generalize calculateMessageSize (u32 s.bytesRemaining) sizeofReject
    (i32 s.rejections.length) = sized
  split
  · exact .inl rfl
  · by_cases hroom : i32 sized.1 > 0
    · exact .inr ⟨_, _, if_pos hroom⟩
    · exact .inl (if_neg hroom)

/-- The messages of the loop stay behind the rejections. -/
theorem msgs_pushRejections (s : ParseState) : s.msgs <:+ s.pushRejections.msgs := by
  rcases pushRejections_cases s with h | ⟨rejected, length, h⟩
  · exact h.symm ▸ List.suffix_refl _
  · exact h.symm ▸ List.suffix_cons _ _

theorem rejections_pushRejections (s : ParseState) :
    s.pushRejections.rejections = s.rejections := by
  rcases pushRejections_cases s with h | ⟨rejected, length, h⟩ <;> rw [h]

/-- The rejections that fit go to the front. -/
theorem pushRejections_eq {n : ℕ} (hremaining : s.bytesRemaining = n) (hmax : n ≤ 1232)
    (hpos : s.rejections ≠ []) (hlt : s.rejections.length < 256) :
    s.pushRejections =
      if 6 ≤ n then
        { s with
          msgs := rejectMessage s.rejections (fittingCount n 2 s.rejections.length) :: s.msgs
          outMessageLength :=
            s.outMessageLength + (4 + 2 * fittingCount n 2 s.rejections.length : ℕ) }
      else s := by
  have hcount : 0 < s.rejections.length := List.length_pos_iff.2 hpos
  have hempty : s.rejections.isEmpty = false := List.isEmpty_eq_false_iff.2 hpos
  have hsized := calculateMessageSize_eq (show n < 2147483648 by omega) Nat.two_pos hcount
    (by omega)
  have hk : fittingCount n 2 s.rejections.length ≤ s.rejections.length :=
    fittingCount_le_messageCount
  simp only [ParseState.pushRejections, hempty, Bool.false_eq_true, if_false, hremaining,
    u32_natCast (show n < 4294967296 by omega),
    i32_natCast (show s.rejections.length < 2147483648 by omega)]
  rw [show ((sizeofReject : ℕ) : ℤ) = ((2 : ℕ) : ℤ) from rfl, hsized]
  by_cases hroom : 6 ≤ n
  · rw [if_pos (show 4 + 2 ≤ n by omega), if_pos hroom]
    simp only
    rw [i32_natCast (by omega), if_pos (by omega)]
  · rw [if_neg (show ¬ 4 + 2 ≤ n by omega), if_neg hroom]
    simp only
    rw [i32_natCast (by omega), if_neg (by simp)]

/-- Where the first rejection fits, the reject message with the ones that fit goes to the front. -/
theorem pushRejections_of_fits {n : ℕ} (hrejections : s.rejections = rejectionsOf c pkt pre)
    (hremaining : s.bytesRemaining = n) (hmax : n ≤ 1232) (hne : s.rejections ≠ [])
    (hlt : s.rejections.length < 256) (hfit : 6 ≤ n) :
    ∃ m k, k = fittingCount n 2 s.rejections.length ∧ 0 < k ∧ k ≤ s.rejections.length ∧
      4 + 2 * k ≤ n ∧ IsRejection m (s.rejections.take k) ∧
      s.pushRejections = { s with
        msgs := m :: s.msgs
        outMessageLength := s.outMessageLength + (4 + 2 * k : ℕ) } := by
  have hcount : 0 < s.rejections.length := List.length_pos_iff.2 hne
  have hkle : fittingCount n 2 s.rejections.length ≤ s.rejections.length :=
    fittingCount_le_messageCount
  have hreasons : ∀ rej ∈ s.rejections, rej.reason < nrpdRejectReasonMax := by
    intro rej hrej
    rw [hrejections] at hrej
    rw [reason_of_mem_rejectionsOf rej hrej]
    decide
  have hpush := pushRejections_eq hremaining hmax hne hlt
  rw [if_pos hfit] at hpush
  exact ⟨_, _, rfl, fittingCount_pos Nat.two_pos hcount (by omega), hkle,
    size_fittingCount_le _ _ (by omega), isRejection_rejectMessage hkle (by omega) hreasons, hpush⟩

/-- The end of `ParseMessages` turns the accounts into a reply. -/
theorem Accounts.isReply (h : Accounts pkt c random mtu pre s) (hpre : pre <+: os)
    (hlt : os.length < 256) (hmin : 263 ≤ mtu) (hmax : mtu ≤ 1236)
    (hproductive : productive c pkt pre random = productive c pkt os random) :
    IsReply pkt c random mtu os s.pushRejections := by
  have hsum := h.length_add_length_le
  have hprele := hpre.length_le
  have hremaining := h.remaining
  have hroom := h.room
  have hlength := h.length
  have hout : 0 ≤ s.outMessageLength := by omega
  have hinOrder := h.inOrder.trans ((hpre.sublist.map (hdrMsgType pkt)).filter (!rejectsType c ·))
  have hsame : s.msgs ≠ [] ∨ s.rejections ≠ [] ↔ productive c pkt os random = true := by
    rw [← hproductive]
    refine ⟨fun hne => ?_, h.answered⟩
    by_contra hno
    obtain ⟨hmsgs, hrejections, -⟩ := h.fresh (Bool.eq_false_iff.2 hno)
    exact hne.elim (absurd hmsgs) (absurd hrejections)
  -- without a reject message, the messages are those of the loop
  have hkept (hkeep : s.pushRejections = s) (hne : s.rejections ≠ [] → s.msgs ≠ []) :
      IsReply pkt c random mtu os s.pushRejections := by
    rw [hkeep]
    refine ⟨h.config, h.length, by omega, by omega, ?_, ?_⟩
    · exact ⟨[], s.msgs, rfl, .inl rfl, h.messages, hinOrder⟩
    · rw [← hsame]
      exact ⟨.inl, fun hor => hor.elim id hne⟩
  by_cases hrejections : s.rejections = []
  · refine hkept ?_ fun hne => absurd hrejections hne
    rw [ParseState.pushRejections, hrejections]
    rfl
  · obtain ⟨n, hn⟩ := Int.eq_ofNat_of_zero_le hroom
    by_cases hfit : 6 ≤ n
    · obtain ⟨m, k, -, hkpos, hkle, hkfit, hrejection, hpush⟩ :=
        pushRejections_of_fits h.rejections hn (by omega) hrejections (by omega) hfit
      rw [hpush]
      refine ⟨h.config, ?_, ?_, ?_, ?_, ?_⟩
      · simp only [List.map_cons, List.sum_cons, hrejection.length, List.length_take,
          Nat.min_eq_left hkle, hlength]
        omega
      · simp only
        omega
      · simp only [List.length_cons]
        omega
      · refine ⟨[m], s.msgs, rfl, .inr ⟨m, _, rfl, ?_, ?_, hrejection⟩, h.messages, hinOrder⟩
        · rw [ne_eq, ← List.length_eq_zero_iff, List.length_take]
          omega
        · rw [h.rejections]
          exact (List.take_prefix _ _).trans (rejectionsOf_mono hpre)
      · rw [← hsame]
        simp [hrejections]
    · have hpush := pushRejections_eq hn (by omega) hrejections (by omega)
      rw [if_neg hfit] at hpush
      refine hkept hpush fun _ hmsgs => ?_
      rw [hmsgs] at hlength
      simp at hlength
      omega

/-- What `ParseMessages` returns for a request. -/
theorem parseMessages_eq (random : RandomDevice) (hos : IsRequestPacket pkt os) (hmin : 263 ≤ mtu) :
    parseMessages pkt mtu c random =
      some (true, ((parseWalk pkt).visitAll os (.start mtu c random)).pushRejections) := by
  obtain ⟨p, hp⟩ := run_parseWalk hos (.start mtu c random)
  have hmtu : ¬ mtu ≤ nrpPacketHeaderSize := by simp; omega
  rw [parseMessages, if_neg hmtu, hp]
  rfl

/-- **Replies.** `ParseMessages` succeeds on a request and returns a reply. -/
theorem parseMessages_spec (random : RandomDevice) (hos : IsRequestPacket pkt os)
    (hfit : c.SizesFit) (hmin : 263 ≤ mtu) (hmax : mtu ≤ 1236) :
    ∃ s, parseMessages pkt mtu c random = some (true, s) ∧ IsReply pkt c random mtu os s := by
  obtain ⟨pre, hpre, haccounts, hproductive⟩ := accounts_visitAll random hos hfit hmin hmax
  exact ⟨_, parseMessages_eq random hos hmin,
    haccounts.isReply hpre hos.length_lt hmin hmax hproductive⟩

/-- No message that answers one of a request is a reject message. -/
theorem msgType_ne_reject_of_sublist {types : List UInt8}
    (h : types.Sublist ((os.map (hdrMsgType pkt)).filter (!rejectsType c ·))) :
    ∀ msgType ∈ types, msgType ≠ NrpdMsgType.reject.code := by
  rintro msgType hmem rfl
  have hkeep := (List.mem_filter.1 (h.subset hmem)).2
  exact absurd hkeep (by simp [rejectsType])

/-- A message of a reply is the reject message or answers a message of the request. -/
theorem IsReply.reject_or_answer (h : IsReply pkt c random mtu os s) {m : Mem} (hm : m ∈ s.msgs) :
    (∃ entries, entries ≠ [] ∧ entries <+: rejectionsOf c pkt os ∧ IsRejection m entries) ∨
      (IsResponseMessage m 0 ∧ hdrMsgType m 0 ≠ NrpdMsgType.reject.code) := by
  obtain ⟨rejected, answers, hsplit, hrejected, hanswers, hinOrder⟩ := h.split
  rw [hsplit, List.mem_append] at hm
  rcases hm with hm | hm
  · rcases hrejected with rfl | ⟨m', entries, rfl, hne, hleading, hrejection⟩
    · cases hm
    · rw [List.mem_singleton.1 hm]
      exact .inl ⟨entries, hne, hleading, hrejection⟩
  · exact .inr ⟨hanswers m hm, msgType_ne_reject_of_sublist hinOrder _ (List.mem_map_of_mem hm)⟩

/-- **The accounts of a reply.** As long as the sizes of peers messages are in range, the length
that `ParseMessages` returns is the sum of the lengths of the messages, which fit the packet; a
reject message can only be the first of them, and the others are valid and answer messages of the
request of the same types in their order. -/
theorem parseMessages_accounts (random : RandomDevice)
    (hvalid : validateRequestPacket pkt = some true)
    (hmtu : mtu = maxIp4PacketSize ∨ mtu = maxIp6PacketSize) (hcounts : c.CountsFit) :
    ∃ os s, IsRequestPacket pkt os ∧ parseMessages pkt mtu c random = some (true, s) ∧
      s.outMessageLength = ((s.msgs.map (hdrLength · 0)).sum : ℕ) ∧
      4 + s.outMessageLength ≤ mtu ∧ s.msgs.length ≤ 255 ∧
      ∃ rejected answers, s.msgs = rejected ++ answers ∧ rejected.length ≤ 1 ∧
        (∀ m ∈ rejected, hdrMsgType m 0 = NrpdMsgType.reject.code) ∧
        (∀ m ∈ answers, hdrMsgType m 0 ≠ NrpdMsgType.reject.code ∧
          validateMessageHeader m 0 false = true) ∧
        (answers.map (hdrMsgType · 0)).Sublist (os.map (hdrMsgType pkt)) := by
  obtain ⟨os, hos⟩ := validateRequestPacket_iff.1 hvalid
  have hrange : 263 ≤ mtu ∧ mtu ≤ 1236 := by
    rcases hmtu with rfl | rfl <;> simp
  obtain ⟨s, hparse, hreply⟩ :=
    parseMessages_spec random hos hcounts.sizesFit hrange.1 hrange.2
  obtain ⟨rejected, answers, hsplit, hrejected, hanswers, hinOrder⟩ := hreply.split
  have hnotReject := msgType_ne_reject_of_sublist hinOrder
  refine ⟨os, s, hos, hparse, hreply.length, hreply.fits, hreply.count, rejected, answers, hsplit,
    ?_, ?_, fun m hm => ⟨hnotReject _ (List.mem_map_of_mem hm), ?_⟩,
    hinOrder.trans List.filter_sublist⟩
  · rcases hrejected with rfl | ⟨m, -, rfl, -⟩ <;> simp
  · intro m hm
    rcases hrejected with rfl | ⟨m', entries, rfl, -, -, hrejection⟩
    · cases hm
    · rw [List.mem_singleton.1 hm]
      exact hrejection.msgType
  · exact validateMessageHeader_response_iff.2 (hanswers m hm)

/-- A device that delivers whatever is asked for. -/
def steadyDevice : RandomDevice := ⟨fun _ n => some ⟨List.replicate n 7, by simp⟩, 0⟩

/-- A request for peers of the family of IPv4, for a certificate chain, and for entropy. -/
def mixedRequest : Mem := Mem.zero.write 0 [0, 16, 1, 3, 0, 4, 4, 0, 0, 4, 7, 0, 0, 4, 5, 8]

/-- The answer has a rejection in front of two peers and eight bytes of entropy. -/
theorem parseMessages_accounts_example :
    let c := NrpdConfig.withServers [NrpdConfig.sampleServer 10 0 0 1,
      NrpdConfig.sampleServer 10 0 0 2] [] (by decide)
    ∃ os s, IsRequestPacket mixedRequest os ∧
      parseMessages mixedRequest maxIp4PacketSize c steadyDevice = some (true, s) ∧
      s.msgs.map (fun m => (hdrMsgType m 0, hdrLength m 0)) =
        [(NrpdMsgType.reject.code, 6), (NrpdMsgType.ip4peers.code, 16),
          (NrpdMsgType.entropy.code, 12)] ∧
      s.outMessageLength = ((s.msgs.map (hdrLength · 0)).sum : ℕ) ∧
      4 + s.outMessageLength ≤ maxIp4PacketSize := by
  intro c
  obtain ⟨os, s, hos, hparse, hlength, hfits, -⟩ := parseMessages_accounts (c := c) steadyDevice
    (show validateRequestPacket mixedRequest = some true by decide) (.inl rfl)
    ⟨by decide, fun ipv6 => .inl (by cases ipv6 <;> decide)⟩
  have hmsgs : (parseMessages mixedRequest maxIp4PacketSize c steadyDevice).map
      (fun parsed => parsed.2.msgs.map fun m => (hdrMsgType m 0, hdrLength m 0)) =
      some [(NrpdMsgType.reject.code, 6), (NrpdMsgType.ip4peers.code, 16),
        (NrpdMsgType.entropy.code, 12)] := by decide
  rw [hparse] at hmsgs
  exact ⟨os, s, hos, hparse, Option.some.inj hmsgs, hlength, hfits⟩

/-- A request for peers of the family of IPv6. -/
def ip6Request : Mem := fun a => [0, 8, 1, 1, 0, 4, 6, 0].getD a 0

/-- A configuration without servers whose cached count says that there are many. -/
def overcountingConfig : NrpdConfig :=
  { (NrpdConfig.new true true ⟨fun _ => 0, 0⟩).1 with countIp6Servers := 1670265089 }

/-- The size of a message with all counted servers wraps round to `534`, but the message has one
record. -/
theorem parseMessages_miscounts :
    ∃ s, validateRequestPacket ip6Request = some true ∧
      overcountingConfig.activeServers.elems.length < 67108864 ∧
      (∀ ipv6, -1 ≤ overcountingConfig.cachedCount ipv6) ∧
      parseMessages ip6Request maxIp6PacketSize overcountingConfig ⟨fun _ _ => none, 0⟩ =
        some (true, s) ∧
      s.outMessageLength ≠ ((s.msgs.map (hdrLength · 0)).sum : ℕ) :=
  ⟨_, by decide, by decide, by decide, rfl, by decide⟩

end Reply

end Nrpd
