import Nrpd.Protocol.Validation

/-!
# The grammar of response packets

What a response packet is, without reference to a validator: a packet header with a length of at
most `65507`, the type `response` and a count of at least one, followed by exactly that many
messages, which fill the packet. `ValidateResponsePacket` accepts these packets and no others.

## Main definitions

* `IsRejectEntry`, `IsResponseMessage`, `IsResponsePacket`: the grammar.

## Main results

* `validateMessageHeader_response_iff`: the response headers that are accepted.
* `validateResponsePacket_iff`: the response packets that are accepted.
* `IsResponsePacket.congr`: the grammar looks at no byte behind the packet.
-/

namespace Nrpd

open FuelLoop Segments

/-! ### The grammar -/

/-- The message types a reject entry may name. -/
def rejectableTypes : List NrpdMsgType :=
  [.ip4peers, .ip6peers, .certchain, .signkey, .encryptionkey, .secureentropy]

/-- An entry of a reject message: it names a message type other than entropy and a reason. -/
structure IsRejectEntry (rej : NrpMessageReject) : Prop where
  msgType : ∃ t ∈ rejectableTypes, rej.msgType = t.code
  reason : rej.reason.toNat < 4

/-- A message of a response: a header whose length is that of its records, which are reject
entries, peers of either family, or bytes of entropy. -/
inductive IsResponseMessage (m : Mem) (o : ℕ) : Prop
  | reject (htype : hdrMsgType m o = NrpdMsgType.reject.code)
      (hpos : 1 ≤ (hdrCountOrSize m o).toNat)
      (hlen : hdrLength m o = 4 + 2 * (hdrCountOrSize m o).toNat)
      (hentries : ∀ i < (hdrCountOrSize m o).toNat,
        IsRejectEntry (rejectEntryAt m (o + 4 + 2 * i)))
  | ip4peers (htype : hdrMsgType m o = NrpdMsgType.ip4peers.code)
      (hlen : hdrLength m o = 4 + 6 * (hdrCountOrSize m o).toNat)
  | entropy (htype : hdrMsgType m o = NrpdMsgType.entropy.code)
      (hlen : hdrLength m o = 4 + (hdrCountOrSize m o).toNat)
  | ip6peers (htype : hdrMsgType m o = NrpdMsgType.ip6peers.code)
      (hlen : hdrLength m o = 4 + 18 * (hdrCountOrSize m o).toNat)

/-- A response packet whose messages start at the offsets `os`. -/
structure IsResponsePacket (m : Mem) (os : List ℕ) : Prop where
  length_le : pktLength m ≤ 65507
  type_eq : pktMsgType m = NrpdMsgType.response.code
  count_pos : 1 ≤ (pktMsgCount m).toNat
  count_eq : os.length = (pktMsgCount m).toNat
  tiles : Tiles (hdrLength m) pktMessages os (pktLength m)
  messages : ∀ o ∈ os, IsResponseMessage m o

/-! ### The validator accepts the grammar -/

section Validator

variable {m : Mem} {o : ℕ}

theorem isRejectEntry_iff {rej : NrpMessageReject} :
    IsRejectEntry rej ↔
      ¬ (rej.msgType ≥ nrpdMsgTypeMax ∨ rej.msgType < requestMsgMin ∨
          rej.msgType = NrpdMsgType.entropy.code) ∧ ¬ rej.reason ≥ nrpdRejectReasonMax := by
  have htype : (∃ t ∈ rejectableTypes, rej.msgType = t.code) ↔
      ¬ (rej.msgType ≥ nrpdMsgTypeMax ∨ rej.msgType < requestMsgMin ∨
        rej.msgType = NrpdMsgType.entropy.code) := by
    cases ht : NrpdMsgType.ofCode rej.msgType with
    | some t =>
      rw [NrpdMsgType.ofCode_eq_some.1 ht]
      cases t <;> decide
    | none =>
      have hno : ¬ ∃ t ∈ rejectableTypes, rej.msgType = t.code := by
        rintro ⟨t, -, h⟩
        rw [h, NrpdMsgType.ofCode_code] at ht
        cases ht
      refine iff_of_false hno (not_not.2 ?_)
      rcases NrpdMsgType.ofCode_eq_none ht with h | h
      · exact .inr (.inl (UInt8.lt_iff_toNat_lt.2 (by rw [h]; decide)))
      · exact .inl (UInt8.le_iff_toNat_le.2 h)
  have hreason : rej.reason.toNat < 4 ↔ ¬ rej.reason ≥ nrpdRejectReasonMax := by
    rw [ge_iff_le, UInt8.not_le, UInt8.lt_iff_toNat_lt]
    rfl
  exact ⟨fun h => ⟨htype.1 h.msgType, hreason.1 h.reason⟩,
    fun h => ⟨htype.2 h.1, hreason.2 h.2⟩⟩

theorem validateRejectEntries_iff {count msg : ℕ} :
    validateRejectEntries m count msg = true ↔
      ∀ i < count, IsRejectEntry (rejectEntryAt m (msg + 2 * i)) := by
  induction count generalizing msg with
  | zero => simp [validateRejectEntries]
  | succ count ih =>
    have hstep : validateRejectEntries m (count + 1) msg = true ↔
        IsRejectEntry (rejectEntryAt m msg) ∧ validateRejectEntries m count (msg + 2) = true := by
      rw [isRejectEntry_iff]
      simp only [validateRejectEntries, Bool.or_eq_true, decide_eq_true_eq, or_assoc]
      split_ifs <;> simp_all
    rw [hstep, ih]
    constructor
    · rintro ⟨h0, h⟩ i hi
      cases i with
      | zero => exact h0
      | succ i =>
        have := h i (by omega)
        rwa [show msg + 2 + 2 * i = msg + 2 * (i + 1) by omega] at this
    · intro h
      refine ⟨h 0 (by omega), fun i hi => ?_⟩
      have := h (i + 1) (by omega)
      rwa [show msg + 2 * (i + 1) = msg + 2 + 2 * i by omega] at this

theorem validateRejectMessage_iff (hlen : hdrLength m o = 4 + 2 * (hdrCountOrSize m o).toNat) :
    validateRejectMessage m o = true ↔
      hdrMsgType m o = NrpdMsgType.reject.code ∧ 1 ≤ (hdrCountOrSize m o).toNat ∧
        ∀ i < (hdrCountOrSize m o).toNat, IsRejectEntry (rejectEntryAt m (o + 4 + 2 * i)) := by
  have hcount := (hdrCountOrSize m o).toNat_lt
  have hmax : ¬ hdrLength m o > maxRejectMessageSize := by simp; omega
  have heven : ¬ FixedWidth.u64 ((hdrLength m o : ℤ) - 4) % sizeofReject ≠ 0 := by
    rw [FixedWidth.u64_of_lt (by omega) (by omega)]
    simp
    omega
  have hzero : hdrCountOrSize m o = 0 ↔ ¬ 1 ≤ (hdrCountOrSize m o).toNat := by
    rw [← UInt8.toNat_inj, UInt8.toNat_zero]
    omega
  simp only [validateRejectMessage, hmax, heven, if_false, hzero]
  split_ifs with h1 h2
  · simp [h1]
  · rw [validateRejectEntries_iff]
    simp [not_not.1 h1, h2]
  · simp [h2]

/-- **Accepted response headers.** A response header is accepted when a message of the grammar
starts with it. -/
theorem validateMessageHeader_response_iff :
    validateMessageHeader m o false = true ↔ IsResponseMessage m o := by
  have hlt : (hdrCountOrSize m o).toNat < 256 := (hdrCountOrSize m o).toNat_lt
  cases ht : NrpdMsgType.ofCode (hdrMsgType m o) with
  | none =>
    rw [validateMessageHeader_of_unknown ht]
    refine iff_of_false (by simp) ?_
    rintro (⟨htype, -, -, -⟩ | ⟨htype, -⟩ | ⟨htype, -⟩ | ⟨htype, -⟩) <;>
      · rw [htype, NrpdMsgType.ofCode_code] at ht
        cases ht
  | some t =>
    have hcode := NrpdMsgType.ofCode_eq_some.1 ht
    have hne {t' : NrpdMsgType} (h : hdrMsgType m o = t'.code) : t = t' :=
      NrpdMsgType.code_injective (hcode.symm.trans h)
    rw [validateMessageHeader_of_code hcode, Bool.and_eq_true, decide_eq_true_eq]
    constructor
    · rintro ⟨-, hrule⟩
      cases t
      case reject =>
        simp only [typeRule, Bool.not_false, Bool.true_and, Bool.and_eq_true] at hrule
        have hsize := (validateMessageSize_iff (by simp)).1 hrule.1
        have hlen : hdrLength m o = 4 + 2 * (hdrCountOrSize m o).toNat := by
          simp only [sizeofReject] at hsize; omega
        obtain ⟨-, hpos, hentries⟩ := (validateRejectMessage_iff hlen).1 hrule.2
        exact .reject hcode hpos hlen hentries
      case ip4peers =>
        have := (validateContentSize_iff (by simp)).1 hrule
        exact .ip4peers hcode (by simp at this; omega)
      case entropy =>
        have := (validateContentSize_iff (by simp)).1 hrule
        exact .entropy hcode (by simp at this; omega)
      case ip6peers =>
        have := (validateContentSize_iff (by simp)).1 hrule
        exact .ip6peers hcode (by simp at this; omega)
      all_goals exact absurd hrule Bool.false_ne_true
    · rintro (⟨htype, hpos, hlen, hentries⟩ | ⟨htype, hlen⟩ | ⟨htype, hlen⟩ | ⟨htype, hlen⟩) <;>
        obtain rfl := hne htype
      · refine ⟨by simp; omega, ?_⟩
        simp only [typeRule, Bool.not_false, Bool.true_and, Bool.and_eq_true]
        refine ⟨(validateMessageSize_iff (by simp)).2 (by simp; omega), ?_⟩
        exact (validateRejectMessage_iff hlen).2 ⟨htype, hpos, hentries⟩
      · exact ⟨by simp; omega, (validateContentSize_iff (by simp)).2 (by simp; omega)⟩
      · exact ⟨by simp; omega, (validateContentSize_iff (by simp)).2 (by simp; omega)⟩
      · exact ⟨by simp; omega, (validateContentSize_iff (by simp)).2 (by simp; omega)⟩

/-- **Accepted response packets.** The validator accepts the packets of the grammar and no
others. -/
theorem validateResponsePacket_iff :
    validateResponsePacket m = some true ↔ ∃ os, IsResponsePacket m os := by
  have hcount : pktMsgCount m ≠ 0 ↔ 1 ≤ (pktMsgCount m).toNat := by
    rw [ne_eq, ← UInt8.toNat_inj, UInt8.toNat_zero]
    omega
  simp only [validateResponsePacket, validatePacket_eq_true_iff, EntersLoop, hcount,
    validateMessageHeader_response_iff]
  constructor
  · rintro ⟨⟨hlen, htype, hpos⟩, os, htiles, hmsgs, hos⟩
    exact ⟨os, hlen, htype, hpos, hos, htiles, hmsgs⟩
  · rintro ⟨os, hlen, htype, hpos, hos, htiles, hmsgs⟩
    exact ⟨⟨hlen, htype, hpos⟩, os, htiles, hmsgs, hos⟩

end Validator

/-! ### The grammar and the bytes of the packet -/

section Bytes

variable {m m' : Mem} {o : ℕ} {os : List ℕ}

theorem IsResponseMessage.hdrLength_ge (h : IsResponseMessage m o) : 4 ≤ hdrLength m o := by
  cases h <;> omega

/-- Whether a message is one of the grammar depends on its own bytes, wherever they stand. -/
theorem IsResponseMessage.congr (h : IsResponseMessage m o) {o' : ℕ}
    (hread : m.read o (hdrLength m o) = m'.read o' (hdrLength m o)) : IsResponseMessage m' o' := by
  have h4 := h.hdrLength_ge
  have hl := hdrLength_of_read_eq hread (by omega)
  have ht := hdrMsgType_of_read_eq hread (by omega)
  have hc := hdrCountOrSize_of_read_eq hread (by omega)
  cases h with
  | reject htype hpos hlen hentries =>
    refine .reject (ht ▸ htype) (hc ▸ hpos) (by rw [← hl, ← hc, hlen]) fun i hi => ?_
    rw [← hc] at hi
    have hentry := hentries i hi
    have hbyte {j : ℕ} (hj : j < hdrLength m o) : m (o + j) = m' (o' + j) :=
      Mem.read_eq_iff.1 hread j hj
    simp only [rejectEntryAt, Nat.add_assoc] at hentry ⊢
    rwa [hbyte (by omega), hbyte (by omega)] at hentry
  | ip4peers htype hlen => exact .ip4peers (ht ▸ htype) (by rw [← hl, ← hc, hlen])
  | entropy htype hlen => exact .entropy (ht ▸ htype) (by rw [← hl, ← hc, hlen])
  | ip6peers htype hlen => exact .ip6peers (ht ▸ htype) (by rw [← hl, ← hc, hlen])

/-- The messages of a response packet lie inside it. -/
theorem IsResponsePacket.bounds (h : IsResponsePacket m os) :
    ∀ o ∈ os, 4 ≤ o ∧ o + hdrLength m o ≤ pktLength m := by
  intro o ho
  have := h.tiles.bounds o ho
  exact ⟨this.1, this.2.2⟩

theorem IsResponsePacket.length_ge (h : IsResponsePacket m os) : 8 ≤ pktLength m := by
  have hne : os ≠ [] := by
    rintro rfl
    have := h.count_eq
    have := h.count_pos
    simp only [List.length_nil] at *
    omega
  obtain ⟨o, ho⟩ := List.exists_mem_of_ne_nil os hne
  have := (h.messages o ho).hdrLength_ge
  have := h.bounds o ho
  omega

/-- Whether a packet is one of the grammar depends on its own bytes. -/
theorem IsResponsePacket.congr (h : IsResponsePacket m os)
    (hagree : m.AgreeOn m' 0 (pktLength m)) : IsResponsePacket m' os := by
  have h8 := h.length_ge
  have hl : pktLength m = pktLength m' := hagree.be16 (Nat.le_refl 0) (by omega)
  have ht : pktMsgType m = pktMsgType m' := hagree 2 (Nat.zero_le 2) (by omega)
  have hc : pktMsgCount m = pktMsgCount m' := hagree 3 (Nat.zero_le 3) (by omega)
  have hlen : ∀ o ∈ os, hdrLength m o = hdrLength m' o := fun o ho =>
    hdrLength_congr hagree (Nat.zero_le o) (by
      have := (h.messages o ho).hdrLength_ge
      have := h.bounds o ho
      omega)
  refine ⟨hl ▸ h.length_le, ht ▸ h.type_eq, hc ▸ h.count_pos, hc ▸ h.count_eq,
    hl ▸ h.tiles.congr hlen, fun o ho => ?_⟩
  have hb := h.bounds o ho
  exact (h.messages o ho).congr (hagree.read (Nat.zero_le o) hb.2)

end Bytes

end Nrpd
