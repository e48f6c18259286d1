import Nrpd.Protocol.Validation

/-!
# The requests that are accepted

What `ValidateRequestPacket` accepts: a packet header with the type `request` and a count of at
least one, followed by exactly that many messages, which fill the packet. A message for peers or
entropy is a bare header; a message of another type has any length but `0`.

## Main definitions

* `IsRequestMessage`, `IsRequestPacket`: messages and packets that are accepted.

## Main results

* `validateRequestPacket_iff`: the validator accepts these packets and no others.
-/

namespace Nrpd

open FuelLoop Segments

/-- A message of a request: a bare header for peers or entropy, or a message of a type from
`certchain` on. -/
inductive IsRequestMessage (m : Mem) (o : ℕ) : Prop
  | known (hlen : hdrLength m o = 4) (hmin : 4 ≤ (hdrMsgType m o).toNat)
      (hmax : (hdrMsgType m o).toNat ≤ 6)
  | other (hlen : hdrLength m o < 65507) (hmin : 7 ≤ (hdrMsgType m o).toNat)

/-- A request packet whose messages start at the offsets `os`. -/
structure IsRequestPacket (m : Mem) (os : List ℕ) : Prop where
  length_le : pktLength m ≤ 65507
  type_eq : pktMsgType m = NrpdMsgType.request.code
  count_pos : 1 ≤ (pktMsgCount m).toNat
  count_eq : os.length = (pktMsgCount m).toNat
  tiles : Tiles (hdrLength m) pktMessages os (pktLength m)
  messages : ∀ o ∈ os, IsRequestMessage m o

variable {m : Mem} {o : ℕ} {os : List ℕ}

theorem validateMessageHeader_isRequestMessage_iff :
    validateMessageHeader m o true = true ↔ IsRequestMessage m o := by
  rw [validateMessageHeader_request_iff]
  simp only [UInt8.le_iff_toNat_le]
  have h4 : NrpdMsgType.ip4peers.code.toNat = 4 := rfl
  have h6 : NrpdMsgType.ip6peers.code.toNat = 6 := rfl
  have h7 : NrpdMsgType.certchain.code.toNat = 7 := rfl
  rw [h4, h6, h7]
  constructor
  · rintro ⟨hlt, ⟨hmin, hmax, hlen⟩ | hmin⟩
    · exact .known hlen hmin hmax
    · exact .other hlt hmin
  · rintro (⟨hlen, hmin, hmax⟩ | ⟨hlen, hmin⟩)
    · exact ⟨by rw [hlen]; simp, .inl ⟨hmin, hmax, hlen⟩⟩
    · exact ⟨hlen, .inr hmin⟩

/-- **Accepted requests.** The validator accepts the request packets and no others. -/
theorem validateRequestPacket_iff :
    validateRequestPacket m = some true ↔ ∃ os, IsRequestPacket m os := by
  have hcount : pktMsgCount m ≠ 0 ↔ 1 ≤ (pktMsgCount m).toNat := by
    rw [ne_eq, ← UInt8.toNat_inj, UInt8.toNat_zero]
    omega
  simp only [validateRequestPacket, validatePacket_eq_true_iff, EntersLoop, hcount,
    validateMessageHeader_isRequestMessage_iff]
  constructor
  · rintro ⟨⟨hlen, htype, hpos⟩, os, htiles, hmsgs, hos⟩
    exact ⟨os, hlen, htype, hpos, hos, htiles, hmsgs⟩
  · rintro ⟨os, hlen, htype, hpos, hos, htiles, hmsgs⟩
    exact ⟨⟨hlen, htype, hpos⟩, os, htiles, hmsgs, hos⟩

theorem IsRequestPacket.length_lt (h : IsRequestPacket m os) : os.length < 256 := by
  have := (pktMsgCount m).toNat_lt
  have := h.count_eq
  omega

theorem IsRequestPacket.bounds (h : IsRequestPacket m os) :
    ∀ o ∈ os, 4 ≤ o ∧ 0 < hdrLength m o ∧ o + hdrLength m o ≤ pktLength m :=
  h.tiles.bounds

/-- A request whose messages are bare headers depends on its own bytes only. -/
theorem IsRequestPacket.congr_of_bare {m' : Mem} (h : IsRequestPacket m os)
    (hbare : ∀ o ∈ os, hdrLength m o = 4) (hagree : m.AgreeOn m' 0 (pktLength m)) :
    IsRequestPacket m' os ∧ ∀ o ∈ os, hdrMsgType m o = hdrMsgType m' o := by
  have h8 : 8 ≤ pktLength m := by
    obtain ⟨o, ho⟩ := List.exists_mem_of_length_pos (h.count_eq ▸ h.count_pos)
    have := h.bounds o ho
    have := hbare o ho
    omega
  have hl : pktLength m = pktLength m' := hagree.be16 (Nat.le_refl 0) (by omega)
  have ht : pktMsgType m = pktMsgType m' := hagree 2 (Nat.zero_le 2) (by omega)
  have hc : pktMsgCount m = pktMsgCount m' := hagree 3 (Nat.zero_le 3) (by omega)
  have hinside : ∀ o ∈ os, o + 4 ≤ pktLength m := fun o ho => by
    have := h.bounds o ho
    have := hbare o ho
    omega
  have hlen : ∀ o ∈ os, hdrLength m o = hdrLength m' o := fun o ho =>
    hdrLength_congr hagree (Nat.zero_le o) (by have := hinside o ho; omega)
  have htype : ∀ o ∈ os, hdrMsgType m o = hdrMsgType m' o := fun o ho =>
    hdrMsgType_congr hagree (Nat.zero_le o) (by have := hinside o ho; omega)
  refine ⟨⟨hl ▸ h.length_le, ht ▸ h.type_eq, hc ▸ h.count_pos, hc ▸ h.count_eq,
    hl ▸ h.tiles.congr hlen, fun o ho => ?_⟩, htype⟩
  have hmsg := h.messages o ho
  cases hmsg with
  | known hlength hmin hmax =>
    exact .known (hlen o ho ▸ hlength) (htype o ho ▸ hmin) (htype o ho ▸ hmax)
  | other hlength hmin => exact .other (hlen o ho ▸ hlength) (htype o ho ▸ hmin)

/-- No message of a request has a type below `ip4peers`. -/
theorem IsRequestPacket.msgType_ge (h : IsRequestPacket m os) :
    ∀ o ∈ os, 4 ≤ (hdrMsgType m o).toNat := by
  intro o ho
  cases h.messages o ho <;> omega

end Nrpd
