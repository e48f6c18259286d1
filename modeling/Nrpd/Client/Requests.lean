import Nrpd.Client.NrpdClient
import Nrpd.Protocol.RequestGrammar

/-!
# The requests of the client

`ConstructRequest` asks for entropy first and then for peers of the families that the server and the
client support. What it builds is a request packet of bare headers.

## Main definitions

* `requestedTypes`: the types that are asked for.
* `IsDraft`: a draft of a request with given messages.

## Main results

* `constructRequest_spec`: the request.
-/

namespace Nrpd

open FixedWidth Segments

/-- The types of the messages that `ConstructRequest` writes, in their order. -/
def requestedTypes (c : NrpdConfig) (server : ServerRecord) : List NrpdMsgType :=
  [.entropy] ++ (if server.ip4Peers && c.clientEnableIp4 then [.ip4peers] else []) ++
    (if server.ip6Peers && c.clientEnableIp6 then [.ip6peers] else [])

theorem mem_requestedTypes {c : NrpdConfig} {server : ServerRecord} {t : NrpdMsgType}
    (h : t ∈ requestedTypes c server) : t = .entropy ∨ t = .ip4peers ∨ t = .ip6peers := by
  rw [requestedTypes] at h
  split_ifs at h <;> simp at h <;> grind

/-- No type is asked for twice. -/
theorem nodup_requestedTypes (c : NrpdConfig) (server : ServerRecord) :
    (requestedTypes c server).Nodup := by
  rw [requestedTypes]
  split_ifs <;> decide

/-- Bare headers of the types `types` start at `os`, and the next one goes behind them. -/
structure IsDraft (draft : RequestDraft) (os : List ℕ) (types : List NrpdMsgType) : Prop where
  msg : draft.msg = some (4 + 4 * os.length)
  msgCount : draft.msgCount = os.length
  msgSize : draft.msgSize = 4 + 4 * os.length
  tiles : Tiles (hdrLength draft.buffer) 4 os (4 + 4 * os.length)
  bare : ∀ o ∈ os, hdrLength draft.buffer o = 4
  types : os.map (hdrMsgType draft.buffer) = types.map NrpdMsgType.code

section Drafts

variable {draft : RequestDraft} {os : List ℕ} {types : List NrpdMsgType}

/-- A bare header behind the others makes a longer draft. -/
theorem IsDraft.push (h : IsDraft draft os types) (t : NrpdMsgType) (count : UInt8) :
    IsDraft (draft.push (some (4 + 4 * os.length + 4), draft.buffer.write (4 + 4 * os.length)
      (headerBytes 4 t.code count))) (os ++ [4 + 4 * os.length]) (types ++ [t]) := by
  set a := 4 + 4 * os.length with ha
  set written := draft.buffer.write a (headerBytes 4 t.code count) with hwritten
  have hagree : draft.buffer.AgreeOn written 0 a :=
    fun i _ hi => (Mem.write_of_notMem (.inl hi)).symm
  have hinside : ∀ o ∈ os, o + 4 ≤ a := fun o ho => by
    have := h.tiles.bounds o ho
    have := h.bare o ho
    omega
  have hlen : ∀ o ∈ os, hdrLength draft.buffer o = hdrLength written o := fun o ho =>
    hdrLength_congr hagree (Nat.zero_le o) (by have := hinside o ho; omega)
  have hlast : hdrLength written a = 4 := hdrLength_write_headerBytes (by omega)
  refine ⟨?_, ?_, ?_, ?_, ?_, ?_⟩
  · simp [RequestDraft.push]
    omega
  · simp [RequestDraft.push, h.msgCount]
  · simp [RequestDraft.push, h.msgSize]
    omega
  · have htail : Tiles (hdrLength written) a [a] (a + 4) := by
      have : Tiles (hdrLength written) a [a] (a + hdrLength written a) :=
        Tiles.singleton (by omega)
      rwa [hlast] at this
    have := (h.tiles.congr hlen).append htail
    rwa [List.length_append, List.length_singleton, Nat.mul_add, ← Nat.add_assoc]
  · intro o ho
    rcases List.mem_append.1 ho with ho | ho
    · exact (hlen o ho).symm.trans (h.bare o ho)
    · rw [List.mem_singleton.1 ho]
      exact hlast
  · rw [List.map_append, List.map_append, ← h.types, List.map_singleton, List.map_singleton]
    have hold : os.map (hdrMsgType written) = os.map (hdrMsgType draft.buffer) :=
      List.map_congr_left fun o ho =>
        (hdrMsgType_congr hagree (Nat.zero_le o) (by have := hinside o ho; omega)).symm
    have hnew : hdrMsgType written a = t.code := hdrMsgType_write_headerBytes
    simp only [RequestDraft.push, hold, hnew]

/-- A request for peers makes a longer draft, if it is written. -/
theorem IsDraft.pushPeers (h : IsDraft draft os types) {t : NrpdMsgType}
    (ht : t = .ip4peers ∨ t = .ip6peers) (supported : Bool) :
    ∃ os', IsDraft (draft.pushPeers t supported) os'
      (types ++ if supported then [t] else []) ∧ os'.length = os.length + supported.toNat := by
  cases supported with
  | false => exact ⟨os, by simpa [RequestDraft.pushPeers] using h, rfl⟩
  | true =>
    refine ⟨os ++ [4 + 4 * os.length], ?_, by simp⟩
    have hvalid : ¬ (t ≠ .ip4peers ∧ t ≠ .ip6peers) := by
      rcases ht with rfl | rfl <;> simp
    simpa only [RequestDraft.pushPeers, if_true, h.msg, generateRequestPeersMessage,
      if_neg hvalid] using h.push t 0

/-- A draft with a packet header in front of it is a request packet. -/
theorem IsDraft.isRequestPacket (h : IsDraft draft os types) (hpos : 1 ≤ os.length)
    (hle : os.length ≤ 255)
    (htypes : ∀ t ∈ types, t = .entropy ∨ t = .ip4peers ∨ t = .ip6peers) :
    ∃ pkt, generatePacketHeader (u16 draft.msgSize) .request (.ofNat (u8 draft.msgCount)) (some 0)
        draft.buffer = (some 4, pkt) ∧
      pktLength pkt = draft.msgSize ∧ IsRequestPacket pkt os ∧ (∀ o ∈ os, hdrLength pkt o = 4) ∧
      os.map (hdrMsgType pkt) = types.map NrpdMsgType.code := by
  have hbyte : (UInt8.ofNat os.length).toNat = os.length := by
    rw [UInt8.toNat_ofNat', Nat.mod_eq_of_lt (by omega)]
  have hcountne : UInt8.ofNat os.length ≠ 0 := fun hzero => by
    rw [hzero] at hbyte
    rw [UInt8.toNat_zero] at hbyte
    omega
  have hsize : u16 (4 + 4 * os.length : ℕ) = 4 + 4 * os.length := by
    rw [u16_of_lt (by omega) (by omega), Int.toNat_natCast]
  set pkt := draft.buffer.write 0
    (headerBytes (4 + 4 * os.length) NrpdMsgType.request.code (.ofNat os.length)) with hpkt
  have hheader : generatePacketHeader (u16 draft.msgSize) .request (.ofNat (u8 draft.msgCount))
      (some 0) draft.buffer = (some 4, pkt) := by
    rw [h.msgSize, h.msgCount, hsize, u8_natCast (by omega), generatePacketHeader,
      if_neg (by simp), if_neg (by simp; omega), if_neg hcountne]
  have hbehind {o : ℕ} (ho : o ∈ os) : draft.buffer.AgreeOn pkt o (o + 4) := by
    have := (h.tiles.bounds o ho).1
    exact fun i hi _ => (Mem.write_of_notMem (.inr (by simp; omega))).symm
  have hlen : ∀ o ∈ os, hdrLength draft.buffer o = hdrLength pkt o := fun o ho =>
    hdrLength_congr (hbehind ho) (Nat.le_refl o) (by omega)
  have hmap : os.map (hdrMsgType pkt) = types.map NrpdMsgType.code := by
    rw [← h.types]
    exact List.map_congr_left fun o ho =>
      (hdrMsgType_congr (hbehind ho) (Nat.le_refl o) (by omega)).symm
  have hbare : ∀ o ∈ os, hdrLength pkt o = 4 := fun o ho => (hlen o ho).symm.trans (h.bare o ho)
  have hlength : pktLength pkt = 4 + 4 * os.length := hdrLength_write_headerBytes (by omega)
  have hcount : pktMsgCount pkt = UInt8.ofNat os.length := hdrCountOrSize_write_headerBytes
  refine ⟨pkt, hheader, hlength.trans h.msgSize.symm, ⟨?_, ?_, ?_, ?_, ?_, ?_⟩, hbare, hmap⟩
  · omega
  · exact hdrMsgType_write_headerBytes
  · rw [hcount, hbyte]
    exact hpos
  · rw [hcount, hbyte]
  · rw [hlength]
    exact h.tiles.congr hlen
  · intro o ho
    obtain ⟨t, ht, hcode⟩ := List.mem_map.1 (hmap ▸ List.mem_map_of_mem ho)
    refine .known (hbare o ho) ?_ ?_ <;> rw [← hcode] <;>
      rcases htypes t ht with rfl | rfl | rfl <;> decide

/-- **Requests.** `ConstructRequest` builds a request packet of bare headers, with a message for
each of the requested types in their order. -/
theorem constructRequest_spec (c : NrpdConfig) (server : ServerRecord) (buffer : Mem) :
    ∃ pkt os, constructRequest c server maxResponseMessageSize buffer =
        (some (pktLength pkt), pkt) ∧
      IsRequestPacket pkt os ∧ (∀ o ∈ os, hdrLength pkt o = 4) ∧
      os.map (hdrMsgType pkt) = (requestedTypes c server).map NrpdMsgType.code := by
  have hbuf : ¬ maxResponseMessageSize < nrpMessageHeaderSize * serverMsgSupportCount server := by
    have := server.signkey.toNat_le
    have := server.ip4Peers.toNat_le
    have := server.ip6Peers.toNat_le
    simp only [maxResponseMessageSize, nrpMessageHeaderSize, serverMsgSupportCount]
    omega
  set empty : RequestDraft := ⟨some pktMessages, buffer, 0, nrpPacketHeaderSize⟩ with hempty
  have hdraft : IsDraft empty [] [] := ⟨rfl, rfl, rfl, .nil 4, by simp, rfl⟩
  have hentropy := hdraft.push .entropy (.ofNat (u8 c.defaultEntropySize.val))
  obtain ⟨os₄, h₄, hlen₄⟩ := hentropy.pushPeers (.inl rfl) (server.ip4Peers && c.clientEnableIp4)
  obtain ⟨os, h, hlen⟩ := h₄.pushPeers (.inr rfl) (server.ip6Peers && c.clientEnableIp6)
  have := (server.ip4Peers && c.clientEnableIp4).toNat_le
  have := (server.ip6Peers && c.clientEnableIp6).toNat_le
  simp only [List.length_append, List.length_nil, List.length_singleton] at hlen₄
  obtain ⟨pkt, hheader, hlength, hrequest, hbare, htypes⟩ :=
    h.isRequestPacket (by omega) (by omega) fun t ht => mem_requestedTypes ht
  refine ⟨pkt, os, ?_, hrequest, hbare, htypes⟩
  rw [hlength]
  simp only [constructRequest, if_neg hbuf, ← hempty]
  rw [show generateRequestEntropyMessage (.ofNat (u8 c.defaultEntropySize.val)) empty.msg
    empty.buffer = (some (4 + 4 * ([] : List ℕ).length + 4), empty.buffer.write
      (4 + 4 * ([] : List ℕ).length) (headerBytes 4 NrpdMsgType.entropy.code
        (.ofNat (u8 c.defaultEntropySize.val)))) from rfl, hheader]
  rfl

end Drafts

end Nrpd
