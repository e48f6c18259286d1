import Nrpd.Client.ResponseLoop

/-!
# What the client does with a datagram

`ClientLoop` hands the receive buffer to the validator and to `ParseResponse` without the number of
bytes that were received, and the buffer is not cleared between datagrams. What the client does
depends on the datagram alone unless it is the beginning of a longer response.

## Main definitions

* `ClientState.SameEffects`: two states with the same configuration, clock and random devices.
* `OnlyDatagramMatters`: what the client does is the same for all contents behind a datagram.
* `IsTruncatedResponse`: a datagram is the beginning of a longer response.

## Main results

* `ClientState.SameEffects.takeMessage`: a message has the same effects in buffers that agree on it.
* `parseResponse_sameEffects`: so has a response packet.
* `onlyDatagramMatters_of_not_truncated`: what the client does with a datagram that is not truncated
  depends on it alone.
-/

namespace Nrpd

open FuelLoop Segments

/-- Two states that differ in the receive buffer only. -/
structure ClientState.SameEffects (s s' : ClientState) : Prop where
  config : s.config = s'.config
  clock : s.clock = s'.clock
  random : s.random = s'.random
  sink : s.sink = s'.sink
  secrets : s.secrets = s'.secrets
  msgCount : s.msgCount = s'.msgCount

/-- Whatever the buffer held before, the client does the same with a datagram of `n` bytes. -/
def OnlyDatagramMatters (datagram : Mem) (n : ℕ) : Prop :=
  ∀ m m' : Mem, datagram.AgreeOn m 0 n → datagram.AgreeOn m' 0 n →
    validateResponsePacket m = validateResponsePacket m' ∧
      (validateResponsePacket m = some true → ∀ (server : ServerRef) (s : ClientState),
        ∃ r r', parseResponse server maxResponseMessageSize { s with buffer := m } = some r ∧
          parseResponse server maxResponseMessageSize { s with buffer := m' } = some r' ∧
          r.SameEffects r')

/-- The first `n` bytes of a datagram are the beginning of a response packet that is longer. -/
def IsTruncatedResponse (datagram : Mem) (n : ℕ) : Prop :=
  ∃ m os, datagram.AgreeOn m 0 n ∧ IsResponsePacket m os ∧ n < pktLength m

/-! ### Messages in buffers that agree -/

section Congr

variable {m m' : Mem} {o a b n : ℕ}

theorem ofIp4Peer_congr (h : m.AgreeOn m' a b) (ha : a ≤ o) (hb : o + 6 ≤ b) :
    ServerRecord.ofIp4Peer m o = ServerRecord.ofIp4Peer m' o := by
  have hport : m.be16 (o + 4) = m'.be16 (o + 4) := h.be16 (by omega) (by omega)
  have hhost : (fun i : Fin 4 => m (o + i)) = fun i : Fin 4 => m' (o + i) := by
    funext i
    exact h _ (by omega) (by omega)
  simp only [ServerRecord.ofIp4Peer, hport, hhost]

theorem ofIp6Peer_congr (h : m.AgreeOn m' a b) (ha : a ≤ o) (hb : o + 18 ≤ b) :
    ServerRecord.ofIp6Peer m o = ServerRecord.ofIp6Peer m' o := by
  have hport : m.be16 (o + 16) = m'.be16 (o + 16) := h.be16 (by omega) (by omega)
  have hhost : (fun i : Fin 16 => m (o + i)) = fun i : Fin 16 => m' (o + i) := by
    funext i
    exact h _ (by omega) (by omega)
  simp only [ServerRecord.ofIp6Peer, hport, hhost]

/-- The records of a message are inside it. -/
theorem HasRecords.record_inside (h : HasRecords m o) {t : NrpdMsgType}
    (ht : hdrMsgType m o = t.code) {i : ℕ} (hi : i < (hdrCountOrSize m o).toNat) :
    o + 4 + i * recordSize t + recordSize t ≤ o + hdrLength m o := by
  obtain ⟨t', -, ht', hlen⟩ := h
  obtain rfl := NrpdMsgType.code_injective (ht.symm.trans ht')
  have hmul : (i + 1) * recordSize t ≤ (hdrCountOrSize m o).toNat * recordSize t :=
    Nat.mul_le_mul_right _ hi
  rw [Nat.mul_comm (recordSize t)] at hlen
  rw [Nat.succ_mul] at hmul
  omega

/-- The entries of a reject message depend on its own bytes. -/
theorem HasRecords.rejectEntries_congr (h : HasRecords m o)
    (hagree : m.AgreeOn m' o (o + hdrLength m o))
    (ht : hdrMsgType m o = NrpdMsgType.reject.code) : rejectEntries m o = rejectEntries m' o := by
  have h4 : 4 ≤ hdrLength m o := by
    obtain ⟨t, -, -, hlen⟩ := h
    omega
  unfold rejectEntries
  rw [← hdrCountOrSize_congr hagree (Nat.le_refl o) (by omega)]
  refine List.map_congr_left fun i hi => ?_
  have hin := h.record_inside ht (List.mem_range.1 hi)
  simp only [recordSize, sizeofReject] at hin
  simp only [rejectEntryAt, hdrContent, sizeofReject]
  rw [hagree _ (by omega) (by omega), hagree _ (by omega) (by omega)]

/-- The records of a peers message depend on its own bytes. -/
theorem HasRecords.peersOf_congr (h : HasRecords m o)
    (hagree : m.AgreeOn m' o (o + hdrLength m o)) {t : NrpdMsgType}
    (ht : hdrMsgType m o = t.code) (hpeers : isPeersType t = true) :
    peersOf m o = peersOf m' o := by
  have h4 : 4 ≤ hdrLength m o := by
    obtain ⟨t, -, -, hlen⟩ := h
    omega
  unfold peersOf
  rw [← hdrCountOrSize_congr hagree (Nat.le_refl o) (by omega),
    ← hdrMsgType_congr hagree (Nat.le_refl o) (by omega)]
  refine List.map_congr_left fun i hi => ?_
  have hin := h.record_inside ht (List.mem_range.1 hi)
  cases t <;> simp only [isPeersType] at hpeers <;> simp only [recordSize] at hin
  case ip4peers =>
    rw [if_pos ht, if_pos ht]
    exact ofIp4Peer_congr hagree (by simp only [hdrContent]; omega) hin
  case ip6peers =>
    have hne : hdrMsgType m o ≠ NrpdMsgType.ip4peers.code := by rw [ht]; decide
    rw [if_neg hne, if_neg hne]
    exact ofIp6Peer_congr hagree (by simp only [hdrContent]; omega) hin
  all_goals exact absurd hpeers (by decide)

/-- The message at an offset lies in a region on which two buffers agree. -/
structure AgreeOnMessage (m m' : Mem) (o b : ℕ) : Prop where
  agree : m.AgreeOn m' 0 b
  records : HasRecords m o
  inside : o + hdrLength m o ≤ b

namespace AgreeOnMessage

variable (h : AgreeOnMessage m m' o b)
include h

theorem header_inside : o + 4 ≤ b := by
  obtain ⟨t, -, -, hlen⟩ := h.records
  have := h.inside
  omega

theorem hdrMsgType_eq : hdrMsgType m o = hdrMsgType m' o :=
  hdrMsgType_congr h.agree (Nat.zero_le o) (by have := h.header_inside; omega)

theorem hdrCountOrSize_eq : hdrCountOrSize m o = hdrCountOrSize m' o :=
  hdrCountOrSize_congr h.agree (Nat.zero_le o) h.header_inside

theorem rejectEntries_eq (ht : hdrMsgType m o = NrpdMsgType.reject.code) :
    rejectEntries m o = rejectEntries m' o :=
  h.records.rejectEntries_congr (h.agree.mono (Nat.zero_le o) h.inside) ht

theorem peersOf_eq {t : NrpdMsgType} (ht : hdrMsgType m o = t.code)
    (hpeers : isPeersType t = true) : peersOf m o = peersOf m' o :=
  h.records.peersOf_congr (h.agree.mono (Nat.zero_le o) h.inside) ht hpeers

/-- The entropy of the message reads the same. -/
theorem read_entropy_eq (ht : hdrMsgType m o = NrpdMsgType.entropy.code) {m₁ m₁' : Mem}
    (hagree : m₁.AgreeOn m₁' 0 b) :
    m₁.read (o + 4) (hdrCountOrSize m o).toNat = m₁'.read (o + 4) (hdrCountOrSize m o).toNat := by
  refine hagree.read (Nat.zero_le _) ?_
  obtain ⟨t, -, ht', hlen⟩ := h.records
  obtain rfl := NrpdMsgType.code_injective (ht.symm.trans ht')
  have := h.inside
  rw [hlen, recordSize, Nat.one_mul] at this
  omega

end AgreeOnMessage

theorem scrambleEntropy_congr {bufSize entropy : ℕ} (random : RandomDevice) (secret : Mem)
    (hread : m.read entropy bufSize = m'.read entropy bufSize) (hagree : m.AgreeOn m' 0 b) :
    (scrambleEntropy bufSize entropy random secret m).2.1 =
        (scrambleEntropy bufSize entropy random secret m').2.1 ∧
      (scrambleEntropy bufSize entropy random secret m).2.2.AgreeOn
        (scrambleEntropy bufSize entropy random secret m').2.2 0 b := by
  unfold scrambleEntropy
  split
  · exact ⟨rfl, hagree⟩
  · simp only [hread]
    split
    · exact ⟨rfl, hagree⟩
    · exact ⟨rfl, hagree⟩
    · exact ⟨rfl, hagree.write _ _⟩

end Congr

/-! ### The same effects -/

section Effects

variable {m m' : Mem} {os : List ℕ} {o b n : ℕ} {s s' : ClientState}

/-- **The same effects.** A message has the same effects in two buffers that agree on it, and leaves
them in agreement. -/
theorem ClientState.SameEffects.takeMessage (h : s.SameEffects s')
    (hmsg : AgreeOnMessage s.buffer s'.buffer o b) (server : ServerRef) :
    (s.takeMessage server o).SameEffects (s'.takeMessage server o) ∧
      (s.takeMessage server o).buffer.AgreeOn (s'.takeMessage server o).buffer 0 b := by
  obtain ⟨config, clock, random, sink, secrets, buffer, msgCount⟩ := s
  obtain ⟨config', clock', random', sink', secrets', buffer', msgCount'⟩ := s'
  obtain ⟨rfl, rfl, rfl, rfl, rfl, rfl⟩ := h
  have htype := hmsg.hdrMsgType_eq
  have hcount := hmsg.hdrCountOrSize_eq
  have hagree := hmsg.agree
  simp only [takeMessage, ← htype]
  cases ht : NrpdMsgType.ofCode (hdrMsgType buffer o) with
  | none => exact ⟨⟨rfl, rfl, rfl, rfl, rfl, rfl⟩, hagree⟩
  | some t =>
    have hcode := NrpdMsgType.ofCode_eq_some.1 ht
    have hpeers (hpeers : isPeersType t = true) (enabled : Bool) :
        (takePeers ⟨config, clock, random, sink, secrets, buffer, msgCount⟩ enabled o).SameEffects
          (takePeers ⟨config, clock, random, sink, secrets, buffer', msgCount⟩ enabled o) ∧
        (takePeers ⟨config, clock, random, sink, secrets, buffer,
          msgCount⟩ enabled o).buffer.AgreeOn
          (takePeers ⟨config, clock, random, sink, secrets, buffer', msgCount⟩ enabled o).buffer
          0 b := by
      have hadded : config.addServersFromMessage buffer o clock =
          config.addServersFromMessage buffer' o clock := by
        simp only [NrpdConfig.addServersFromMessage, ← htype, hmsg.peersOf_eq hcode hpeers]
      unfold takePeers
      split
      · exact ⟨⟨by rw [hadded], by rw [hadded], rfl, rfl, rfl, rfl⟩, hagree⟩
      · exact ⟨⟨rfl, rfl, rfl, rfl, rfl, rfl⟩, hagree⟩
    cases t
    case entropy =>
      obtain ⟨hrandom, hmasked⟩ := scrambleEntropy_congr random
        (secrets random.taken) (hmsg.read_entropy_eq hcode hagree) hagree
      refine ⟨⟨rfl, rfl, ?_, ?_, rfl, rfl⟩, ?_⟩
      · simp only [takeEntropy, ← hcount]
        exact hrandom
      · simp only [takeEntropy, ← hcount, consumeEntropy, hmsg.read_entropy_eq hcode hmasked]
      · simp only [takeEntropy, ← hcount]
        exact hmasked
    case ip4peers => exact hpeers rfl _
    case ip6peers => exact hpeers rfl _
    case reject =>
      refine ⟨⟨?_, rfl, rfl, rfl, rfl, rfl⟩, hagree⟩
      simp only [takeRejections, hmsg.rejectEntries_eq hcode]
    all_goals exact ⟨⟨rfl, rfl, rfl, rfl, rfl, rfl⟩, hagree⟩

/-- **Two runs.** On two buffers that agree on a response packet, the client does the same. -/
theorem parseResponse_sameEffects (hpkt : IsResponsePacket m os)
    (hagree : m.AgreeOn m' 0 (pktLength m)) (server : ServerRef) (s : ClientState) :
    ∃ r r', parseResponse server maxResponseMessageSize { s with buffer := m } = some r ∧
      parseResponse server maxResponseMessageSize { s with buffer := m' } = some r' ∧
      r.SameEffects r' := by
  have hpkt' := hpkt.congr hagree
  have h8 := hpkt.length_ge
  have hstart : (responseStart { s with buffer := m }).2.SameEffects
        (responseStart { s with buffer := m' }).2 ∧
      (responseStart { s with buffer := m }).2.buffer.AgreeOn
        (responseStart { s with buffer := m' }).2.buffer 0 (pktLength m) ∧
      SameHeaders m (responseStart { s with buffer := m }).2.buffer os :=
    ⟨⟨rfl, rfl, rfl, rfl, rfl, rfl⟩, hagree, .refl m os⟩
  refine ⟨_, _, parseResponse_eq hpkt server, parseResponse_eq hpkt' server, ?_⟩
  refine ((responseWalk server maxResponseMessageSize).visitAll_rel
    (fun t t' => t.SameEffects t' ∧ t.buffer.AgreeOn t'.buffer 0 (pktLength m) ∧
      SameHeaders m t.buffer os) ?_ ?_ hstart).1
  · rintro o ho t t' ⟨heffects, hbuffers, -⟩
    have hend : endOfPacket t.buffer = endOfPacket t'.buffer :=
      hbuffers.be16 (Nat.le_refl 0) (by omega)
    have hcount : pktMsgCount t.buffer = pktMsgCount t'.buffer := hbuffers 3 (by omega) (by omega)
    simp only [responseWalk, hend, hcount, heffects.msgCount]
  · rintro o ho t t' ⟨heffects, hbuffers, hheaders⟩
    have hrecords := hheaders.hasRecords ho (hpkt.messages o ho).hasRecords
    have hinside : o + hdrLength t.buffer o ≤ pktLength m := by
      rw [← hheaders.hdrLength_eq ho]
      exact (hpkt.bounds o ho).2
    obtain ⟨htaken, hafter⟩ := heffects.takeMessage ⟨hbuffers, hrecords, hinside⟩ server
    exact ⟨⟨htaken.config, htaken.clock, htaken.random, htaken.sink, htaken.secrets,
      by simp only [responseWalk, heffects.msgCount]⟩, hafter, hheaders.takeMessage hpkt server ho⟩

/-- What the client does depends on the datagram alone when it is not truncated. -/
theorem onlyDatagramMatters_of_not_truncated {datagram : Mem}
    (h : ¬ IsTruncatedResponse datagram n) : OnlyDatagramMatters datagram n := by
  intro m m' hm hm'
  have hlength {m : Mem} {os : List ℕ} (hm : datagram.AgreeOn m 0 n)
      (hpkt : IsResponsePacket m os) : pktLength m ≤ n :=
    not_lt.1 fun hlong => h ⟨m, os, hm, hpkt, hlong⟩
  have hagree : m.AgreeOn m' 0 n := fun i h0 hi => (hm i h0 hi).symm.trans (hm' i h0 hi)
  have haccepted {m m' : Mem} (hm : datagram.AgreeOn m 0 n) (hagree : m.AgreeOn m' 0 n)
      (h : validateResponsePacket m = some true) : validateResponsePacket m' = some true := by
    obtain ⟨os, hpkt⟩ := validateResponsePacket_iff.1 h
    exact validateResponsePacket_iff.2
      ⟨os, hpkt.congr (hagree.mono (Nat.le_refl 0) (hlength hm hpkt))⟩
  refine ⟨?_, fun hvalid server s => ?_⟩
  · obtain ⟨r, hr⟩ := validateResponsePacket_isSome m
    obtain ⟨r', hr'⟩ := validateResponsePacket_isSome m'
    have hto := haccepted hm hagree
    have hfrom := haccepted hm' hagree.symm
    rw [hr, hr'] at hto hfrom ⊢
    cases r <;> cases r' <;> simp_all
  · obtain ⟨os, hpkt⟩ := validateResponsePacket_iff.1 hvalid
    exact parseResponse_sameEffects hpkt (hagree.mono (Nat.le_refl 0) (hlength hm hpkt)) server s

end Effects

end Nrpd
