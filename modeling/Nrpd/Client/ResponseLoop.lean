import Nrpd.Client.NrpdClient

/-!
# The loop over the messages of a response

`ParseResponse` goes through the messages of a response packet that the validator has accepted. It
masks entropy in the buffer it walks over, which changes no header.

## Main definitions

* `SameHeaders`: two buffers with the same packet header and the same message headers.

## Main results

* `SameHeaders.takeMessage`: no message of a response changes a header.
* `parseResponse_eq`: the loop ends behind the last message.
* `validateResponsePacket_parseResponse`: the validator accepts the grammar, and the loop visits the
  messages of the grammar.
-/

namespace Nrpd

open FuelLoop Segments

/-! ### Headers -/

/-- The length of a message is that of its header and its records. -/
def HasRecords (m : Mem) (o : ℕ) : Prop :=
  ∃ t : NrpdMsgType, 0 < recordSize t ∧ hdrMsgType m o = t.code ∧
    hdrLength m o = 4 + recordSize t * (hdrCountOrSize m o).toNat

theorem IsResponseMessage.hasRecords {m : Mem} {o : ℕ} (h : IsResponseMessage m o) :
    HasRecords m o := by
  cases h with
  | reject htype _ hlen _ => exact ⟨.reject, Nat.two_pos, htype, hlen⟩
  | ip4peers htype hlen => exact ⟨.ip4peers, by decide, htype, hlen⟩
  | entropy htype hlen =>
    exact ⟨.entropy, Nat.one_pos, htype, by rw [hlen, recordSize, Nat.one_mul]⟩
  | ip6peers htype hlen => exact ⟨.ip6peers, by decide, htype, hlen⟩

/-- Two buffers with the same packet header and the same headers of the messages at `os`. -/
structure SameHeaders (m m' : Mem) (os : List ℕ) : Prop where
  packet : m.AgreeOn m' 0 4
  message : ∀ o ∈ os, m.AgreeOn m' o (o + 4)

namespace SameHeaders

variable {m m' : Mem} {os : List ℕ} {o : ℕ}

theorem refl (m : Mem) (os : List ℕ) : SameHeaders m m os :=
  ⟨fun _ _ _ => rfl, fun _ _ _ _ _ => rfl⟩

variable (h : SameHeaders m m' os)
include h

theorem pktLength_eq : pktLength m = pktLength m' :=
  hdrLength_congr h.packet (Nat.le_refl 0) (by omega)

theorem pktMsgCount_eq : pktMsgCount m = pktMsgCount m' := h.packet 3 (by omega) (by omega)

theorem hdrLength_eq (ho : o ∈ os) : hdrLength m o = hdrLength m' o :=
  hdrLength_congr (h.message o ho) (Nat.le_refl o) (by omega)

theorem hdrMsgType_eq (ho : o ∈ os) : hdrMsgType m o = hdrMsgType m' o :=
  hdrMsgType_congr (h.message o ho) (Nat.le_refl o) (by omega)

theorem hdrCountOrSize_eq (ho : o ∈ os) : hdrCountOrSize m o = hdrCountOrSize m' o :=
  hdrCountOrSize_congr (h.message o ho) (Nat.le_refl o) (by omega)

theorem hasRecords (ho : o ∈ os) (hrecords : HasRecords m o) : HasRecords m' o := by
  obtain ⟨t, hpos, ht, hlen⟩ := hrecords
  exact ⟨t, hpos, by rw [← h.hdrMsgType_eq ho, ht],
    by rw [← h.hdrLength_eq ho, ← h.hdrCountOrSize_eq ho, hlen]⟩

end SameHeaders

/-! ### Messages change no headers -/

section Buffer

variable {m : Mem} {os : List ℕ} {o : ℕ} {s : ClientState}

theorem length_maskEntropy (secret : Mem) (entropy : List UInt8) :
    (maskEntropy secret entropy).length = entropy.length := by
  simp [maskEntropy]

/-- Masking writes over the entropy and nothing else. -/
theorem scrambleEntropy_eq_write (bufSize entropy : ℕ) (random : RandomDevice) (secret m : Mem) :
    ∃ bytes, (scrambleEntropy bufSize entropy random secret m).2.2 = m.write entropy bytes ∧
      (bytes = [] ∨ bytes.length = bufSize) := by
  rw [scrambleEntropy]
  split
  · exact ⟨[], (Mem.write_nil m entropy).symm, .inl rfl⟩
  · simp only
    split
    · exact ⟨[], (Mem.write_nil m entropy).symm, .inl rfl⟩
    · exact ⟨[], (Mem.write_nil m entropy).symm, .inl rfl⟩
    · exact ⟨_, rfl, .inr (by rw [length_maskEntropy, Mem.length_read])⟩

/-- A message of a response changes the buffer in its content only, and only when it is entropy. -/
theorem ClientState.buffer_takeMessage (s : ClientState) (server : ServerRef) (msg : ℕ) :
    ∃ bytes, (s.takeMessage server msg).buffer = s.buffer.write (hdrContent msg) bytes ∧
      (bytes = [] ∨ hdrMsgType s.buffer msg = NrpdMsgType.entropy.code ∧
        bytes.length = (hdrCountOrSize s.buffer msg).toNat) := by
  have hsame {b : Mem} (hb : b = s.buffer) : ∃ bytes, b = s.buffer.write (hdrContent msg) bytes ∧
      (bytes = [] ∨ hdrMsgType s.buffer msg = NrpdMsgType.entropy.code ∧
        bytes.length = (hdrCountOrSize s.buffer msg).toNat) :=
    ⟨[], by rw [hb, Mem.write_nil], .inl rfl⟩
  rw [takeMessage]
  split
  · next htype =>
    obtain ⟨bytes, hbuffer, hbytes⟩ := scrambleEntropy_eq_write (hdrCountOrSize s.buffer msg).toNat
      (hdrContent msg) s.random (s.secrets s.random.taken) s.buffer
    exact ⟨bytes, hbuffer, hbytes.imp_right (⟨NrpdMsgType.ofCode_eq_some.1 htype, ·⟩)⟩
  · exact hsame (by rw [takePeers]; split <;> rfl)
  · exact hsame (by rw [takePeers]; split <;> rfl)
  · exact hsame rfl
  · exact hsame rfl

/-- **Headers.** No message of a response changes a header. -/
theorem SameHeaders.takeMessage (h : SameHeaders m s.buffer os) (hpkt : IsResponsePacket m os)
    (server : ServerRef) (ho : o ∈ os) : SameHeaders m (s.takeMessage server o).buffer os := by
  obtain ⟨bytes, hbuffer, hbytes⟩ := s.buffer_takeMessage server o
  rcases hbytes with rfl | ⟨htype, hlength⟩
  · rw [hbuffer, Mem.write_nil]
    exact h
  -- the bytes that are written end where the message ends
  have hlen : hdrLength m o = 4 + bytes.length := by
    obtain ⟨t, -, ht, hlen⟩ := (hpkt.messages o ho).hasRecords
    rw [← h.hdrMsgType_eq ho, ht] at htype
    obtain rfl := NrpdMsgType.code_injective htype
    rw [hlen, hlength, h.hdrCountOrSize_eq ho, recordSize, Nat.one_mul]
  have h4 : 4 ≤ o := (hpkt.bounds o ho).1
  have hkeep {a : ℕ} (ha : m.AgreeOn s.buffer a (a + 4))
      (hdisjoint : a + 4 ≤ o + 4 ∨ o + hdrLength m o ≤ a) :
      m.AgreeOn (s.takeMessage server o).buffer a (a + 4) := by
    intro i hi hi'
    rw [ha i hi hi', hbuffer, Mem.write_of_notMem]
    simp only [hdrContent]
    omega
  refine ⟨hkeep h.packet (.inl (by omega)), fun o' ho' => hkeep (h.message o' ho') ?_⟩
  have hlen' := (hpkt.messages o' ho').hdrLength_ge
  rcases hpkt.tiles.eq_or_disjoint ho ho' with rfl | hafter | hbefore <;> omega

end Buffer

/-! ### The loop -/

section Loop

variable {m : Mem} {os : List ℕ} {o : ℕ} {s : ClientState} {server : ServerRef}

theorem IsResponsePacket.os_length_le (h : IsResponsePacket m os) : os.length ≤ maxByte := by
  have := (pktMsgCount m).toNat_lt
  have := h.count_eq
  simp only [maxByte]
  omega

/-- The guard fails at the end of the packet. -/
private theorem guard_end (h : SameHeaders m s.buffer os) (bufSize : ℕ) :
    (responseWalk server bufSize).guard (pktLength m) s = false := by
  have hend : ¬ pktLength m < endOfPacket s.buffer := by
    rw [endOfPacket, ← h.pktLength_eq]
    omega
  simp [responseWalk, hend]

/-- **The loop of `ParseResponse`.** On a response packet it is left in the state that the messages
leave, taken in their order. -/
theorem parseResponse_eq (hpkt : IsResponsePacket s.buffer os) (server : ServerRef) :
    parseResponse server maxResponseMessageSize s = some
      ((responseWalk server maxResponseMessageSize).visitAll os (responseStart s).2) := by
  obtain ⟨p, hp⟩ := (responseWalk server maxResponseMessageSize).run_eq_visitAll
    (fun s' => SameHeaders s.buffer s'.buffer os) hpkt.tiles (fun s' h => guard_end h _)
    (fun o ho s' h _ => h.takeMessage hpkt server ho)
    (fun o ho s' h => by rw [h.hdrLength_eq ho]; rfl) (s := (responseStart s).2) (.refl _ _)
  have hcount := hpkt.os_length_le
  have hrun := run_mono (show os.length + 1 ≤ maxByte + 1 by omega) hp
  rw [parseResponse, show responseStart s = (pktMessages, (responseStart s).2) from rfl, hrun]
  rfl

/-- The guard holds at every message of the packet. -/
theorem guard_responseWalk {pre post : List ℕ} (hpkt : IsResponsePacket m os)
    (h : SameHeaders m s.buffer os) (hos : os = pre ++ o :: post)
    (hcount : s.msgCount = pre.length) :
    (responseWalk server maxResponseMessageSize).guard o s = true := by
  have hinside := hpkt.tiles.bounds o (by simp [hos])
  have hmax := hpkt.length_le
  have hn := hpkt.count_eq
  rw [hos, List.length_append, List.length_cons] at hn
  simp only [responseWalk, endOfPacket, ← h.pktLength_eq, ← h.pktMsgCount_eq, Bool.and_eq_true,
    decide_eq_true_eq, maxResponseMessageSize]
  omega

/-- On a response packet `ParseResponse` visits its messages in their order. -/
theorem visited_responseWalk (hpkt : IsResponsePacket s.buffer os) (server : ServerRef) {fuel : ℕ}
    (hfuel : os.length ≤ fuel) :
    (responseWalk server maxResponseMessageSize).visited fuel (responseStart s) = os := by
  refine (responseWalk server maxResponseMessageSize).visited_eq
    (fun pre s' => SameHeaders s.buffer s'.buffer os ∧ s'.msgCount = pre.length) hpkt.tiles
    (fun s' h => guard_end h.1 _) ?_ (s := (responseStart s).2) ⟨.refl _ _, rfl⟩ hfuel
  rintro pre o ⟨post, hos⟩ s' ⟨h, hcount⟩
  have ho : o ∈ os := by simp [hos]
  have h' := h.takeMessage hpkt server ho
  refine ⟨guard_responseWalk hpkt h hos hcount, ⟨h', ?_⟩, ?_⟩
  · simp [responseWalk, hcount]
  · show nextMessage (s'.takeMessage server o).buffer o = o + hdrLength s.buffer o
    rw [nextMessage, h'.hdrLength_eq ho]

/-- **Validator and parser.** The validator of responses returns for every buffer, and accepts the
packets of the grammar and no others; and on those `ParseResponse` ends in the state that the
messages of the grammar leave, and visits exactly these in their order. -/
theorem validateResponsePacket_parseResponse (m : Mem) :
    (∃ accepted, validateResponsePacket m = some accepted) ∧
      (validateResponsePacket m = some true ↔ ∃ os, IsResponsePacket m os) ∧
      ∀ os, IsResponsePacket m os → ∀ (server : ServerRef) (s : ClientState), s.buffer = m →
        parseResponse server maxResponseMessageSize s = some
          ((responseWalk server maxResponseMessageSize).visitAll os (responseStart s).2) ∧
        ∀ fuel ≥ os.length,
          (responseWalk server maxResponseMessageSize).visited fuel (responseStart s) = os := by
  refine ⟨validateResponsePacket_isSome m, validateResponsePacket_iff, ?_⟩
  rintro os hpkt server s rfl
  exact ⟨parseResponse_eq hpkt server, fun fuel hfuel => visited_responseWalk hpkt server hfuel⟩

/-- A client with a new configuration, a device that cannot be read but takes all bytes, and a given
receive buffer. -/
def newClient (buffer : Mem) : ClientState where
  config := (NrpdConfig.new true true ⟨fun _ => 0, 0⟩).1
  clock := ⟨fun _ => 0, 0⟩
  random := ⟨fun _ _ => none, 0⟩
  sink := ⟨fun _ n => n, []⟩
  secrets := fun _ => Mem.zero
  buffer := buffer
  msgCount := 0

/-- A response with an entropy message of one byte. -/
def entropyResponse (byte : UInt8) : Mem := fun a => [0, 9, 2, 1, 0, 5, 5, 1, byte].getD a 0

/-- A response with a rejection, a peer, three bytes of entropy, and a byte behind the packet. -/
def mixedResponse : Mem := Mem.zero.write 0
  [0, 27, 2, 3, 0, 6, 3, 1, 7, 3, 0, 10, 4, 1, 10, 0, 0, 9, 31, 144, 0, 7, 5, 3, 1, 2, 3, 9]

/-- The messages of `mixedResponse` are visited one after the other. -/
theorem validateResponsePacket_parseResponse_example :
    validateResponsePacket mixedResponse = some true ∧
      ∃ s, parseResponse (.configured 0) maxResponseMessageSize (newClient mixedResponse) = some s ∧
        s = (responseWalk (.configured 0) maxResponseMessageSize).visitAll [4, 10, 20]
          (responseStart (newClient mixedResponse)).2 ∧
        s.config.probationaryServers.length = 1 ∧
        (responseWalk (.configured 0) maxResponseMessageSize).visited 3
          (responseStart (newClient mixedResponse)) = [4, 10, 20] := by
  have haccepted : validateResponsePacket mixedResponse = some true := by decide
  obtain ⟨-, hgrammar, hparse⟩ := validateResponsePacket_parseResponse mixedResponse
  obtain ⟨os, hpkt⟩ := hgrammar.1 haccepted
  have htiles : Tiles (hdrLength mixedResponse) 4 [4, 10, 20] 27 :=
    .cons (by decide) (.cons (by decide) (.cons (by decide) (.nil 27)))
  obtain rfl := hpkt.tiles.unique htiles
  obtain ⟨hresult, hvisited⟩ := hparse _ hpkt (.configured 0) (newClient mixedResponse) rfl
  exact ⟨haccepted, _, hresult, rfl, by decide, hvisited 3 (Nat.le_refl 3)⟩

end Loop

end Nrpd
