import Nrpd.Protocol.RequestGrammar
import Nrpd.Server.NrpdServer

/-!
# The messages of an accepted request

An accepted request is tiled by its messages: they follow each other from behind the packet header
to the end of the packet, as many as the packet header says. A message for peers or entropy is a
whole one, because its length is checked. Nothing checks the length of a message of a type from
`certchain` on: it may be shorter than a message header, and a header that is read there reaches
behind the packet when it is the last one. The messages are whole ones exactly when those of other
types are.

## Main definitions

* `TiledByWholeMessages`: whole messages tile the packet, and every header that is read lies inside.
* `OtherMessagesWhole`: the messages of types from `certchain` on have the length of a header.

## Main results

* `headerReached_iff_mem`: the headers that the validator reads are those of the messages.
* `mem_of_mem_parsed`: so are the headers that `ParseMessages` reads.
* `validateRequestPacket_tiled_iff`: when an accepted request is tiled by whole messages.
-/

namespace Nrpd

open Segments

variable {pkt : Mem} {os : List ℕ}

/-! ### The headers that are read -/

/-- **The validator.** In a packet that its accepted messages fill, the loop reads the headers of
these messages and no others. -/
theorem headerReached_iff_mem {isRequest : Bool}
    (htiles : Tiles (hdrLength pkt) pktMessages os (endOfPacket pkt))
    (hok : ∀ o ∈ os, validateMessageHeader pkt o isRequest = true) (o : ℕ) :
    HeaderReached pkt isRequest o ∧ o < endOfPacket pkt ↔ o ∈ os := by
  constructor
  · rintro ⟨hreached, hlt⟩
    have hmem : o ∈ os ∨ o = endOfPacket pkt := by
      induction hreached with
      | first => exact htiles.start_mem
      | behind _ hbefore _ ih =>
        have hprev := (ih hbefore).resolve_right (by omega)
        exact htiles.next_mem hprev
    exact hmem.resolve_right (by omega)
  · intro ho
    have hbounds := htiles.bounds o ho
    refine ⟨?_, by omega⟩
    -- the offset is reached by the messages before it
    suffices H : ∀ post a, Tiles (hdrLength pkt) a post (endOfPacket pkt) →
        HeaderReached pkt isRequest a → (∀ p ∈ post, p ∈ os) →
          ∀ p ∈ post, HeaderReached pkt isRequest p from
      H os _ htiles .first (fun _ hp => hp) o ho
    intro post
    induction post with
    | nil => intro a _ _ _ p hp; cases hp
    | cons q post ih =>
      intro a hpost hreached hsub p hp
      have hlt := hpost.lt_of_ne_nil (List.cons_ne_nil _ _)
      cases hpost with
      | cons hpos htail =>
        rcases List.mem_cons.1 hp with rfl | hp
        · exact hreached
        · exact ih _ htail (hreached.behind hlt (hok q (hsub q List.mem_cons_self)))
            (fun p hp => hsub p (List.mem_cons_of_mem _ hp)) p hp

/-- **The server.** `ParseMessages` reads the headers of the messages and no others. -/
theorem mem_of_mem_parsed (htiles : Tiles (hdrLength pkt) pktMessages os (endOfPacket pkt))
    {fuel o : ℕ} {s : ParseState} (ho : o ∈ (parseWalk pkt).visited fuel (pktMessages, s)) :
    o ∈ os :=
  (parseWalk pkt).mem_of_mem_visited htiles (fun s => by simp [parseWalk]) (fun _ _ _ => rfl) ho

/-! ### Whole messages -/

/-- Whole messages, as many as the packet header says, fill the packet from behind its header to its
end, and the headers that the validator and `ParseMessages` read lie inside the packet. -/
structure TiledByWholeMessages (pkt : Mem) : Prop where
  tiles : ∃ os, Tiles (hdrLength pkt) pktMessages os (pktLength pkt) ∧
    os.length = (pktMsgCount pkt).toNat ∧ ∀ o ∈ os, 4 ≤ hdrLength pkt o
  validated : ∀ o, HeaderReached pkt true o → o < endOfPacket pkt → o + 4 ≤ pktLength pkt
  parsed : ∀ mtu c random fuel,
    ∀ o ∈ (parseWalk pkt).visited fuel (pktMessages, .start mtu c random), o + 4 ≤ pktLength pkt

/-- The messages of types from `certchain` on, whose length nothing checks, have at least the length
of a message header. -/
def OtherMessagesWhole (pkt : Mem) : Prop :=
  ∀ o, HeaderReached pkt true o → o < endOfPacket pkt →
    NrpdMsgType.certchain.code ≤ hdrMsgType pkt o → 4 ≤ hdrLength pkt o

/-- The messages for peers and entropy are whole ones. -/
theorem IsRequestPacket.hdrLength_ge (h : IsRequestPacket pkt os)
    (hothers : ∀ o ∈ os, NrpdMsgType.certchain.code ≤ hdrMsgType pkt o → 4 ≤ hdrLength pkt o) :
    ∀ o ∈ os, 4 ≤ hdrLength pkt o := by
  intro o ho
  cases h.messages o ho with
  | known hlen => exact hlen.ge
  | other _ hmin => exact hothers o ho (UInt8.le_iff_toNat_le.2 hmin)

/-- **Accepted requests.** An accepted request is tiled by whole messages exactly when its messages
of types from `certchain` on are whole ones. -/
theorem validateRequestPacket_tiled_iff (h : validateRequestPacket pkt = some true) :
    TiledByWholeMessages pkt ↔ OtherMessagesWhole pkt := by
  obtain ⟨os, hpacket⟩ := validateRequestPacket_iff.1 h
  have hreached (o : ℕ) : HeaderReached pkt true o ∧ o < endOfPacket pkt ↔ o ∈ os :=
    headerReached_iff_mem hpacket.tiles
      (fun o ho => validateMessageHeader_isRequestMessage_iff.2 (hpacket.messages o ho)) o
  constructor
  · rintro ⟨⟨os', htiles, -, hwhole⟩, -, -⟩ o ho hlt -
    rw [hpacket.tiles.unique htiles] at hreached
    exact hwhole o ((hreached o).1 ⟨ho, hlt⟩)
  · intro hothers
    have hwhole : ∀ o ∈ os, 4 ≤ hdrLength pkt o :=
      hpacket.hdrLength_ge fun o ho => hothers o ((hreached o).2 ho).1 ((hreached o).2 ho).2
    have hinside : ∀ o ∈ os, o + 4 ≤ pktLength pkt := fun o ho => by
      have := hpacket.bounds o ho
      have := hwhole o ho
      omega
    exact {
      tiles := ⟨os, hpacket.tiles, hpacket.count_eq, hwhole⟩
      validated := fun o ho hlt => hinside o ((hreached o).1 ⟨ho, hlt⟩)
      parsed := fun _ _ _ _ o ho => hinside o (mem_of_mem_parsed hpacket.tiles ho) }

/-- A request of twelve bytes: an entropy message, and a message of an unknown type with no content.
-/
def unknownRequest : Mem := Mem.zero.write 0 [0, 12, 1, 2, 0, 4, 5, 0, 0, 4, 99, 0]

theorem validateRequestPacket_tiled_example : TiledByWholeMessages unknownRequest := by
  refine (validateRequestPacket_tiled_iff (by decide)).2 fun o hreached hlt hother => ?_
  have hoffsets : o = 4 ∨ o = 8 ∨ o = 12 := by
    clear hlt hother
    induction hreached with
    | first => exact .inl rfl
    | behind _ hlt _ ih =>
      rcases ih with rfl | rfl | rfl
      · exact .inr (.inl rfl)
      · exact .inr (.inr rfl)
      · exact absurd hlt (by decide)
  rcases hoffsets with rfl | rfl | rfl
  · decide
  · decide
  · exact absurd hlt (by decide)

/-- A request of five bytes, whose one message has type `certchain` and length `1`. -/
def shortRequest : Mem := Mem.zero.write 0 [0, 5, 1, 1, 0, 1, 7, 0]

/-- The validator accepts `shortRequest`, although it reads a header there that ends at offset `8`.
-/
theorem shortRequest_accepted :
    validateRequestPacket shortRequest = some true ∧ pktLength shortRequest = 5 ∧
      HeaderReached shortRequest true 4 ∧ ¬ TiledByWholeMessages shortRequest := by
  refine ⟨by decide, by decide, .first, fun h => ?_⟩
  have hinside : 4 + 4 ≤ pktLength shortRequest := h.validated 4 .first (by decide)
  exact absurd hinside (by decide)

end Nrpd
