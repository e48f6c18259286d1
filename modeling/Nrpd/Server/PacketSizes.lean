import Nrpd.Server.Packets

/-!
# The sizes of the packets for IPv4 clients

`ServerLoop` bounds a packet by the protocol that `IsAddressIp4` finds in the source address. It
tests for IPv6-mapped addresses, `::ffff:a.b.c.d`, by comparing twelve bytes with zeroes, which is
the prefix of other addresses: a dual-stack server sends to a mapped IPv4 client what it sends to an
IPv6 client.

## Main definitions

* `SockaddrStorage.IsMapped`, `SockaddrStorage.HasNullPrefix`: the prefix of mapped addresses, and
  the one that is tested.
* `IsIp4Client`: the source addresses of IPv4 clients.
* `PacketsFit`: every packet for a client is as small as one for IPv4.

## Main results

* `isAddressIp4_iff_packetsFit`: the sizes are those that `IsAddressIp4` decides.
* `ip4_packets_fit_iff`: for which addresses it decides rightly.
-/

namespace Nrpd

namespace SockaddrStorage

/-- An address in `::ffff:0:0/96`. -/
def IsMapped : SockaddrStorage → Prop
  | inet6 addr _ => addr.toList.take 12 = List.replicate 10 0 ++ [255, 255]
  | _ => False

/-- An address in `::/96`. -/
def HasNullPrefix : SockaddrStorage → Prop
  | inet6 addr _ => addr.toList.take 12 = List.replicate 12 0
  | _ => False

end SockaddrStorage

/-- The client is one of IPv4, seen by an IPv4 socket or by a dual-stack one. -/
def IsIp4Client : SockaddrStorage → Prop
  | .inet _ _ => True
  | srcAddr => srcAddr.IsMapped

/-- Whatever the server and the request are, a packet for the client has at most the size of a
packet for IPv4. -/
def PacketsFit (srcAddr : SockaddrStorage) : Prop :=
  ∀ server buffer clock packet length left,
    serverTurn server buffer srcAddr clock = some (.sent packet length, left) →
      length ≤ maxIp4PacketSize

/-! ### What the test decides -/

/-- The assertion before the packet is sent. -/
theorem length_le_of_sendPacket {buffer packet : Mem} {mtu length : ℤ} {parsed : ParseState}
    (h : sendPacket buffer mtu parsed = .sent packet length) : length ≤ mtu := by
  rw [sendPacket] at h
  by_cases hle : parsed.outMessageLength + nrpPacketHeaderSize ≤ mtu
  · rw [if_pos hle] at h
    split at h
    · obtain ⟨-, rfl⟩ := ServerOutcome.sent.inj h
      exact hle
    · cases h
  · rw [if_neg hle] at h
    cases h

/-- A packet is as large as the protocol of the client allows at most. -/
theorem length_le_of_serverTurn {server : NrpdServer} {buffer packet : Mem}
    {srcAddr : SockaddrStorage} {clock : SteadyClock} {length : ℤ}
    {left : NrpdServer × SteadyClock}
    (h : serverTurn server buffer srcAddr clock = some (.sent packet length, left)) :
    length ≤ mtuFor srcAddr := by
  obtain ⟨valid, -, h⟩ := Option.bind_eq_some_iff.1 h
  cases valid with
  | false => cases h
  | true =>
    simp only [Bool.not_true, Bool.false_eq_true, if_false] at h
    by_cases hrecent : (server.recentClients.isPresentAdd srcAddr clock).response = true
    · rw [if_pos hrecent] at h
      cases h
    · rw [if_neg hrecent] at h
      obtain ⟨parsed, -, h⟩ := Option.bind_eq_some_iff.1 h
      cases hparsed : parsed.1 with
      | false => simp [hparsed] at h
      | true =>
        simp only [hparsed, Bool.not_true, Bool.false_eq_true, if_false, Option.some.injEq,
          Prod.mk.injEq] at h
        exact length_le_of_sendPacket h.1

/-- A request for three times as much entropy as a message holds. -/
def entropyRequest : Mem :=
  fun a => [0, 16, 1, 3, 0, 4, 5, 255, 0, 4, 5, 255, 0, 4, 5, 255].getD a 0

/-- A server with a new configuration and a device that delivers whatever is asked for. -/
def entropyServer : NrpdServer × SteadyClock :=
  initializeServer (NrpdConfig.new true true ⟨fun _ => 0, 0⟩).1 steadyDevice ⟨fun _ => 0, 0⟩

set_option maxRecDepth 4000 in
/-- A client that is not taken for one of IPv4 is sent a larger packet when it asks for enough. -/
theorem exists_large_packet {srcAddr : SockaddrStorage} (h : isAddressIp4 srcAddr = false) :
    ∃ packet left, serverTurn entropyServer.1 entropyRequest srcAddr entropyServer.2 =
      some (.sent packet 781, left) := by
  have hmtu : mtuFor srcAddr = maxIp6PacketSize := by
    rw [mtuFor, h]
    rfl
  have hvalid : validateRequestPacket entropyRequest = some true := by decide
  have hnew : (entropyServer.1.recentClients.isPresentAdd srcAddr entropyServer.2).response =
      false := rfl
  obtain ⟨parsed, hparse, packet, hsent⟩ : ∃ parsed, parseMessages entropyRequest maxIp6PacketSize
      entropyServer.1.config entropyServer.1.random = some (true, parsed) ∧
      ∃ packet, sendPacket entropyRequest maxIp6PacketSize parsed = .sent packet 781 :=
    ⟨_, rfl, _, rfl⟩
  simp only [serverTurn, hvalid, hnew, hmtu, hparse, hsent, Option.bind_eq_bind, Option.bind_some,
    Bool.not_true, Bool.false_eq_true, if_false, Option.some.injEq, Prod.mk.injEq]
  exact ⟨_, _, ⟨rfl, rfl⟩⟩

/-- **Sizes.** The packets for a client are as small as those for IPv4 exactly when `IsAddressIp4`
takes the client for one of IPv4. -/
theorem isAddressIp4_iff_packetsFit {srcAddr : SockaddrStorage} :
    isAddressIp4 srcAddr = true ↔ PacketsFit srcAddr := by
  constructor
  · intro h server buffer clock packet length left hsent
    have hle := length_le_of_serverTurn hsent
    rwa [mtuFor, if_pos h] at hle
  · intro hfit
    by_contra h
    obtain ⟨packet, left, hsent⟩ := exists_large_packet (by simpa using h)
    exact absurd (hfit _ _ _ _ _ _ hsent) (by decide)

/-! ### Which addresses it is right about -/

theorem isAddressIp4_inet6_iff {addr : Vector UInt8 16} {port : UInt16} :
    isAddressIp4 (.inet6 addr port) = true ↔ (SockaddrStorage.inet6 addr port).HasNullPrefix := by
  rw [isAddressIp4, beq_iff_eq]
  rfl

/-- The two prefixes differ. -/
theorem SockaddrStorage.IsMapped.not_hasNullPrefix {srcAddr : SockaddrStorage}
    (h : srcAddr.IsMapped) : ¬ srcAddr.HasNullPrefix := by
  cases srcAddr with
  | inet6 addr port => exact fun hnull => absurd (hnull.symm.trans h) (by decide)
  | _ => cases h

/-- **Packets for IPv4 clients.** `IsAddressIp4` is right about an address, and the packets for an
IPv4 client with this address are no larger than a packet for IPv4, exactly when the address has
neither the prefix of mapped addresses nor the one that is tested; the packets for an IPv4 client
are too large exactly when its address is mapped. -/
theorem ip4_packets_fit_iff (srcAddr : SockaddrStorage) :
    ((isAddressIp4 srcAddr = true ↔ IsIp4Client srcAddr) ∧
        (IsIp4Client srcAddr → PacketsFit srcAddr) ↔
      ¬ srcAddr.IsMapped ∧ ¬ srcAddr.HasNullPrefix) ∧
    (IsIp4Client srcAddr → (PacketsFit srcAddr ↔ ¬ srcAddr.IsMapped)) := by
  rw [← isAddressIp4_iff_packetsFit]
  cases srcAddr with
  | inet addr port => exact ⟨iff_of_true ⟨iff_of_true rfl trivial, fun _ => rfl⟩ ⟨id, id⟩,
      fun _ => iff_of_true rfl id⟩
  | inet6 addr port =>
    rw [isAddressIp4_inet6_iff]
    have hdiffer : (SockaddrStorage.inet6 addr port).IsMapped →
        ¬ (SockaddrStorage.inet6 addr port).HasNullPrefix :=
      SockaddrStorage.IsMapped.not_hasNullPrefix
    have hmapped : IsIp4Client (.inet6 addr port) ↔ (SockaddrStorage.inet6 addr port).IsMapped :=
      Iff.rfl
    rw [hmapped]
    tauto
  | other family => exact ⟨iff_of_true ⟨iff_of_false (by simp [isAddressIp4]) id, False.elim⟩
      ⟨id, id⟩, False.elim⟩

/-- An IPv4 client of a dual-stack server is sent a packet of 781 bytes. -/
theorem mapped_client_oversized :
    IsIp4Client (.inet6 #v[0, 0, 0, 0, 0, 0, 0, 0, 0, 0, 255, 255, 10, 0, 0, 1] 8080) ∧
      validateRequestPacket entropyRequest = some true ∧
      ∃ packet left, serverTurn entropyServer.1 entropyRequest
          (.inet6 #v[0, 0, 0, 0, 0, 0, 0, 0, 0, 0, 255, 255, 10, 0, 0, 1] 8080) entropyServer.2 =
        some (.sent packet 781, left) ∧ ¬ (781 : ℤ) ≤ maxIp4PacketSize := by
  have hip6 : isAddressIp4
      (.inet6 #v[0, 0, 0, 0, 0, 0, 0, 0, 0, 0, 255, 255, 10, 0, 0, 1] 8080) = false := by decide
  obtain ⟨packet, left, hsent⟩ := exists_large_packet hip6
  exact ⟨show List.take 12 _ = _ by decide, by decide, packet, left, hsent, by decide⟩

end Nrpd
