import Nrpd.Protocol.RequestGrammar
import Nrpd.Protocol.Generation

/-!
# Requests survive the wire

A request for known types is a list of types and sizes, each of them in a bare header. A buffer that
holds its bytes, whatever is behind them, is a packet that the validator accepts, and the server
reads the same list from it.

## Main definitions

* `requestsAt`: the messages of a request.
* `requestBytes`: a request as it stands in a packet.

## Main results

* `requestsAt_of_read`: a request is accepted, and read back.
-/

namespace Nrpd

open Segments

/-- The type and the count of each message of a request. -/
def requestsAt (pkt : Mem) (os : List ℕ) : List (UInt8 × UInt8) :=
  os.map fun o => (hdrMsgType pkt o, hdrCountOrSize pkt o)

/-- A message of a request as it stands in a packet. -/
def bareBytes (request : UInt8 × UInt8) : List UInt8 := headerBytes 4 request.1 request.2

/-- A request as it stands in a packet. -/
def requestBytes (requests : List (UInt8 × UInt8)) : List UInt8 :=
  headerBytes (4 + 4 * requests.length) NrpdMsgType.request.code (.ofNat requests.length) ++
    requests.flatMap bareBytes

section Bytes

variable {m : Mem} {a : ℕ} {requests : List (UInt8 × UInt8)}

theorem length_flatMap_bareBytes (requests : List (UInt8 × UInt8)) :
    (requests.flatMap bareBytes).length = 4 * requests.length := by
  have hlength : (requests.flatMap bareBytes).length = requests.length * 4 :=
    Mem.length_flatMap_of_length fun _ _ => rfl
  rw [hlength, Nat.mul_comm]

@[simp] theorem length_requestBytes (requests : List (UInt8 × UInt8)) :
    (requestBytes requests).length = 4 + 4 * requests.length := by
  rw [requestBytes, List.length_append, length_headerBytes, length_flatMap_bareBytes]

/-- Where the bytes of bare headers stand, they fill the region. -/
theorem exists_tiles_of_bareBytes
    (hread : m.read a (4 * requests.length) = requests.flatMap bareBytes) :
    ∃ os, Tiles (hdrLength m) a os (a + 4 * requests.length) ∧ os.length = requests.length ∧
      requestsAt m os = requests ∧ ∀ o ∈ os, hdrLength m o = 4 := by
  induction requests generalizing a with
  | nil => exact ⟨[], .nil a, rfl, rfl, fun _ ho => absurd ho List.not_mem_nil⟩
  | cons request requests ih =>
    have hsplit : m.read a (bareBytes request ++ requests.flatMap bareBytes).length =
        bareBytes request ++ requests.flatMap bareBytes := by
      rw [List.length_append, length_flatMap_bareBytes]
      rwa [List.length_cons, Nat.mul_succ, Nat.add_comm (4 * _)] at hread
    obtain ⟨hfirst, hrest⟩ := Mem.read_eq_append hsplit
    obtain ⟨hlength, htype, hcount⟩ :=
      header_of_read (show 4 < 65536 by omega) hfirst
    rw [length_flatMap_bareBytes] at hrest
    obtain ⟨os, htiles, hos, hrequests, hbare⟩ := ih hrest
    refine ⟨a :: os, ?_, by rw [List.length_cons, List.length_cons, hos], ?_, ?_⟩
    · have hcons : Tiles (hdrLength m) a (a :: os) (a + 4 + 4 * requests.length) :=
        .cons (by omega) (hlength.symm ▸ htiles)
      rwa [List.length_cons, Nat.mul_succ, Nat.add_comm (4 * _), ← Nat.add_assoc]
    · exact congrArg₂ List.cons (Prod.ext htype hcount) hrequests
    · intro o ho
      rcases List.mem_cons.1 ho with rfl | ho
      · exact hlength
      · exact hbare o ho

/-- **Requests survive the wire.** A buffer that holds a request for known types is a request
packet, and the messages of the packet are those of the request. -/
theorem requestsAt_of_read (hpos : 1 ≤ requests.length) (hle : requests.length ≤ maxByte)
    (hknown : ∀ request ∈ requests, 4 ≤ request.1.toNat ∧ request.1.toNat ≤ 6)
    (hread : m.read 0 (4 + 4 * requests.length) = requestBytes requests) :
    ∃ os, IsRequestPacket m os ∧ requestsAt m os = requests := by
  have hmax : requests.length ≤ 255 := hle
  have hsplit : m.read 0 (headerBytes (4 + 4 * requests.length) NrpdMsgType.request.code
      (.ofNat requests.length) ++ requests.flatMap bareBytes).length = requestBytes requests := by
    rwa [← requestBytes, length_requestBytes]
  obtain ⟨hheader, hbody⟩ := Mem.read_eq_append hsplit
  obtain ⟨hlength, htype, hcount⟩ :=
    header_of_read (show 4 + 4 * requests.length < 65536 by omega) hheader
  rw [length_flatMap_bareBytes] at hbody
  obtain ⟨os, htiles, hos, hrequests, hbare⟩ := exists_tiles_of_bareBytes hbody
  have hbyte : (pktMsgCount m).toNat = requests.length := by
    rw [show pktMsgCount m = .ofNat requests.length from hcount, UInt8.toNat_ofNat',
      Nat.mod_eq_of_lt (by omega)]
  have hpkt : pktLength m = 4 + 4 * requests.length := hlength
  refine ⟨os, ⟨by omega, htype, by omega, by omega, hpkt ▸ htiles, fun o ho => ?_⟩, hrequests⟩
  have hmem : (hdrMsgType m o, hdrCountOrSize m o) ∈ requests :=
    hrequests ▸ List.mem_map.2 ⟨o, ho, rfl⟩
  obtain ⟨hmin, hmax⟩ := hknown _ hmem
  exact .known (hbare o ho) hmin hmax

end Bytes

end Nrpd
