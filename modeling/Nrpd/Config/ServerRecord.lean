import Mathlib.Data.Int.Order.Basic
import Mathlib.Data.List.Lex
import Nrpd.Lib.ByteMemory
import Nrpd.Lib.OrderedSet
import Nrpd.Protocol.MessageFormat

/-!
# Server records

`ServerRecord` of `config.h`. The address and the flag that tells its family are one value, a
`Host`. Two records are equal when family, port and address bytes are; the order of the set of
active servers looks at family and address bytes only, so records that differ in the port are
equivalent for it.

## Main definitions

* `Host`, `ServerRecord`: addresses and records.
* `ServerRecord.beq`, `ServerRecord.lt`: `operator==` and `operator<`.
* `ServerRecord.ofIp4Peer`, `ServerRecord.ofIp6Peer`: the records of the entries of a peers
  message.

## Main results

* The instances of `EquivBEq` and `StrictWeakOrder`.
* `ServerRecord.equiv_lt_iff`: what the order does not tell apart.
-/

namespace Nrpd

/-- The address of a server: `host4` or `host6`, with the flag `ipv6`. -/
inductive Host where
  | ip4 (bytes : Vector UInt8 4)
  | ip6 (bytes : Vector UInt8 16)
  deriving DecidableEq, Repr

namespace Host

/-- The flag `ipv6`. -/
def ipv6 : Host → Bool
  | ip4 _ => false
  | ip6 _ => true

/-- The bytes of the address. -/
def bytes : Host → List UInt8
  | ip4 b => b.toList
  | ip6 b => b.toList

theorem ext_iff {h h' : Host} : h = h' ↔ h.ipv6 = h'.ipv6 ∧ h.bytes = h'.bytes := by
  cases h <;> cases h' <;> simp [ipv6, bytes, Vector.toList_inj]

end Host

/-- `memcmp(a, b, n) < 0` for two blocks of one length. -/
def memcmpLt (a b : List UInt8) : Bool := a.map UInt8.toNat < b.map UInt8.toNat

/-- `ServerRecord`, less the reserved flags. The port holds the number whose network byte order
the source stores. -/
structure ServerRecord where
  host : Host
  port : UInt16
  failureCount : ℤ
  lastaccessTime : ℤ
  retryTime : ℤ
  probationary : Bool
  ip4Peers : Bool
  ip6Peers : Bool
  signkey : Bool
  shuttingdown : Bool
  deriving DecidableEq, Repr

/-- What identifies a server: its address and its port. -/
def endpoint (r : ServerRecord) : Host × UInt16 := (r.host, r.port)

namespace ServerRecord

/-- The flag `ipv6`. -/
@[simp] abbrev ipv6 (r : ServerRecord) : Bool := r.host.ipv6

/-- The constructor from an address and a port. -/
def new (ip : Host) (port : UInt16) : ServerRecord where
  host := ip
  port := port
  failureCount := 0
  lastaccessTime := 0
  retryTime := clientMinRetrySeconds
  probationary := true
  ip4Peers := true
  ip6Peers := true
  signkey := true
  shuttingdown := false

/-- The record of a `Nrp_Message_Ip4Peer` at an offset. -/
def ofIp4Peer (m : Mem) (peer : ℕ) : ServerRecord :=
  .new (.ip4 (.ofFn fun i => m (peer + i))) (.ofNat (m.be16 (peer + 4)))

/-- The record of a `Nrp_Message_Ip6Peer` at an offset. -/
def ofIp6Peer (m : Mem) (peer : ℕ) : ServerRecord :=
  .new (.ip6 (.ofFn fun i => m (peer + i))) (.ofNat (m.be16 (peer + 16)))

/-! ### Comparisons -/

/-- `operator==`. -/
def beq (a b : ServerRecord) : Bool :=
  if a.ipv6 != b.ipv6 then false
  else if a.port != b.port then false
  else a.host.bytes == b.host.bytes

instance : BEq ServerRecord := ⟨beq⟩

theorem beq_iff {a b : ServerRecord} : (a == b) = true ↔ a.host = b.host ∧ a.port = b.port := by
  have hdef : (a == b) = beq a b := rfl
  rw [hdef, beq, Host.ext_iff]
  split
  · simp_all
  · split <;> simp_all

theorem beq_iff_endpoint {a b : ServerRecord} : (a == b) = true ↔ endpoint a = endpoint b := by
  rw [beq_iff, endpoint, endpoint, Prod.mk.injEq]

instance : EquivBEq ServerRecord where
  rfl := beq_iff.2 ⟨rfl, rfl⟩
  symm h := beq_iff.2 ⟨(beq_iff.1 h).1.symm, (beq_iff.1 h).2.symm⟩
  trans h h' := beq_iff.2
    ⟨(beq_iff.1 h).1.trans (beq_iff.1 h').1, (beq_iff.1 h).2.trans (beq_iff.1 h').2⟩

/-- `operator<`. -/
def lt (a b : ServerRecord) : Bool :=
  if a.ipv6 != b.ipv6 then !a.ipv6
  else memcmpLt a.host.bytes b.host.bytes

/-- The order looks at the addresses only. -/
theorem lt_congr {a a' b b' : ServerRecord} (ha : a.host = a'.host) (hb : b.host = b'.host) :
    a.lt b = a'.lt b' := by
  simp only [lt, ipv6, ha, hb]

/-- The order does not notice a change that keeps the addresses. -/
theorem lt_update {f : ServerRecord → ServerRecord} (hf : ∀ r, (f r).host = r.host)
    (a b : ServerRecord) : (f a).lt b = a.lt b ∧ b.lt (f a) = b.lt a :=
  ⟨lt_congr (hf a) rfl, lt_congr rfl (hf a)⟩

instance : StrictWeakOrder lt where
  irrefl a := by simp [lt, memcmpLt]
  trans {a b c} hab hbc := by
    rw [lt, memcmpLt] at *
    cases ha : a.ipv6 <;> cases hb : b.ipv6 <;> cases hc : c.ipv6 <;> simp_all
    · exact List.lt_trans hab hbc
    · exact List.lt_trans hab hbc
  split {a b c} hac := by
    unfold lt memcmpLt at *
    cases ha : a.ipv6 <;> cases hb : b.ipv6 <;> cases hc : c.ipv6 <;> simp_all
    · exact lt_or_ge _ _ |>.imp_right fun h => lt_of_le_of_lt h hac
    · exact lt_or_ge _ _ |>.imp_right fun h => lt_of_le_of_lt h hac

/-- **Equivalence.** The order does not tell two records apart when their addresses are equal. -/
theorem equiv_lt_iff {a b : ServerRecord} : OrderedSet.equiv lt a b = true ↔ a.host = b.host := by
  constructor
  · intro h
    rw [OrderedSet.equiv, lt, lt, memcmpLt, memcmpLt] at h
    have hfam : a.ipv6 = b.ipv6 := by
      cases ha : a.ipv6 <;> cases hb : b.ipv6 <;> simp_all
    simp only [hfam, bne_self_eq_false, Bool.false_eq_true, if_false, Bool.and_eq_true,
      Bool.not_eq_true', decide_eq_false_iff_not] at h
    have hnat := le_antisymm (not_lt.1 h.2) (not_lt.1 h.1)
    exact Host.ext_iff.2 ⟨hfam, List.map_injective_iff.2 (fun _ _ => UInt8.toNat_inj.1) hnat⟩
  · intro h
    have hself : lt b b = false := StrictWeakOrder.irrefl b
    rw [OrderedSet.equiv, lt_congr h rfl, lt_congr rfl h, hself]
    rfl

end ServerRecord

end Nrpd
