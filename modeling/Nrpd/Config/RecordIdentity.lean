import Nrpd.Config.ServerRecord
import Nrpd.Lib.EntryMap

/-!
# Which records are one server

The set of active servers tells records apart by `operator<`, the list of probationary servers by
`operator==`, and the cache of banned servers by `operator==` and `hash<ServerRecord>`. The order
is one that a set accepts, and equal records are equivalent for it and have equal hashes. Equivalent
records need not be equal: `operator==` compares the port as well, though its comment promises
addresses only.

## Main definitions

* `ServerRecord.hash`: `hash<ServerRecord>`, over the hash of a byte.

## Main results

* `ServerRecord.get?_bucket`: lookups by hash in a map over records.
* `ServerRecord.order_and_hash`: the order, and what equal records share.
* `ServerRecord.equiv_imp_beq_iff`: when equivalent records are equal.
-/

namespace Nrpd

namespace ServerRecord

open OrderedSet

variable {w : ℕ} (hashByte : UInt8 → BitVec w)

/-! ### Hashes -/

/-- The loop of `hash<ServerRecord>` from the byte at place `i` on. -/
def hashBytes (i : ℕ) (result : BitVec w) : List UInt8 → BitVec w
  | [] => result
  | b :: bytes => hashBytes (i + 1) (result ^^^ (hashByte b <<< i)) bytes

/-- `hash<ServerRecord>`, from `hash<unsigned char>`, for a `size_t` of `w` bits. -/
def hash (s : ServerRecord) : BitVec w :=
  match s.host with
  | .ip6 host6 => hashBytes hashByte 0 0#w host6.toList
  | .ip4 host4 => hashBytes hashByte 0 0#w host4.toList

/-- Only the address is hashed. -/
theorem hash_eq (s : ServerRecord) : s.hash hashByte = hashBytes hashByte 0 0#w s.host.bytes := by
  rw [hash]
  cases s.host <;> rfl

/-- Equal records have equal hashes. -/
theorem hash_congr {a b : ServerRecord} (h : (a == b) = true) :
    a.hash hashByte = b.hash hashByte := by
  rw [hash_eq, hash_eq, (beq_iff.1 h).1]

/-- The cache of banned servers may look a record up by its hash. -/
theorem get?_bucket {V : Type*} (m : EntryMap ServerRecord V) (s : ServerRecord) :
    ((m.bucket (hash hashByte) s).find? fun e => e.1 == s).map Prod.snd = m.get? s :=
  m.find?_bucket (fun _ _ => hash_congr hashByte) s

/-! ### The order -/

/-- Servers with an ip4 address come before those with an ip6 address. -/
theorem lt_of_families {a b : ServerRecord} (ha : a.ipv6 = false) (hb : b.ipv6 = true) :
    a.lt b = true := by
  rw [lt, ha, hb]
  rfl

/-- Equal records are equivalent for the order. -/
theorem equiv_of_beq {a b : ServerRecord} (h : (a == b) = true) : equiv lt a b = true :=
  equiv_lt_iff.2 (beq_iff.1 h).1

/-- **The order and the hash.** The order is a strict weak one that leaves just the records with
equal families and addresses together, with the ip4 addresses first, and equal records are
equivalent and have equal hashes. -/
theorem order_and_hash :
    (∀ a : ServerRecord, a.lt a = false) ∧
    (∀ a b : ServerRecord, a.lt b = true → b.lt a = false) ∧
    (∀ a b c : ServerRecord, a.lt b = true → b.lt c = true → a.lt c = true) ∧
    (∀ a b c : ServerRecord, equiv lt a b = true → equiv lt b c = true → equiv lt a c = true) ∧
    (∀ a b : ServerRecord,
      equiv lt a b = true ↔ a.ipv6 = b.ipv6 ∧ a.host.bytes = b.host.bytes) ∧
    (∀ a b : ServerRecord, a.ipv6 = false → b.ipv6 = true → a.lt b = true) ∧
    ∀ a b : ServerRecord, (a == b) = true →
      (a.lt b = false ∧ b.lt a = false) ∧ a.hash hashByte = b.hash hashByte := by
  refine ⟨StrictWeakOrder.irrefl, fun _ _ => StrictWeakOrder.asymm,
    fun _ _ _ => StrictWeakOrder.trans, fun _ _ _ => equiv_trans, fun a b => ?_,
    fun _ _ => lt_of_families,
    fun a b h => ⟨equiv_eq_true.1 (equiv_of_beq h), hash_congr hashByte h⟩⟩
  rw [equiv_lt_iff, Host.ext_iff]

/-! ### Equivalent records that are not equal -/

/-- **One server or two.** Equivalent records are equal unless they differ in the port alone. -/
theorem equiv_imp_beq_iff (a b : ServerRecord) :
    (equiv lt a b = true → (a == b) = true) ↔ a.host ≠ b.host ∨ a.port = b.port := by
  rw [equiv_lt_iff, beq_iff]
  constructor
  · intro h
    by_cases hhost : a.host = b.host
    · exact .inr (h hhost).2
    · exact .inl hhost
  · rintro (hne | hport) hhost
    · exact absurd hhost hne
    · exact ⟨hhost, hport⟩

/-- Two ports of one address. -/
theorem equivalent_not_beq :
    equiv lt (.new (.ip4 #v[10, 0, 0, 1]) 8080) (.new (.ip4 #v[10, 0, 0, 1]) 8081) = true ∧
    (ServerRecord.new (.ip4 #v[10, 0, 0, 1]) 8080 == .new (.ip4 #v[10, 0, 0, 1]) 8081) = false := by
  decide

end ServerRecord

end Nrpd
