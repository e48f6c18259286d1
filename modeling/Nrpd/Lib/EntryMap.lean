import Mathlib.Data.List.Basic
import Mathlib.Data.List.Pairwise

/-!
# Maps as lists of entries

A map over keys with a Boolean equality, as the list of its entries in the order in which an
iterator meets them. No two entries have equal keys; the structure carries the proof. When the
equality of keys is symmetric and transitive, a lookup finds the one entry whose key is equal
(`EntryMap.get?_eq_some_iff`), and every operation is described by what later lookups return. A key
that is not equal to itself is never found.

## Main definitions

* `EntryMap`: the structure.
* `EntryMap.get?`, `EntryMap.emplace`, `EntryMap.assign`, `EntryMap.keep`: lookup, insertion of a
  key that is not there, change of an entry's value, removal of entries.
* `EntryMap.bucket`: the entries that share a hash.
-/

/-- A map as the list of its entries. -/
structure EntryMap (K V : Type*) [BEq K] where
  entries : List (K × V)
  distinct : entries.Pairwise fun a b => (a.1 == b.1) = false

namespace EntryMap

variable {K V : Type*} [BEq K]

/-- The map with no entries. -/
def empty : EntryMap K V := ⟨[], .nil⟩

/-- The value stored under a key. -/
def get? (m : EntryMap K V) (k : K) : Option V := (m.entries.find? fun e => e.1 == k).map Prod.snd

theorem get?_eq_none_iff {m : EntryMap K V} {k : K} :
    m.get? k = none ↔ ∀ e ∈ m.entries, (e.1 == k) = false := by
  simp [get?]

/-- Insert an entry under a key that has none. -/
def insertNew (m : EntryMap K V) (k : K) (v : V) (h : m.get? k = none) : EntryMap K V where
  entries := m.entries ++ [(k, v)]
  distinct := by
    refine List.pairwise_append.2 ⟨m.distinct, List.pairwise_singleton _ _, ?_⟩
    intro a ha b hb
    rw [List.mem_singleton.1 hb]
    exact get?_eq_none_iff.1 h a ha

/-- Insert an entry unless its key has one; tell whether it was inserted. -/
def emplace (m : EntryMap K V) (k : K) (v : V) : EntryMap K V × Bool :=
  if h : m.get? k = none then (m.insertNew k v h, true) else (m, false)

/-- Store a value in the entry of a key. -/
def assign (m : EntryMap K V) (k : K) (v : V) : EntryMap K V where
  entries := m.entries.map fun e => if e.1 == k then (e.1, v) else e
  distinct := by
    refine List.pairwise_map.2 (m.distinct.imp fun {a b} hab => ?_)
    split <;> split <;> exact hab

/-- Keep some of the entries, in their order. -/
def keep (m : EntryMap K V) (l : List (K × V)) (h : l.Sublist m.entries) : EntryMap K V :=
  ⟨l, m.distinct.sublist h⟩

@[simp] theorem get?_empty (k : K) : (empty : EntryMap K V).get? k = none := rfl

section Equiv

variable [PartialEquivBEq K]

/-- Two entries of a map whose keys are equal are the same entry. -/
theorem eq_of_mem {m : EntryMap K V} {a b : K × V} (ha : a ∈ m.entries) (hb : b ∈ m.entries)
    (hab : (a.1 == b.1) = true) : a = b := by
  by_contra hne
  have hsym : Std.Symm fun x y : K × V => (x.1 == y.1) = false :=
    ⟨fun x y hxy => by rw [BEq.comm]; exact hxy⟩
  have := m.distinct.forall ha hb hne
  rw [hab] at this
  cases this

/-- **Lookup.** A value is found when an entry with an equal key holds it. -/
theorem get?_eq_some_iff {m : EntryMap K V} {k : K} {v : V} :
    m.get? k = some v ↔ ∃ e ∈ m.entries, (e.1 == k) = true ∧ e.2 = v := by
  constructor
  · intro h
    obtain ⟨e, he, rfl⟩ := Option.map_eq_some_iff.1 h
    exact ⟨e, List.mem_of_find?_eq_some he, by simpa using List.find?_some he, rfl⟩
  · rintro ⟨e, he, hk, rfl⟩
    cases hf : m.entries.find? fun e => e.1 == k with
    | none =>
      have := List.find?_eq_none.1 hf e he
      exact absurd hk this
    | some e' =>
      have hk' : (e'.1 == k) = true := by simpa using List.find?_some hf
      have : e' = e := eq_of_mem (List.mem_of_find?_eq_some hf) he
        (BEq.trans hk' (by rw [BEq.comm]; exact hk))
      rw [get?, hf, this]
      rfl

/-- Equal keys find the same value. -/
theorem get?_congr {m : EntryMap K V} {k k' : K} (h : (k == k') = true) :
    m.get? k = m.get? k' := by
  have hiff (e : K × V) : (e.1 == k) = (e.1 == k') := by rw [BEq.congr_right h]
  simp only [get?, hiff]

theorem get?_insertNew {m : EntryMap K V} {k k' : K} {v : V} (h : m.get? k = none) :
    (m.insertNew k v h).get? k' = if k == k' then some v else m.get? k' := by
  have hfind : (m.insertNew k v h).get? k' =
      ((m.entries.find? fun e => e.1 == k').or ([(k, v)].find? fun e => e.1 == k')).map
        Prod.snd := by
    simp [get?, insertNew, List.find?_append]
  by_cases hk : (k == k') = true
  · have hnone : m.get? k' = none := by rw [← get?_congr hk, h]
    have : (m.entries.find? fun e => e.1 == k') = none := by simpa [get?] using hnone
    rw [hfind, this]
    simp [hk]
  · rw [hfind]
    simp [hk, get?]

theorem get?_assign {m : EntryMap K V} {k k' : K} {v : V} :
    (m.assign k v).get? k' = if k == k' then (m.get? k').map fun _ => v else m.get? k' := by
  have hkeys (e : K × V) : (if e.1 == k then (e.1, v) else e).1 = e.1 := by split <;> rfl
  have hfind : (m.assign k v).get? k' =
      ((m.entries.find? fun e => e.1 == k').map fun e =>
        if e.1 == k then (e.1, v) else e).map Prod.snd := by
    simp only [get?, assign, List.find?_map]
    congr 3
    funext e
    simp only [Function.comp_apply, hkeys]
  rw [hfind, get?]
  cases hf : m.entries.find? fun e => e.1 == k' with
  | none => simp
  | some e =>
    have hk' : (e.1 == k') = true := by simpa using List.find?_some hf
    have : (e.1 == k) = (k == k') := by
      rw [BEq.congr_left hk', BEq.comm]
    cases hkk : k == k' <;> simp [this, hkk]

theorem get?_keep_eq_some_iff {m : EntryMap K V} {l : List (K × V)} (h : l.Sublist m.entries)
    {k : K} {v : V} :
    (m.keep l h).get? k = some v ↔ ∃ e ∈ l, (e.1 == k) = true ∧ e.2 = v :=
  get?_eq_some_iff

/-- Removing entries does not change the values that are left. -/
theorem get?_of_get?_keep {m : EntryMap K V} {l : List (K × V)} (h : l.Sublist m.entries) {k : K}
    {v : V} (hk : (m.keep l h).get? k = some v) : m.get? k = some v := by
  obtain ⟨e, he, hek, rfl⟩ := (get?_keep_eq_some_iff h).1 hk
  exact get?_eq_some_iff.2 ⟨e, h.subset he, hek, rfl⟩

end Equiv

/-! ### Hashes -/

section Hashes

variable {H : Type*} [DecidableEq H]

/-- The entries whose keys share the hash of a key. -/
def bucket (hash : K → H) (m : EntryMap K V) (k : K) : List (K × V) :=
  m.entries.filter fun e => hash e.1 = hash k

/-- **Hashed lookup.** When equal keys have equal hashes, a lookup needs no other entries than those
with the hash of its key. -/
theorem find?_bucket {hash : K → H} (hhash : ∀ k k', (k == k') = true → hash k = hash k')
    (m : EntryMap K V) (k : K) :
    ((m.bucket hash k).find? fun e => e.1 == k).map Prod.snd = m.get? k := by
  have hkey (e : K × V) :
      decide (decide (hash e.1 = hash k) = true ∧ (e.1 == k) = true) = (e.1 == k) := by
    by_cases hk : (e.1 == k) = true
    · rw [hk]
      exact decide_eq_true ⟨decide_eq_true (hhash _ _ hk), rfl⟩
    · rw [Bool.eq_false_iff.2 hk]
      exact decide_eq_false fun h => Bool.noConfusion h.2
  rw [bucket, List.find?_filter, get?]
  simp only [hkey]

end Hashes

end EntryMap
