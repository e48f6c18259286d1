import Mathlib.Data.List.Perm.Basic
import Mathlib.Data.Nat.ModEq
import Mathlib.Data.Nat.GCD.Basic
import Mathlib.Data.Int.GCD

/-!
# Iterators into a list container

An iterator of a list is a position, or one of the places around the list. Stepping back from the
first element leads to `beforeBegin`, which compares like the end; an iterator whose element was
removed is `dangling`, and nothing may be done with it. A cyclic walk goes from the last element to
the first; walked with a stride, it meets every element if and only if the stride is coprime to the
length.

## Main definitions

* `ListIter`: iterators.
* `ListIter.deref`, `ListIter.eraseFrom`, `ListIter.prev`, `ListIter.advance`: reading, removing,
  stepping back and stepping on cyclically.
* `ListIter.afterInsert`, `ListIter.afterErase`, `ListIter.afterFilter`: the iterator behind a
  change of the list.
* `ListIter.Follows`: the maps of iterators that stay with the elements.
* `ListIter.Valid`, `ListIter.Settled`: the iterators that may be advanced, with the place before
  the first element and without it.

## Main results

* `ListIter.advance_of_valid`: a step of a cyclic walk.
* `ListIter.advance_spec`, `ListIter.valid_prev`, `ListIter.Valid.afterInsert`: the operations lead
  to valid iterators.
* `Nat.stride_covers_iff`: when a cyclic walk with a stride meets every element.
-/

/-- An iterator of a list. -/
inductive ListIter where
  | atEnd
  | beforeBegin
  | dangling
  | index (i : ℕ)
  deriving DecidableEq, Repr

namespace ListIter

variable {α : Type*}

/-- The iterator of the first element; the end if there is none. -/
def first (len : ℕ) : ListIter := if len = 0 then atEnd else index 0

/-- The element that an iterator points at. -/
def deref (l : List α) : ListIter → Option α
  | index i => l[i]?
  | _ => none

/-- Remove the element of an iterator. -/
def eraseFrom (l : List α) : ListIter → List α
  | index i => l.eraseIdx i
  | _ => l

/-- One step back from an element. -/
def prev : ListIter → ListIter
  | index 0 => beforeBegin
  | index (i + 1) => index i
  | _ => dangling

/-- One step on; from the last element and from the end to the first. -/
def advance (len : ℕ) : ListIter → Option ListIter
  | index i => some (if i + 1 < len then index (i + 1) else first len)
  | atEnd => some (first len)
  | beforeBegin => some (first len)
  | dangling => none

/-- The iterator after an insertion at a position. -/
def afterInsert (p : ℕ) : ListIter → ListIter
  | index i => if p ≤ i then index (i + 1) else index i
  | it => it

/-- The iterator after the removal of the element of another one. -/
def afterErase : ListIter → ListIter → ListIter
  | index p, index i => if i = p then dangling else if p < i then index (i - 1) else index i
  | _, it => it

/-- The iterator after the removal of the elements that `keep` does not keep. -/
def afterFilter (l : List α) (keep : α → Bool) : ListIter → ListIter
  | index i =>
    if (l[i]?.map keep).getD false then index ((l.take i).countP keep) else dangling
  | it => it

theorem deref_modify {l : List α} {i : ℕ} {f : α → α} {it : ListIter} {y : α}
    (h : it.deref (l.modify i f) = some y) : ∃ x, it.deref l = some x ∧ (y = x ∨ y = f x) := by
  cases it with
  | index j =>
    rw [deref, List.getElem?_modify] at h
    obtain ⟨x, hx, hy⟩ := Option.map_eq_some_iff.1 h
    refine ⟨x, hx, ?_⟩
    split at hy
    · exact .inr hy.symm
    · exact .inl hy.symm
  | atEnd => cases h
  | beforeBegin => cases h
  | dangling => cases h

/-! ### Iterators that stay with their elements -/

/-- Where a map leads from an iterator of a list, the other list has the same element. -/
def Follows (move : ListIter → ListIter) (l l' : List α) : Prop :=
  ∀ i j, move (index i) = index j → l'[j]? = l[i]?

theorem follows_id (l : List α) : Follows id l l := by
  intro i j h
  obtain rfl := index.inj h
  rfl

theorem follows_afterInsert (pre post : List α) (x : α) :
    Follows (afterInsert pre.length) (pre ++ post) (pre ++ x :: post) := by
  intro i j h
  rw [afterInsert] at h
  by_cases hi : pre.length ≤ i
  · rw [if_pos hi] at h
    obtain rfl := index.inj h
    rw [List.getElem?_append_right hi, List.getElem?_append_right (by omega),
      Nat.succ_sub hi, List.getElem?_cons_succ]
  · rw [if_neg hi] at h
    obtain rfl := index.inj h
    rw [List.getElem?_append_left (by omega), List.getElem?_append_left (by omega)]

theorem follows_afterErase (it : ListIter) (l : List α) :
    Follows it.afterErase l (it.eraseFrom l) := by
  intro i j h
  cases it with
  | index p =>
    rw [afterErase] at h
    rw [eraseFrom, List.getElem?_eraseIdx]
    split_ifs at h with heq hlt
    · obtain rfl := index.inj h
      rw [if_neg (by omega), Nat.sub_add_cancel (by omega)]
    · obtain rfl := index.inj h
      rw [if_pos (by omega)]
  | _ =>
    obtain rfl := index.inj h
    rfl

/-- The elements that are kept in front of one that is kept tell its new position. -/
theorem getElem?_filter_countP {keep : α → Bool} {x : α} (hx : keep x = true) {l : List α} {i : ℕ}
    (h : l[i]? = some x) : (l.filter keep)[(l.take i).countP keep]? = some x := by
  induction l generalizing i with
  | nil => cases h
  | cons a l ih =>
    cases i with
    | zero =>
      obtain rfl := Option.some.inj h
      simp [hx]
    | succ i =>
      have htail := ih h
      by_cases ha : keep a = true
      · simpa [ha] using htail
      · simpa [ha] using htail

theorem follows_afterFilter (l : List α) (keep : α → Bool) :
    Follows (afterFilter l keep) l (l.filter keep) := by
  intro i j h
  rw [afterFilter] at h
  cases hx : l[i]? with
  | none => simp [hx] at h
  | some x =>
    by_cases hkeep : keep x = true
    · simp only [hx, Option.map_some, hkeep, Option.getD_some, if_true] at h
      obtain rfl := index.inj h
      exact getElem?_filter_countP hkeep hx
    · simp [hx, hkeep] at h

/-! ### Cyclic walks -/

/-- The iterators that may be advanced: the end, and those of elements. -/
def Valid (len : ℕ) : ListIter → Prop
  | index i => i < len
  | dangling => False
  | _ => True

/-- The number of the element that the next step leads to, before it is reduced. -/
def upcoming : ListIter → ℕ
  | index i => i + 1
  | _ => 0

theorem advance_of_valid {len : ℕ} (hlen : 0 < len) {it : ListIter} (h : it.Valid len) :
    it.advance len = some (index (it.upcoming % len)) := by
  have hfirst : first len = index 0 := by rw [first, if_neg (by omega)]
  cases it with
  | atEnd => simp [advance, upcoming, hfirst]
  | beforeBegin => simp [advance, upcoming, hfirst]
  | dangling => cases h
  | index i =>
    have hi : i < len := h
    rw [advance, upcoming, hfirst]
    split
    · rename_i hlt
      rw [Nat.mod_eq_of_lt hlt]
    · have : i + 1 = len := by omega
      rw [this, Nat.mod_self]

/-! ### Iterators that stay valid -/

/-- A longer list keeps an iterator valid. -/
theorem Valid.mono {len len' : ℕ} (hle : len ≤ len') : {it : ListIter} → it.Valid len →
    it.Valid len'
  | index _, h => Nat.lt_of_lt_of_le h hle
  | atEnd, _ => trivial
  | beforeBegin, _ => trivial

theorem valid_first (len : ℕ) : (first len).Valid len := by
  rw [first]
  split
  · exact trivial
  · exact Nat.pos_of_ne_zero ‹_›

theorem first_ne_beforeBegin (len : ℕ) : first len ≠ beforeBegin := by
  rw [first]
  split <;> simp

/-- A step leads to a valid iterator, and never in front of the first element. -/
theorem advance_spec {len : ℕ} {it it' : ListIter} (h : it.advance len = some it') :
    it'.Valid len ∧ it' ≠ beforeBegin := by
  cases it with
  | dangling => cases h
  | index i =>
    obtain rfl := Option.some.inj h
    split
    · exact ⟨‹_›, by simp⟩
    · exact ⟨valid_first len, first_ne_beforeBegin len⟩
  | atEnd => exact Option.some.inj h ▸ ⟨valid_first len, first_ne_beforeBegin len⟩
  | beforeBegin => exact Option.some.inj h ▸ ⟨valid_first len, first_ne_beforeBegin len⟩

theorem Valid.exists_advance {len : ℕ} {it : ListIter} (h : it.Valid len) :
    ∃ it', it.advance len = some it' := by
  cases it with
  | dangling => cases h
  | _ => exact ⟨_, rfl⟩

/-- In an empty list a step leads to the end. -/
theorem eq_atEnd_of_advance_zero {it it' : ListIter} (h : it.advance 0 = some it') :
    it' = atEnd := by
  obtain ⟨hvalid, hne⟩ := advance_spec h
  cases it' with
  | atEnd => rfl
  | beforeBegin => exact absurd rfl hne
  | dangling => cases hvalid
  | index i => exact absurd hvalid (Nat.not_lt_zero i)

/-- The element of an iterator is removed, and the iterator stepped back. -/
theorem valid_prev {len i : ℕ} (h : i < len) : (index i).prev.Valid (len - 1) := by
  cases i with
  | zero => exact trivial
  | succ i => exact Nat.lt_sub_of_add_lt h

theorem prev_ne_beforeBegin {i : ℕ} (h : i ≠ 0) : (index i).prev ≠ beforeBegin := by
  cases i with
  | zero => exact absurd rfl h
  | succ i => simp [prev]

theorem Valid.afterInsert {len : ℕ} (p : ℕ) : {it : ListIter} → it.Valid len →
    (it.afterInsert p).Valid (len + 1)
  | index i, h => by
    have hi : i < len := h
    rw [ListIter.afterInsert]
    split
    · exact Nat.succ_lt_succ hi
    · exact Nat.lt_succ_of_lt hi
  | atEnd, _ => trivial
  | beforeBegin, _ => trivial

theorem afterInsert_ne_beforeBegin {p : ℕ} {it : ListIter} (h : it ≠ beforeBegin) :
    it.afterInsert p ≠ beforeBegin := by
  cases it with
  | index i => rw [ListIter.afterInsert]; split <;> simp
  | _ => exact h

/-- The end, or the iterator of an element. -/
def Settled (len : ℕ) (it : ListIter) : Prop := it = atEnd ∨ ∃ i < len, it = index i

theorem settled_iff {len : ℕ} {it : ListIter} :
    it.Settled len ↔ it.Valid len ∧ it ≠ beforeBegin := by
  cases it <;> simp [Settled, Valid]

end ListIter

/-- Changing an element changes no other. -/
theorem List.mem_of_mem_modify {α : Type*} {l : List α} {i : ℕ} {f : α → α} {y : α}
    (h : y ∈ l.modify i f) : y ∈ l ∨ ∃ x, l[i]? = some x ∧ y = f x := by
  obtain ⟨j, hj⟩ := List.mem_iff_getElem?.1 h
  rw [List.getElem?_modify] at hj
  obtain ⟨x, hx, hy⟩ := Option.map_eq_some_iff.1 hj
  by_cases hij : i = j
  · rw [if_pos hij] at hy
    exact .inr ⟨x, hij ▸ hx, hy.symm⟩
  · rw [if_neg hij] at hy
    exact .inl (hy ▸ List.mem_of_getElem? hx)

/-- Changing an element keeps the number of elements with a property that the change respects. -/
theorem List.countP_modify {α : Type*} {f : α → α} {p : α → Bool} (hp : ∀ a, p (f a) = p a)
    (l : List α) (i : ℕ) : (l.modify i f).countP p = l.countP p := by
  induction l generalizing i with
  | nil => simp
  | cons a l ih => cases i <;> simp [List.modify_succ_cons, List.countP_cons, hp, ih]

theorem List.countP_eraseIdx_add {α : Type*} {l : List α} {i : ℕ} {x : α} (h : l[i]? = some x)
    (p : α → Bool) : (l.eraseIdx i).countP p + (if p x then 1 else 0) = l.countP p := by
  obtain ⟨hi, rfl⟩ := List.getElem?_eq_some_iff.1 h
  rw [← (List.getElem_cons_eraseIdx_perm hi).countP_eq p, List.countP_cons]

namespace Nat

/-- **Strides.** A walk of at least `m` steps around `m` places with a fixed stride meets every
place if and only if the stride is coprime to `m`. -/
theorem stride_covers_iff {m k : ℕ} (hm : 0 < m) (hk : m ≤ k) (a s : ℕ) :
    (∀ i < m, ∃ j < k, (a + s * j) % m = i) ↔ Nat.Coprime s m := by
  constructor
  · intro h
    -- the place behind `a` is met, so a multiple of the stride is one
    obtain ⟨j, -, hj⟩ := h ((a + 1) % m) (Nat.mod_lt _ hm)
    have hone : s * j ≡ 1 [MOD m] := Nat.ModEq.add_left_cancel' a hj
    have hcop : Nat.Coprime (s * j) m := by rw [Nat.Coprime, hone.gcd_eq, Nat.gcd_one_left]
    exact hcop.coprime_dvd_left (Nat.dvd_mul_right s j)
  · intro h i hi
    have ham : a % m < m := Nat.mod_lt _ hm
    obtain ⟨j, hj, hsj⟩ := Nat.exists_mul_mod_eq_of_coprime (i + (m - a % m)) h hm.ne'
    refine ⟨j, by omega, ?_⟩
    have hsum : a + s * j ≡ a % m + (i + (m - a % m)) [MOD m] :=
      (Nat.mod_modEq a m).symm.add hsj
    have hround : a % m + (i + (m - a % m)) = i + m := by omega
    rw [hround] at hsum
    rw [hsum, Nat.add_mod_right, Nat.mod_eq_of_lt hi]

end Nat
