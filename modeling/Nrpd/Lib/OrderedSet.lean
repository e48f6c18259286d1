import Mathlib.Data.List.Basic
import Mathlib.Data.List.Pairwise
import Mathlib.Data.List.TakeWhile
import Nrpd.Lib.ListIterator

/-!
# Ordered sets as sorted lists

A set ordered by a Boolean comparison, as the list of its elements in the order in which an
iterator meets them. The comparison has to be a strict weak order; elements that it does not tell
apart are equivalent, and a set holds at most one of them. The structure carries the proof that the
list is sorted.

## Main definitions

* `StrictWeakOrder`: what is asked of a comparison.
* `OrderedSet`: the structure.
* `OrderedSet.emplace`, `OrderedSet.eraseAt`, `OrderedSet.erase`, `OrderedSet.modify`: insertion,
  removal at an iterator and by value, and change of an element that keeps its place.

## Main results

* `OrderedSet.countP_insertNew`, `OrderedSet.countP_eraseIdx`, `OrderedSet.countP_modify`: what the
  operations do to the number of elements with a property.
* `OrderedSet.follows_insertNew`, `OrderedSet.mem_of_mem_emplace`: what an insertion keeps and adds.
-/

/-- The comparisons that a sorted container accepts. -/
class StrictWeakOrder {α : Type*} (lt : α → α → Bool) : Prop where
  irrefl (a : α) : lt a a = false
  trans {a b c : α} : lt a b = true → lt b c = true → lt a c = true
  split {a b c : α} : lt a c = true → lt a b = true ∨ lt b c = true

namespace StrictWeakOrder

variable {α : Type*} {lt : α → α → Bool} [StrictWeakOrder lt] {a b c : α}

theorem asymm (h : lt a b = true) : lt b a = false := by
  cases hba : lt b a with
  | false => rfl
  | true =>
    have hself : lt a a = true := StrictWeakOrder.trans h hba
    have hirrefl : lt a a = false := StrictWeakOrder.irrefl a
    exact hself.symm.trans hirrefl

/-- Not to come before is transitive. -/
theorem trans_eq_false (hab : lt a b = false) (hbc : lt b c = false) : lt a c = false := by
  cases hac : lt a c with
  | false => rfl
  | true =>
    rcases StrictWeakOrder.split (b := b) hac with h | h
    · exact h.symm.trans hab
    · exact h.symm.trans hbc

end StrictWeakOrder

/-- A set as the sorted list of its elements. -/
structure OrderedSet (α : Type*) (lt : α → α → Bool) where
  elems : List α
  sorted : elems.Pairwise fun a b => lt a b = true

namespace OrderedSet

variable {α : Type*} {lt : α → α → Bool}

/-- The set with no elements. -/
def empty : OrderedSet α lt := ⟨[], .nil⟩

/-- Neither of two elements comes before the other. -/
def equiv (lt : α → α → Bool) (a b : α) : Bool := !lt a b && !lt b a

theorem equiv_eq_false {a b : α} : equiv lt a b = false ↔ lt a b = true ∨ lt b a = true := by
  cases hab : lt a b <;> cases hba : lt b a <;> simp [equiv, hab, hba]

theorem equiv_eq_true {a b : α} : equiv lt a b = true ↔ lt a b = false ∧ lt b a = false := by
  rw [equiv, Bool.and_eq_true, Bool.not_eq_true', Bool.not_eq_true']

/-- Whether the set has an element equivalent to the given one. -/
def contains (s : OrderedSet α lt) (x : α) : Bool := s.elems.any fun a => equiv lt a x

/-- The position of the first element that does not come before the given one. -/
def lowerBound (s : OrderedSet α lt) (x : α) : ℕ := (s.elems.takeWhile fun a => lt a x).length

/-- Remove the element at a position. -/
def eraseIdx (s : OrderedSet α lt) (i : ℕ) : OrderedSet α lt :=
  ⟨s.elems.eraseIdx i, s.sorted.sublist (List.eraseIdx_sublist _ _)⟩

/-- Remove the element of an iterator. -/
def eraseAt (s : OrderedSet α lt) (it : ListIter) : OrderedSet α lt :=
  match it with
  | .index i => s.eraseIdx i
  | _ => s

theorem elems_eraseAt (s : OrderedSet α lt) (it : ListIter) :
    (s.eraseAt it).elems = it.eraseFrom s.elems := by
  cases it <;> rfl

/-- Remove the element equivalent to the given one. -/
def erase (s : OrderedSet α lt) (x : α) : OrderedSet α lt :=
  ⟨s.elems.filter fun a => !equiv lt a x, s.sorted.sublist List.filter_sublist⟩

/-- Change the element at a position in a way that the comparison does not notice. -/
def modify (s : OrderedSet α lt) (i : ℕ) (f : α → α)
    (hf : ∀ a b, lt (f a) b = lt a b ∧ lt b (f a) = lt b a) : OrderedSet α lt where
  elems := s.elems.modify i f
  sorted := by
    refine List.pairwise_iff_getElem.2 fun j k hj hk hjk => ?_
    have h := List.pairwise_iff_getElem.1 s.sorted j k (by simpa using hj) (by simpa using hk) hjk
    simp only [List.getElem_modify]
    split <;> split <;> simpa only [hf] using h

section Order

variable [StrictWeakOrder lt]

/-- Elements that are equivalent to one element are equivalent. -/
theorem equiv_trans {a b c : α} (hab : equiv lt a b = true) (hbc : equiv lt b c = true) :
    equiv lt a c = true := by
  obtain ⟨hab, hba⟩ := equiv_eq_true.1 hab
  obtain ⟨hbc, hcb⟩ := equiv_eq_true.1 hbc
  exact equiv_eq_true.2 ⟨StrictWeakOrder.trans_eq_false hab hbc,
    StrictWeakOrder.trans_eq_false hcb hba⟩

/-- In a sorted list the elements behind the first one that does not come before `x` come after
`x`, unless one is equivalent to `x`. -/
private theorem lt_of_mem_dropWhile {l : List α} (hl : l.Pairwise fun a b => lt a b = true) {x : α}
    (hx : ∀ a ∈ l, equiv lt a x = false) {b : α} (hb : b ∈ l.dropWhile fun a => lt a x) :
    lt x b = true := by
  induction l with
  | nil => simp at hb
  | cons a l ih =>
    obtain ⟨hfirst, hl⟩ := List.pairwise_cons.1 hl
    rw [List.dropWhile_cons] at hb
    split at hb
    · exact ih hl (fun a ha => hx a (List.mem_cons_of_mem _ ha)) hb
    · rename_i ha
      have hxa : lt x a = true := (equiv_eq_false.1 (hx a List.mem_cons_self)).resolve_left ha
      rcases List.mem_cons.1 hb with rfl | hb
      · exact hxa
      · exact StrictWeakOrder.trans hxa (hfirst b hb)

/-- Insert an element that the set has no equivalent of. -/
def insertNew (s : OrderedSet α lt) (x : α) (h : s.contains x = false) : OrderedSet α lt where
  elems := (s.elems.takeWhile fun a => lt a x) ++ x :: s.elems.dropWhile fun a => lt a x
  sorted := by
    have hx : ∀ a ∈ s.elems, equiv lt a x = false := by simpa [contains] using h
    have hbehind {b : α} := lt_of_mem_dropWhile (b := b) s.sorted hx
    refine List.pairwise_append.2 ⟨s.sorted.sublist (List.takeWhile_sublist _),
      List.pairwise_cons.2 ⟨fun b hb => hbehind hb, s.sorted.sublist (List.dropWhile_sublist _)⟩,
      fun a ha b hb => ?_⟩
    have hax : lt a x = true := List.mem_takeWhile_imp (p := fun a => lt a x) ha
    rcases List.mem_cons.1 hb with rfl | hb
    · exact hax
    · exact StrictWeakOrder.trans hax (hbehind hb)

/-- Insert an element unless the set has an equivalent one; tell whether it was inserted. -/
def emplace (s : OrderedSet α lt) (x : α) : OrderedSet α lt × Bool :=
  if h : s.contains x = false then (s.insertNew x h, true) else (s, false)

theorem emplace_of_contains {s : OrderedSet α lt} {x : α} (h : s.contains x = true) :
    s.emplace x = (s, false) := by
  rw [emplace, dif_neg (by simp [h])]

theorem emplace_of_not_contains {s : OrderedSet α lt} {x : α} (h : s.contains x = false) :
    s.emplace x = (s.insertNew x h, true) := by
  rw [emplace, dif_pos h]

theorem perm_insertNew {s : OrderedSet α lt} {x : α} (h : s.contains x = false) :
    (s.insertNew x h).elems.Perm (x :: s.elems) := by
  conv_rhs => rw [← List.takeWhile_append_dropWhile (p := fun a => lt a x) (l := s.elems)]
  exact List.perm_middle

/-- An iterator stays with its element behind an insertion. -/
theorem follows_insertNew {s : OrderedSet α lt} {x : α} (h : s.contains x = false) :
    ListIter.Follows (ListIter.afterInsert (s.lowerBound x)) s.elems (s.insertNew x h).elems := by
  have hfollows := ListIter.follows_afterInsert (s.elems.takeWhile fun a => lt a x)
    (s.elems.dropWhile fun a => lt a x) x
  rwa [List.takeWhile_append_dropWhile] at hfollows

/-- The new element is at its lower bound. -/
theorem getElem?_insertNew {s : OrderedSet α lt} {x : α} (h : s.contains x = false) :
    (s.insertNew x h).elems[s.lowerBound x]? = some x := by
  rw [insertNew, lowerBound, List.getElem?_append_right (Nat.le_refl _), Nat.sub_self]
  rfl

/-- An insertion adds nothing but the element. -/
theorem mem_of_mem_emplace {s : OrderedSet α lt} {x a : α} (ha : a ∈ (s.emplace x).1.elems) :
    a = x ∨ a ∈ s.elems := by
  by_cases h : s.contains x = false
  · rw [emplace_of_not_contains h] at ha
    exact List.mem_cons.1 ((perm_insertNew h).mem_iff.1 ha)
  · rw [emplace_of_contains (by simpa using h)] at ha
    exact .inr ha

/-- Behind an insertion, the set has an element equivalent to the given one. -/
theorem exists_equiv_emplace (s : OrderedSet α lt) (x : α) :
    ∃ a ∈ (s.emplace x).1.elems, equiv lt a x = true := by
  by_cases h : s.contains x = false
  · have hirrefl : lt x x = false := StrictWeakOrder.irrefl x
    rw [emplace_of_not_contains h]
    exact ⟨x, (perm_insertNew h).mem_iff.2 List.mem_cons_self, equiv_eq_true.2 ⟨hirrefl, hirrefl⟩⟩
  · rw [emplace_of_contains (by simpa using h)]
    exact List.any_eq_true.1 (by simpa [contains] using h)

theorem countP_insertNew {s : OrderedSet α lt} {x : α} (h : s.contains x = false) (p : α → Bool) :
    (s.insertNew x h).elems.countP p = s.elems.countP p + if p x then 1 else 0 := by
  rw [(perm_insertNew h).countP_eq, List.countP_cons]

end Order

/-- Changing an element keeps the number of elements with a property that the change respects. -/
theorem countP_modify {s : OrderedSet α lt} {i : ℕ} {f : α → α}
    (hf : ∀ a b, lt (f a) b = lt a b ∧ lt b (f a) = lt b a) {p : α → Bool}
    (hp : ∀ a, p (f a) = p a) : (s.modify i f hf).elems.countP p = s.elems.countP p :=
  List.countP_modify hp s.elems i

theorem contains_modify {s : OrderedSet α lt} {i : ℕ} {f : α → α}
    (hf : ∀ a b, lt (f a) b = lt a b ∧ lt b (f a) = lt b a) (x : α) :
    (s.modify i f hf).contains x = s.contains x := by
  have hequiv (a : α) :
      equiv lt (f a) x = equiv lt a x := by rw [equiv, (hf a x).1, (hf a x).2]; rfl
  rw [contains, contains, Bool.eq_iff_iff, List.any_eq_true, List.any_eq_true,
    ← List.countP_pos_iff, ← List.countP_pos_iff, countP_modify hf hequiv]

theorem contains_congr {s : OrderedSet α lt} {x y : α}
    (h : ∀ a, equiv lt a x = equiv lt a y) : s.contains x = s.contains y := by
  simp only [contains, h]

theorem countP_eraseIdx {s : OrderedSet α lt} {i : ℕ} {x : α} (h : s.elems[i]? = some x)
    (p : α → Bool) :
    (s.eraseIdx i).elems.countP p + (if p x then 1 else 0) = s.elems.countP p :=
  List.countP_eraseIdx_add h p

/-- A set has at most one element with a property that only equivalent elements share. -/
theorem countP_le_one {s : OrderedSet α lt} {p : α → Bool}
    (hp : ∀ a b, p a = true → p b = true → equiv lt a b = true) : s.elems.countP p ≤ 1 := by
  have hlist (l : List α) (hl : l.Pairwise fun a b => lt a b = true) : l.countP p ≤ 1 := by
    induction l with
    | nil => simp
    | cons a l ih =>
      obtain ⟨hfirst, hl⟩ := List.pairwise_cons.1 hl
      by_cases ha : p a = true
      · have hrest : l.countP p = 0 := by
          refine List.countP_eq_zero.2 fun b hb hpb => ?_
          have hequiv := equiv_eq_true.1 (hp a b ha hpb)
          exact Bool.noConfusion ((hfirst b hb).symm.trans hequiv.1)
        rw [List.countP_cons, hrest, if_pos ha]
      · rw [List.countP_cons, if_neg ha]
        exact ih hl
  exact hlist s.elems s.sorted

theorem erase_of_not_contains {s : OrderedSet α lt} {x : α} (h : s.contains x = false) :
    s.erase x = s := by
  have hall : ∀ a ∈ s.elems, (!equiv lt a x) = true := by simpa [contains] using h
  simp only [erase, List.filter_eq_self.2 hall]

/-- Removing an element removes only elements equivalent to it. -/
theorem countP_erase_of_disjoint {s : OrderedSet α lt} {x : α} {p : α → Bool}
    (hp : ∀ a, equiv lt a x = true → p a = false) :
    (s.erase x).elems.countP p = s.elems.countP p := by
  rw [erase, List.countP_filter]
  refine List.countP_congr fun a _ => ?_
  cases ha : equiv lt a x <;> simp [hp, ha]

end OrderedSet
