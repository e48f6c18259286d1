import Nrpd.Lib.FuelLoop
import Mathlib.Data.List.Basic

/-!
# Tilings by length-prefixed segments, and walks over them

A region of a buffer that holds self-delimiting records is a sequence of segments: the record at
an offset `o` is `len o` bytes long and the next one starts behind it. `Tiles len a os b` says
that the records starting at `os` fill the region from `a` to `b` exactly. A walk visits a record,
steps behind it and goes on while a guard holds; over a tiled region it visits the records in
their order.

## Main definitions

* `Segments.Tiles`: the records starting at `os` fill a region.
* `Segments.Walk`, `Segments.Walk.turn`: a loop that steps from record to record.
* `Segments.Walk.visitAll`: what a walk does on a given list of records.
* `Segments.Walk.visited`: the offsets of the records that a walk visits.

## Main results

* `Segments.Tiles.unique`: a region is filled in at most one way.
* `Segments.Tiles.bounds`: every record lies inside the region.
* `Segments.Walk.run_eq_visitAll`: over a tiled region a walk ends after as many turns as there are
  records, having visited them in order.
* `Segments.Walk.visited_eq`: a walk whose guard holds at every record visits them all.
* `Segments.Walk.mem_of_mem_visited`: a walk visits no other records than those of its region.
* `Segments.Walk.visitAll_rel`: two walks over the same records keep a relation between their
  states.
-/

namespace Segments

open FuelLoop

/-- The records starting at `os`, the one at `o` of positive length `len o`, fill the region from
`a` to `b`. -/
inductive Tiles (len : ℕ → ℕ) : ℕ → List ℕ → ℕ → Prop
  | nil (a : ℕ) : Tiles len a [] a
  | cons {a b : ℕ} {os : List ℕ} (hpos : 0 < len a) (htail : Tiles len (a + len a) os b) :
      Tiles len a (a :: os) b

namespace Tiles

variable {len len' : ℕ → ℕ} {a b : ℕ} {os os' : List ℕ}

theorem le (h : Tiles len a os b) : a ≤ b := by
  induction h with
  | nil => exact Nat.le_refl _
  | cons _ _ ih => omega

theorem lt_of_ne_nil (h : Tiles len a os b) (hne : os ≠ []) : a < b := by
  cases h with
  | nil => exact absurd rfl hne
  | cons hpos htail => have := htail.le; omega

/-- Every record lies inside the region. -/
theorem bounds (h : Tiles len a os b) : ∀ o ∈ os, a ≤ o ∧ 0 < len o ∧ o + len o ≤ b := by
  induction h with
  | nil => simp
  | @cons a b os hpos htail ih =>
    intro o ho
    have hle := htail.le
    rcases List.mem_cons.1 ho with rfl | ho
    · exact ⟨Nat.le_refl _, hpos, hle⟩
    · obtain ⟨h1, h2, h3⟩ := ih o ho
      exact ⟨by omega, h2, h3⟩

/-- A region is filled in at most one way. -/
theorem unique (h : Tiles len a os b) (h' : Tiles len a os' b) : os = os' := by
  induction h generalizing os' with
  | nil =>
    cases h' with
    | nil => rfl
    | cons hpos htail => have := htail.le; omega
  | cons hpos htail ih =>
    cases h' with
    | nil => have := htail.le; omega
    | cons _ htail' => rw [ih htail']

/-- A tiling only depends on the lengths of its own records. -/
theorem congr (h : Tiles len a os b) (hlen : ∀ o ∈ os, len o = len' o) : Tiles len' a os b := by
  induction h with
  | nil => exact .nil _
  | @cons a b os hpos htail ih =>
    have ha : len a = len' a := hlen a List.mem_cons_self
    have htail' := ih fun o ho => hlen o (List.mem_cons_of_mem _ ho)
    rw [ha] at hpos htail'
    exact .cons hpos htail'

theorem append {c : ℕ} (h : Tiles len a os c) (h' : Tiles len c os' b) :
    Tiles len a (os ++ os') b := by
  induction h with
  | nil => exact h'
  | cons hpos _ ih => exact .cons hpos (ih h')

theorem singleton (hpos : 0 < len a) : Tiles len a [a] (a + len a) := .cons hpos (.nil _)

/-- The last record ends where the region ends. -/
theorem of_append_singleton {o : ℕ} (h : Tiles len a (os ++ [o]) b) :
    Tiles len a os o ∧ 0 < len o ∧ o + len o = b := by
  induction os generalizing a with
  | nil =>
    cases h with
    | cons hpos htail => cases htail; exact ⟨.nil _, hpos, rfl⟩
  | cons x os ih =>
    cases h with
    | cons hpos htail =>
      obtain ⟨h1, h2, h3⟩ := ih htail
      exact ⟨.cons hpos h1, h2, h3⟩

/-- Two records are the same or do not overlap. -/
theorem eq_or_disjoint {o o' : ℕ} (h : Tiles len a os b) (ho : o ∈ os) (ho' : o' ∈ os) :
    o = o' ∨ o + len o ≤ o' ∨ o' + len o' ≤ o := by
  induction h with
  | nil => cases ho
  | @cons a b os hpos htail ih =>
    have hbounds := htail.bounds
    rcases List.mem_cons.1 ho with heq | hmem
    · rcases List.mem_cons.1 ho' with heq' | hmem'
      · exact .inl (heq.trans heq'.symm)
      · exact .inr (.inl (heq ▸ (hbounds o' hmem').1))
    · rcases List.mem_cons.1 ho' with heq' | hmem'
      · exact .inr (.inr (heq' ▸ (hbounds o hmem).1))
      · exact ih hmem hmem'

/-- The first record stands where the region starts, unless the region is empty. -/
theorem start_mem (h : Tiles len a os b) : a ∈ os ∨ a = b := by
  cases h with
  | nil => exact .inr rfl
  | cons => exact .inl List.mem_cons_self

/-- Behind a record stands the next one, or the region ends. -/
theorem next_mem {o : ℕ} (h : Tiles len a os b) (ho : o ∈ os) : o + len o ∈ os ∨ o + len o = b := by
  induction h with
  | nil => cases ho
  | cons hpos htail ih =>
    rcases List.mem_cons.1 ho with rfl | ho
    · exact htail.start_mem.imp_left (List.mem_cons_of_mem _)
    · exact (ih ho).imp_left (List.mem_cons_of_mem _)

/-- With positive lengths, a region holds no more records than bytes. -/
theorem length_le (h : Tiles len a os b) : a + os.length ≤ b := by
  induction h with
  | nil => simp
  | cons hpos _ ih => simp only [List.length_cons]; omega

end Tiles

/-! ### Walks -/

/-- A loop that stands at an offset, visits the record there while the guard holds, and steps
behind it. The step is taken after the visit, from the state the visit left. -/
structure Walk (σ : Type*) where
  /-- The loop's guard, at an offset. -/
  guard : ℕ → σ → Bool
  /-- What the loop does with the record at an offset. -/
  visit : ℕ → σ → σ
  /-- The offset behind the record at an offset. -/
  next : σ → ℕ → ℕ

namespace Walk

variable {σ : Type*} (w : Walk σ)

/-- One turn of a walk. -/
def turn : ℕ × σ → Turn (ℕ × σ) (ℕ × σ)
  | (p, s) =>
    if w.guard p s then
      let s' := w.visit p s
      .next (w.next s' p, s')
    else .done (p, s)

/-- A walk over a given list of records: it visits them in order until the guard fails. -/
def visitAll : List ℕ → σ → σ
  | [], s => s
  | o :: os, s => if w.guard o s then visitAll os (w.visit o s) else s

@[simp] theorem visitAll_nil (s : σ) : w.visitAll [] s = s := rfl

theorem visitAll_cons_of_guard {o : ℕ} {os : List ℕ} {s : σ} (h : w.guard o s = true) :
    w.visitAll (o :: os) s = w.visitAll os (w.visit o s) := by
  simp [visitAll, h]

theorem visitAll_cons_of_not_guard {o : ℕ} {os : List ℕ} {s : σ} (h : w.guard o s = false) :
    w.visitAll (o :: os) s = s := by
  simp [visitAll, h]

/-- The invariant rule for walks over a list of records: `Inv pre s` relates the records passed so
far to the state. -/
theorem visitAll_invariant (Inv : List ℕ → σ → Prop) {os : List ℕ}
    (hvisit : ∀ pre o, (∃ post, os = pre ++ o :: post) → ∀ s, Inv pre s → w.guard o s = true →
      Inv (pre ++ [o]) (w.visit o s))
    (hstop : ∀ pre o, (∃ post, os = pre ++ o :: post) → ∀ s, Inv pre s → w.guard o s = false →
      Inv os s)
    {s : σ} (h : Inv [] s) : Inv os (w.visitAll os s) := by
  suffices H : ∀ post pre s, os = pre ++ post → Inv pre s → Inv os (w.visitAll post s) from
    H os [] s rfl h
  intro post
  induction post with
  | nil =>
    intro pre s hos hs
    rw [List.append_nil] at hos
    subst hos
    exact hs
  | cons o post ih =>
    intro pre s hos hs
    cases hg : w.guard o s with
    | true =>
      rw [w.visitAll_cons_of_guard hg]
      exact ih (pre ++ [o]) _ (by simp [hos]) (hvisit pre o ⟨post, hos⟩ s hs hg)
    | false =>
      rw [w.visitAll_cons_of_not_guard hg]
      exact hstop pre o ⟨post, hos⟩ s hs hg

/-- Two walks over the same records, whose guards agree on related states, keep a relation between
their states. -/
theorem visitAll_rel {w' : Walk σ} (R : σ → σ → Prop) {os : List ℕ}
    (hguard : ∀ o ∈ os, ∀ s s', R s s' → w.guard o s = w'.guard o s')
    (hvisit : ∀ o ∈ os, ∀ s s', R s s' → R (w.visit o s) (w'.visit o s')) {s s' : σ} (h : R s s') :
    R (w.visitAll os s) (w'.visitAll os s') := by
  induction os generalizing s s' with
  | nil => exact h
  | cons o os ih =>
    have hsame := hguard o List.mem_cons_self s s' h
    cases hg : w.guard o s with
    | true =>
      rw [w.visitAll_cons_of_guard hg, w'.visitAll_cons_of_guard (hsame ▸ hg)]
      exact ih (fun o ho => hguard o (List.mem_cons_of_mem _ ho))
        (fun o ho => hvisit o (List.mem_cons_of_mem _ ho)) (hvisit o List.mem_cons_self s s' h)
    | false =>
      rw [w.visitAll_cons_of_not_guard hg, w'.visitAll_cons_of_not_guard (hsame ▸ hg)]
      exact h

/-- **Walks over tiled regions.** When the guard fails at the end of the region, and an invariant
of the visits makes every step go behind the record visited, the walk is left after at most one
turn for every record, in the state `visitAll` computes. -/
theorem run_eq_visitAll (Inv : σ → Prop) {len : ℕ → ℕ} {a b : ℕ} {os : List ℕ}
    (htiles : Tiles len a os b) (hend : ∀ s, Inv s → w.guard b s = false)
    (hvisit : ∀ o ∈ os, ∀ s, Inv s → w.guard o s = true → Inv (w.visit o s))
    (hnext : ∀ o ∈ os, ∀ s, Inv s → w.next s o = o + len o) {s : σ} (hs : Inv s) :
    ∃ p, run w.turn (os.length + 1) (a, s) = some (p, w.visitAll os s) := by
  induction htiles generalizing s with
  | nil a => exact ⟨a, run_of_done (by simp [turn, hend s hs]) _⟩
  | @cons a b os hpos htail ih =>
    cases hg : w.guard a s with
    | false =>
      rw [w.visitAll_cons_of_not_guard hg]
      exact ⟨a, run_of_done (by simp [turn, hg]) _⟩
    | true =>
      have hs' : Inv (w.visit a s) := hvisit a List.mem_cons_self s hs hg
      have hturn : w.turn (a, s) = .next (a + len a, w.visit a s) := by
        simp [turn, hg, hnext a List.mem_cons_self _ hs']
      rw [w.visitAll_cons_of_guard hg, List.length_cons, run_of_next hturn]
      exact ih hend (fun o ho => hvisit o (List.mem_cons_of_mem _ ho))
        (fun o ho => hnext o (List.mem_cons_of_mem _ ho)) hs'

/-! ### Visited records -/

/-- The offsets of the records that a walk visits in at most `fuel` turns. -/
def visited : ℕ → ℕ × σ → List ℕ
  | 0, _ => []
  | fuel + 1, (p, s) =>
    if w.guard p s then
      let s' := w.visit p s
      p :: visited fuel (w.next s' p, s')
    else []

/-- **Visited records.** When the guard holds at every record of a tiled region and fails behind the
last one, the walk visits all records in their order. -/
theorem visited_eq (Inv : List ℕ → σ → Prop) {len : ℕ → ℕ} {a b : ℕ} {os : List ℕ}
    (htiles : Tiles len a os b) (hend : ∀ s, Inv os s → w.guard b s = false)
    (hvisit : ∀ pre o, (∃ post, os = pre ++ o :: post) → ∀ s, Inv pre s →
      w.guard o s = true ∧ Inv (pre ++ [o]) (w.visit o s) ∧ w.next (w.visit o s) o = o + len o)
    {s : σ} (hs : Inv [] s) {fuel : ℕ} (hfuel : os.length ≤ fuel) : w.visited fuel (a, s) = os := by
  suffices H : ∀ post pre fuel a s, os = pre ++ post → Tiles len a post b → Inv pre s →
      post.length ≤ fuel → w.visited fuel (a, s) = post from
    H os [] fuel a s rfl htiles hs hfuel
  intro post
  induction post with
  | nil =>
    intro pre fuel a s hos htiles hs _
    rw [List.append_nil] at hos
    cases htiles
    cases fuel with
    | zero => rfl
    | succ fuel => simp [visited, hend s (hos ▸ hs)]
  | cons o post ih =>
    intro pre fuel a s hos htiles hs hfuel
    obtain ⟨fuel, rfl⟩ : ∃ k, fuel = k + 1 := ⟨fuel - 1, by simp at hfuel; omega⟩
    cases htiles with
    | cons hpos htail =>
      obtain ⟨hguard, hinv, hnext⟩ := hvisit pre o ⟨post, hos⟩ s hs
      rw [visited, if_pos hguard]
      simp only [hnext]
      rw [ih (pre ++ [o]) fuel _ _ (by simp [hos]) htail hinv (by simpa using hfuel)]

/-- A walk that stops at the end of a tiled region visits records of the region only. -/
theorem mem_of_mem_visited {len : ℕ → ℕ} {a b : ℕ} {os : List ℕ} (htiles : Tiles len a os b)
    (hend : ∀ s, w.guard b s = false) (hnext : ∀ o ∈ os, ∀ s, w.next s o = o + len o) {fuel o : ℕ}
    {s : σ} (ho : o ∈ w.visited fuel (a, s)) : o ∈ os := by
  induction htiles generalizing fuel s with
  | nil a =>
    cases fuel with
    | zero => exact ho
    | succ fuel => simp [visited, hend s] at ho
  | @cons a b os hpos htail ih =>
    cases fuel with
    | zero => exact absurd ho List.not_mem_nil
    | succ fuel =>
      rw [visited] at ho
      split at ho
      · simp only [hnext a List.mem_cons_self] at ho
        rcases List.mem_cons.1 ho with rfl | ho
        · exact List.mem_cons_self
        · exact List.mem_cons_of_mem _
            (ih hend (fun o ho => hnext o (List.mem_cons_of_mem _ ho)) ho)
      · exact absurd ho List.not_mem_nil

end Walk

end Segments
