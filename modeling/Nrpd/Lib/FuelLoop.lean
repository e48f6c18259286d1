import Mathlib.Data.Nat.Basic
import Mathlib.Logic.Relation

/-!
# Loops run on fuel

A `while` loop is given by what one turn of it does: leave with a result, or go round again with
a new state. `run` plays at most a given number of turns, so a loop that never leaves is one
whose run is `none` for every amount of fuel.

## Main definitions

* `FuelLoop.Turn`: the outcome of one turn.
* `FuelLoop.run`: at most a given number of turns.
* `FuelLoop.Reaches`: the states the loop head can see.

## Main results

* `FuelLoop.run_isSome_of_measure`: a measure that falls at every reached state bounds the
  number of turns.
* `FuelLoop.run_eq_none_of_reaches`: a loop that reaches a state it never gets away from runs
  forever.
* `FuelLoop.run_eq_none_of_stay`: so does a loop that never leaves some set of states.
* `FuelLoop.run_eq_map`, `FuelLoop.Reaches.or_off`: loops whose turns agree, on the states that are
  reached or on those of some set.
-/

namespace FuelLoop

variable {σ ρ : Type*}

/-- What one turn of a loop does: leave the loop with a result, or go round with a new state. -/
inductive Turn (σ ρ : Type*) where
  | done (r : ρ)
  | next (s : σ)

/-- A turn with another result. -/
def Turn.map {ρ' : Type*} (f : ρ → ρ') : Turn σ ρ → Turn σ ρ'
  | done r => done (f r)
  | next s => next s

/-- At most `fuel` turns of the loop `turn` from a state; `none` when the fuel runs out. -/
def run (turn : σ → Turn σ ρ) : ℕ → σ → Option ρ
  | 0, _ => none
  | fuel + 1, s =>
    match turn s with
    | .done r => some r
    | .next s' => run turn fuel s'

variable {turn : σ → Turn σ ρ}

@[simp] theorem run_zero (s : σ) : run turn 0 s = none := rfl

theorem run_of_done {s : σ} {r : ρ} (h : turn s = .done r) (fuel : ℕ) :
    run turn (fuel + 1) s = some r := by
  simp only [run, h]

theorem run_of_next {s s' : σ} (h : turn s = .next s') (fuel : ℕ) :
    run turn (fuel + 1) s = run turn fuel s' := by
  simp only [run, h]

/-- More fuel does not change a result. -/
theorem run_mono {n m : ℕ} (hnm : n ≤ m) {s : σ} {r : ρ} (h : run turn n s = some r) :
    run turn m s = some r := by
  induction n generalizing m s with
  | zero => simp at h
  | succ n ih =>
    obtain ⟨m, rfl⟩ : ∃ k, m = k + 1 := ⟨m - 1, by omega⟩
    cases hs : turn s with
    | done r' => rw [run_of_done hs] at h ⊢; exact h
    | next s' =>
      rw [run_of_next hs] at h ⊢
      exact ih (by omega) h

/-! ### Reached states -/

/-- `s'` is a state the loop head sees when the loop is entered with `s`. -/
def Reaches (turn : σ → Turn σ ρ) : σ → σ → Prop :=
  Relation.ReflTransGen fun s s' => turn s = .next s'

theorem Reaches.refl (s : σ) : Reaches turn s s := Relation.ReflTransGen.refl

theorem Reaches.head {s s' t : σ} (h : turn s = .next s') (ht : Reaches turn s' t) :
    Reaches turn s t :=
  Relation.ReflTransGen.head h ht

theorem Reaches.tail {s t t' : σ} (hs : Reaches turn s t) (h : turn t = .next t') :
    Reaches turn s t' :=
  Relation.ReflTransGen.tail hs h

/-- The invariant rule on reached states. -/
theorem Reaches.invariant (Inv : σ → Prop) {s t : σ} (h : Reaches turn s t) (hs : Inv s)
    (hstep : ∀ a b, Inv a → turn a = .next b → Inv b) : Inv t := by
  induction h with
  | refl => exact hs
  | tail _ hb ih => exact hstep _ _ ih hb

/-- **Termination.** If a measure falls on every turn from a reached state, the loop is left
within as many turns as the measure says. -/
theorem run_isSome_of_measure (μ : σ → ℕ) (s : σ)
    (hμ : ∀ a b, Reaches turn s a → turn a = .next b → μ b < μ a) :
    ∃ r, run turn (μ s + 1) s = some r := by
  suffices H : ∀ n (a : σ), Reaches turn s a → μ a ≤ n → ∃ r, run turn (n + 1) a = some r from
    H (μ s) s (.refl s) le_rfl
  intro n
  induction n with
  | zero =>
    intro a ha hn
    cases hs : turn a with
    | done r => exact ⟨r, run_of_done hs 0⟩
    | next b => have := hμ a b ha hs; omega
  | succ n ih =>
    intro a ha hn
    cases hs : turn a with
    | done r => exact ⟨r, run_of_done hs _⟩
    | next b =>
      have hlt := hμ a b ha hs
      rw [run_of_next hs]
      exact ih b (ha.tail hs) (by omega)

/-- A loop that reaches a state from which it runs forever runs forever. -/
theorem run_eq_none_of_reaches {s t : σ} (h : Reaches turn s t)
    (ht : ∀ n, run turn n t = none) (n : ℕ) : run turn n s = none := by
  induction h using Relation.ReflTransGen.head_induction_on generalizing n with
  | refl => exact ht n
  | head hab _ ih =>
    cases n with
    | zero => rfl
    | succ n => rw [run_of_next hab]; exact ih n

/-- States that are never left: if every turn from `Stay` goes round and stays in it, the loop
runs forever. -/
theorem run_eq_none_of_stay (Stay : σ → Prop)
    (h : ∀ s, Stay s → ∃ s', turn s = .next s' ∧ Stay s') {s : σ} (hs : Stay s) (n : ℕ) :
    run turn n s = none := by
  induction n generalizing s with
  | zero => rfl
  | succ n ih =>
    obtain ⟨s', hturn, hs'⟩ := h s hs
    rw [run_of_next hturn]
    exact ih hs'

/-! ### Two loops -/

section TwoLoops

variable {ρ' : Type*} {turn' : σ → Turn σ ρ'} {f : ρ → ρ'} {s t : σ}

theorem exists_run_of_reaches {r : ρ} (h : Reaches turn s t) (hdone : turn t = .done r) :
    ∃ n, run turn n s = some r := by
  induction h using Relation.ReflTransGen.head_induction_on with
  | refl => exact ⟨1, run_of_done hdone 0⟩
  | head hab _ ih =>
    obtain ⟨n, hn⟩ := ih
    exact ⟨n + 1, by rw [run_of_next hab, hn]⟩

/-- Two loops whose turns agree on the states that are reached have the same results. -/
theorem run_eq_map (h : ∀ t, Reaches turn s t → turn' t = (turn t).map f) (n : ℕ) :
    run turn' n s = (run turn n s).map f := by
  induction n generalizing s with
  | zero => rfl
  | succ n ih =>
    have hs := h s (.refl s)
    cases hturn : turn s with
    | done r =>
      rw [hturn] at hs
      rw [run_of_done hturn, run_of_done hs, Option.map_some]
    | next s' =>
      rw [hturn] at hs
      rw [run_of_next hturn, run_of_next hs]
      exact ih fun t ht => h t (ht.head hturn)

/-- When the turns of two loops agree outside some set of states, the second loop reaches what the
first one reaches, unless it reaches a state of the set. -/
theorem Reaches.or_off {Off : σ → Prop} (h : Reaches turn s t)
    (hagree : ∀ u, ¬ Off u → turn' u = (turn u).map f) :
    Reaches turn' s t ∨ ∃ u, Off u ∧ Reaches turn' s u := by
  induction h with
  | refl => exact .inl (.refl s)
  | @tail u t _ hturn ih =>
    rcases ih with hu | hoff
    · by_cases hu' : Off u
      · exact .inr ⟨u, hu', hu⟩
      · have hnext := hagree u hu'
        rw [hturn] at hnext
        exact .inl (hu.tail hnext)
    · exact .inr hoff

end TwoLoops

end FuelLoop
