import Mathlib.Data.Nat.Basic
import Mathlib.Order.Monotone.Defs
import Nrpd.Lib.Runs
import Nrpd.Lib.SteadyClock

/-!
# What takes readings from a clock

A function that is given a clock takes some readings from it, and depends on no others: it does the
same on every clock that goes on with these readings. So when a machine takes turns with others that
read the same clock, its own calls are a run of their own, on a clock that leaves out the readings
of the others.

## Main definitions

* `SteadyClock.skip`, `SteadyClock.AgreeFor`: later clocks, and clocks that go on alike.
* `SteadyClock.thinned`: the clock of some of the readings.
* `ClockReaders.IsReader`: the functions that depend on the readings that they take.

## Main results

* `ClockReaders.IsReader.now`, `ClockReaders.IsReader.bind`: how readers are composed.
* `ClockReaders.IsReader.after`: the runs of a machine of readers.
* `ClockReaders.strictMono_splice`: the readings of a run, from those of its first call and those of
  the rest.
-/

namespace SteadyClock

variable {c d : SteadyClock} {f : ℕ → ℕ} {i k l : ℕ}

/-- The clock behind `k` more readings. -/
def skip (c : SteadyClock) (k : ℕ) : SteadyClock := { c with taken := c.taken + k }

@[simp] theorem skip_zero (c : SteadyClock) : c.skip 0 = c := rfl

@[simp] theorem skip_skip (c : SteadyClock) (k l : ℕ) : (c.skip k).skip l = c.skip (k + l) := by
  rw [skip, skip, skip, Nat.add_assoc]

theorem LaterThan.skip (c : SteadyClock) (k : ℕ) : c.LaterThan (c.skip k) :=
  ⟨rfl, Nat.le_add_right _ _⟩

theorem LaterThan.exists_skip (h : c.LaterThan d) : ∃ k, d = c.skip k := by
  obtain ⟨hreading, htaken⟩ := h
  refine ⟨d.taken - c.taken, ?_⟩
  rw [SteadyClock.skip, Nat.add_sub_cancel' htaken, ← hreading]

/-- The next `k` readings of `d` are those of `c`. -/
def AgreeFor (c d : SteadyClock) (k : ℕ) : Prop := ∀ i < k, (d.skip i).now = (c.skip i).now

theorem AgreeFor.mono (h : c.AgreeFor d l) (hle : k ≤ l) : c.AgreeFor d k :=
  fun i hi => h i (hi.trans_le hle)

theorem AgreeFor.skip (h : c.AgreeFor d (k + l)) : (c.skip k).AgreeFor (d.skip k) l := by
  intro i hi
  rw [skip_skip, skip_skip]
  exact h (k + i) (by omega)

/-- The clock of the readings of `c`, from its next one on, that have the numbers of `f`. -/
def thinned (c : SteadyClock) (f : ℕ → ℕ) : SteadyClock := ⟨fun i => (c.skip (f i)).now, 0⟩

theorem now_skip_thinned (c : SteadyClock) (f : ℕ → ℕ) (i : ℕ) :
    ((c.thinned f).skip i).now = (c.skip (f i)).now := by
  rw [now, SteadyClock.skip, thinned, Nat.zero_add]

/-- A clock that leaves out readings does not go back either. -/
theorem Steady.thinned (h : c.Steady) (hf : Monotone f) : (c.thinned f).Steady := fun _ _ hij =>
  h _ _ (Nat.add_le_add_left (hf hij) c.taken)

end SteadyClock

namespace ClockReaders

open SteadyClock

variable {σ τ α : Type*} {place : σ → SteadyClock → τ}

/-- A function of a clock that depends on the readings that it takes: what it leaves is put together
from a value and the clock behind these readings, and is the same on every clock that goes on with
them. -/
def IsReader (place : σ → SteadyClock → τ) (F : SteadyClock → Option τ) : Prop :=
  ∀ c t, F c = some t → ∃ x k, t = place x (c.skip k) ∧
    ∀ d, c.AgreeFor d k → F d = some (place x (d.skip k))

theorem IsReader.congr {F G : SteadyClock → Option τ} (h : IsReader place F)
    (heq : ∀ c, G c = F c) : IsReader place G := by
  rw [funext heq]
  exact h

/-- No readings. -/
theorem isReader_const (x : Option σ) : IsReader place fun c => x.map (place · c) := by
  intro c t ht
  obtain ⟨x, rfl, rfl⟩ := Option.map_eq_some_iff.1 ht
  exact ⟨x, 0, rfl, fun d _ => rfl⟩

/-- One reading. -/
theorem IsReader.now {F : ℤ → SteadyClock → Option τ} (h : ∀ t, IsReader place (F t)) :
    IsReader place fun c => F c.now c.tick := by
  intro c t ht
  obtain ⟨x, k, rfl, hagree⟩ := h c.now c.tick t ht
  have htick (d : SteadyClock) : d.tick.skip k = d.skip (1 + k) := skip_skip d 1 k
  refine ⟨x, 1 + k, by rw [htick], fun d hd => ?_⟩
  have hnow : d.now = c.now := hd 0 (by omega)
  have hrest : c.tick.AgreeFor d.tick k := hd.skip
  simp only [hnow, hagree d.tick hrest, htick]

/-- One function behind another one. -/
theorem IsReader.bind {ρ : Type*} {F : SteadyClock → Option (ρ × SteadyClock)}
    {G : ρ → SteadyClock → Option τ} (hF : IsReader Prod.mk F) (hG : ∀ r, IsReader place (G r)) :
    IsReader place fun c => (F c).bind fun r => G r.1 r.2 := by
  intro c t ht
  obtain ⟨r, hr, ht⟩ := Option.bind_eq_some_iff.1 ht
  obtain ⟨x, k, rfl, hfirst⟩ := hF c r hr
  obtain ⟨y, l, rfl, hsecond⟩ := hG x (c.skip k) t ht
  refine ⟨y, k + l, by rw [skip_skip], fun d hd => ?_⟩
  simp only [hfirst d (hd.mono (Nat.le_add_right k l)), Option.bind_some,
    hsecond (d.skip k) hd.skip, skip_skip]

/-- **Runs.** The runs of a machine whose calls depend on the readings that they take. -/
theorem IsReader.after {step : τ → α → Option τ}
    (h : ∀ x a, IsReader place fun c => step (place x c) a) (as : List α) (x : σ) :
    IsReader place fun c => Runs.after step as (place x c) := by
  induction as generalizing x with
  | nil => exact isReader_const (some x)
  | cons a as ih =>
    intro c t ht
    obtain ⟨s, hs, ht⟩ := Option.bind_eq_some_iff.1 ht
    obtain ⟨y, k, rfl, hfirst⟩ := h x a c s hs
    obtain ⟨z, l, rfl, hrest⟩ := ih y (c.skip k) t ht
    refine ⟨z, k + l, by rw [skip_skip], fun d hd => ?_⟩
    simp only [Runs.after, hfirst d (hd.mono (Nat.le_add_right k l)), Option.bind_some,
      hrest (d.skip k) hd.skip, skip_skip]

/-- The readings of a run: the first `k` ones, and those with the numbers of `g` from the number `l`
on. -/
def splice (k l : ℕ) (g : ℕ → ℕ) (i : ℕ) : ℕ := if i < k then i else l + g (i - k)

theorem splice_of_lt {k l i : ℕ} {g : ℕ → ℕ} (h : i < k) : splice k l g i = i := if_pos h

theorem splice_add (k l : ℕ) (g : ℕ → ℕ) (i : ℕ) : splice k l g (k + i) = l + g i := by
  rw [splice, if_neg (by omega), Nat.add_sub_cancel_left]

theorem strictMono_splice {k l : ℕ} {g : ℕ → ℕ} (hg : StrictMono g) (hle : k ≤ l) :
    StrictMono (splice k l g) := by
  intro i j hij
  rw [splice, splice]
  by_cases hj : j < k
  · rw [if_pos (hij.trans hj), if_pos hj]
    exact hij
  · by_cases hi : i < k
    · rw [if_pos hi, if_neg hj]
      omega
    · rw [if_neg hi, if_neg hj]
      exact Nat.add_lt_add_left (hg (by omega)) l

end ClockReaders
