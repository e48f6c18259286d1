import Mathlib.Data.Int.Order.Basic
import Mathlib.Order.Basic

/-!
# A steady clock

A clock is the sequence of readings a program takes from it, in nanoseconds, and the number of
readings taken so far. A steady clock never goes back. Durations in seconds are turned into
nanoseconds by `SteadyClock.seconds`.
-/

/-- The readings of a clock, in the order they are taken, and how many were taken. -/
structure SteadyClock where
  reading : ℕ → ℤ
  taken : ℕ

namespace SteadyClock

/-- The next reading of the clock. -/
def now (c : SteadyClock) : ℤ := c.reading c.taken

/-- The clock after a reading was taken. -/
def tick (c : SteadyClock) : SteadyClock := { c with taken := c.taken + 1 }

/-- The clock never goes back. -/
def Steady (c : SteadyClock) : Prop := ∀ i j, i ≤ j → c.reading i ≤ c.reading j

/-- `d` is `c` after some more readings. -/
def LaterThan (c d : SteadyClock) : Prop := d.reading = c.reading ∧ c.taken ≤ d.taken

/-- A number of seconds, in nanoseconds. -/
def seconds (n : ℤ) : ℤ := n * 1000000000

variable {c d e : SteadyClock}

theorem LaterThan.refl (c : SteadyClock) : c.LaterThan c := ⟨rfl, Nat.le_refl _⟩

theorem LaterThan.tick (c : SteadyClock) : c.LaterThan c.tick := ⟨rfl, Nat.le_succ _⟩

theorem LaterThan.trans (h : c.LaterThan d) (h' : d.LaterThan e) : c.LaterThan e :=
  ⟨h'.1.trans h.1, Nat.le_trans h.2 h'.2⟩

theorem Steady.of_laterThan (h : c.Steady) (hd : c.LaterThan d) : d.Steady := by
  unfold Steady
  rw [hd.1]
  exact h

/-- A later reading of a steady clock is no smaller. -/
theorem Steady.now_le (h : c.Steady) (hd : c.LaterThan d) : c.now ≤ d.now := by
  unfold now
  rw [hd.1]
  exact h _ _ hd.2

/-- A reading of `t` or later has been taken. -/
def Passed (c : SteadyClock) (t : ℤ) : Prop := ∃ n < c.taken, t ≤ c.reading n

theorem Passed.of_laterThan {t : ℤ} (h : c.Passed t) (hd : c.LaterThan d) : d.Passed t := by
  obtain ⟨n, hn, ht⟩ := h
  exact ⟨n, Nat.lt_of_lt_of_le hn hd.2, by rwa [hd.1]⟩

/-- The reading that is taken next. -/
theorem passed_tick {t : ℤ} (h : t ≤ c.now) : c.tick.Passed t := ⟨c.taken, Nat.lt_succ_self _, h⟩

/-- A steady clock does not go back behind a time that has passed. -/
theorem Steady.le_now_of_passed {t : ℤ} (h : c.Steady) (ht : c.Passed t) : t ≤ c.now := by
  obtain ⟨n, hn, hle⟩ := ht
  exact hle.trans (h n c.taken (Nat.le_of_lt hn))

end SteadyClock
