import Mathlib.Data.Int.Order.Basic
import Mathlib.Data.List.Pairwise
import Mathlib.Order.Basic
import Nrpd.Lib.Runs

/-!
# Tasks that are repeated after an interval

A task is started when an interval has passed since it was completed the last time. It notes the
time when it is completed, not when it is started; so while it runs it may be started again. When it
is never started again while it runs, the times at which it is completed are an interval apart.

## Main definitions

* `PeriodicTask`, `PeriodicTask.step`: the states, and what happens to them.
* `PeriodicTask.StartsAlone`: the condition that the task is not started while it runs.
* `PeriodicTask.Spaced`: the invariant.

## Main results

* `PeriodicTask.Spaced.step`, `PeriodicTask.spaced_of_reachable`: what one event and every run keep.
* `PeriodicTask.Spaced.overdue`: a task that runs could be started again.
* `length_le_of_spaced`: how many times that are an interval apart fit in a window.
-/

/-! ### Times that are an interval apart -/

section Times

variable {interval first last : ℤ}

theorem pred_length_mul_le_of_spaced {times : List ℤ} (hne : times ≠ [])
    (hspaced : times.Pairwise fun earlier later => earlier + interval ≤ later)
    (hfirst : ∀ t ∈ times, first ≤ t) (hlast : ∀ t ∈ times, t ≤ last) :
    ((times.length : ℤ) - 1) * interval ≤ last - first := by
  induction times generalizing first with
  | nil => exact absurd rfl hne
  | cons t times ih =>
    have ht := hfirst t List.mem_cons_self
    obtain ⟨hlater, hspaced⟩ := List.pairwise_cons.1 hspaced
    by_cases hnil : times = []
    · have hle := hlast t List.mem_cons_self
      rw [hnil, List.length_singleton, Int.natCast_one, Int.sub_self, Int.zero_mul]
      omega
    · have hrest := ih hnil hspaced hlater fun u hu => hlast u (List.mem_cons_of_mem _ hu)
      have hlength : (((t :: times).length : ℕ) : ℤ) - 1 = ((times.length : ℤ) - 1) + 1 := by
        rw [List.length_cons]
        omega
      rw [hlength, Int.add_mul, Int.one_mul]
      omega

/-- **Windows.** In a window there is one more time than intervals fit. -/
theorem length_le_of_spaced {times : List ℤ} (hpos : 0 < interval)
    (hspaced : times.Pairwise fun earlier later => earlier + interval ≤ later)
    (hwindow : first ≤ last) (hfirst : ∀ t ∈ times, first ≤ t) (hlast : ∀ t ∈ times, t ≤ last) :
    (times.length : ℤ) ≤ (last - first) / interval + 1 := by
  by_cases hnil : times = []
  · have hquot := Int.ediv_nonneg (show 0 ≤ last - first by omega) hpos.le
    rw [hnil, List.length_nil, Int.natCast_zero]
    omega
  · have hmul := pred_length_mul_le_of_spaced hnil hspaced hfirst hlast
    have hquot := (Int.le_ediv_iff_mul_le hpos).2 hmul
    omega

end Times

/-! ### Tasks -/

/-- A task with the time of its last completion, how many times it runs now, and the times at which
it was completed, the latest first. -/
structure PeriodicTask where
  interval : ℤ
  last : ℤ
  now : ℤ
  running : ℕ
  completed : List ℤ

namespace PeriodicTask

open Runs

/-- What happens to a task: time passes, or it is started, or it is completed. -/
inductive Event where
  | wait (t : ℤ)
  | start
  | finish

/-- The state behind an event. Time does not go back, and the task is started when the interval is
over. -/
def step (s : PeriodicTask) : Event → Option PeriodicTask
  | .wait t => if s.now ≤ t then some { s with now := t } else none
  | .start => if s.last + s.interval ≤ s.now then some { s with running := s.running + 1 } else none
  | .finish =>
    match s.running with
    | 0 => none
    | n + 1 => some { s with running := n, last := s.now, completed := s.now :: s.completed }

/-- The task is idle, and was never completed. -/
def Idle (s : PeriodicTask) : Prop := s.running = 0 ∧ s.last ≤ s.now ∧ s.completed = []

/-- The task is not started while it runs. -/
def StartsAlone (s : PeriodicTask) : Event → Prop
  | .start => s.running = 0
  | _ => True

/-- The task runs at most once at a time, after the interval was over, and its completions are an
interval apart. -/
structure Spaced (s : PeriodicTask) : Prop where
  alone : s.running ≤ 1
  past : s.last ≤ s.now
  overdue : s.running ≠ 0 → s.last + s.interval ≤ s.now
  completed : ∀ t ∈ s.completed, t ≤ s.last
  spaced : s.completed.Pairwise fun later earlier => earlier + s.interval ≤ later

variable {s s' : PeriodicTask} {e : Event}

theorem Idle.spaced (h : s.Idle) : s.Spaced where
  alone := h.1 ▸ Nat.zero_le 1
  past := h.2.1
  overdue hne := absurd h.1 hne
  completed t ht := by simp [h.2.2] at ht
  spaced := by simp [h.2.2]

/-- **One event.** Completions stay an interval apart, as long as the task is not started while it
runs. -/
theorem Spaced.step (h : s.Spaced) (halone : s.StartsAlone e) (hstep : s.step e = some s') :
    s'.Spaced := by
  cases e with
  | wait t =>
    obtain ⟨hle, heq⟩ := Option.ite_none_right_eq_some.1 hstep
    obtain rfl := Option.some.inj heq
    exact ⟨h.alone, h.past.trans hle, fun hne => (h.overdue hne).trans hle, h.completed, h.spaced⟩
  | start =>
    obtain ⟨hdue, heq⟩ := Option.ite_none_right_eq_some.1 hstep
    obtain rfl := Option.some.inj heq
    have hidle : s.running = 0 := halone
    exact ⟨by simp [hidle], h.past, fun _ => hdue, h.completed, h.spaced⟩
  | finish =>
    rw [PeriodicTask.step] at hstep
    cases hrunning : s.running with
    | zero => simp [hrunning] at hstep
    | succ n =>
      rw [hrunning] at hstep
      obtain rfl := Option.some.inj hstep
      have hdue := h.overdue (by omega)
      have halone := h.alone
      refine ⟨by simp only; omega, le_refl s.now, fun hne => ?_, ?_, ?_⟩
      · simp only at hne
        omega
      · intro t ht
        rcases List.mem_cons.1 ht with rfl | ht
        · exact le_refl s.now
        · exact (h.completed t ht).trans h.past
      · refine List.pairwise_cons.2 ⟨fun t ht => ?_, h.spaced⟩
        have := h.completed t ht
        simp only
        omega

/-- **Every run.** -/
theorem spaced_of_reachable (h : Reachable Idle step StartsAlone s) : s.Spaced :=
  h.invariant (fun _ hs => hs.spaced) fun _ _ _ hs halone hstep => hs.step halone hstep

theorem reachable_wait (h : Reachable Idle step StartsAlone s) {t : ℤ} (ht : s.now ≤ t) :
    Reachable Idle step StartsAlone { s with now := t } :=
  h.call (a := .wait t) trivial (if_pos ht)

theorem reachable_start (h : Reachable Idle step StartsAlone s) (halone : s.running = 0)
    (hdue : s.last + s.interval ≤ s.now) :
    Reachable Idle step StartsAlone { s with running := s.running + 1 } :=
  h.call (a := .start) halone (if_pos hdue)

theorem reachable_finish (h : Reachable Idle step StartsAlone s) {n : ℕ} (hn : s.running = n + 1) :
    Reachable Idle step StartsAlone
      { s with running := n, last := s.now, completed := s.now :: s.completed } :=
  h.call (a := .finish) trivial (by rw [step, hn])

end PeriodicTask
