import Mathlib.Data.List.Basic
import Mathlib.Logic.Function.Basic
import Nrpd.Lib.Runs

/-!
# Components that take turns

A system of components, each with a state of its own, that take turns in any order. A call of the
system is a call of one component; it does to this component what it does alone, and nothing to the
others. So a run of the system is a run of every component, of the calls that are its own.

## Main definitions

* `Interleaving.step`: a call of one of the components.
* `Interleaving.callsOf`: the calls of a component.

## Main results

* `Interleaving.after_callsOf`: the runs of the components.
-/

namespace Interleaving

variable {ι σ α : Type*} [DecidableEq ι]

/-- A call of one of the components. -/
def step (stepOne : σ → α → Option σ) (s : ι → σ) (call : ι × α) : Option (ι → σ) :=
  (stepOne (s call.1) call.2).map (Function.update s call.1)

/-- The calls of a component. -/
def callsOf (i : ι) (calls : List (ι × α)) : List α :=
  calls.filterMap fun call => if call.1 = i then some call.2 else none

variable {stepOne : σ → α → Option σ} {i j : ι} {a : α} {calls more : List (ι × α)} {s s' : ι → σ}

@[simp] theorem callsOf_append : callsOf i (calls ++ more) = callsOf i calls ++ callsOf i more :=
  List.filterMap_append

@[simp] theorem callsOf_nil : callsOf i ([] : List (ι × α)) = [] := rfl

theorem callsOf_cons_self : callsOf i ((i, a) :: calls) = a :: callsOf i calls := by
  rw [callsOf, List.filterMap_cons, if_pos rfl]
  rfl

theorem callsOf_cons_of_ne (h : j ≠ i) : callsOf i ((j, a) :: calls) = callsOf i calls := by
  rw [callsOf, List.filterMap_cons, if_neg h]
  rfl

/-- A call in the states before it and behind it. -/
theorem of_step {call : ι × α} (h : step stepOne s call = some s') :
    stepOne (s call.1) call.2 = some (s' call.1) ∧ ∀ j, j ≠ call.1 → s' j = s j := by
  obtain ⟨t, ht, rfl⟩ := Option.map_eq_some_iff.1 h
  rw [Function.update_self]
  exact ⟨ht, fun j hj => Function.update_of_ne hj t s⟩

/-- **Components.** A run of the system is a run of each of its components. -/
theorem after_callsOf (h : Runs.after (step stepOne) calls s = some s') (i : ι) :
    Runs.after stepOne (callsOf i calls) (s i) = some (s' i) := by
  induction calls generalizing s with
  | nil =>
    obtain rfl := Option.some.inj h
    rfl
  | cons call calls ih =>
    obtain ⟨j, a⟩ := call
    obtain ⟨t, ht, htail⟩ := Option.bind_eq_some_iff.1 h
    obtain ⟨hown, hothers⟩ := of_step ht
    by_cases hij : j = i
    · subst hij
      rw [callsOf_cons_self, Runs.after, hown, Option.bind_some]
      exact ih htail
    · rw [callsOf_cons_of_ne hij, ← hothers i (Ne.symm hij)]
      exact ih htail

end Interleaving
