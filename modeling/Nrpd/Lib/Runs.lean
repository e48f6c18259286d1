import Mathlib.Algebra.BigOperators.Group.List.Basic
import Mathlib.Algebra.GroupWithZero.Nat

/-!
# Runs of a state machine

A state machine is given by its first states and by what a call does to a state; a call that has
no result cannot be made. `Reachable` are the states behind the runs whose calls all meet a
condition on the call and on the state before it.

## Main definitions

* `Runs.Reachable`: the states that runs reach.
* `Runs.after`, `Runs.AllMeet`: the state behind a list of calls, and the condition on all of them.
* `Runs.total`: what the calls of a list add up to.

## Main results

* `Runs.Reachable.invariant`: the invariant rule.
* `Runs.Reachable.after_of_allMeet`: a list of calls that can be made reaches its last state.
* `Runs.total_potential`: what a run spends is paid for by what it earns, and by a potential.
* `Runs.Reachable.simulate`: a machine whose calls are lists of calls of another one.
-/

namespace Runs

variable {σ α : Type*}

/-- The states behind the runs whose calls all meet a condition. -/
inductive Reachable (first : σ → Prop) (step : σ → α → Option σ) (meets : σ → α → Prop) :
    σ → Prop
  | first {s : σ} (h : first s) : Reachable first step meets s
  | call {s s' : σ} {a : α} (h : Reachable first step meets s) (ha : meets s a)
      (hstep : step s a = some s') : Reachable first step meets s'

variable {first : σ → Prop} {step : σ → α → Option σ} {meets : σ → α → Prop}

/-- **Invariant rule.** What holds of the first states and is kept by every call that meets the
condition holds of every state reached. -/
theorem Reachable.invariant {P : σ → Prop} {s : σ} (h : Reachable first step meets s)
    (hfirst : ∀ s, first s → P s)
    (hcall : ∀ s a s', P s → meets s a → step s a = some s' → P s') : P s := by
  induction h with
  | first h => exact hfirst _ h
  | call _ ha hstep ih => exact hcall _ _ _ ih ha hstep

/-- A weaker condition has more runs. -/
theorem Reachable.mono {meets' : σ → α → Prop} (hmeets : ∀ s a, meets s a → meets' s a) {s : σ}
    (h : Reachable first step meets s) : Reachable first step meets' s := by
  induction h with
  | first h => exact .first h
  | call _ ha hstep ih => exact .call ih (hmeets _ _ ha) hstep

/-- The state behind a list of calls. -/
def after (step : σ → α → Option σ) : List α → σ → Option σ
  | [], s => some s
  | a :: as, s => (step s a).bind (after step as)

/-- Each call of a list meets the condition in the state before it. -/
def AllMeet (step : σ → α → Option σ) (meets : σ → α → Prop) : List α → σ → Prop
  | [], _ => True
  | a :: as, s => meets s a ∧ ∀ s', step s a = some s' → AllMeet step meets as s'

theorem after_append (as bs : List α) (s : σ) :
    Runs.after step (as ++ bs) s = (Runs.after step as s).bind (Runs.after step bs) := by
  induction as generalizing s with
  | nil => rfl
  | cons a as ih => cases h : step s a <;> simp [Runs.after, h, ih]

/-- The last call of a list. -/
theorem after_concat {as : List α} {a : α} {s s' : σ}
    (h : Runs.after step (as ++ [a]) s = some s') :
    ∃ t, Runs.after step as s = some t ∧ step t a = some s' := by
  rw [after_append] at h
  obtain ⟨t, hinit, hlast⟩ := Option.bind_eq_some_iff.1 h
  obtain ⟨u, hstep, hu⟩ := Option.bind_eq_some_iff.1 hlast
  obtain rfl := Option.some.inj hu
  exact ⟨t, hinit, hstep⟩

theorem allMeet_append {as bs : List α} {s : σ} (h : AllMeet step meets (as ++ bs) s) :
    AllMeet step meets as s ∧ ∀ t, Runs.after step as s = some t → AllMeet step meets bs t := by
  induction as generalizing s with
  | nil => exact ⟨trivial, fun t ht => Option.some.inj ht ▸ h⟩
  | cons a as ih =>
    refine ⟨⟨h.1, fun t ht => (ih (h.2 t ht)).1⟩, fun t ht => ?_⟩
    obtain ⟨u, hu, htail⟩ := Option.bind_eq_some_iff.1 ht
    exact (ih (h.2 u hu)).2 t htail

/-- **Invariant rule for lists of calls.** -/
theorem after_invariant {P : σ → Prop} {as : List α}
    (hcall : ∀ a ∈ as, ∀ s s', P s → meets s a → step s a = some s' → P s') {s s' : σ}
    (hs : P s) (hmeets : AllMeet step meets as s) (h : Runs.after step as s = some s') :
    P s' := by
  induction as generalizing s with
  | nil =>
    obtain rfl := Option.some.inj h
    exact hs
  | cons a as ih =>
    obtain ⟨t, ht, htail⟩ := Option.bind_eq_some_iff.1 h
    exact ih (fun a ha => hcall a (List.mem_cons_of_mem _ ha))
      (hcall a List.mem_cons_self s t hs hmeets.1 ht) (hmeets.2 t ht) htail

/-- **Invariant rule with a counter.** What every call keeps when its weight is added to a counter,
as long as the counter is below a limit. -/
theorem after_counted {P : ℕ → σ → Prop} {weight : α → ℕ} {limit : ℕ}
    (hcall : ∀ k a s s', k + weight a < limit → P k s → step s a = some s' → P (k + weight a) s')
    {as : List α} {k : ℕ} {s s' : σ} (hs : P k s) (hlimit : k + (as.map weight).sum < limit)
    (h : Runs.after step as s = some s') : P (k + (as.map weight).sum) s' := by
  induction as generalizing k s with
  | nil =>
    obtain rfl := Option.some.inj h
    exact hs
  | cons a as ih =>
    obtain ⟨t, ht, htail⟩ := Option.bind_eq_some_iff.1 h
    rw [List.map_cons, List.sum_cons, ← Nat.add_assoc] at hlimit ⊢
    exact ih (hcall k a s t (by omega) hs ht) hlimit htail

/-- What the calls of a list add up to, each taken in the state before it. -/
def total (step : σ → α → Option σ) (weight : σ → α → ℕ) : List α → σ → ℕ
  | [], _ => 0
  | a :: as, s => weight s a + ((step s a).map (total step weight as)).getD 0

theorem total_cons {weight : σ → α → ℕ} {a : α} {s t : σ} (h : step s a = some t) (as : List α) :
    total step weight (a :: as) s = weight s a + total step weight as t := by
  rw [total, h, Option.map_some, Option.getD_some]

/-- **Potential.** When what a call spends is paid for by what it earns and by what the potential
falls, so it is for every run. The invariant has a counter. -/
theorem total_potential {P : ℕ → σ → Prop} {weight : α → ℕ} {limit : ℕ} {spent earned : σ → α → ℕ}
    {potential : σ → ℕ}
    (hcall : ∀ k a s s', k + weight a < limit → P k s → step s a = some s' →
      P (k + weight a) s' ∧ spent s a + potential s' ≤ potential s + earned s a)
    {as : List α} {k : ℕ} {s s' : σ} (hs : P k s) (hlimit : k + (as.map weight).sum < limit)
    (h : Runs.after step as s = some s') :
    total step spent as s + potential s' ≤ potential s + total step earned as s := by
  induction as generalizing k s with
  | nil =>
    obtain rfl := Option.some.inj h
    show 0 + potential s ≤ potential s + 0
    omega
  | cons a as ih =>
    obtain ⟨t, ht, htail⟩ := Option.bind_eq_some_iff.1 h
    rw [List.map_cons, List.sum_cons, ← Nat.add_assoc] at hlimit
    obtain ⟨hkept, hpaid⟩ := hcall k a s t (by omega) hs ht
    have hrest := ih hkept hlimit htail
    rw [total_cons ht, total_cons ht]
    omega

/-- A list of calls that meet the condition reaches the state behind it. -/
theorem Reachable.after_of_allMeet {s s' : σ} (hs : Reachable first step meets s) (as : List α)
    (hmeets : AllMeet step meets as s) (h : Runs.after step as s = some s') :
    Reachable first step meets s' :=
  after_invariant (fun _ _ _ _ hs ha hstep => hs.call ha hstep) hs hmeets h

theorem allMeet_true (as : List α) (s : σ) : AllMeet step (fun _ _ => True) as s := by
  induction as generalizing s with
  | nil => trivial
  | cons a as ih => exact ⟨trivial, fun t _ => ih t⟩

/-- A list of calls reaches the state behind it, when the condition is no condition. -/
theorem Reachable.after {s s' : σ} (hs : Reachable first step (fun _ _ => True) s) (as : List α)
    (h : Runs.after step as s = some s') :
    Reachable first step (fun _ _ => True) s' :=
  hs.after_of_allMeet as (allMeet_true as s) h

/-- **Simulation.** When every call of a machine is a list of calls of another one, its runs are
runs of the other one. -/
theorem Reachable.simulate {τ β : Type*} {first' : τ → Prop} {step' : τ → β → Option τ}
    {meets' : τ → β → Prop} (proj : τ → σ) (calls : τ → β → List α)
    (hfirst : ∀ t, first' t → first (proj t))
    (hcall : ∀ t b t', meets' t b → step' t b = some t' →
      AllMeet step meets (calls t b) (proj t) ∧
        Runs.after step (calls t b) (proj t) = some (proj t')) {t : τ}
    (h : Reachable first' step' meets' t) : Reachable first step meets (proj t) := by
  induction h with
  | first ht => exact .first (hfirst _ ht)
  | call _ hmeets hstep ih =>
    obtain ⟨hall, hafter⟩ := hcall _ _ _ hmeets hstep
    exact ih.after_of_allMeet _ hall hafter

end Runs
