import Mathlib.Algebra.Ring.Parity
import Mathlib.Data.Nat.Prime.Basic
import Nrpd.Config.NrpdConfig

/-!
# The rotation of the servers

`GetNextServer` steps both iterators on every call, but returns a record of only one of the two
lists, in turn. Each list is thus walked with stride two, and when its length is even every other
record is never returned.

## Main definitions

* `NrpdConfig.nextServers`: the records that consecutive calls return.
* `NrpdConfig.Ready`: both lists have records, and both iterators may be stepped.
* `NrpdConfig.turn`: the record that a given call returns.

## Main results

* `NrpdConfig.nextServers_eq`: consecutive calls return the records of their turns.
* `NrpdConfig.nextServers_reach_all_iff`: when every record is returned.
-/

namespace Nrpd

namespace NrpdConfig

/-- The records that a number of consecutive calls of `GetNextServer` return. -/
def nextServers : ℕ → NrpdConfig → Option (List ServerRef)
  | 0, _ => some []
  | k + 1, c => do
    let next ← c.getNextServer
    let refs ← nextServers k next.2
    some (next.1 :: refs)

/-- Both lists have records, and both iterators are the end or point at a record. -/
structure Ready (c : NrpdConfig) : Prop where
  active_pos : 0 < c.activeServers.elems.length
  probationary_pos : 0 < c.probationaryServers.length
  activeIterator : c.activeIterator.Valid c.activeServers.elems.length
  probationaryIterator : c.probationaryIterator.Valid c.probationaryServers.length

/-- Whether the call number `t`, counted from `0`, returns an active server. -/
def isActiveTurn (c : NrpdConfig) (t : ℕ) : Bool := c.prevReturnedProbationary == (t % 2 == 0)

/-- The record that the call number `t` returns. -/
def turn (c : NrpdConfig) (t : ℕ) : ServerRef :=
  if c.isActiveTurn t then .active ((c.activeIterator.upcoming + t) % c.activeServers.elems.length)
  else .probationary ((c.probationaryIterator.upcoming + t) % c.probationaryServers.length)

/-- The configuration after a call, when both lists have records. -/
def turned (c : NrpdConfig) : NrpdConfig :=
  { c with
    activeIterator := .index (c.activeIterator.upcoming % c.activeServers.elems.length)
    probationaryIterator := .index (c.probationaryIterator.upcoming % c.probationaryServers.length)
    prevReturnedProbationary := !c.prevReturnedProbationary }

/-- **One call.** The call returns the record whose turn it is. -/
theorem getNextServer_of_ready {c : NrpdConfig} (h : c.Ready) :
    c.getNextServer = some (c.turn 0, c.turned) := by
  have ha := ListIter.advance_of_valid h.active_pos h.activeIterator
  have hp := ListIter.advance_of_valid h.probationary_pos h.probationaryIterator
  have hflag : c.isActiveTurn 0 = c.prevReturnedProbationary := by simp [isActiveTurn]
  simp only [getNextServer, ha, hp, Option.bind_eq_bind, Option.bind_some, chooseServer, refOf,
    turn, hflag, turned, Nat.add_zero]
  split <;> rfl

theorem Ready.turned {c : NrpdConfig} (h : c.Ready) : c.turned.Ready where
  active_pos := h.active_pos
  probationary_pos := h.probationary_pos
  activeIterator := Nat.mod_lt _ h.active_pos
  probationaryIterator := Nat.mod_lt _ h.probationary_pos

/-- The turns of the configuration after a call are the later turns. -/
theorem turn_turned (c : NrpdConfig) (t : ℕ) : c.turned.turn t = c.turn (t + 1) := by
  have hround (u len : ℕ) : (u % len + 1 + t) % len = (u + (t + 1)) % len := by
    rw [Nat.add_assoc, Nat.mod_add_mod, Nat.add_comm 1 t]
  have hflag : c.turned.isActiveTurn t = c.isActiveTurn (t + 1) := by
    have hparity : ((t + 1) % 2 == 0) = !(t % 2 == 0) := by
      rcases Nat.mod_two_eq_zero_or_one t with h | h <;> simp [Nat.add_mod, h]
    simp only [isActiveTurn, NrpdConfig.turned, hparity]
    cases c.prevReturnedProbationary <;> cases t % 2 == 0 <;> rfl
  simp only [turn, hflag]
  split
  · exact congrArg ServerRef.active (hround _ _)
  · exact congrArg ServerRef.probationary (hround _ _)

/-- **Consecutive calls.** The calls return the records of their turns. -/
theorem nextServers_eq {c : NrpdConfig} (h : c.Ready) (k : ℕ) :
    c.nextServers k = some ((List.range k).map c.turn) := by
  induction k generalizing c with
  | zero => rfl
  | succ k ih =>
    have hturns :
        (List.range (k + 1)).map c.turn = c.turn 0 :: (List.range k).map c.turned.turn := by
      rw [List.range_succ_eq_map, List.map_cons, List.map_map]
      congr 1
      exact List.map_congr_left fun t _ => (turn_turned c t).symm
    simp only [nextServers, getNextServer_of_ready h, Option.bind_eq_bind, Option.bind_some,
      ih h.turned, hturns]

/-! ### The records that are reached -/

/-- The first call that returns an active server, or the first that returns a probationary one. -/
def firstTurn (c : NrpdConfig) (active : Bool) : ℕ :=
  if c.prevReturnedProbationary == active then 0 else 1

/-- The turns of one list are every second call from the first one on. -/
theorem exists_turn_iff (c : NrpdConfig) (active : Bool) (k : ℕ) (P : ℕ → Prop) :
    (∃ t < 2 * k, c.isActiveTurn t = active ∧ P t) ↔
      ∃ j < k, P (c.firstTurn active + 2 * j) := by
  constructor
  · rintro ⟨t, ht, hturn, hP⟩
    have hfirst : c.firstTurn active + 2 * (t / 2) = t := by
      rw [isActiveTurn] at hturn
      rw [firstTurn]
      subst hturn
      rcases Nat.mod_two_eq_zero_or_one t with h | h <;>
        cases c.prevReturnedProbationary <;> simp [h] <;> omega
    exact ⟨t / 2, by omega, by rwa [hfirst]⟩
  · rintro ⟨j, hj, hP⟩
    refine ⟨_, ?_, ?_, hP⟩
    · rw [firstTurn]
      split <;> omega
    · rw [isActiveTurn, firstTurn]
      cases c.prevReturnedProbationary <;> cases active <;> simp

theorem active_mem_turns_iff {c : NrpdConfig} {k i : ℕ} :
    ServerRef.active i ∈ (List.range (2 * k)).map c.turn ↔
      ∃ j < k, (c.activeIterator.upcoming + c.firstTurn true + 2 * j) %
        c.activeServers.elems.length = i := by
  simp only [Nat.add_assoc, List.mem_map, List.mem_range]
  rw [← c.exists_turn_iff true k fun t =>
    (c.activeIterator.upcoming + t) % c.activeServers.elems.length = i]
  refine exists_congr fun t => and_congr_right fun _ => ?_
  rw [turn]
  split <;> simp [*]

theorem probationary_mem_turns_iff {c : NrpdConfig} {k i : ℕ} :
    ServerRef.probationary i ∈ (List.range (2 * k)).map c.turn ↔
      ∃ j < k, (c.probationaryIterator.upcoming + c.firstTurn false + 2 * j) %
        c.probationaryServers.length = i := by
  simp only [Nat.add_assoc, List.mem_map, List.mem_range]
  rw [← c.exists_turn_iff false k fun t =>
    (c.probationaryIterator.upcoming + t) % c.probationaryServers.length = i]
  refine exists_congr fun t => and_congr_right fun _ => ?_
  rw [turn]
  split <;> simp [*]

/-- **Starvation.** With `m` active and `n` probationary servers, `2 * m * n` consecutive calls
return every record if and only if `m` and `n` are odd. -/
theorem nextServers_reach_all_iff (c : NrpdConfig) (h : c.Ready) :
    ∃ refs, c.nextServers
        (2 * c.activeServers.elems.length * c.probationaryServers.length) = some refs ∧
      ((∀ i < c.activeServers.elems.length, ServerRef.active i ∈ refs) ∧
          (∀ i < c.probationaryServers.length, ServerRef.probationary i ∈ refs) ↔
        Odd c.activeServers.elems.length ∧ Odd c.probationaryServers.length) := by
  refine ⟨_, nextServers_eq h _, ?_⟩
  rw [Nat.mul_assoc]
  simp only [active_mem_turns_iff, probationary_mem_turns_iff]
  rw [Nat.stride_covers_iff h.active_pos (Nat.le_mul_of_pos_right _ h.probationary_pos),
    Nat.stride_covers_iff h.probationary_pos (Nat.le_mul_of_pos_left _ h.active_pos),
    Nat.coprime_two_left, Nat.coprime_two_left]

/-- A configuration with the given records behind a new one. -/
def withServers (active probationary : List ServerRecord)
    (h : active.Pairwise fun a b => a.lt b = true) : NrpdConfig :=
  { (new true true ⟨fun _ => 0, 0⟩).1 with
    activeServers := ⟨active, h⟩
    probationaryServers := probationary }

/-- A server by its IPv4 address. -/
def sampleServer (a b c d : UInt8) : ServerRecord := .new (.ip4 #v[a, b, c, d]) 8080

/-- Three active and three probationary servers are all returned in eighteen calls. -/
theorem nextServers_reach_all_example :
    let c := withServers [sampleServer 10 0 0 1, sampleServer 10 0 0 2, sampleServer 10 0 0 3]
      [sampleServer 10 0 0 4, sampleServer 10 0 0 5, sampleServer 10 0 0 6] (by decide)
    ∃ refs, c.nextServers 18 = some refs ∧
      (∀ i < 3, ServerRef.active i ∈ refs) ∧ ∀ i < 3, ServerRef.probationary i ∈ refs := by
  intro c
  obtain ⟨refs, hrefs, hiff⟩ :=
    nextServers_reach_all_iff c ⟨by decide, by decide, trivial, trivial⟩
  obtain ⟨hactive, hprobationary⟩ := hiff.2 ⟨by decide, by decide⟩
  exact ⟨refs, hrefs, hactive, hprobationary⟩

/-- With two active servers and one probationary server, the second active server is never
returned in four calls. -/
theorem nextServers_starves :
    ∃ refs, (withServers [sampleServer 10 0 0 1, sampleServer 10 0 0 2] [sampleServer 10 0 0 3]
        (by decide)).nextServers 4 = some refs ∧ ServerRef.active 1 ∉ refs := by
  refine ⟨[.active 0, .probationary 0, .active 0, .probationary 0], rfl, by decide⟩

end NrpdConfig

end Nrpd
