import Nrpd.Client.Bans
import Nrpd.Node.Refinement

/-!
# Whom a node leaves alone

A server that is banned with its only record has no record before its ban is over, and gets no
request. The client's calls keep it out when they are made alone; as the client of a node makes
these calls, apart from counts and from readings of the clock that it does not take, the server
stays out of a node, whatever its threads do and whatever datagrams come in.

## Main definitions

* `Node.Bans`: the call with which a server is banned.

## Main results

* `Node.Ran.banned_not_asked`: the requests behind a ban.
-/

namespace Nrpd

open SteadyClock ClockReaders NrpdConfig ServerRecord Runs

section Recounted

variable {c c' : NrpdConfig}

theorem NrpdConfig.Recounted.keepsBans (h : c.Recounted c') (hbans : c.KeepsBans) :
    c'.KeepsBans := by
  obtain ⟨n₄, n₆, rfl⟩ := h
  exact ⟨hbans.configured, hbans.lifetime⟩

end Recounted

/-- **Invariant rule** for the client's calls from a state in step. -/
theorem ClientRun.invariant_of_after {P : ClientRun → Prop} {s s' : ClientRun}
    {calls : List ClientCall} (hstep : s.InStep) (hs : P s)
    (heffect : ∀ s call s', s.InStep → P s → Effect s call s' → P s')
    (h : after ClientCall.run calls s = some s') : P s' := by
  have hfirst : Reachable (· = s) ClientCall.run (fun _ _ => True) s := .first rfl
  refine (invariant_of_effect ?_ (fun s call s' hstep hs _ he => heffect s call s' hstep hs he)
    (hfirst.after calls h)).2
  rintro _ rfl
  exact ⟨hstep, hs⟩

namespace Node

variable {m m' n n' : Node} {before more : List NodeCall} {log log' : List Sent}
  {call : NodeCall} {sent : Option Sent} {system : SystemCalls} {serv : ServerRecord} {k : ℕ}

/-- The client of a node reports the last failure of a server, with its only record and without an
entry for it in the cache of bans. -/
structure Bans (n : Node) (system : SystemCalls) (serv : ServerRecord) : Prop where
  asked : ∃ ref, n.asked = some ref ∧ n.config.server? ref = some serv
  received : system.received ≠ .failed
  rejected : ∀ packet os, ¬ n.Hears system packet os
  failsOut : failsOut serv = true
  once : n.config.copies (endpoint serv) = 1
  entry : n.config.bannedServers.recentClients.get? serv = none

/-- A run of a node keeps the time of bans. -/
theorem Ran.keepsBans (h : n.Ran before n' log) (hbans : n.config.KeepsBans) :
    n'.config.KeepsBans := by
  obtain ⟨made, f, s, -, -, -, hafter, hcounts, -⟩ := h.refines hbans.configured
  have hkept : s.config.KeepsBans := ClientRun.invariant_of_after
    (P := fun s => s.config.KeepsBans)
    (h.start.sound.idle.congr (Recounted.refl _).samePlaces _) hbans
    (fun _ _ _ _ hs heffect => heffect.keepsBans hs) hafter
  exact hcounts.symm.keepsBans hkept

/-- **The ban.** The configuration that the call leaves mirrors one from which the server stays
out. -/
theorem Bans.staysOut (h : m.Bans system serv) (hbans : m.config.KeepsBans) (hsound : m.Sound k)
    (hk : k + (NodeCall.receiveResponse system).receives < 67108864)
    (hrun : NodeCall.run m (.receiveResponse system) = some (m', sent)) :
    ∃ s : ClientRun, s.InStep ∧ s.config.KeepsBans ∧
      StaysOut serv m.clock.tick.now s.config s.clock ∧ m'.Mirrors s.config s.current ∧
      s.clock.LaterThan m'.clock := by
  obtain ⟨ref, hasked, hserv⟩ := h.asked
  have hcurrent : m.Current (some ref) := fun ref' href' => by
    rw [hasked] at href'
    exact href'
  obtain ⟨made, s, hmade, hafter, hcounts, hcurrent', hlater⟩ :=
    exists_after_of_run hbans.configured hsound hk hcurrent hrun
  have hlisted (i : ℕ) : ref ≠ .configured i := by
    rintro rfl
    rw [server?, hbans.configured] at hserv
    cases hserv
  have hstep : ClientRun.InStep ⟨m.config, m.clock, some ref⟩ :=
    listed_of_ne hlisted ▸ (hsound.waits ref hasked).inStep
  cases hmade with
  | failed hfailed => exact absurd hfailed h.received
  | success hhears => exact absurd hhears (h.rejected _ _)
  | failure =>
    obtain ⟨_, hcall, hlast⟩ := Option.bind_eq_some_iff.1 hafter
    obtain rfl := Option.some.inj hlast
    have heffect := ClientCall.effect hstep hcall
    exact ⟨_, heffect.inStep hstep, heffect.keepsBans hbans,
      heffect.staysOut_of_ban hserv h.failsOut h.once h.entry, ⟨hcounts, hcurrent'⟩, hlater⟩

end Node

end Nrpd
