import Nrpd.Client.ClientLoop
import Nrpd.Config.Rotation

/-!
# Backing off

A server that is busy or fails is to be left alone for longer: its retry time is multiplied by
`1.25`, in `ParseRejectMessage` for every entry that says so and in `IncrementServerFailCount`. The
factor is converted to the type of the duration's count, an integer, which makes it `1`. So the
retry time of a record never changes.

## Main definitions

* `BackOffEvent`, `BackOffEvent.run`: the calls that are to lengthen a retry time.
* `backedOff`: the retry time that they are to leave.

## Main results

* `BackOffEvent.retryTime_run`: one call leaves the retry time.
* `BackOffEvent.never_backsOff`: no sequence of calls backs off.
-/

namespace Nrpd

open SteadyClock NrpdConfig Runs

/-- The calls that are to lengthen the retry time of a record. -/
inductive BackOffEvent where
  | parseRejectMessage (entries : List NrpMessageReject)
  | incrementServerFailCount

/-- A retry time after a number of multiplications by `1.25`, each of them rounded down. -/
def backedOff : ℕ → ℤ → ℤ
  | 0, retryTime => retryTime
  | n + 1, retryTime => backedOff n (retryTime * 5 / 4)

/-- Multiplications by `1.25` lengthen a retry time of four seconds or more. -/
theorem add_le_backedOff (n : ℕ) {retryTime : ℤ} (h : 4 ≤ retryTime) :
    retryTime + n ≤ backedOff n retryTime := by
  induction n generalizing retryTime with
  | zero => exact (Int.add_zero retryTime).le
  | succ n ih =>
    have hlonger : retryTime + 1 ≤ retryTime * 5 / 4 := by omega
    have htail := ih (show 4 ≤ retryTime * 5 / 4 by omega)
    rw [backedOff]
    omega

namespace BackOffEvent

/-- What a call does for the record at `ref`. A report of a failure that removes the record is not
one of these calls. -/
def run (ref : ServerRef) (s : NrpdConfig × SteadyClock) :
    BackOffEvent → Option (NrpdConfig × SteadyClock)
  | parseRejectMessage entries =>
    some (s.1.updateServer ref (Nrpd.parseRejectMessage entries)
      (host_parseRejectMessage entries), s.2)
  | incrementServerFailCount => do
    let serv ← s.1.server? ref
    if failsOut serv then none else s.1.incrementServerFailCount ref s.2

/-- How often a call is to multiply the retry time. -/
def factors : BackOffEvent → ℕ
  | parseRejectMessage entries => entries.countP (·.reason == NrpdRejectReason.busy.code)
  | incrementServerFailCount => 1

/-- The retry time has become what it is to be after a number of multiplications, and is longer. -/
def BacksOff (n : ℕ) (r r' : ServerRecord) : Prop :=
  backedOff n r.retryTime ≤ r'.retryTime ∧ r.retryTime < r'.retryTime

variable {ref : ServerRef} {s s' : NrpdConfig × SteadyClock} {event : BackOffEvent}
  {r : ServerRecord}

/-- **One call.** The record has the retry time from before. -/
theorem retryTime_run (h : event.run ref s = some s') (hr : s.1.server? ref = some r) :
    ∃ r', s'.1.server? ref = some r' ∧ r'.retryTime = r.retryTime := by
  cases event with
  | parseRejectMessage entries =>
    obtain rfl := Option.some.inj h
    refine ⟨Nrpd.parseRejectMessage entries r, ?_, (times_parseRejectMessage entries r).2⟩
    rw [server?_updateServer, if_pos rfl, hr]
    rfl
  | incrementServerFailCount =>
    rw [run, hr] at h
    by_cases hmany : failsOut r = true
    · simp [hmany] at h
    · have hfew : failsOut r = false := by simpa using hmany
      have hcounted : s.1.incrementServerFailCount ref s.2 = some s' := by simpa [hfew] using h
      rw [incrementServerFailCount_of_few s.2 hr hfew] at hcounted
      obtain rfl := Option.some.inj hcounted
      refine ⟨failed s.2.now r, ?_, Int.mul_one r.retryTime⟩
      rw [server?_updateServer, if_pos rfl, hr]
      rfl

/-- **No back-off.** Whatever the retry time of a record is, and however often it is to be
multiplied, it is the same behind the calls; so no sequence of calls backs off. -/
theorem never_backsOff {events : List BackOffEvent} (h : after (run ref) events s = some s')
    (hr : s.1.server? ref = some r) (hretry : 4 ≤ r.retryTime)
    (hfactors : 1 ≤ (events.map factors).sum) :
    ∃ r', s'.1.server? ref = some r' ∧ r'.retryTime = r.retryTime ∧
      ¬ BacksOff (events.map factors).sum r r' := by
  have hsame : ∃ r', s'.1.server? ref = some r' ∧ r'.retryTime = r.retryTime := by
    refine after_invariant (P := fun t => ∃ r', t.1.server? ref = some r' ∧
      r'.retryTime = r.retryTime) (fun event _ t t' => ?_) ⟨r, hr, rfl⟩ (allMeet_true _ _) h
    rintro ⟨r₁, hr₁, heq₁⟩ - hstep
    obtain ⟨r₂, hr₂, heq₂⟩ := retryTime_run hstep hr₁
    exact ⟨r₂, hr₂, heq₂.trans heq₁⟩
  obtain ⟨r', hr', heq⟩ := hsame
  refine ⟨r', hr', heq, fun hbacks => ?_⟩
  have hlonger := add_le_backedOff (events.map factors).sum hretry
  have hle := hbacks.1
  omega

/-- A new server that says twice that it is busy, and fails. -/
theorem never_backsOff_example :
    ∃ s' r', after (run (.probationary 0))
        [.parseRejectMessage [⟨NrpdMsgType.entropy.code, NrpdRejectReason.busy.code⟩,
          ⟨NrpdMsgType.ip4peers.code, NrpdRejectReason.busy.code⟩], .incrementServerFailCount]
        (withServers [] [sampleServer 10 0 0 1] .nil, ⟨fun _ => 0, 0⟩) = some s' ∧
      s'.1.server? (.probationary 0) = some r' ∧ ¬ BacksOff 3 (sampleServer 10 0 0 1) r' := by
  have hafter : after (run (.probationary 0))
      [.parseRejectMessage [⟨NrpdMsgType.entropy.code, NrpdRejectReason.busy.code⟩,
        ⟨NrpdMsgType.ip4peers.code, NrpdRejectReason.busy.code⟩], .incrementServerFailCount]
      (withServers [] [sampleServer 10 0 0 1] .nil, ⟨fun _ => 0, 0⟩) = some _ := rfl
  obtain ⟨r', hr', -, hnever⟩ := never_backsOff hafter rfl (by decide) (by decide)
  exact ⟨_, r', hafter, hr', hnever⟩

/-- A failure leaves 60 seconds, which are not 75. -/
theorem failure_leaves_retryTime :
    ∃ s' r', after (run (.probationary 0)) [.incrementServerFailCount]
        (withServers [] [sampleServer 10 0 0 1] .nil, ⟨fun _ => 0, 0⟩) = some s' ∧
      s'.1.server? (.probationary 0) = some r' ∧ r'.retryTime = 60 ∧
      backedOff 1 (sampleServer 10 0 0 1).retryTime = 75 ∧
      ¬ BacksOff 1 (sampleServer 10 0 0 1) r' := by
  refine ⟨_, _, rfl, rfl, rfl, rfl, fun hbacks => ?_⟩
  exact absurd hbacks.2 (by decide)

end BackOffEvent

end Nrpd
