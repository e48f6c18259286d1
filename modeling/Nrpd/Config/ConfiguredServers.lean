import Nrpd.Config.RecordMoves
import Nrpd.Config.Rotation

/-!
# The configured servers

When neither list has a server, `GetNextServer` falls back to the first configured server, and both
iterators are at the end. The record is in neither list, but the report that the caller owes takes
it for a record of the list that its flag names, and compares it with the element of the iterator of
this list whenever it has to be moved or removed. The first success and the fourth failure read an
iterator that has no element.

## Main definitions

* `ServerReport`: what the caller of `GetNextServer` has to call.
* `NrpdConfig.AtFallback`: the states behind the fallback.
* `NrpdConfig.KeepsContract`: the report can be made, and there is a next server.

## Main results

* `NrpdConfig.hasNext_iff`: there is a next server while the iterators are valid, if there is one at
  all.
* `NrpdConfig.atFallback_of_getNextServer`: the fallback leads to these states.
* `NrpdConfig.report_keepsContract_iff`: the reports that can be made for a configured server.
-/

namespace Nrpd

open SteadyClock

/-- What the caller of `GetNextServer` has to call: `MarkServerSuccessful` or
`IncrementServerFailCount`. -/
inductive ServerReport where
  | success
  | failure
  deriving DecidableEq, Repr

namespace NrpdConfig

/-- The call of a report. -/
def report (c : NrpdConfig) (ref : ServerRef) (clock : SteadyClock) :
    ServerReport → Option (NrpdConfig × SteadyClock)
  | .success => c.markServerSuccessful ref clock
  | .failure => c.incrementServerFailCount ref clock

/-- `AddServersFromMessage` for the peers messages of a response, in order. -/
def addServersFromMessages : List (Mem × ℕ) → NrpdConfig → SteadyClock → NrpdConfig × SteadyClock
  | [], c, clock => (c, clock)
  | (m, msg) :: messages, c, clock =>
    let added := c.addServersFromMessage m msg clock
    addServersFromMessages messages added.2.1 added.2.2

/-- The next call of `GetNextServer` returns a record that exists. -/
def HasNext (c : NrpdConfig) : Prop :=
  ∃ ref c' serv, c.getNextServer = some (ref, c') ∧ c'.server? ref = some serv

/-- Behind peers messages, the report for a server has a result, so it reads no iterator without an
element, and there is a next server. -/
def KeepsContract (c : NrpdConfig) (ref : ServerRef) (messages : List (Mem × ℕ))
    (what : ServerReport) (clock : SteadyClock) : Prop :=
  let added := addServersFromMessages messages c clock
  ∃ c' clock', added.1.report ref added.2 what = some (c', clock') ∧ c'.HasNext

/-- The fallback: there is no active server, both iterators are at the end, and there is a
configured server. -/
structure AtFallback (c : NrpdConfig) : Prop where
  active : c.activeServers.elems = []
  activeIterator : c.activeIterator = .atEnd
  probationaryIterator : c.probationaryIterator = .atEnd
  configured : c.configuredServers ≠ []

variable {c c' : NrpdConfig} {ref : ServerRef} {serv : ServerRecord}

/-! ### The next server -/

theorem exists_chooseServer (h : c.configuredServers ≠ []) :
    ∃ next, c.chooseServer = some next := by
  have hfront : c.frontConfigured = some (.configured 0) := by
    rw [frontConfigured, if_neg (by simpa using h)]
  rw [chooseServer, hfront]
  cases c.prevReturnedProbationary <;> cases refOf ServerRef.active c.activeIterator <;>
    cases refOf ServerRef.probationary c.probationaryIterator <;> exact ⟨_, rfl⟩

/-- There is a next server while the iterators are valid, if a server is configured. -/
theorem exists_next (hactive : c.activeIterator.Valid c.activeServers.elems.length)
    (hprob : c.probationaryIterator.Valid c.probationaryServers.length)
    (hconfigured : c.configuredServers ≠ []) : c.HasNext := by
  obtain ⟨ia, hia⟩ := hactive.exists_advance
  obtain ⟨ip, hip⟩ := hprob.exists_advance
  obtain ⟨⟨ref, c'⟩, hchoose⟩ := exists_chooseServer (c := { c with
    activeIterator := ia, probationaryIterator := ip }) hconfigured
  have hnext : c.getNextServer = some (ref, c') := by
    rw [getNextServer, hia, hip]
    exact hchoose
  obtain ⟨ia', ip', flag, hia', hip', rfl, href⟩ := getNextServer_eq_some hnext
  have hvalida := (ListIter.advance_spec hia').1
  have hvalidp := (ListIter.advance_spec hip').1
  rcases href with ⟨href, -⟩ | ⟨href, -⟩ | ⟨rfl, -⟩
  · obtain ⟨i, rfl, rfl⟩ := refOf_eq_some href
    exact ⟨_, _, _, hnext, List.getElem?_eq_getElem hvalida⟩
  · obtain ⟨i, rfl, rfl⟩ := refOf_eq_some href
    exact ⟨_, _, _, hnext, List.getElem?_eq_getElem hvalidp⟩
  · exact ⟨_, _, _, hnext, List.getElem?_eq_getElem (List.length_pos_iff.2 hconfigured)⟩

/-- **The fallback.** Without active and probationary servers, the next server is the first
configured one, and both iterators are at the end. -/
theorem atFallback_of_getNextServer (hactive : c.activeServers.elems = [])
    (hprob : c.probationaryServers = []) (hnext : c.getNextServer = some (ref, c')) :
    ref = .configured 0 ∧ c'.AtFallback := by
  obtain ⟨ia, ip, flag, hia, hip, rfl, href⟩ := getNextServer_eq_some hnext
  rw [hactive] at hia
  rw [hprob] at hip
  obtain rfl := ListIter.eq_atEnd_of_advance_zero hia
  obtain rfl := ListIter.eq_atEnd_of_advance_zero hip
  rcases href with ⟨href, -⟩ | ⟨href, -⟩ | ⟨rfl, hconfigured, -⟩
  · cases href
  · cases href
  · exact ⟨rfl, hactive, rfl, rfl, hconfigured⟩

/-- There is a next server while the iterators are valid, if there is a server at all. -/
theorem hasNext_iff
    (hactive : c.activeIterator.Valid c.activeServers.elems.length)
    (hprob : c.probationaryIterator.Valid c.probationaryServers.length) :
    c.HasNext ↔ c.activeServers.elems ≠ [] ∨ c.probationaryServers ≠ [] ∨
      c.configuredServers ≠ [] := by
  refine ⟨fun ⟨ref, c', serv, hnext, hserv⟩ => ?_, fun hsome => ?_⟩
  · by_contra hnone
    simp only [not_or, not_not] at hnone
    obtain ⟨-, hfallback⟩ := atFallback_of_getNextServer hnone.1 hnone.2.1 hnext
    refine hfallback.configured ?_
    obtain ⟨_, _, _, -, -, rfl, -⟩ := getNextServer_eq_some hnext
    exact hnone.2.2
  · by_cases hconfigured : c.configuredServers = []
    swap
    · exact exists_next hactive hprob hconfigured
    obtain ⟨ia, hia⟩ := hactive.exists_advance
    obtain ⟨ip, hip⟩ := hprob.exists_advance
    have hvalida := (ListIter.advance_spec hia).1
    have hvalidp := (ListIter.advance_spec hip).1
    -- one of the iterators is at an element, as its list has one
    have hsteps : refOf .active ia ≠ none ∨ refOf .probationary ip ≠ none := by
      rcases hsome with hne | hne | hne
      · rw [ListIter.advance_of_valid (List.length_pos_iff.2 hne) hactive] at hia
        obtain rfl := Option.some.inj hia
        exact .inl (Option.some_ne_none _)
      · rw [ListIter.advance_of_valid (List.length_pos_iff.2 hne) hprob] at hip
        obtain rfl := Option.some.inj hip
        exact .inr (Option.some_ne_none _)
      · exact absurd hconfigured hne
    obtain ⟨⟨ref, c'⟩, hnext⟩ : ∃ next, c.getNextServer = some next := by
      rw [getNextServer, hia, hip]
      simp only [Option.bind_eq_bind, Option.bind_some, chooseServer]
      cases hflag : c.prevReturnedProbationary <;> cases ha : refOf ServerRef.active ia <;>
        cases hp : refOf ServerRef.probationary ip <;> first
          | exact ⟨_, rfl⟩
          | exact absurd hp (hsteps.resolve_left (not_not.2 ha))
    obtain ⟨ia', ip', flag, hia', hip', rfl, href⟩ := getNextServer_eq_some hnext
    obtain rfl := Option.some.inj (hia.symm.trans hia')
    obtain rfl := Option.some.inj (hip.symm.trans hip')
    rcases href with ⟨href, -⟩ | ⟨href, -⟩ | ⟨-, hne, -⟩
    · obtain ⟨i, rfl, rfl⟩ := refOf_eq_some href
      exact ⟨_, _, _, hnext, List.getElem?_eq_getElem hvalida⟩
    · obtain ⟨i, rfl, rfl⟩ := refOf_eq_some href
      exact ⟨_, _, _, hnext, List.getElem?_eq_getElem hvalidp⟩
    · exact absurd hconfigured hne

/-! ### Reports -/

/-- The report changes the record where it is: a success of a server that is not probationary, or a
failure of one that is not removed by it. -/
def ChangedInPlace (serv : ServerRecord) : ServerReport → Prop
  | .success => serv.probationary = false
  | .failure => serv.failureCount < 3

namespace AtFallback

/-- New servers are appended to the probationary list; its iterator stays at the end. -/
theorem addServersFromMessages (messages : List (Mem × ℕ)) (h : c.AtFallback)
    (hserv : c.server? (.configured 0) = some serv) (clock : SteadyClock) :
    (addServersFromMessages messages c clock).1.AtFallback ∧
      (addServersFromMessages messages c clock).1.server? (.configured 0) = some serv := by
  induction messages generalizing c clock with
  | nil => exact ⟨h, hserv⟩
  | cons message messages ih =>
    obtain ⟨m, msg⟩ := message
    rw [NrpdConfig.addServersFromMessages, addServersFromMessage_snd]
    have hadded : (addServers (entriesOf m msg) c clock).1.AtFallback ∧
        (addServers (entriesOf m msg) c clock).1.server? (.configured 0) = some serv :=
      addServers_invariant (P := fun c => c.AtFallback ∧ c.server? (.configured 0) = some serv) _
        (fun _ _ _ _ hc _ => ⟨⟨hc.1.active, hc.1.activeIterator, hc.1.probationaryIterator,
          hc.1.configured⟩, hc.2⟩) _ ⟨h, hserv⟩
    exact ih hadded.1 hadded.2 _

/-- A change in place leaves a next server. -/
theorem hasNext_updateServer (h : c.AtFallback) {f : ServerRecord → ServerRecord}
    (hf : ∀ r, (f r).host = r.host) : (c.updateServer (.configured 0) f hf).HasNext := by
  obtain ⟨hactive, hprob⟩ := updateServer_iterators c (.configured 0) hf
  refine exists_next ?_ ?_ ?_
  · rw [hactive, h.activeIterator]
    exact trivial
  · rw [hprob, h.probationaryIterator]
    exact trivial
  · intro hnil
    have hlen := congrArg List.length hnil
    rw [updateServer, List.length_modify] at hlen
    exact h.configured (List.length_eq_zero_iff.1 hlen)

/-- A success of a probationary server reads the probationary iterator, which is at the end. -/
theorem markServerSuccessful_eq_none (h : c.AtFallback)
    (hserv : c.server? ref = some serv) (hprob : serv.probationary = true) (clock : SteadyClock) :
    c.markServerSuccessful ref clock = none := by
  obtain ⟨n₄, n₆, hactivate⟩ := activate_eq (c.updateServer ref (succeeded clock.now)
    (host_succeeded clock.now)) (succeeded clock.now serv)
  have hit : ((c.updateServer ref (succeeded clock.now) (host_succeeded clock.now)).activate
      (succeeded clock.now serv)).probationaryIterator = .atEnd := by
    rw [hactivate]
    exact (updateServer_iterators c ref _).2.trans h.probationaryIterator
  simp only [markServerSuccessful, hserv, hprob, Option.bind_eq_bind, Option.bind_some, if_true,
    hit,
    ListIter.deref, Option.bind_none]

/-- A failure that removes a server reads one of the iterators; both are at the end. -/
theorem incrementServerFailCount_eq_none (h : c.AtFallback)
    (hserv : c.server? ref = some serv) (hmany : failsOut serv = true) (clock : SteadyClock) :
    c.incrementServerFailCount ref clock = none := by
  obtain ⟨hactive, hprob⟩ := updateServer_iterators c ref (host_failed clock.now)
  simp only [incrementServerFailCount, hserv, tooManyFailures_failed, hmany, Option.bind_eq_bind,
    Option.bind_some, if_true, removeFailed, hactive, hprob, h.activeIterator,
    h.probationaryIterator, ListIter.deref, Option.bind_none, ite_self]

/-- **Reports.** The reports that change the record in place can be made and leave a next server;
the others read an iterator at the end. -/
theorem report_iff (h : c.AtFallback) (hserv : c.server? (.configured 0) = some serv)
    (what : ServerReport) (clock : SteadyClock) :
    (∃ c' clock', c.report (.configured 0) clock what = some (c', clock') ∧ c'.HasNext) ↔
      ChangedInPlace serv what := by
  cases what with
  | success =>
    rw [ChangedInPlace, report]
    by_cases hprob : serv.probationary = true
    · simp [h.markServerSuccessful_eq_none hserv hprob, hprob]
    · have hprob' : serv.probationary = false := by simpa using hprob
      refine iff_of_true ⟨_, _, markServerSuccessful_active clock hserv hprob', ?_⟩ hprob'
      exact h.hasNext_updateServer _
  | failure =>
    rw [ChangedInPlace, report]
    by_cases hmany : failsOut serv = true
    · have hcount := failsOut_iff.1 hmany
      simp [h.incrementServerFailCount_eq_none hserv hmany, hcount]
    · have hcount : serv.failureCount < 3 := by simpa using mt failsOut_iff.2 hmany
      refine iff_of_true ⟨_, _, incrementServerFailCount_of_few clock hserv (by simpa using hmany),
        ?_⟩ hcount
      exact h.hasNext_updateServer _

end AtFallback

/-- **The contract for configured servers.** In every state without active and probationary servers,
the report that the caller owes for the server it got can be made, and there is a next server
behind it, if and only if the report is a failure of a server whose failure count is below three, or
a success of one that is not probationary. -/
theorem report_keepsContract_iff (hactive : c.activeServers.elems = [])
    (hprob : c.probationaryServers = []) (hnext : c.getNextServer = some (ref, c'))
    (hserv : c'.server? ref = some serv) (messages : List (Mem × ℕ)) (what : ServerReport)
    (clock : SteadyClock) :
    c'.KeepsContract ref messages what clock ↔ ChangedInPlace serv what := by
  obtain ⟨rfl, hfallback⟩ := atFallback_of_getNextServer hactive hprob hnext
  obtain ⟨hadded, hserv⟩ := hfallback.addServersFromMessages messages hserv clock
  exact hadded.report_iff hserv what _

/-- A configuration that knows one configured server and no other. -/
def withConfigured (serv : ServerRecord) : NrpdConfig :=
  { withServers [] [] .nil with configuredServers := [serv] }

/-- A configured server gives two new servers and fails afterwards. -/
theorem report_keepsContract_example :
    ∃ c', (withConfigured (sampleServer 10 0 0 1)).getNextServer = some (.configured 0, c') ∧
      c'.KeepsContract (.configured 0) [(twoPeers, 0)] .failure ⟨fun _ => 0, 0⟩ :=
  ⟨_, rfl, (report_keepsContract_iff (c := withConfigured (sampleServer 10 0 0 1)) rfl rfl rfl rfl
    [(twoPeers, 0)] .failure _).2 (show (0 : ℤ) < 3 by decide)⟩

/-- A configured server that was made by the constructor answers, and its success cannot be
reported. -/
theorem success_breaksContract :
    ∃ c', (withConfigured (sampleServer 10 0 0 1)).getNextServer = some (.configured 0, c') ∧
      c'.server? (.configured 0) = some (sampleServer 10 0 0 1) ∧
      ¬ c'.KeepsContract (.configured 0) [] .success ⟨fun _ => 0, 0⟩ := by
  refine ⟨_, rfl, rfl, ?_⟩
  rintro ⟨c', clock', hreport, -⟩
  cases hreport

end NrpdConfig

end Nrpd
