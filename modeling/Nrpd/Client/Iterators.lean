import Nrpd.Client.ServerCalls
import Nrpd.Config.ConfiguredServers

/-!
# The iterators of the two lists

The branches for a server that is not the element of the iterator of its list are never taken, and
`GetNextServer` alternates between the lists. The removal of the first record of a list steps its
iterator back from the first element; in every run without such removals the iterators are the end
or point at a record.

## Main definitions

* `NrpdConfig.AtProbationaryIterator`, `NrpdConfig.AtActiveIterator`: the tests of the source before
  a removal through an iterator.
* `ClientCall.RemovesBehindFirst`: the condition that a call removes no first record.

## Main results

* `ClientRun.calls_in_step`: the tests succeed, the flags match the lists, there is a next server,
  and the lists are used in turn.
* `ClientRun.iterators_settled`: where the iterators are.
-/

namespace Nrpd

open SteadyClock NrpdConfig ServerRecord Runs

namespace NrpdConfig

variable {c : NrpdConfig} {serv : ServerRecord} {ref : ServerRef}

/-- The test `serv == *m_probationaryIterator`. -/
def AtProbationaryIterator (c : NrpdConfig) (serv : ServerRecord) : Prop :=
  ∃ pointed, c.probationaryIterator.deref c.probationaryServers = some pointed ∧
    (serv == pointed) = true

/-- The test `serv == *m_activeIterator`. -/
def AtActiveIterator (c : NrpdConfig) (serv : ServerRecord) : Prop :=
  ∃ pointed, c.activeIterator.deref c.activeServers.elems = some pointed ∧ (serv == pointed) = true

/-- `MarkServerSuccessful` makes its test with success, if it makes it. -/
def MarkFindsIterator (c : NrpdConfig) (ref : ServerRef) (now : ℤ) : Prop :=
  ∀ serv, c.server? ref = some serv → serv.probationary = true →
    ((c.updateServer ref (succeeded now) (host_succeeded now)).activate
      (succeeded now serv)).AtProbationaryIterator (succeeded now serv)

/-- `IncrementServerFailCount` makes its test with success, if it makes one. -/
def IncrementFindsIterator (c : NrpdConfig) (ref : ServerRef) (now : ℤ) : Prop :=
  ∀ serv, c.server? ref = some serv → failsOut serv = true →
    if serv.probationary then
      (c.updateServer ref (failed now) (host_failed now)).AtProbationaryIterator (failed now serv)
    else (c.updateServer ref (failed now) (host_failed now)).AtActiveIterator (failed now serv)

end NrpdConfig

namespace ClientRun

variable {s s' : ClientRun} {call : ClientCall} {ref : ServerRef}

/-- The server that was returned last is found at the iterator of its list. -/
theorem InStep.findsIterator (h : s.InStep) (href : s.current = some ref) (now : ℤ) :
    s.config.MarkFindsIterator ref now ∧ s.config.IncrementFindsIterator ref now := by
  obtain ⟨serv, hserv, hlist⟩ := h.exists_server href
  constructor <;> intro serv' hserv' htest <;>
    obtain rfl := Option.some.inj (hserv.symm.trans hserv')
  · rcases hlist with ⟨i, -, -, -, hprob⟩ | ⟨i, rfl, hit, hget, -⟩
    · rw [hprob] at htest
      cases htest
    · obtain ⟨n₄, n₆, hactivate⟩ := activate_eq (s.config.updateServer (.probationary i)
        (succeeded now) (host_succeeded now)) (succeeded now serv)
      rw [hactivate]
      refine ⟨succeeded now serv, ?_, BEq.rfl⟩
      simp only [updateServer, hit, ListIter.deref, List.getElem?_modify, hget, if_true,
        Option.map_eq_map, Option.map_some]
  · rcases hlist with ⟨i, rfl, hit, hget, hprob⟩ | ⟨i, rfl, hit, hget, hprob⟩
    · rw [if_neg (by simp [hprob])]
      refine ⟨failed now serv, ?_, BEq.rfl⟩
      simp only [updateServer, OrderedSet.modify, hit, ListIter.deref, List.getElem?_modify, hget,
        if_true, Option.map_eq_map, Option.map_some]
    · rw [if_pos hprob]
      refine ⟨failed now serv, ?_, BEq.rfl⟩
      simp only [updateServer, hit, ListIter.deref, List.getElem?_modify, hget, if_true,
        Option.map_eq_map, Option.map_some]

/-- A success or a failure of the server that was returned last can be reported. -/
theorem InStep.exists_report (h : s.InStep) (href : s.current = some ref) :
    (∃ s', ClientCall.run s .markServerSuccessful = some s') ∧
      ∃ s', ClientCall.run s .incrementServerFailCount = some s' := by
  obtain ⟨serv, hserv, hlist⟩ := h.exists_server href
  have hserver : s.server = some serv := server_of_current href hserv
  have hmark : ∃ marked, s.config.markServerSuccessful ref s.clock = some marked := by
    rcases hlist with ⟨i, -, -, -, hprob⟩ | ⟨i, rfl, hit, hget, hprob⟩
    · exact ⟨_, markServerSuccessful_active s.clock hserv hprob⟩
    · obtain ⟨n₄, n₆, hmarked⟩ := markServerSuccessful_probationary s.clock hit hget hprob
      exact ⟨_, hmarked⟩
  have hincrement : ∃ counted, s.config.incrementServerFailCount ref s.clock = some counted := by
    by_cases hmany : failsOut serv = true
    · rcases hlist with ⟨i, rfl, hit, hget, hprob⟩ | ⟨i, rfl, hit, hget, hprob⟩
      · obtain ⟨n₄, n₆, hcounted⟩ := incrementServerFailCount_active s.clock hit hget hprob hmany
        exact ⟨_, hcounted⟩
      · obtain ⟨n₄, n₆, hcounted⟩ :=
          incrementServerFailCount_probationary s.clock hit hget hprob hmany
        exact ⟨_, hcounted⟩
    · exact ⟨_, incrementServerFailCount_of_few s.clock hserv (by simpa using hmany)⟩
  obtain ⟨marked, hmark⟩ := hmark
  obtain ⟨counted, hincrement⟩ := hincrement
  simp only [ClientCall.run, href, hserver, hmark, hincrement, Option.bind_eq_bind,
    Option.bind_some, Option.some.injEq, exists_eq', and_self]

/-! ### Alternation -/

/-- A list that has records has a next one. -/
theorem exists_refOf_of_advance {len : ℕ} {it it' : ListIter} {f : ℕ → ServerRef} (hlen : 0 < len)
    (h : it.advance len = some it') : ∃ i, refOf f it' = some (f i) := by
  have hfirst : ListIter.first len = .index 0 := by rw [ListIter.first, if_neg (by omega)]
  cases it with
  | dangling => cases h
  | index i =>
    rw [ListIter.advance, hfirst] at h
    split at h <;> obtain rfl := Option.some.inj h <;> exact ⟨_, rfl⟩
  | atEnd =>
    rw [ListIter.advance, hfirst] at h
    exact ⟨0, Option.some.inj h ▸ rfl⟩
  | beforeBegin =>
    rw [ListIter.advance, hfirst] at h
    exact ⟨0, Option.some.inj h ▸ rfl⟩

/-- While one of the lists has a server, the next one is returned from one of them. -/
theorem InStep.exists_next (h : s.InStep)
    (hne : s.config.activeServers.elems ≠ [] ∨ s.config.probationaryServers ≠ []) :
    ∃ s' ref, ClientCall.run s .getNextServer = some s' ∧ s'.current = some ref := by
  obtain ⟨ref, c', -, hnext, -⟩ := (hasNext_iff h.activeIterator h.probationaryIterator).2
    (hne.imp_right .inl)
  refine ⟨⟨c', s.clock, ref.listed⟩, ref, ?_, ?_⟩
  · simp only [ClientCall.run, hnext, Option.bind_eq_bind, Option.bind_some]
  obtain ⟨ia, ip, flag, hia, hip, -, href⟩ := getNextServer_eq_some hnext
  rcases href with ⟨href, -⟩ | ⟨href, -⟩ | ⟨-, -, hactive, hprobationary, -⟩
  · obtain ⟨i, -, rfl⟩ := refOf_eq_some href
    rfl
  · obtain ⟨i, -, rfl⟩ := refOf_eq_some href
    rfl
  · -- the iterator of a list with a server does not step to the end
    rcases hne with hne | hne
    · obtain ⟨i, hi⟩ := exists_refOf_of_advance (f := ServerRef.active)
        (List.length_pos_iff.2 hne) hia
      rw [hactive] at hi
      cases hi
    · obtain ⟨i, hi⟩ := exists_refOf_of_advance (f := ServerRef.probationary)
        (List.length_pos_iff.2 hne) hip
      rw [hprobationary] at hi
      cases hi

/-- Only `GetNextServer` turns the flag. -/
theorem Effect.prevReturnedProbationary (h : Effect s call s') (hcall : call ≠ .getNextServer) :
    s'.config.prevReturnedProbationary = s.config.prevReturnedProbationary := by
  cases h with
  | added m msg =>
    exact addServers_invariant
      (P := fun c => c.prevReturnedProbationary = s.config.prevReturnedProbationary)
      _ (fun _ _ _ _ hc _ => hc) _ rfl
  | @changed _ ref => cases ref <;> rfl
  | returned => exact absurd rfl hcall
  | _ => rfl

/-- The flag tells which list was used. -/
theorem Effect.flag_of_returned (h : Effect s .getNextServer s') {i : ℕ} :
    (s'.current = some (.active i) → s'.config.prevReturnedProbationary = false) ∧
      (s'.current = some (.probationary i) → s'.config.prevReturnedProbationary = true) := by
  cases h with
  | changed _ _ hstays => cases hstays
  | returned hia hip href =>
    rcases href with ⟨href, rfl, -⟩ | ⟨href, rfl, -⟩ | ⟨rfl, -⟩
    · obtain ⟨j, rfl, rfl⟩ := refOf_eq_some href
      exact ⟨fun _ => rfl, fun h => (nomatch h)⟩
    · obtain ⟨j, rfl, rfl⟩ := refOf_eq_some href
      exact ⟨fun h => (nomatch h), fun _ => rfl⟩
    · exact ⟨fun h => (nomatch h), fun h => (nomatch h)⟩

/-- The list that was not used the last time is used, if it has records. -/
theorem Effect.alternates (h : Effect s .getNextServer s') :
    (s.config.prevReturnedProbationary = false → s.config.probationaryServers ≠ [] →
        ∃ j, s'.current = some (.probationary j)) ∧
      (s.config.prevReturnedProbationary = true → s.config.activeServers.elems ≠ [] →
        ∃ j, s'.current = some (.active j)) := by
  cases h with
  | changed _ _ hstays => cases hstays
  | returned hia hip href =>
    constructor <;> intro hflag hlist
    · obtain ⟨j, hj⟩ :=
        exists_refOf_of_advance (f := .probationary) (List.length_pos_iff.2 hlist) hip
      rcases href with ⟨-, -, hnone⟩ | ⟨href, -⟩ | ⟨-, -, -, hnone, -⟩
      · rw [hnone hflag] at hj
        cases hj
      · obtain ⟨i, rfl, rfl⟩ := refOf_eq_some href
        exact ⟨i, rfl⟩
      · rw [hnone] at hj
        cases hj
    · obtain ⟨j, hj⟩ := exists_refOf_of_advance (f := .active) (List.length_pos_iff.2 hlist) hia
      rcases href with ⟨href, -⟩ | ⟨-, -, hnone⟩ | ⟨-, -, hnone, -⟩
      · obtain ⟨i, rfl, rfl⟩ := refOf_eq_some href
        exact ⟨i, rfl⟩
      · rw [hnone hflag] at hj
        cases hj
      · rw [hnone] at hj
        cases hj

/-- **The iterators stay in step.** In every run from lists whose records carry the flag of their
list, with both iterators at the end: the server that was returned last is the element of the
iterator of its list, so that its success and its failure can be reported and no branch for an
iterator that is out of step is taken; the flags keep matching the lists; while one of the lists has
a server, `GetNextServer` returns one from them; and its next call, after any other calls, returns a
server of the list that the call before it did not use, if that one has servers then. -/
theorem calls_in_step (h : Reachable AtStart ClientCall.run (fun _ _ => True) s) :
    (∀ ref, s.current = some ref → s.config.PointsAt ref ∧
        s.config.MarkFindsIterator ref s.clock.now ∧
        s.config.IncrementFindsIterator ref s.clock.now ∧
        (∃ s', ClientCall.run s .markServerSuccessful = some s') ∧
        ∃ s', ClientCall.run s .incrementServerFailCount = some s') ∧
      (∀ r ∈ s.config.activeServers.elems, r.probationary = false) ∧
      (∀ r ∈ s.config.probationaryServers, r.probationary = true) ∧
      (s.config.activeServers.elems ≠ [] ∨ s.config.probationaryServers ≠ [] →
        ∃ s₁ ref, ClientCall.run s .getNextServer = some s₁ ∧ s₁.current = some ref) ∧
      ∀ s₁ s₂, ClientCall.run s .getNextServer = some s₁ →
        Reachable (· = s₁) ClientCall.run (fun _ call => call ≠ .getNextServer) s₂ →
        (∀ i, s₁.current = some (.active i) → s₂.config.probationaryServers ≠ [] →
          ∃ s₃ j, ClientCall.run s₂ .getNextServer = some s₃ ∧
            s₃.current = some (.probationary j)) ∧
        ∀ i, s₁.current = some (.probationary i) → s₂.config.activeServers.elems ≠ [] →
          ∃ s₃ j, ClientCall.run s₂ .getNextServer = some s₃ ∧ s₃.current = some (.active j) := by
  have hstep := inStep_of_reachable (fun _ => AtStart.inStep) h
  refine ⟨fun ref href => ?_, hstep.active, hstep.probationary, hstep.exists_next,
    fun s₁ s₂ h₁ h₂ => ?_⟩
  · obtain ⟨hmark, hincrement⟩ := hstep.findsIterator href s.clock.now
    exact ⟨hstep.current ref href, hmark, hincrement, hstep.exists_report href⟩
  · have hfirst := ClientCall.effect hstep h₁
    -- between the two calls the flag stays as the first one left it
    obtain ⟨hstep₂, hflag⟩ := invariant_of_effect
      (P := fun s => s.config.prevReturnedProbationary = s₁.config.prevReturnedProbationary)
      (by rintro _ rfl; exact ⟨hfirst.inStep hstep, rfl⟩)
      (fun s call s' _ hs hcall heffect => (heffect.prevReturnedProbationary hcall).trans hs) h₂
    refine ⟨fun i hi hne => ?_, fun i hi hne => ?_⟩
    · obtain ⟨s₃, -, h₃, -⟩ := hstep₂.exists_next (.inr hne)
      obtain ⟨j, hj⟩ := (ClientCall.effect hstep₂ h₃).alternates.1
        (hflag.trans (hfirst.flag_of_returned.1 hi)) hne
      exact ⟨s₃, j, h₃, hj⟩
    · obtain ⟨s₃, -, h₃, -⟩ := hstep₂.exists_next (.inl hne)
      obtain ⟨j, hj⟩ := (ClientCall.effect hstep₂ h₃).alternates.2
        (hflag.trans (hfirst.flag_of_returned.2 hi)) hne
      exact ⟨s₃, j, h₃, hj⟩

/-- Two servers are added, and the second one is promoted: the next server is an active one. -/
theorem calls_in_step_example :
    ∃ s s₁ s₂ s₃, after ClientCall.run [.addServersFromMessage twoPeers 0, .getNextServer]
        sampleRun = some s ∧
      ClientCall.run s .getNextServer = some s₁ ∧ s₁.current = some (.probationary 1) ∧
      ClientCall.run s₁ .markServerSuccessful = some s₂ ∧
      ClientCall.run s₂ .getNextServer = some s₃ ∧ ∃ j, s₃.current = some (.active j) := by
  have hfirst : Reachable AtStart ClientCall.run (fun _ _ => True) sampleRun :=
    .first isNew_sampleRun.atStart
  obtain ⟨-, -, -, -, hnext⟩ :=
    calls_in_step (hfirst.after [.addServersFromMessage twoPeers 0, .getNextServer] rfl)
  obtain ⟨s₃, j, h₃, hj⟩ := (hnext _ _ rfl
    (.call (a := .markServerSuccessful) (.first rfl) (by simp) rfl)).2 1 rfl (by decide)
  exact ⟨_, _, _, s₃, rfl, rfl, rfl, rfl, h₃, j, hj⟩

end ClientRun

/-! ### The first record of a list -/

/-- A call that moves or removes a record does not take the first one of its list. -/
def ClientCall.RemovesBehindFirst (s : ClientRun) : ClientCall → Prop
  | .markServerSuccessful => s.current ≠ some (.probationary 0)
  | .incrementServerFailCount => ∀ serv, s.server = some serv → failsOut serv = true →
    s.current ≠ some (.active 0) ∧ s.current ≠ some (.probationary 0)
  | _ => True

namespace ClientRun

variable {s s' : ClientRun} {call : ClientCall}

/-- Neither iterator is in front of its list. -/
def NotBefore (s : ClientRun) : Prop :=
  s.config.activeIterator ≠ .beforeBegin ∧ s.config.probationaryIterator ≠ .beforeBegin

theorem activatedIterator_ne_beforeBegin {c : NrpdConfig} (serv : ServerRecord)
    (h : c.activeIterator ≠ .beforeBegin) : c.activatedIterator serv ≠ .beforeBegin := by
  rw [activatedIterator]
  split
  · exact h
  · exact ListIter.afterInsert_ne_beforeBegin h

theorem prev_ne_beforeBegin_iff {i : ℕ} : (ListIter.index i).prev ≠ .beforeBegin ↔ i ≠ 0 :=
  ⟨fun h hi => h (hi ▸ rfl), ListIter.prev_ne_beforeBegin⟩

/-- A record that stays where it is may be the first one. -/
theorem InStep.removesBehindFirst_of_stays (h : s.InStep) {ref : ServerRef} {serv : ServerRecord}
    (hcurrent : s.current = some ref) (hserv : s.config.server? ref = some serv)
    (hstays : call.Stays serv) : call.RemovesBehindFirst s := by
  have hserver : s.server = some serv := server_of_current hcurrent hserv
  cases call with
  | markServerSuccessful =>
    intro hfirst
    rw [hcurrent] at hfirst
    obtain rfl := Option.some.inj hfirst
    have hprob := h.probationary serv (List.mem_of_getElem? hserv)
    rw [show serv.probationary = false from hstays] at hprob
    cases hprob
  | incrementServerFailCount =>
    intro serv' hserv' hmany
    obtain rfl := Option.some.inj (hserver.symm.trans hserv')
    rw [show failsOut serv = false from hstays] at hmany
    cases hmany
  | _ => trivial

/-- **One call.** An iterator is stepped back from the first element exactly when a first record is
moved or removed. -/
theorem Effect.notBefore_iff (heffect : Effect s call s') (hstep : s.InStep) (h : s.NotBefore) :
    s'.NotBefore ↔ call.RemovesBehindFirst s := by
  cases heffect with
  | added m msg =>
    refine iff_of_true ?_ trivial
    exact addServers_invariant (P := fun c => NotBefore ⟨c, s.clock, s.current⟩) _
      (fun _ _ _ _ hc _ => hc) _ h
  | @changed _ ref _ _ _ hcurrent hserv hstays hf =>
    obtain ⟨hia, hip⟩ := updateServer_iterators s.config ref hf.host
    refine iff_of_true ⟨?_, ?_⟩ (hstep.removesBehindFirst_of_stays hcurrent hserv hstays)
    · simpa only [hia] using h.1
    · simpa only [hip] using h.2
  | returned hia hip =>
    exact iff_of_true ⟨(ListIter.advance_spec hia).2, (ListIter.advance_spec hip).2⟩ trivial
  | @promoted i serv _ _ hcurrent hserv =>
    have hia := activatedIterator_ne_beforeBegin (succeeded s.clock.now serv) h.1
    simp only [NotBefore, hia, ne_eq, not_false_eq_true, true_and, ClientCall.RemovesBehindFirst,
      hcurrent, Option.some.injEq, ServerRef.probationary.injEq]
    exact prev_ne_beforeBegin_iff
  | @droppedProbationary i serv _ _ hcurrent hserv hmany =>
    have hserver : s.server = some serv := server_of_current hcurrent hserv
    simp only [NotBefore, h.1, ne_eq, not_false_eq_true, true_and, ClientCall.RemovesBehindFirst,
      hserver, hcurrent, Option.some.injEq, forall_eq', hmany, forall_const,
      ServerRef.probationary.injEq, reduceCtorEq]
    exact prev_ne_beforeBegin_iff
  | @droppedActive i serv _ _ hcurrent hserv hmany =>
    have hserver : s.server = some serv := server_of_current hcurrent hserv
    simp only [NotBefore, h.2, ne_eq, not_false_eq_true, and_true, ClientCall.RemovesBehindFirst,
      hserver, hcurrent, Option.some.injEq, forall_eq', hmany, forall_const,
      ServerRef.active.injEq, reduceCtorEq]
    exact prev_ne_beforeBegin_iff
  | cleaned => exact iff_of_true h trivial

/-- Each iterator is the end, or points at a record of its list. -/
def Settled (s : ClientRun) : Prop :=
  s.config.activeIterator.Settled s.config.activeServers.elems.length ∧
    s.config.probationaryIterator.Settled s.config.probationaryServers.length

theorem InStep.settled_iff (h : s.InStep) : s.Settled ↔ s.NotBefore := by
  rw [Settled, ListIter.settled_iff, ListIter.settled_iff, NotBefore]
  exact and_congr (and_iff_right h.activeIterator) (and_iff_right h.probationaryIterator)

/-- **The places of the iterators.** In every run in which no first record of a list is moved or
removed, each iterator is the end or points at a record of its list; and the next call keeps this
exactly when it does not move or remove a first record. -/
theorem iterators_settled (h : Reachable AtStart ClientCall.run
      (fun s call => call.RemovesBehindFirst s) s) :
    s.Settled ∧ ∀ call s', ClientCall.run s call = some s' →
      (s'.Settled ↔ call.RemovesBehindFirst s) := by
  obtain ⟨hstep, hbefore⟩ := invariant_of_effect (P := NotBefore)
    (fun s hs => ⟨hs.inStep, by simp [NotBefore, hs.activeIterator, hs.probationaryIterator]⟩)
    (fun s call s' hstep hs hmeets heffect => (heffect.notBefore_iff hstep hs).2 hmeets) h
  refine ⟨hstep.settled_iff.2 hbefore, fun call s' hrun => ?_⟩
  have heffect := ClientCall.effect hstep hrun
  rw [(heffect.inStep hstep).settled_iff]
  exact heffect.notBefore_iff hstep hbefore

/-- The second of two servers is promoted, and the active iterator stays at the end. -/
theorem iterators_settled_example :
    ∃ s, after ClientCall.run [.addServersFromMessage twoPeers 0, .getNextServer, .getNextServer,
      .markServerSuccessful] sampleRun = some s ∧ s.Settled := by
  refine ⟨_, rfl, (iterators_settled ?_).1⟩
  refine .call (.call (.call (.call (.first isNew_sampleRun.atStart)
    (a := .addServersFromMessage twoPeers 0) trivial rfl) (a := .getNextServer) trivial rfl)
    (a := .getNextServer) trivial rfl) (a := .markServerSuccessful) ?_ rfl
  show some (ServerRef.probationary 1) ≠ some (.probationary 0)
  decide

/-- The first of two servers is promoted: the probationary iterator is stepped back from it. -/
theorem first_promotion_unsettled :
    ∃ s, Reachable IsNew ClientCall.run (fun _ _ => True) s ∧ ¬ s.Settled := by
  have hnew : Reachable IsNew ClientCall.run (fun _ _ => True) sampleRun := .first isNew_sampleRun
  refine ⟨_, hnew.after [.addServersFromMessage twoPeers 0, .getNextServer,
    .markServerSuccessful] rfl, ?_⟩
  rintro ⟨-, hend | ⟨i, -, hi⟩⟩
  · cases hend
  · cases hi

end ClientRun

end Nrpd
