import Nrpd.Client.NrpdClient
import Nrpd.Config.RecordMoves
import Nrpd.Lib.Runs

/-!
# The client's calls on the configuration

The client takes a server from `GetNextServer`, may add the servers of peers messages and apply the
rejections of the response, and reports a success or a failure of the server that was returned. The
report may be repeated while the record is where it was; the record of a server that was moved or
removed is gone. In every run of these calls the iterators stay in step with the lists: the server
that was returned is the element of the iterator of its list.

## Main definitions

* `ClientRun`, `ClientCall`, `ClientCall.run`: the states and the calls.
* `ClientRun.Effect`: what a call can do, while the iterators are in step.
* `ClientRun.InStep`: the invariant.

## Main results

* `ClientCall.effect`: a call does what `Effect` says.
* `ClientRun.Effect.inStep`, `ClientRun.inStep_of_reachable`: what one call and every run keep.
* `ClientRun.invariant_of_effect`: the invariant rule for runs of these calls.
-/

namespace Nrpd

open SteadyClock NrpdConfig ServerRecord Runs

/-- The configuration and the clock, and the server that `GetNextServer` returned last: a record of
one of the two lists that is still there. A configured server is not kept. -/
structure ClientRun where
  config : NrpdConfig
  clock : SteadyClock
  current : Option ServerRef

/-- The calls of a run; the ones for a server are made for the server returned last. The cleaning of
the bans is done by a thread of its own. -/
inductive ClientCall where
  | addServersFromMessage (m : Mem) (msg : ℕ)
  | parseRejectMessage (entries : List NrpMessageReject)
  | getNextServer
  | markServerSuccessful
  | incrementServerFailCount
  | cleanBannedServers

/-- A reference into one of the two lists. -/
def ServerRef.listed : ServerRef → Option ServerRef
  | .configured _ => none
  | ref => some ref

namespace ClientRun

/-- The record of the server that was returned last. -/
def server (s : ClientRun) : Option ServerRecord := s.current.bind s.config.server?

end ClientRun

/-- What a call does. -/
def ClientCall.run (s : ClientRun) : ClientCall → Option ClientRun
  | addServersFromMessage m msg =>
    let added := s.config.addServersFromMessage m msg s.clock
    some { s with config := added.2.1, clock := added.2.2 }
  | parseRejectMessage entries => do
    let ref ← s.current
    let config := s.config.updateServer ref (Nrpd.parseRejectMessage entries)
      (host_parseRejectMessage entries)
    some { s with config := config }
  | getNextServer => do
    let next ← s.config.getNextServer
    some { s with config := next.2, current := next.1.listed }
  | markServerSuccessful => do
    let ref ← s.current
    let serv ← s.server
    let marked ← s.config.markServerSuccessful ref s.clock
    some ⟨marked.1, marked.2, if serv.probationary then none else s.current⟩
  | incrementServerFailCount => do
    let ref ← s.current
    let serv ← s.server
    let counted ← s.config.incrementServerFailCount ref s.clock
    some ⟨counted.1, counted.2, if failsOut serv then none else s.current⟩
  | cleanBannedServers =>
    let banned := s.config.bannedServers.clean s.clock
    some { s with config := { s.config with bannedServers := banned.1 }, clock := banned.2 }

/-- The calls for a server that leave its record where it is. -/
def ClientCall.Stays (serv : ServerRecord) : ClientCall → Prop
  | parseRejectMessage _ => True
  | markServerSuccessful => serv.probationary = false
  | incrementServerFailCount => failsOut serv = false
  | _ => False

variable {s s' : ClientRun} {call : ClientCall}

theorem keepsServer_applyReject (rej : NrpMessageReject) :
    KeepsServer fun r => applyReject r rej := by
  refine ⟨fun r => host_applyReject r rej, ?_, ?_, ?_⟩ <;> intro r <;> rw [applyReject] <;>
    split <;> try split
  all_goals simp

theorem keepsServer_parseRejectMessage (entries : List NrpMessageReject) :
    KeepsServer (parseRejectMessage entries) := by
  induction entries with
  | nil => exact ⟨fun _ => rfl, fun _ => rfl, fun _ h => h, fun _ h => h⟩
  | cons rej entries ih =>
    have hrej := keepsServer_applyReject rej
    exact ⟨fun r => (ih.host _).trans (hrej.host r), fun r => (ih.port _).trans (hrej.port r),
      fun r h => hrej.ip4Peers r (ih.ip4Peers _ h), fun r h => hrej.ip6Peers r (ih.ip6Peers _ h)⟩

theorem probationary_parseRejectMessage (entries : List NrpMessageReject) (serv : ServerRecord) :
    (parseRejectMessage entries serv).probationary = serv.probationary := by
  obtain ⟨_, _, _, _, heq⟩ := parseRejectMessage_eq entries serv
  rw [heq]

namespace ClientRun

/-- The iterators are valid, the flags of the records tell their lists, and the server that was
returned last is the element of the iterator of its list. -/
structure InStep (s : ClientRun) : Prop where
  active : ∀ r ∈ s.config.activeServers.elems, r.probationary = false
  probationary : ∀ r ∈ s.config.probationaryServers, r.probationary = true
  activeIterator : s.config.activeIterator.Valid s.config.activeServers.elems.length
  probationaryIterator : s.config.probationaryIterator.Valid s.config.probationaryServers.length
  current : ∀ ref ∈ s.current, s.config.PointsAt ref

/-- What a call can do to a state in step. -/
inductive Effect (s : ClientRun) : ClientCall → ClientRun → Prop
  | added (m : Mem) (msg : ℕ) :
    Effect s (.addServersFromMessage m msg)
      { s with
        config := (addServers (entriesOf m msg) s.config s.clock).1
        clock := (addServers (entriesOf m msg) s.config s.clock).2 }
  | changed {call : ClientCall} {ref : ServerRef} {serv : ServerRecord}
    {f : ServerRecord → ServerRecord} {clock : SteadyClock} (hcurrent : s.current = some ref)
    (hserv : s.config.server? ref = some serv) (hstays : call.Stays serv) (hf : KeepsServer f)
    (hprob : (f serv).probationary = serv.probationary) (hclock : s.clock.LaterThan clock) :
    Effect s call { s with config := s.config.updateServer ref f hf.host, clock := clock }
  | returned {ref : ServerRef} {ia ip : ListIter} {flag : Bool}
    (hia : s.config.activeIterator.advance s.config.activeServers.elems.length = some ia)
    (hip : s.config.probationaryIterator.advance s.config.probationaryServers.length = some ip)
    (href : refOf .active ia = some ref ∧ flag = false ∧
        (s.config.prevReturnedProbationary = false → refOf .probationary ip = none) ∨
      refOf .probationary ip = some ref ∧ flag = true ∧
        (s.config.prevReturnedProbationary = true → refOf .active ia = none) ∨
      ref = .configured 0 ∧ s.config.configuredServers ≠ [] ∧ refOf .active ia = none ∧
        refOf .probationary ip = none ∧ flag = s.config.prevReturnedProbationary) :
    Effect s .getNextServer
      { s with
        config := { s.config with
          activeIterator := ia
          probationaryIterator := ip
          prevReturnedProbationary := flag }
        current := ref.listed }
  | promoted {i : ℕ} {serv : ServerRecord} {n₄ n₆ : ℤ}
    (hcurrent : s.current = some (.probationary i))
    (hserv : s.config.probationaryServers[i]? = some serv) :
    Effect s .markServerSuccessful
      { config := { s.config with
          activeServers := (s.config.activeServers.emplace (succeeded s.clock.now serv)).1
          activeIterator := s.config.activatedIterator (succeeded s.clock.now serv)
          probationaryServers := s.config.probationaryServers.eraseIdx i
          probationaryIterator := (ListIter.index i).prev
          countIp4Servers := n₄
          countIp6Servers := n₆ }
        clock := s.clock.tick
        current := none }
  | droppedProbationary {i : ℕ} {serv : ServerRecord} {n₄ n₆ : ℤ}
    (hcurrent : s.current = some (.probationary i))
    (hserv : s.config.probationaryServers[i]? = some serv) (hmany : failsOut serv = true) :
    Effect s .incrementServerFailCount
      { config := { s.config with
          bannedServers := (s.config.banned serv s.clock).1
          probationaryServers := s.config.probationaryServers.eraseIdx i
          probationaryIterator := (ListIter.index i).prev
          countIp4Servers := n₄
          countIp6Servers := n₆ }
        clock := (s.config.banned serv s.clock).2
        current := none }
  | droppedActive {i : ℕ} {serv : ServerRecord} {n₄ n₆ : ℤ}
    (hcurrent : s.current = some (.active i))
    (hserv : s.config.activeServers.elems[i]? = some serv) (hmany : failsOut serv = true) :
    Effect s .incrementServerFailCount
      { config := { s.config with
          bannedServers := (s.config.banned serv s.clock).1
          activeServers := s.config.activeServers.eraseIdx i
          activeIterator := (ListIter.index i).prev
          countIp4Servers := n₄
          countIp6Servers := n₆ }
        clock := (s.config.banned serv s.clock).2
        current := none }
  | cleaned :
    Effect s .cleanBannedServers
      { s with
        config := { s.config with bannedServers := (s.config.bannedServers.clean s.clock).1 }
        clock := (s.config.bannedServers.clean s.clock).2 }

/-- The server that was returned last has a record, and the flag of the record tells its list. -/
theorem InStep.exists_server (h : s.InStep) {ref : ServerRef} (href : s.current = some ref) :
    ∃ serv, s.config.server? ref = some serv ∧
      ((∃ i, ref = .active i ∧ s.config.activeIterator = .index i ∧
          s.config.activeServers.elems[i]? = some serv ∧ serv.probationary = false) ∨
        ∃ i, ref = .probationary i ∧ s.config.probationaryIterator = .index i ∧
          s.config.probationaryServers[i]? = some serv ∧ serv.probationary = true) := by
  have hpoints := h.current ref href
  cases ref with
  | configured i => cases hpoints
  | active i =>
    have hit : s.config.activeIterator = .index i := hpoints
    have hi : i < s.config.activeServers.elems.length := by
      have := h.activeIterator
      rwa [hit] at this
    have hserv := List.getElem?_eq_getElem hi
    exact ⟨_, hserv, .inl ⟨i, rfl, hit, hserv, h.active _ (List.getElem_mem hi)⟩⟩
  | probationary i =>
    have hit : s.config.probationaryIterator = .index i := hpoints
    have hi : i < s.config.probationaryServers.length := by
      have := h.probationaryIterator
      rwa [hit] at this
    have hserv := List.getElem?_eq_getElem hi
    exact ⟨_, hserv, .inr ⟨i, rfl, hit, hserv, h.probationary _ (List.getElem_mem hi)⟩⟩

theorem server_of_current {ref : ServerRef} {serv : ServerRecord} (href : s.current = some ref)
    (hserv : s.config.server? ref = some serv) : s.server = some serv := by
  rw [server, href]
  exact hserv

theorem eq_of_server {ref : ServerRef} {serv serv' : ServerRecord} (href : s.current = some ref)
    (hserv : s.config.server? ref = some serv) (hserver : s.server = some serv') : serv' = serv :=
  Option.some.inj (hserver.symm.trans (server_of_current href hserv))

theorem effect_of_markServerSuccessful (h : s.InStep)
    (hrun : ClientCall.run s .markServerSuccessful = some s') :
    Effect s .markServerSuccessful s' := by
  obtain ⟨ref, href, hrun⟩ := Option.bind_eq_some_iff.1 hrun
  obtain ⟨serv, hserver, hrun⟩ := Option.bind_eq_some_iff.1 hrun
  obtain ⟨marked, hmarked, hrun⟩ := Option.bind_eq_some_iff.1 hrun
  obtain rfl := Option.some.inj hrun
  obtain ⟨serv', hserv, hlist⟩ := h.exists_server href
  obtain rfl : serv = serv' := eq_of_server href hserv hserver
  rcases hlist with ⟨i, rfl, -, -, hprob⟩ | ⟨i, rfl, hit, hget, hprob⟩
  · rw [markServerSuccessful_active s.clock hserv hprob] at hmarked
    obtain rfl := Option.some.inj hmarked
    simp only [hprob, Bool.false_eq_true, if_false]
    refine .changed href hserv ?_ (keepsServer_succeeded s.clock.now) hprob.symm (.tick _)
    exact hprob
  · obtain ⟨n₄, n₆, hpromoted⟩ := markServerSuccessful_probationary s.clock hit hget hprob
    rw [hpromoted] at hmarked
    obtain rfl := Option.some.inj hmarked
    simp only [hprob, if_true]
    exact .promoted href hget

theorem effect_of_incrementServerFailCount (h : s.InStep)
    (hrun : ClientCall.run s .incrementServerFailCount = some s') :
    Effect s .incrementServerFailCount s' := by
  obtain ⟨ref, href, hrun⟩ := Option.bind_eq_some_iff.1 hrun
  obtain ⟨serv, hserver, hrun⟩ := Option.bind_eq_some_iff.1 hrun
  obtain ⟨counted, hcounted, hrun⟩ := Option.bind_eq_some_iff.1 hrun
  obtain rfl := Option.some.inj hrun
  obtain ⟨serv', hserv, hlist⟩ := h.exists_server href
  obtain rfl : serv = serv' := eq_of_server href hserv hserver
  by_cases hmany : failsOut serv = true
  · simp only [hmany, if_true]
    rcases hlist with ⟨i, rfl, hit, hget, hprob⟩ | ⟨i, rfl, hit, hget, hprob⟩
    · obtain ⟨n₄, n₆, hdropped⟩ := incrementServerFailCount_active s.clock hit hget hprob hmany
      rw [hdropped] at hcounted
      obtain rfl := Option.some.inj hcounted
      exact .droppedActive href hget hmany
    · obtain ⟨n₄, n₆, hdropped⟩ :=
        incrementServerFailCount_probationary s.clock hit hget hprob hmany
      rw [hdropped] at hcounted
      obtain rfl := Option.some.inj hcounted
      exact .droppedProbationary href hget hmany
  · have hfew : failsOut serv = false := by simpa using hmany
    rw [incrementServerFailCount_of_few s.clock hserv hfew] at hcounted
    obtain rfl := Option.some.inj hcounted
    simp only [hfew, Bool.false_eq_true, if_false]
    refine .changed href hserv ?_ (keepsServer_failed s.clock.now) rfl (.tick _)
    exact hfew

end ClientRun

open ClientRun in
/-- **One call.** While the iterators are in step, a call takes none of the branches for a server
that its iterator is not at. -/
theorem ClientCall.effect (h : s.InStep)
    (hrun : call.run s = some s') : Effect s call s' := by
  cases call with
  | addServersFromMessage m msg =>
    obtain rfl := Option.some.inj hrun
    rw [addServersFromMessage_snd]
    exact .added m msg
  | parseRejectMessage entries =>
    obtain ⟨ref, href, hrun⟩ := Option.bind_eq_some_iff.1 hrun
    obtain rfl := Option.some.inj hrun
    obtain ⟨serv, hserv, -⟩ := h.exists_server href
    refine .changed href hserv ?_ (keepsServer_parseRejectMessage entries)
      (probationary_parseRejectMessage entries serv) (.refl _)
    exact trivial
  | getNextServer =>
    obtain ⟨⟨ref, c'⟩, hnext, hrun⟩ := Option.bind_eq_some_iff.1 hrun
    obtain rfl := Option.some.inj hrun
    obtain ⟨ia, ip, flag, hia, hip, rfl, href⟩ := getNextServer_eq_some hnext
    exact .returned hia hip href
  | markServerSuccessful => exact effect_of_markServerSuccessful h hrun
  | incrementServerFailCount => exact effect_of_incrementServerFailCount h hrun
  | cleanBannedServers =>
    obtain rfl := Option.some.inj hrun
    exact .cleaned

namespace ClientRun

/-- A call that removes a server bans it. -/
theorem Effect.banned {serv : ServerRecord} (h : Effect s .incrementServerFailCount s')
    (hserver : s.server = some serv) (hmany : failsOut serv = true) :
    s'.config.bannedServers = (s.config.banned serv s.clock).1 ∧
      s'.clock = (s.config.banned serv s.clock).2 := by
  cases h with
  | @changed _ _ serv' _ _ hcurrent hserv hstays =>
    obtain rfl : serv = serv' := eq_of_server hcurrent hserv hserver
    rw [show failsOut serv = false from hstays] at hmany
    cases hmany
  | @droppedProbationary i serv' _ _ hcurrent hserv =>
    obtain rfl : serv = serv' := eq_of_server hcurrent hserv hserver
    exact ⟨rfl, rfl⟩
  | @droppedActive i serv' _ _ hcurrent hserv =>
    obtain rfl : serv = serv' := eq_of_server hcurrent hserv hserver
    exact ⟨rfl, rfl⟩

/-- New records at the end of the probationary list. -/
theorem InStep.added (h : s.InStep) {servs : List ServerRecord}
    (hnew : ∀ serv ∈ servs, serv.probationary = true) (clock clock' : SteadyClock) :
    InStep ⟨(addServers servs s.config clock).1, clock', s.current⟩ := by
  refine addServers_invariant (P := fun c => InStep ⟨c, clock', s.current⟩) servs ?_ clock
    ⟨h.active, h.probationary, h.activeIterator, h.probationaryIterator, h.current⟩
  intro c clock serv hserv hc _
  refine ⟨hc.active, fun r hr => ?_, hc.activeIterator, hc.probationaryIterator.mono (by simp),
    fun ref href => ?_⟩
  · rcases List.mem_append.1 hr with hr | hr
    · exact hc.probationary r hr
    · rw [List.mem_singleton.1 hr]
      exact hnew serv hserv
  · have := hc.current ref href
    cases ref <;> exact this

/-- A record that is changed where it is. -/
theorem InStep.changed (h : s.InStep) {ref : ServerRef} {serv : ServerRecord}
    (hserv : s.config.server? ref = some serv) {f : ServerRecord → ServerRecord}
    (hf : ∀ r, (f r).host = r.host) (hprob : (f serv).probationary = serv.probationary)
    (clock : SteadyClock) :
    InStep { s with config := s.config.updateServer ref f hf, clock := clock } := by
  obtain ⟨hactive, hprobationary⟩ := length_updateServer s.config ref hf
  obtain ⟨hia, hip⟩ := updateServer_iterators s.config ref hf
  refine ⟨fun r hr => ?_, fun r hr => ?_, ?_, ?_, fun ref' href' => ?_⟩
  · rcases mem_active_updateServer hf hr with hr | ⟨x, hx, hxserv, rfl⟩
    · exact h.active r hr
    · rw [hserv] at hxserv
      rw [← Option.some.inj hxserv, hprob, Option.some.inj hxserv]
      exact h.active x hx
  · rcases mem_probationary_updateServer hf hr with hr | ⟨x, hx, hxserv, rfl⟩
    · exact h.probationary r hr
    · rw [hserv] at hxserv
      rw [← Option.some.inj hxserv, hprob, Option.some.inj hxserv]
      exact h.probationary x hx
  · rw [hactive, hia]
    exact h.activeIterator
  · rw [hprobationary, hip]
    exact h.probationaryIterator
  · have := h.current ref' href'
    cases ref' with
    | configured i => exact this
    | active i => exact hia.trans this
    | probationary i => exact hip.trans this

/-- **One call.** The iterators stay in step. -/
theorem Effect.inStep (heffect : Effect s call s') (h : s.InStep) : s'.InStep := by
  cases heffect with
  | added m msg =>
    refine h.added (fun serv hserv => ?_) _ _
    obtain ⟨ip, port, rfl⟩ := exists_new_of_mem_entriesOf hserv
    rfl
  | changed hcurrent hserv hstays hf hprob hclock => exact h.changed hserv hf.host hprob _
  | returned hia hip href =>
    refine ⟨h.active, h.probationary, (ListIter.advance_spec hia).1, (ListIter.advance_spec hip).1,
      ?_⟩
    rcases href with ⟨href, -⟩ | ⟨href, -⟩ | ⟨rfl, -⟩
    · obtain ⟨i, rfl, rfl⟩ := refOf_eq_some href
      rintro _ ⟨⟩
      rfl
    · obtain ⟨i, rfl, rfl⟩ := refOf_eq_some href
      rintro _ ⟨⟩
      rfl
    · rintro _ ⟨⟩
  | @promoted i serv _ _ hcurrent hserv =>
    obtain ⟨hi, -⟩ := List.getElem?_eq_some_iff.1 hserv
    refine ⟨fun r hr => ?_, fun r hr => h.probationary r (List.mem_of_mem_eraseIdx hr),
      valid_activatedIterator h.activeIterator, ?_, fun _ href => nomatch href⟩
    · rcases OrderedSet.mem_of_mem_emplace hr with rfl | hr
      · rfl
      · exact h.active r hr
    · rw [List.length_eraseIdx_of_lt hi]
      exact ListIter.valid_prev hi
  | @droppedProbationary i serv _ _ hcurrent hserv hmany =>
    obtain ⟨hi, -⟩ := List.getElem?_eq_some_iff.1 hserv
    refine ⟨h.active, fun r hr => h.probationary r (List.mem_of_mem_eraseIdx hr),
      h.activeIterator, ?_, fun _ href => nomatch href⟩
    rw [List.length_eraseIdx_of_lt hi]
    exact ListIter.valid_prev hi
  | @droppedActive i serv _ _ hcurrent hserv hmany =>
    obtain ⟨hi, -⟩ := List.getElem?_eq_some_iff.1 hserv
    refine ⟨fun r hr => h.active r (List.mem_of_mem_eraseIdx hr), h.probationary, ?_,
      h.probationaryIterator, fun _ href => nomatch href⟩
    have hlen : (s.config.activeServers.eraseIdx i).elems.length =
        s.config.activeServers.elems.length - 1 := List.length_eraseIdx_of_lt hi
    rw [hlen]
    exact ListIter.valid_prev hi
  | cleaned =>
    refine ⟨h.active, h.probationary, h.activeIterator, h.probationaryIterator, fun ref href => ?_⟩
    have := h.current ref href
    cases ref <;> exact this

/-! ### Runs -/

/-- Lists whose records carry the flag of their list, with both iterators at the end. -/
structure AtStart (s : ClientRun) : Prop where
  active : ∀ r ∈ s.config.activeServers.elems, r.probationary = false
  probationary : ∀ r ∈ s.config.probationaryServers, r.probationary = true
  activeIterator : s.config.activeIterator = .atEnd
  probationaryIterator : s.config.probationaryIterator = .atEnd
  current : s.current = none

/-- A new configuration. -/
def IsNew (s : ClientRun) : Prop :=
  ∃ enableIp4Peers enableIp6Peers clock,
    s = ⟨(NrpdConfig.new enableIp4Peers enableIp6Peers clock).1,
      (NrpdConfig.new enableIp4Peers enableIp6Peers clock).2, none⟩

/-- A new configuration on a clock that stands still. -/
def sampleRun : ClientRun :=
  ⟨(NrpdConfig.new true true ⟨fun _ => 0, 0⟩).1, (NrpdConfig.new true true ⟨fun _ => 0, 0⟩).2, none⟩

theorem isNew_sampleRun : sampleRun.IsNew := ⟨true, true, ⟨fun _ => 0, 0⟩, rfl⟩

theorem IsNew.atStart (h : s.IsNew) : s.AtStart := by
  obtain ⟨_, _, _, rfl⟩ := h
  exact ⟨fun _ hr => (nomatch hr), fun _ hr => (nomatch hr), rfl, rfl, rfl⟩

theorem AtStart.inStep (h : s.AtStart) : s.InStep where
  active := h.active
  probationary := h.probationary
  activeIterator := h.activeIterator ▸ trivial
  probationaryIterator := h.probationaryIterator ▸ trivial
  current _ href := by
    rw [h.current] at href
    cases href

variable {first : ClientRun → Prop} {meets : ClientRun → ClientCall → Prop}

/-- **Every run.** The iterators stay in step. -/
theorem inStep_of_reachable (hfirst : ∀ s, first s → s.InStep)
    (h : Reachable first ClientCall.run meets s) : s.InStep :=
  h.invariant hfirst fun _ _ _ hs _ hrun => (ClientCall.effect hs hrun).inStep hs

/-- **Invariant rule.** What the first states have, and what every effect of a call that meets the
condition keeps, holds in every state reached. -/
theorem invariant_of_effect {P : ClientRun → Prop} (hfirst : ∀ s, first s → s.InStep ∧ P s)
    (heffect : ∀ s call s', s.InStep → P s → meets s call → Effect s call s' → P s')
    (h : Reachable first ClientCall.run meets s) : s.InStep ∧ P s := by
  refine h.invariant hfirst fun s call s' hs hmeets hrun => ?_
  have he := ClientCall.effect hs.1 hrun
  exact ⟨he.inStep hs.1, heffect s call s' hs.1 hs.2 hmeets he⟩

end ClientRun

end Nrpd
