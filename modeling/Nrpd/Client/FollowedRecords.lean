import Nrpd.Client.ServerCalls
import Nrpd.Config.RecordPlaces
import Nrpd.Config.Rotation

/-!
# Failures in a row

A record is followed through a run of the client's calls: where it is, and how many failures in a
row were reported for it since it was made or since its last success. Its failure count is this
number. `IncrementServerFailCount` compares the count with the limit after it has stepped it, and
adds one again, so a server is banned at its fourth failure in a row and never sees the fifth.

## Main definitions

* `ClientCall.places`, `ClientCall.change`: the places of a record behind a call, and what the call
  does to the record that it is for.
* `Followed`, `Followed.step`: a run with a record that is followed.
* `Followed.AsDocumented`: the server is removed at its fifth failure in a row, not before.

## Main results

* `ClientCall.server?_places`: the record at its places.
* `Followed.Tracks.step`: every call keeps track of the failures.
* `Followed.asDocumented_iff`: the runs that are as documented.
-/

namespace Nrpd

open SteadyClock NrpdConfig Runs

namespace ClientCall

/-- The places of a record behind a call. -/
def places (s : ClientRun) (call : ClientCall) (place : ServerRef) : List ServerRef :=
  match call, s.current with
  | markServerSuccessful, some ref => s.config.placesMarked ref s.clock.now place
  | incrementServerFailCount, some ref => s.config.placesCounted ref s.clock.now place
  | _, _ => [place]

/-- What a call does to the record of its server. -/
def change (now : ℤ) : ClientCall → ServerRecord → ServerRecord
  | parseRejectMessage entries => Nrpd.parseRejectMessage entries
  | markServerSuccessful => succeeded now
  | incrementServerFailCount => failed now
  | _ => id

/-- The failures in a row behind a call for the server. -/
def failuresAfter : ClientCall → ℕ → ℕ
  | markServerSuccessful, _ => 0
  | incrementServerFailCount, n => n + 1
  | _, n => n

variable {s s' : ClientRun} {call : ClientCall} {place place' : ServerRef} {r : ServerRecord}

/-- New records come behind the others. -/
theorem server?_addServers (servs : List ServerRecord) {c : NrpdConfig} (clock : SteadyClock)
    (hr : c.server? place = some r) : (addServers servs c clock).1.server? place = some r := by
  refine addServers_invariant (P := fun c => c.server? place = some r) servs ?_ clock hr
  intro c clock serv _ hr _
  cases place with
  | configured i => exact hr
  | active i => exact hr
  | probationary i =>
    exact (List.getElem?_append_left (List.getElem?_eq_some_iff.1 hr).1).trans hr

/-- **Places.** At its places the record is the one from before; that of the server is changed. -/
theorem server?_places (hrun : call.run s = some s') (hplace : place' ∈ call.places s place)
    (hr : s.config.server? place = some r) :
    s'.config.server? place' =
      some (if s.current = some place then call.change s.clock.now r else r) := by
  have hchanged (ref : ServerRef) (f : ServerRecord → ServerRecord) :
      (if place = ref then (some r).map f else some r) =
        some (if some ref = some place then f r else r) := by
    by_cases href : place = ref
    · rw [if_pos href, if_pos (congrArg some href.symm), Option.map_some]
    · rw [if_neg href, if_neg fun heq => href (Option.some.inj heq).symm]
  cases call with
  | addServersFromMessage m msg =>
    obtain rfl := Option.some.inj hrun
    obtain rfl := List.mem_singleton.1 hplace
    simp only [change, id, ite_self, addServersFromMessage_snd]
    exact server?_addServers _ _ hr
  | parseRejectMessage entries =>
    obtain ⟨ref, href, hrun⟩ := Option.bind_eq_some_iff.1 hrun
    obtain rfl := Option.some.inj hrun
    obtain rfl := List.mem_singleton.1 hplace
    rw [server?_updateServer, hr, href]
    exact hchanged ref _
  | getNextServer =>
    obtain ⟨⟨ref, c'⟩, hnext, hrun⟩ := Option.bind_eq_some_iff.1 hrun
    obtain rfl := Option.some.inj hrun
    obtain rfl := List.mem_singleton.1 hplace
    obtain ⟨ia, ip, flag, -, -, rfl, -⟩ := getNextServer_eq_some hnext
    simp only [change, id, ite_self, ← hr]
    cases place' <;> rfl
  | markServerSuccessful =>
    obtain ⟨ref, href, hrun⟩ := Option.bind_eq_some_iff.1 hrun
    obtain ⟨serv, -, hrun⟩ := Option.bind_eq_some_iff.1 hrun
    obtain ⟨⟨c', clock'⟩, hmarked, hrun⟩ := Option.bind_eq_some_iff.1 hrun
    obtain rfl := Option.some.inj hrun
    simp only [places, href] at hplace
    rw [server?_markServerSuccessful hmarked hplace, hr, href]
    exact hchanged ref _
  | incrementServerFailCount =>
    obtain ⟨ref, href, hrun⟩ := Option.bind_eq_some_iff.1 hrun
    obtain ⟨serv, -, hrun⟩ := Option.bind_eq_some_iff.1 hrun
    obtain ⟨⟨c', clock'⟩, hcounted, hrun⟩ := Option.bind_eq_some_iff.1 hrun
    obtain rfl := Option.some.inj hrun
    simp only [places, href] at hplace
    rw [server?_incrementServerFailCount hcounted hplace, hr, href]
    exact hchanged ref _
  | cleanBannedServers =>
    obtain rfl := Option.some.inj hrun
    obtain rfl := List.mem_singleton.1 hplace
    simp only [change, id, ite_self, ← hr]
    cases place' <;> rfl

theorem failureCount_parseRejectMessage (entries : List NrpMessageReject) (r : ServerRecord) :
    (Nrpd.parseRejectMessage entries r).failureCount = r.failureCount := by
  obtain ⟨_, _, _, _, heq⟩ := parseRejectMessage_eq entries r
  rw [heq]

theorem failureCount_change {n : ℕ} (now : ℤ) (call : ClientCall) (h : r.failureCount = n) :
    (call.change now r).failureCount = call.failuresAfter n := by
  cases call with
  | parseRejectMessage entries => exact (failureCount_parseRejectMessage entries r).trans h
  | markServerSuccessful => rfl
  | incrementServerFailCount =>
    have hcount : (failed now r).failureCount = r.failureCount + 1 := rfl
    rw [change, hcount, h]
    rfl
  | _ => exact h

end ClientCall

/-! ### Records that are followed -/

/-- A run with a record that is followed: where it is, unless it was removed, and how many failures
in a row were reported for it since it was made or since its last success. -/
structure Followed where
  run : ClientRun
  place : Option ServerRef
  failures : ℕ

namespace Followed

/-- The server that was returned last is the one whose record is followed. -/
def IsCurrent (t : Followed) : Prop := t.place.isSome = true ∧ t.run.current = t.place

instance (t : Followed) : Decidable t.IsCurrent := inferInstanceAs (Decidable (_ ∧ _))

/-- A call of the client. -/
def step (t : Followed) (call : ClientCall) : Option Followed :=
  (call.run t.run).map fun run =>
    { run := run
      place := t.place.bind fun place => (call.places t.run place).head?
      failures := if t.IsCurrent then call.failuresAfter t.failures else t.failures }

/-- The server is banned, and its record is removed. -/
def Removed (t t' : Followed) : Prop :=
  t'.place = none ∧ ∃ serv, t.run.server = some serv ∧
    t'.run.config.bannedServers = (t.run.config.banned serv t.run.clock).1

/-- The record stays where it is, and no server is banned. -/
def Kept (t t' : Followed) : Prop :=
  t'.place = t.place ∧ t'.run.config.bannedServers = t.run.config.bannedServers

/-- A failure that is reported for the server removes it when it is the fifth in a row, and does not
when it is not. -/
def AsDocumented (t : Followed) (call : ClientCall) : Prop :=
  call = .incrementServerFailCount → t.IsCurrent → ∃ t', t.step call = some t' ∧
    if t.failures + 1 = clientMaxServerTimeoutCount then Removed t t' else Kept t t'

/-- The call does not report a fourth failure in a row. -/
def NoFourthFailure (t : Followed) (call : ClientCall) : Prop :=
  call = .incrementServerFailCount → t.IsCurrent → t.failures + 1 ≠ 4

/-- The iterators are in step, and the failures in a row, three at most, are the failure count of
the record. -/
structure Tracks (t : Followed) : Prop where
  inStep : t.run.InStep
  record : ∀ place ∈ t.place, ∃ r, t.run.config.server? place = some r ∧
    r.failureCount = t.failures ∧ t.failures ≤ 3

variable {t t' : Followed} {call : ClientCall} {place : ServerRef} {r : ServerRecord}

/-- A server with few failures keeps its place; one that has failed too often has none behind the
next failure. -/
theorem places_incrementServerFailCount {s : ClientRun} (h : s.InStep)
    (hcurrent : s.current = some place) (hr : s.config.server? place = some r) :
    ClientCall.incrementServerFailCount.places s place = if failsOut r then [] else [place] := by
  simp only [ClientCall.places, hcurrent, placesCounted, hr]
  by_cases hmany : failsOut r = true
  · rw [if_pos hmany, if_pos hmany]
    obtain ⟨serv, hserv, hlist⟩ := h.exists_server hcurrent
    obtain rfl := Option.some.inj (hr.symm.trans hserv)
    -- the iterator is at the record, so this is the one that is removed
    have hgone (i : ℕ) : (ListIter.index i).afterErase (.index i) = .dangling := by
      rw [ListIter.afterErase, if_pos rfl]
    rcases hlist with ⟨i, rfl, hit, hget, hprob⟩ | ⟨i, rfl, hit, hget, hprob⟩
    · have hderef : (s.config.updateServer (.active i) (failed s.clock.now)
          (host_failed s.clock.now)).activeIterator.deref (s.config.updateServer (.active i)
            (failed s.clock.now) (host_failed s.clock.now)).activeServers.elems =
          some (failed s.clock.now r) := by
        simp [updateServer, OrderedSet.modify, hit, ListIter.deref, hget]
      have hprob' : (failed s.clock.now r).probationary = false := hprob
      simp only [placesRemoved, hprob', Bool.false_eq_true, if_false, ServerRef.moved,
        afterActiveRemoval, hderef, BEq.rfl, if_true]
      simp only [updateServer, hit, hgone, refOf, Option.toList_none]
    · have hderef : (s.config.updateServer (.probationary i) (failed s.clock.now)
          (host_failed s.clock.now)).probationaryIterator.deref (s.config.updateServer
            (.probationary i) (failed s.clock.now) (host_failed s.clock.now)).probationaryServers =
          some (failed s.clock.now r) := by
        simp [updateServer, hit, ListIter.deref, hget]
      have hprob' : (failed s.clock.now r).probationary = true := hprob
      simp only [placesRemoved, hprob', if_true, ServerRef.moved, afterProbationaryRemoval, hderef,
        BEq.rfl]
      simp only [updateServer, hit, hgone, refOf, Option.toList_none]
  · rw [if_neg hmany, if_neg hmany]

theorem isCurrent_iff (hplace : t.place = some place) :
    t.IsCurrent ↔ t.run.current = some place := by
  rw [IsCurrent, hplace]
  exact and_iff_right rfl

/-! ### One call -/

/-- **One call.** Every call keeps track of the failures. -/
theorem Tracks.step (h : t.Tracks) (hstep : t.step call = some t') : t'.Tracks := by
  obtain ⟨run, hrun, rfl⟩ := Option.map_eq_some_iff.1 hstep
  refine ⟨(ClientCall.effect h.inStep hrun).inStep h.inStep, fun place' hplace' => ?_⟩
  obtain ⟨place, hplace, hhead⟩ := Option.bind_eq_some_iff.1 hplace'
  obtain ⟨r, hr, hcount, hle⟩ := h.record place hplace
  have hat := ClientCall.server?_places hrun (List.mem_of_mem_head? hhead) hr
  refine ⟨_, hat, ?_⟩
  simp only [isCurrent_iff hplace]
  by_cases hcurrent : t.run.current = some place
  · rw [if_pos hcurrent, if_pos hcurrent]
    refine ⟨ClientCall.failureCount_change _ call hcount, ?_⟩
    cases call with
    | markServerSuccessful => exact Nat.zero_le 3
    | incrementServerFailCount =>
      have hplaces := places_incrementServerFailCount h.inStep hcurrent hr
      by_cases hmany : failsOut r = true
      · rw [hplaces, if_pos hmany] at hhead
        cases hhead
      · have hfew := mt failsOut_iff.2 hmany
        rw [ClientCall.failuresAfter]
        omega
    | _ => exact hle
  · rw [if_neg hcurrent, if_neg hcurrent]
    exact ⟨hcount, hle⟩

/-- **The fourth failure.** The fourth failure in a row bans the server and removes its record. -/
theorem Tracks.removed (h : t.Tracks) (hcurrent : t.IsCurrent) (hfourth : t.failures + 1 = 4)
    (hstep : t.step .incrementServerFailCount = some t') : Removed t t' := by
  obtain ⟨place, hplace⟩ := Option.isSome_iff_exists.1 hcurrent.1
  obtain ⟨r, hr, hcount, -⟩ := h.record place hplace
  rw [isCurrent_iff hplace] at hcurrent
  have hmany : failsOut r = true := failsOut_iff.2 (by omega)
  have hplaces := places_incrementServerFailCount h.inStep hcurrent hr
  obtain ⟨run, hrun, rfl⟩ := Option.map_eq_some_iff.1 hstep
  have hserver := ClientRun.server_of_current hcurrent hr
  refine ⟨?_, r, hserver, ((ClientCall.effect h.inStep hrun).banned hserver hmany).1⟩
  rw [hplace, Option.bind_some, hplaces, if_pos hmany, List.head?_nil]

/-- A failure before the fourth in a row leaves the record where it is. -/
theorem Tracks.kept (h : t.Tracks) (hcurrent : t.IsCurrent) (hearly : t.failures + 1 ≠ 4) :
    ∃ t', t.step .incrementServerFailCount = some t' ∧ Kept t t' := by
  obtain ⟨place, hplace⟩ := Option.isSome_iff_exists.1 hcurrent.1
  obtain ⟨r, hr, hcount, hle⟩ := h.record place hplace
  rw [isCurrent_iff hplace] at hcurrent
  have hfew : failsOut r = false := Bool.eq_false_iff.2 fun hmany => by
    have := failsOut_iff.1 hmany
    omega
  have hrun : ClientCall.run t.run .incrementServerFailCount = some ⟨t.run.config.updateServer place
      (failed t.run.clock.now) (host_failed t.run.clock.now), t.run.clock.tick, t.run.current⟩ := by
    simp only [ClientCall.run, ClientRun.server_of_current hcurrent hr, hcurrent,
      incrementServerFailCount_of_few t.run.clock hr hfew, hfew, Option.bind_eq_bind,
      Option.bind_some, Bool.false_eq_true, if_false]
  have hplaces := places_incrementServerFailCount h.inStep hcurrent hr
  refine ⟨_, by rw [Followed.step, hrun, Option.map_some], ?_, ?_⟩
  · simp only [hplace, Option.bind_some, hplaces, hfew, Bool.false_eq_true, if_false,
      List.head?_cons]
  · cases place <;> rfl

theorem Tracks.call_iff (h : t.Tracks) : AsDocumented t call ↔ NoFourthFailure t call := by
  refine forall_congr' fun hcall => forall_congr' fun hcurrent => ?_
  subst hcall
  obtain ⟨place, hplace⟩ := Option.isSome_iff_exists.1 hcurrent.1
  obtain ⟨-, -, -, hle⟩ := h.record place hplace
  have hnever : ¬ ((t.failures : ℤ) + 1 = clientMaxServerTimeoutCount) := by
    rw [clientMaxServerTimeoutCount]
    omega
  simp only [if_neg hnever]
  constructor
  · rintro ⟨t', hstep, hkept⟩ hfourth
    have hremoved := h.removed hcurrent hfourth hstep
    rw [← hkept.1, hremoved.1] at hplace
    cases hplace
  · exact h.kept hcurrent

/-! ### Runs -/

theorem Tracks.allMeet_iff (h : t.Tracks) (calls : List ClientCall) :
    AllMeet Followed.step AsDocumented calls t ↔
      AllMeet Followed.step NoFourthFailure calls t := by
  induction calls generalizing t with
  | nil => exact Iff.rfl
  | cons call calls ih =>
    exact and_congr h.call_iff
      (forall_congr' fun t' => forall_congr' fun hstep => ih (h.step hstep))

/-- A record without failures, as its constructor makes it and a success leaves it, while the
iterators are in step. -/
structure Fresh (t : Followed) : Prop where
  inStep : t.run.InStep
  record : ∃ place r, t.place = some place ∧ t.run.config.server? place = some r ∧
    r.failureCount = 0
  failures : t.failures = 0

theorem Fresh.tracks (h : t.Fresh) : t.Tracks where
  inStep := h.inStep
  record place' hplace' := by
    obtain ⟨place, r, hplace, hr, hcount⟩ := h.record
    obtain rfl := Option.some.inj (hplace'.symm.trans hplace)
    refine ⟨r, hr, ?_, ?_⟩ <;> simp [h.failures, hcount]

/-- **Failures in a row.** A run is as documented if and only if no failure that is reported in it
is the fourth in a row. -/
theorem asDocumented_iff (h : t.Fresh) (calls : List ClientCall) :
    AllMeet Followed.step AsDocumented calls t ↔
      AllMeet Followed.step NoFourthFailure calls t :=
  h.tracks.allMeet_iff calls

/-- A new configuration with one probationary server. -/
def lonelyServer : Followed where
  run := { ClientRun.sampleRun with config := { ClientRun.sampleRun.config with
    probationaryServers := [sampleServer 10 0 0 1] } }
  place := some (.probationary 0)
  failures := 0

theorem fresh_lonelyServer : lonelyServer.Fresh where
  inStep := {
    active := fun _ hr => nomatch hr
    probationary := fun r hr => by
      rw [List.mem_singleton.1 hr]
      rfl
    activeIterator := trivial
    probationaryIterator := trivial
    current := fun _ href => nomatch href }
  record := ⟨_, _, rfl, rfl, rfl⟩
  failures := rfl

/-- Two failures and a success. -/
theorem asDocumented_example :
    AllMeet Followed.step AsDocumented
      [.getNextServer, .incrementServerFailCount, .getNextServer, .incrementServerFailCount,
        .getNextServer, .markServerSuccessful]
      lonelyServer := by
  refine (asDocumented_iff fresh_lonelyServer _).2 ?_
  refine ⟨(fun hcall => nomatch hcall), fun t ht => ?_⟩
  obtain rfl := Option.some.inj ht
  refine ⟨fun _ _ => by decide, fun t ht => ?_⟩
  obtain rfl := Option.some.inj ht
  refine ⟨(fun hcall => nomatch hcall), fun t ht => ?_⟩
  obtain rfl := Option.some.inj ht
  refine ⟨fun _ _ => by decide, fun t ht => ?_⟩
  obtain rfl := Option.some.inj ht
  refine ⟨(fun hcall => nomatch hcall), fun t ht => ?_⟩
  obtain rfl := Option.some.inj ht
  exact ⟨(fun hcall => nomatch hcall), fun _ _ => trivial⟩

/-- Four failures in a row. -/
theorem fourth_failure_removes :
    ∃ calls t t', lonelyServer.Fresh ∧ after Followed.step calls lonelyServer = some t ∧
      t.failures = 3 ∧ t.step .incrementServerFailCount = some t' ∧ t'.place = none ∧
      ¬ AllMeet Followed.step AsDocumented (calls ++ [.incrementServerFailCount]) lonelyServer := by
  refine ⟨[.getNextServer, .incrementServerFailCount, .getNextServer, .incrementServerFailCount,
    .getNextServer, .incrementServerFailCount, .getNextServer], _, _, fresh_lonelyServer, rfl, rfl,
    rfl, rfl, fun h => ?_⟩
  obtain ⟨t', hstep, hkept⟩ := ((allMeet_append h).2 _ rfl).1 rfl (by decide)
  obtain rfl := Option.some.inj hstep
  exact absurd hkept.1 (by decide)

end Followed

end Nrpd
