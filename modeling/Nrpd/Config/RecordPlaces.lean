import Nrpd.Config.RecordMoves

/-!
# The places of a record

A record may change its place in every call that reports about a server: another record of its list
is removed, a new one is inserted in front of it, or it is itself copied into the set of active
servers. The places that a call leads to from a place are those of the same record.

## Main definitions

* `ServerRef.moved`: the place of a record behind a change of both lists.
* `NrpdConfig.placesMarked`, `NrpdConfig.placesCounted`: the places behind a success and a failure.

## Main results

* `NrpdConfig.server?_markServerSuccessful`, `NrpdConfig.server?_incrementServerFailCount`: the
  record at such a place is the one from before, with the changes of the call.
-/

namespace Nrpd

open SteadyClock NrpdConfig ListIter

/-- The place of a record behind a change of both lists; the maps are those of their iterators. -/
def ServerRef.moved (active probationary : ListIter → ListIter) : ServerRef → Option ServerRef
  | .configured i => some (.configured i)
  | .active i => refOf .active (active (.index i))
  | .probationary i => refOf .probationary (probationary (.index i))

namespace NrpdConfig

variable {c c' : NrpdConfig} {serv : ServerRecord} {clock clock' : SteadyClock}
  {ref place place' : ServerRef}

/-- The record at a place is the one that was there before. -/
theorem server?_moved {active probationary : ListIter → ListIter}
    (hconfigured : c'.configuredServers = c.configuredServers)
    (hactive : Follows active c.activeServers.elems c'.activeServers.elems)
    (hprobationary : Follows probationary c.probationaryServers c'.probationaryServers)
    (h : place.moved active probationary = some place') : c'.server? place' = c.server? place := by
  cases place with
  | configured i =>
    obtain rfl := Option.some.inj h
    rw [server?, server?, hconfigured]
  | active i =>
    obtain ⟨j, hj, rfl⟩ := refOf_eq_some h
    exact hactive i j hj
  | probationary i =>
    obtain ⟨j, hj, rfl⟩ := refOf_eq_some h
    exact hprobationary i j hj

/-! ### Changes of the lists -/

/-- The iterators of the active set behind `activate`. -/
def afterActivate (c : NrpdConfig) (serv : ServerRecord) : ListIter → ListIter :=
  if c.activeServers.contains serv then id else afterInsert (c.activeServers.lowerBound serv)

/-- The iterators of the probationary list behind the removal of a server from it. -/
def afterProbationaryRemoval (c : NrpdConfig) (serv : ServerRecord) : ListIter → ListIter :=
  match c.probationaryIterator.deref c.probationaryServers with
  | some pointed =>
    if serv == pointed then c.probationaryIterator.afterErase
    else afterFilter c.probationaryServers fun r => !(r == serv)
  | none => id

/-- The iterators of the active set behind the removal of a server from it. -/
def afterActiveRemoval (c : NrpdConfig) (serv : ServerRecord) : ListIter → ListIter :=
  match c.activeIterator.deref c.activeServers.elems with
  | some pointed =>
    if serv == pointed then c.activeIterator.afterErase
    else afterFilter c.activeServers.elems fun r => !OrderedSet.equiv ServerRecord.lt r serv
  | none => id

theorem follows_afterActivate (c : NrpdConfig) (serv : ServerRecord) :
    Follows (c.afterActivate serv) c.activeServers.elems (c.activate serv).activeServers.elems := by
  obtain ⟨n₄, n₆, hactivate⟩ := activate_eq c serv
  rw [hactivate, afterActivate]
  by_cases h : c.activeServers.contains serv = true
  · rw [if_pos h, OrderedSet.emplace_of_contains h]
    exact follows_id _
  · have hnew : c.activeServers.contains serv = false := by simpa using h
    rw [if_neg h, OrderedSet.emplace_of_not_contains hnew]
    exact OrderedSet.follows_insertNew hnew

/-- A server that was not active is active behind `activate`. -/
theorem server?_activate (h : c.activeServers.contains serv = false) :
    (c.activate serv).server? (.active (c.activeServers.lowerBound serv)) = some serv := by
  obtain ⟨n₄, n₆, hactivate⟩ := activate_eq c serv
  rw [hactivate, server?, OrderedSet.emplace_of_not_contains h]
  exact OrderedSet.getElem?_insertNew h

theorem server?_eraseAtIterator_addToCachedCount (c : NrpdConfig) (ipv6 : Bool) (step : ℤ)
    (place : ServerRef) :
    (c.addToCachedCount ipv6 step).eraseAtProbationaryIterator.server? place =
        c.eraseAtProbationaryIterator.server? place ∧
      (c.addToCachedCount ipv6 step).eraseAtActiveIterator.server? place =
        c.eraseAtActiveIterator.server? place := by
  obtain ⟨n₄, n₆, hcount⟩ := addToCachedCount_eq c ipv6 step
  rw [hcount]
  cases place <;> exact ⟨rfl, rfl⟩

/-- The record at a place is the one that was there before the insertion. -/
theorem server?_of_moved_activate (h : place.moved (c.afterActivate serv) id = some place') :
    (c.activate serv).server? place' = c.server? place := by
  obtain ⟨n₄, n₆, hactivate⟩ := activate_eq c serv
  refine server?_moved ?_ (follows_afterActivate c serv) ?_ h
  · rw [hactivate]
  · rw [hactivate]
    exact follows_id _

/-- The record at a place is the one that was there before the removal. -/
theorem server?_of_moved_probationary {pointed : ServerRecord}
    (hpointed : c.probationaryIterator.deref c.probationaryServers = some pointed)
    (h : place.moved id (c.afterProbationaryRemoval serv) = some place') :
    (if serv == pointed then c.eraseAtProbationaryIterator
      else c.removeProbationary serv).server? place' = c.server? place := by
  simp only [afterProbationaryRemoval, hpointed] at h
  by_cases heq : (serv == pointed) = true
  · rw [if_pos heq] at h ⊢
    exact server?_moved rfl (follows_id _) (follows_afterErase _ _) h
  · rw [if_neg heq] at h ⊢
    exact server?_moved rfl (follows_id _) (follows_afterFilter _ _) h

theorem server?_of_moved_active {pointed : ServerRecord}
    (hpointed : c.activeIterator.deref c.activeServers.elems = some pointed)
    (h : place.moved (c.afterActiveRemoval serv) id = some place') :
    (if serv == pointed then c.eraseAtActiveIterator
      else c.eraseActive serv).server? place' = c.server? place := by
  simp only [afterActiveRemoval, hpointed] at h
  by_cases heq : (serv == pointed) = true
  · rw [if_pos heq] at h ⊢
    refine server?_moved rfl ?_ (follows_id _) h
    rw [eraseAtActiveIterator, OrderedSet.elems_eraseAt]
    exact follows_afterErase _ _
  · rw [if_neg heq] at h ⊢
    exact server?_moved rfl (follows_afterFilter _ _) (follows_id _) h

/-! ### Successes -/

/-- What `markServerSuccessful` does: an active server is changed where it is, a probationary one is
activated and removed from the probationary list. -/
theorem markServerSuccessful_eq_some (h : c.markServerSuccessful ref clock = some (c', clock')) :
    clock' = clock.tick ∧ ∃ before, c.server? ref = some before ∧
      let serv := succeeded clock.now before
      let updated := c.updateServer ref (succeeded clock.now) (host_succeeded clock.now)
      let activated := updated.activate serv
      (before.probationary = false ∧ c' = updated ∨
        before.probationary = true ∧ ∃ pointed,
          activated.probationaryIterator.deref activated.probationaryServers = some pointed ∧
          c' = if serv == pointed then activated.eraseAtProbationaryIterator
            else activated.removeProbationary serv) := by
  simp only [markServerSuccessful, Option.bind_eq_bind, Option.bind_eq_some_iff] at h
  obtain ⟨before, hbefore, h⟩ := h
  by_cases hprob : before.probationary = true
  · rw [if_pos hprob] at h
    obtain ⟨pointed, hpointed, h⟩ := Option.bind_eq_some_iff.1 h
    rw [← apply_ite some, ← apply_ite fun c : NrpdConfig => (c, clock.tick)] at h
    obtain ⟨rfl, rfl⟩ := Prod.mk.inj (Option.some.inj h)
    exact ⟨rfl, before, hbefore, .inr ⟨hprob, pointed, hpointed, rfl⟩⟩
  · rw [if_neg hprob] at h
    obtain ⟨rfl, rfl⟩ := Prod.mk.inj (Option.some.inj h)
    exact ⟨rfl, before, hbefore, .inl ⟨by simpa using hprob, rfl⟩⟩

/-- The places of a record behind `activate`: its own, and that of its copy when it is the record of
the server and no active server is equivalent to it. -/
def placesActivated (c : NrpdConfig) (ref : ServerRef) (serv : ServerRecord) (place : ServerRef) :
    List ServerRef :=
  (place.moved (c.afterActivate serv) id).toList ++
    if place = ref ∧ c.activeServers.contains serv = false
      then [.active (c.activeServers.lowerBound serv)] else []

/-- The places of a record behind `markServerSuccessful`. -/
def placesMarked (c : NrpdConfig) (ref : ServerRef) (now : ℤ) (place : ServerRef) :
    List ServerRef :=
  match c.server? ref with
  | some before =>
    if before.probationary then
      let serv := succeeded now before
      let updated := c.updateServer ref (succeeded now) (host_succeeded now)
      (updated.placesActivated ref serv place).filterMap
        (ServerRef.moved id ((updated.activate serv).afterProbationaryRemoval serv))
    else [place]
  | none => []

theorem server?_of_mem_placesActivated (hserv : c.server? ref = some serv)
    (h : place' ∈ c.placesActivated ref serv place) :
    (c.activate serv).server? place' = c.server? place := by
  rw [placesActivated, List.mem_append, Option.mem_toList] at h
  rcases h with h | h
  · exact server?_of_moved_activate h
  · split at h
    · next hcopy =>
      obtain ⟨rfl, hnew⟩ := hcopy
      rw [List.mem_singleton.1 h, server?_activate hnew, hserv]
    · cases h

/-- **Successes.** At its places the record is the one from before; that of the server is changed.
-/
theorem server?_markServerSuccessful (h : c.markServerSuccessful ref clock = some (c', clock'))
    (hplace : place' ∈ c.placesMarked ref clock.now place) :
    c'.server? place' = if place = ref then (c.server? place).map (succeeded clock.now)
      else c.server? place := by
  have hupdated := server?_updateServer c ref (host_succeeded clock.now)
  rw [← hupdated]
  obtain ⟨-, before, hbefore, ⟨hprob, rfl⟩ | ⟨hprob, pointed, hpointed, rfl⟩⟩ :=
    markServerSuccessful_eq_some h
  · simp only [placesMarked, hbefore, hprob, Bool.false_eq_true, if_false] at hplace
    rw [List.mem_singleton.1 hplace]
  · simp only [placesMarked, hbefore, hprob, if_true] at hplace
    obtain ⟨mid, hmid, hplace⟩ := List.mem_filterMap.1 hplace
    have hserv : (c.updateServer ref (succeeded clock.now) (host_succeeded clock.now)).server? ref =
        some (succeeded clock.now before) := by
      rw [hupdated, if_pos rfl, hbefore]
      rfl
    rw [server?_of_moved_probationary hpointed hplace, server?_of_mem_placesActivated hserv hmid]

/-! ### Failures -/

/-- What `removeFailed` does to the records: the server is removed from its list. -/
theorem removeFailed_eq_some (h : c.removeFailed serv = some c') :
    serv.probationary = true ∧ (∃ pointed,
        c.probationaryIterator.deref c.probationaryServers = some pointed ∧
        ∀ place, c'.server? place = (if serv == pointed then c.eraseAtProbationaryIterator
          else c.removeProbationary serv).server? place) ∨
      serv.probationary = false ∧ ∃ pointed,
        c.activeIterator.deref c.activeServers.elems = some pointed ∧
        ∀ place, c'.server? place = (if serv == pointed then c.eraseAtActiveIterator
          else c.eraseActive serv).server? place := by
  have hcount := server?_eraseAtIterator_addToCachedCount c serv.ipv6 (-1)
  rw [removeFailed] at h
  by_cases hprob : serv.probationary = true
  · rw [if_pos hprob] at h
    obtain ⟨pointed, hpointed, h⟩ := Option.bind_eq_some_iff.1 h
    refine .inl ⟨hprob, pointed, hpointed, fun place => ?_⟩
    by_cases heq : (serv == pointed) = true
    · rw [if_pos heq] at h ⊢
      rw [← (hcount place).1, Option.some.inj h]
    · rw [if_neg heq] at h ⊢
      rw [Option.some.inj h]
  · rw [if_neg hprob] at h
    obtain ⟨pointed, hpointed, h⟩ := Option.bind_eq_some_iff.1 h
    refine .inr ⟨by simpa using hprob, pointed, hpointed, fun place => ?_⟩
    by_cases heq : (serv == pointed) = true
    · rw [if_pos heq] at h ⊢
      rw [← (hcount place).2, Option.some.inj h]
    · rw [if_neg heq] at h ⊢
      rw [Option.some.inj h]

/-- What `incrementServerFailCount` does: a server with few failures is changed where it is, another
one is banned and removed. -/
theorem incrementServerFailCount_eq_some
    (h : c.incrementServerFailCount ref clock = some (c', clock')) :
    ∃ before, c.server? ref = some before ∧
      let updated := c.updateServer ref (failed clock.now) (host_failed clock.now)
      (failsOut before = false ∧ c' = updated ∧ clock' = clock.tick ∨
        failsOut before = true ∧ clock' = clock.tick.tick ∧
          ∃ bans, { updated with bannedServers := bans }.removeFailed (failed clock.now before) =
            some c') := by
  simp only [incrementServerFailCount, Option.bind_eq_bind, Option.bind_eq_some_iff] at h
  obtain ⟨before, hbefore, h⟩ := h
  rw [tooManyFailures_failed] at h
  by_cases hmany : failsOut before = true
  · rw [if_pos hmany] at h
    obtain ⟨removed, hremoved, h⟩ := Option.bind_eq_some_iff.1 h
    obtain ⟨rfl, rfl⟩ := Prod.mk.inj (Option.some.inj h)
    exact ⟨before, hbefore, .inr ⟨hmany, rfl, _, hremoved⟩⟩
  · rw [if_neg hmany] at h
    obtain ⟨rfl, rfl⟩ := Prod.mk.inj (Option.some.inj h)
    exact ⟨before, hbefore, .inl ⟨by simpa using hmany, rfl, rfl⟩⟩

/-- The places of a record behind the removal of a server that has failed too often. -/
def placesRemoved (c : NrpdConfig) (serv : ServerRecord) (place : ServerRef) : List ServerRef :=
  (if serv.probationary then place.moved id (c.afterProbationaryRemoval serv)
    else place.moved (c.afterActiveRemoval serv) id).toList

/-- The places of a record behind `incrementServerFailCount`. -/
def placesCounted (c : NrpdConfig) (ref : ServerRef) (now : ℤ) (place : ServerRef) :
    List ServerRef :=
  match c.server? ref with
  | some before =>
    if failsOut before then
      (c.updateServer ref (failed now) (host_failed now)).placesRemoved (failed now before) place
    else [place]
  | none => []

theorem server?_removeFailed (h : c.removeFailed serv = some c')
    (hplace : place' ∈ c.placesRemoved serv place) : c'.server? place' = c.server? place := by
  rw [placesRemoved, Option.mem_toList] at hplace
  obtain ⟨hprob, pointed, hpointed, hc'⟩ | ⟨hprob, pointed, hpointed, hc'⟩ := removeFailed_eq_some h
  · rw [if_pos hprob] at hplace
    rw [hc', server?_of_moved_probationary hpointed hplace]
  · rw [if_neg (by simp [hprob])] at hplace
    rw [hc', server?_of_moved_active hpointed hplace]

/-- **Failures.** At its places the record is the one from before; that of the server is changed. -/
theorem server?_incrementServerFailCount
    (h : c.incrementServerFailCount ref clock = some (c', clock'))
    (hplace : place' ∈ c.placesCounted ref clock.now place) :
    c'.server? place' = if place = ref then (c.server? place).map (failed clock.now)
      else c.server? place := by
  rw [← server?_updateServer c ref (host_failed clock.now)]
  obtain ⟨before, hbefore, ⟨hfew, rfl, -⟩ | ⟨hmany, -, bans, hremoved⟩⟩ :=
    incrementServerFailCount_eq_some h
  · simp only [placesCounted, hbefore, hfew, Bool.false_eq_true, if_false] at hplace
    rw [List.mem_singleton.1 hplace]
  · simp only [placesCounted, hbefore, hmany, if_true] at hplace
    rw [server?_removeFailed hremoved hplace]
    cases place <;> rfl

/-! ### Access times -/

/-- Behind a call for a server a record at its places has the retry time from before. The server was
accessed at `now`, another one when it was before. -/
def Accessed (c c' : NrpdConfig) (ref : ServerRef) (now : ℤ)
    (places : ServerRef → List ServerRef) : Prop :=
  ∀ place, ∀ place' ∈ places place, ∀ r, c.server? place = some r →
    ∃ r', c'.server? place' = some r' ∧ r'.retryTime = r.retryTime ∧
      r'.lastaccessTime = if place = ref then now else r.lastaccessTime

theorem accessed_of_update {f : ServerRecord → ServerRecord} {now : ℤ}
    {places : ServerRef → List ServerRef} (hretry : ∀ r, (f r).retryTime = r.retryTime)
    (haccess : ∀ r, (f r).lastaccessTime = now)
    (h : ∀ place, ∀ place' ∈ places place,
      c'.server? place' = if place = ref then (c.server? place).map f else c.server? place) :
    Accessed c c' ref now places := by
  intro place place' hplace r hr
  rw [h place place' hplace, hr]
  by_cases href : place = ref
  · rw [if_pos href, if_pos href]
    exact ⟨f r, rfl, hretry r, haccess r⟩
  · rw [if_neg href, if_neg href]
    exact ⟨r, rfl, rfl, rfl⟩

theorem accessed_markServerSuccessful (h : c.markServerSuccessful ref clock = some (c', clock')) :
    Accessed c c' ref clock.now (c.placesMarked ref clock.now) :=
  accessed_of_update (f := succeeded clock.now) (fun _ => rfl) (fun _ => rfl)
    fun _ _ hplace => server?_markServerSuccessful h hplace

theorem accessed_incrementServerFailCount
    (h : c.incrementServerFailCount ref clock = some (c', clock')) :
    Accessed c c' ref clock.now (c.placesCounted ref clock.now) :=
  accessed_of_update (f := failed clock.now) (fun r => Int.mul_one r.retryTime) (fun _ => rfl)
    fun _ _ hplace => server?_incrementServerFailCount h hplace

theorem laterThan_markServerSuccessful (h : c.markServerSuccessful ref clock = some (c', clock')) :
    clock.LaterThan clock' :=
  (markServerSuccessful_eq_some h).1 ▸ .tick clock

theorem laterThan_incrementServerFailCount
    (h : c.incrementServerFailCount ref clock = some (c', clock')) : clock.LaterThan clock' := by
  obtain ⟨before, -, ⟨-, -, rfl⟩ | ⟨-, rfl, -⟩⟩ := incrementServerFailCount_eq_some h
  · exact .tick clock
  · exact (LaterThan.tick clock).trans (.tick _)

end NrpdConfig

end Nrpd
