import Nrpd.Client.Sessions
import Nrpd.Config.RecordPlaces

/-!
# The loop of the client

A turn of `ClientLoop` takes the next server, leaves it alone while its retry time has not passed,
and otherwise sends it a request and waits for the response. The time of the request is not written
down: the record of the server is stamped when its success or its failure is reported, which is
after the request was sent. When `recv` fails with another error than a timeout nothing is reported,
and the server may be asked again in the next turn.

## Main definitions

* `SystemCalls`, `Received`: what the system does in a turn.
* `ClientState.receiveResponse`, `clientTurn`: the turn.
* `follow`: a turn, and the places of a record behind it.

## Main results

* `turnEffect_of_clientTurn`, `AccessedSince.follow`: what a turn does to the access times of the
  records.
* `retry_interval_kept`: two requests for one record are more than its retry time apart.
-/

namespace Nrpd

open SteadyClock NrpdConfig Runs

/-! ### Turns -/

/-- What `recv` does. A datagram that is longer than the buffer is cut off. -/
inductive Received where
  | timedOut
  | failed
  | datagram (bytes : List UInt8)

/-- What the system does in a turn: whether `connect` and `send` succeed, what `recv` does, and the
readings of the high-resolution clock before the one and after the other. -/
structure SystemCalls where
  connected : Bool
  sent : Bool
  received : Received
  firstTimePoint : Int64
  secondTimePoint : Int64

/-- The bytes of a 64-bit integer, the lowest one first. -/
def int64Bytes (x : Int64) : List UInt8 :=
  (List.range 8).map fun i => (x.toUInt64 >>> .ofNat (8 * i)).toUInt8

/-- A request that was sent: to which server, what its record was, and when. -/
structure Request where
  server : ServerRef
  record : ServerRecord
  time : ℤ

/-- What a turn leaves: the state, the request that was sent, and the places of the records. -/
structure Turn where
  state : ClientState
  request : Option Request
  places : ServerRef → List ServerRef

namespace ClientState

/-- Write the entropy of the two time points to the random device, unless their difference shows a
clock of a low resolution. The high-resolution clock counts nanoseconds. -/
def addTimeEntropy (s : ClientState) (calls : SystemCalls) : ClientState :=
  if (calls.secondTimePoint - calls.firstTimePoint) % 10000 ≠ 0 then
    let timeEntropy := calls.firstTimePoint ^^^ calls.secondTimePoint
    { s with sink := (s.sink.write (int64Bytes timeEntropy)).2 }
  else s

/-- Report a failure of the server. -/
def reportFailure (s : ClientState) (server : ServerRef) :
    Option (ClientState × (ServerRef → List ServerRef)) := do
  let counted ← s.config.incrementServerFailCount server s.clock
  some ({ s with config := counted.1, clock := counted.2 },
    s.config.placesCounted server s.clock.now)

/-- Report a success of the server. -/
def reportSuccess (s : ClientState) (server : ServerRef) :
    Option (ClientState × (ServerRef → List ServerRef)) := do
  let marked ← s.config.markServerSuccessful server s.clock
  some ({ s with config := marked.1, clock := marked.2 },
    s.config.placesMarked server s.clock.now)

/-- A turn of `ClientLoop` behind `send`. Nothing is done for another error than a timeout. -/
def receiveResponse (s : ClientState) (server : ServerRef) (calls : SystemCalls) :
    Option (ClientState × (ServerRef → List ServerRef)) :=
  match calls.received with
  | .timedOut => s.reportFailure server
  | .failed => some (s, fun place => [place])
  | .datagram bytes => do
    let received := { s with buffer := s.buffer.write 0 (bytes.take maxResponseMessageSize) }
    let valid ← validateResponsePacket received.buffer
    if valid then
      let parsed ← parseResponse server maxResponseMessageSize received
      let reported ← parsed.reportSuccess server
      some (reported.1.addTimeEntropy calls, reported.2)
    else received.reportFailure server

end ClientState

/-- A turn of `ClientLoop`. Besides the readings of the source the clock is read when the request is
sent. -/
def clientTurn (s : ClientState) (calls : SystemCalls) : Option Turn := do
  let next ← s.config.getNextServer
  let record ← next.2.server? next.1
  let checked := { s with config := next.2, clock := s.clock.tick }
  if s.clock.now ≤ record.lastaccessTime + seconds record.retryTime then
    some ⟨checked, none, fun place => [place]⟩
  else
    let built := constructRequest next.2 record maxResponseMessageSize s.buffer
    let ready := { checked with buffer := built.2 }
    if built.1.isSome && calls.connected && calls.sent then
      let sent := { ready with clock := ready.clock.tick }
      let received ← sent.receiveResponse next.1 calls
      some ⟨received.1, some ⟨next.1, record, ready.clock.now⟩, received.2⟩
    else some ⟨ready, none, fun place => [place]⟩

/-! ### Responses keep access times -/

theorem times_parseRejectMessage (entries : List NrpMessageReject) (serv : ServerRecord) :
    (parseRejectMessage entries serv).lastaccessTime = serv.lastaccessTime ∧
      (parseRejectMessage entries serv).retryTime = serv.retryTime := by
  obtain ⟨_, _, _, _, heq⟩ := parseRejectMessage_eq entries serv
  rw [heq]
  exact ⟨rfl, rfl⟩

/-- Every record stays at its place, with its access time and its retry time. -/
def KeepsTimes (c c' : NrpdConfig) : Prop :=
  ∀ place r, c.server? place = some r → ∃ r', c'.server? place = some r' ∧
    r'.lastaccessTime = r.lastaccessTime ∧ r'.retryTime = r.retryTime

theorem KeepsTimes.refl (c : NrpdConfig) : KeepsTimes c c := fun _ r hr => ⟨r, hr, rfl, rfl⟩

theorem KeepsTimes.trans {c c' c'' : NrpdConfig} (h : KeepsTimes c c') (h' : KeepsTimes c' c'') :
    KeepsTimes c c'' := by
  intro place r hr
  obtain ⟨r', hr', haccess, hretry⟩ := h place r hr
  obtain ⟨r'', hr'', haccess', hretry'⟩ := h' place r' hr'
  exact ⟨r'', hr'', haccess'.trans haccess, hretry'.trans hretry⟩

theorem keepsTimes_addServers (servs : List ServerRecord) (c : NrpdConfig) (clock : SteadyClock) :
    KeepsTimes c (addServers servs c clock).1 := by
  refine addServers_invariant (P := KeepsTimes c) servs (fun c' clock serv _ hc _ => hc.trans ?_)
    clock (.refl c)
  intro place r hr
  cases place with
  | probationary i =>
    obtain ⟨hi, -⟩ := List.getElem?_eq_some_iff.1 hr
    exact ⟨r, (List.getElem?_append_left hi).trans hr, rfl, rfl⟩
  | _ => exact ⟨r, hr, rfl, rfl⟩

theorem laterThan_addServers (servs : List ServerRecord) (c : NrpdConfig) (clock : SteadyClock) :
    clock.LaterThan (addServers servs c clock).2 := by
  induction servs generalizing c clock with
  | nil => exact .refl clock
  | cons serv servs ih =>
    rw [addServers, addServer_eq]
    exact (c.bannedServers.laterThan_isPresent (c.recordFor serv) clock).trans (ih _ _)

theorem keepsTimes_of_message {s s' : ClientRun} {call : ClientCall} (hmessage : call.IsMessage)
    (hrun : call.run s = some s') :
    KeepsTimes s.config s'.config ∧ s.clock.LaterThan s'.clock := by
  cases call with
  | addServersFromMessage m msg =>
    obtain rfl := Option.some.inj hrun
    rw [addServersFromMessage_snd]
    exact ⟨keepsTimes_addServers _ _ _, laterThan_addServers _ _ _⟩
  | parseRejectMessage entries =>
    obtain ⟨ref, -, hrun⟩ := Option.bind_eq_some_iff.1 hrun
    obtain rfl := Option.some.inj hrun
    refine ⟨fun place r hr => ?_, .refl _⟩
    rw [server?_updateServer, hr]
    by_cases hplace : place = ref
    · rw [if_pos hplace]
      exact ⟨_, rfl, times_parseRejectMessage entries r⟩
    · rw [if_neg hplace]
      exact ⟨r, rfl, rfl, rfl⟩
  | _ => cases hmessage

/-- **Responses.** What a response brings changes no access time and no retry time. -/
theorem keepsTimes_parseResponse {s s' : ClientState} {ref : ServerRef}
    (hvalid : validateResponsePacket s.buffer = some true)
    (h : parseResponse ref maxResponseMessageSize s = some s') :
    KeepsTimes s.config s'.config ∧ s.clock.LaterThan s'.clock := by
  obtain ⟨response, hresponse⟩ := exists_acceptedResponse hvalid
  obtain ⟨s'', hs'', hcalls⟩ := parseResponse_calls response s ref
  rw [hresponse] at hs''
  obtain rfl := Option.some.inj (h.symm.trans hs'')
  refine after_invariant (P := fun r => KeepsTimes s.config r.config ∧ s.clock.LaterThan r.clock)
    (fun call hcall r r' hr _ hrun => ?_) ⟨.refl _, .refl _⟩ (allMeet_true _ _) hcalls
  obtain ⟨htimes, hlater⟩ := keepsTimes_of_message (isMessage_of_mem_filterMap hcall) hrun
  exact ⟨hr.1.trans htimes, hr.2.trans hlater⟩

/-! ### What a turn does -/

theorem KeepsTimes.accessed {c c' c'' : NrpdConfig} {ref : ServerRef} {now : ℤ}
    {places : ServerRef → List ServerRef} (h : KeepsTimes c c')
    (h' : Accessed c' c'' ref now places) : Accessed c c'' ref now places := by
  intro place place' hplace r hr
  obtain ⟨r', hr', haccess, hretry⟩ := h place r hr
  obtain ⟨r'', hr'', hretry', haccess'⟩ := h' place place' hplace r' hr'
  exact ⟨r'', hr'', hretry'.trans hretry, by rw [haccess', haccess]⟩

/-- What was reported behind a request: nothing when `recv` failed, otherwise the record of the
server was stamped. -/
inductive Reported (s : ClientState) (server : ServerRef) (calls : SystemCalls) :
    ClientState × (ServerRef → List ServerRef) → Prop
  | nothing (hfailed : calls.received = .failed) :
    Reported s server calls (s, fun place => [place])
  | stamped {s' : ClientState} {places : ServerRef → List ServerRef} {clock : SteadyClock}
    (hclock : s.clock.LaterThan clock) (hlater : clock.LaterThan s'.clock)
    (haccessed : Accessed s.config s'.config server clock.now places) :
    Reported s server calls (s', places)

section Turns

variable {s s' : ClientState} {ref : ServerRef} {calls : SystemCalls} {turn : Turn}
  {received : ClientState × (ServerRef → List ServerRef)}

theorem reported_of_reportFailure (h : s'.reportFailure ref = some received)
    (hclock : s.clock = s'.clock) (hconfig : s.config = s'.config) :
    Reported s ref calls received := by
  obtain ⟨counted, hcounted, h⟩ := Option.bind_eq_some_iff.1 h
  obtain rfl := Option.some.inj h
  rw [← hclock, ← hconfig] at hcounted ⊢
  exact .stamped (.refl _) (laterThan_incrementServerFailCount hcounted)
    (accessed_incrementServerFailCount hcounted)

/-- **Behind a request.** Unless `recv` fails, the server is stamped with a reading that is taken
after the request was sent. -/
theorem reported_of_receiveResponse (h : s.receiveResponse ref calls = some received) :
    Reported s ref calls received := by
  rw [ClientState.receiveResponse] at h
  cases hreceived : calls.received with
  | timedOut =>
    rw [hreceived] at h
    exact reported_of_reportFailure h rfl rfl
  | failed =>
    rw [hreceived] at h
    obtain rfl := Option.some.inj h
    exact .nothing hreceived
  | datagram bytes =>
    rw [hreceived] at h
    obtain ⟨valid, hvalid, h⟩ := Option.bind_eq_some_iff.1 h
    cases valid with
    | false =>
      rw [if_neg Bool.false_ne_true] at h
      exact reported_of_reportFailure h rfl rfl
    | true =>
      rw [if_pos rfl] at h
      obtain ⟨parsed, hparsed, h⟩ := Option.bind_eq_some_iff.1 h
      obtain ⟨reported, hreported, h⟩ := Option.bind_eq_some_iff.1 h
      obtain ⟨marked, hmarked, hreported⟩ := Option.bind_eq_some_iff.1 hreported
      obtain rfl := Option.some.inj hreported
      obtain rfl := Option.some.inj h
      obtain ⟨htimes, hlater⟩ := keepsTimes_parseResponse hvalid hparsed
      have haccessed := htimes.accessed (accessed_markServerSuccessful hmarked)
      have hmarkedLater := laterThan_markServerSuccessful hmarked
      rw [ClientState.addTimeEntropy]
      split <;> exact .stamped hlater hmarkedLater haccessed

theorem server?_getNextServer {c c' : NrpdConfig} (h : c.getNextServer = some (ref, c'))
    (place : ServerRef) : c'.server? place = c.server? place := by
  obtain ⟨ia, ip, flag, -, -, rfl, -⟩ := getNextServer_eq_some h
  cases place <;> rfl

/-- What a turn does: it sends nothing, or it sends a request to a server whose retry time has
passed. -/
inductive TurnEffect (s : ClientState) (calls : SystemCalls) : Turn → Prop
  | quiet {s' : ClientState} (hclock : s.clock.LaterThan s'.clock)
    (hsame : ∀ place, s'.config.server? place = s.config.server? place) :
    TurnEffect s calls ⟨s', none, fun place => [place]⟩
  | asked {sent s' : ClientState} {server : ServerRef} {record : ServerRecord}
    {places : ServerRef → List ServerRef} (hrecord : s.config.server? server = some record)
    (hpassed : record.lastaccessTime + seconds record.retryTime < s.clock.now)
    (hclock : sent.clock = s.clock.tick.tick)
    (hsame : ∀ place, sent.config.server? place = s.config.server? place)
    (hreported : Reported sent server calls (s', places)) :
    TurnEffect s calls ⟨s', some ⟨server, record, s.clock.tick.now⟩, places⟩

theorem turnEffect_of_clientTurn (h : clientTurn s calls = some turn) :
    TurnEffect s calls turn := by
  obtain ⟨⟨server, config⟩, hnext, h⟩ := Option.bind_eq_some_iff.1 h
  obtain ⟨record, hrecord, h⟩ := Option.bind_eq_some_iff.1 h
  have hsame := server?_getNextServer hnext
  rw [hsame] at hrecord
  by_cases hwait : s.clock.now ≤ record.lastaccessTime + seconds record.retryTime
  · rw [if_pos hwait] at h
    obtain rfl := Option.some.inj h
    exact .quiet (.tick _) hsame
  · rw [if_neg hwait] at h
    by_cases hsent : ((constructRequest config record maxResponseMessageSize s.buffer).1.isSome &&
        calls.connected && calls.sent) = true
    · rw [if_pos hsent] at h
      obtain ⟨received, hreceived, h⟩ := Option.bind_eq_some_iff.1 h
      obtain rfl := Option.some.inj h
      exact .asked hrecord (not_le.1 hwait) rfl hsame (reported_of_receiveResponse hreceived)
    · rw [if_neg hsent] at h
      obtain rfl := Option.some.inj h
      exact .quiet (.tick _) hsame

end Turns

/-! ### Runs of the loop -/

/-- A turn, and the places of a record behind it. -/
def follow (s : ClientState × List ServerRef) (calls : SystemCalls) :
    Option (ClientState × List ServerRef) :=
  (clientTurn s.1 calls).map fun turn => (turn.state, s.2.flatMap turn.places)

/-- A time has passed, and at all the places there are records that were accessed then or later. -/
structure AccessedSince (t retryTime : ℤ) (s : ClientState × List ServerRef) : Prop where
  steady : s.1.clock.Steady
  passed : t ≤ s.1.clock.now
  records : ∀ place ∈ s.2, ∃ r, s.1.config.server? place = some r ∧ t ≤ r.lastaccessTime ∧
    r.retryTime = retryTime

section Follow

variable {s s' : ClientState × List ServerRef} {calls : SystemCalls} {t retryTime : ℤ}

theorem AccessedSince.later (h : AccessedSince t retryTime s) {state : ClientState}
    {places : List ServerRef} (hlater : s.1.clock.LaterThan state.clock)
    (hrecords : ∀ place ∈ places, ∃ r, state.config.server? place = some r ∧
      t ≤ r.lastaccessTime ∧ r.retryTime = retryTime) :
    AccessedSince t retryTime (state, places) :=
  ⟨h.steady.of_laterThan hlater, h.passed.trans (h.steady.now_le hlater), hrecords⟩

/-- Nothing is to be done when the records stay as they are. -/
theorem AccessedSince.same (h : AccessedSince t retryTime s) {state : ClientState}
    (hlater : s.1.clock.LaterThan state.clock)
    (hsame : ∀ place, state.config.server? place = s.1.config.server? place) :
    AccessedSince t retryTime (state, s.2.flatMap fun place => [place]) := by
  refine h.later hlater fun place hplace => ?_
  obtain ⟨place, hplace, hmem⟩ := List.mem_flatMap.1 hplace
  obtain rfl := List.mem_singleton.1 hmem
  rw [hsame]
  exact h.records _ hplace

/-- **One turn.** A turn sets no access time back. -/
theorem AccessedSince.follow (h : AccessedSince t retryTime s)
    (hfollow : follow s calls = some s') : AccessedSince t retryTime s' := by
  obtain ⟨turn, hturn, rfl⟩ := Option.map_eq_some_iff.1 hfollow
  cases turnEffect_of_clientTurn hturn with
  | quiet hclock hsame => exact h.same hclock hsame
  | @asked sent state server record places hrecord hpassed hclock hsame hreported =>
    have hsent : s.1.clock.LaterThan sent.clock := hclock ▸ (LaterThan.tick _).trans (.tick _)
    cases hreported with
    | nothing hfailed => exact h.same hsent hsame
    | @stamped _ _ clock hstamp hlater haccessed =>
      refine h.later ((hsent.trans hstamp).trans hlater) fun place' hplace' => ?_
      obtain ⟨place, hplace, hmem⟩ := List.mem_flatMap.1 hplace'
      obtain ⟨r, hr, ht, hretry⟩ := h.records place hplace
      obtain ⟨r', hr', hretry', haccess⟩ := haccessed place place' hmem r (by rw [hsame, hr])
      refine ⟨r', hr', ?_, hretry'.trans hretry⟩
      rw [haccess]
      by_cases hserver : place = server
      · rw [if_pos hserver]
        exact h.passed.trans (h.steady.now_le (hsent.trans hstamp))
      · rw [if_neg hserver]
        exact ht

end Follow

section RetryInterval

variable {s s' : ClientState} {calls calls' : SystemCalls} {turn turn' : Turn}
  {request request' : Request}

/-- Behind a request whose answer is reported, the server is accessed since the request. -/
theorem accessedSince_of_request (hsteady : s.clock.Steady)
    (hturn : clientTurn s calls = some turn) (hrequest : turn.request = some request)
    (hreported : calls.received ≠ .failed) :
    AccessedSince request.time request.record.retryTime
      (turn.state, turn.places request.server) := by
  cases turnEffect_of_clientTurn hturn with
  | quiet => cases hrequest
  | @asked sent state server record places hrecord hpassed hclock hsame hanswer =>
    obtain rfl := Option.some.inj hrequest
    have hsent : s.clock.tick.LaterThan sent.clock := hclock ▸ .tick _
    have htick := hsteady.of_laterThan (.tick s.clock)
    cases hanswer with
    | nothing hfailed => exact absurd hfailed hreported
    | @stamped _ _ clock hstamp hlater haccessed =>
      have hfinal := (hsent.trans hstamp).trans hlater
      refine ⟨htick.of_laterThan hfinal, htick.now_le hfinal, fun place' hplace' => ?_⟩
      obtain ⟨r', hr', hretry, haccess⟩ :=
        haccessed server place' hplace' record (by rw [hsame, hrecord])
      rw [if_pos rfl] at haccess
      exact ⟨r', hr', haccess ▸ htick.now_le (hsent.trans hstamp), hretry⟩

/-- **The retry interval.** In every run of the loop: after a request for a record whose answer is
reported, the next request for the record, wherever it has moved, is sent more than its retry time
later. The answer is reported unless `recv` fails with another error than a timeout. -/
theorem retry_interval_kept (hsteady : s.clock.Steady) (hturn : clientTurn s calls = some turn)
    (hrequest : turn.request = some request) (hreported : calls.received ≠ .failed)
    {run : List SystemCalls} {places : List ServerRef}
    (hrun : after follow run (turn.state, turn.places request.server) = some (s', places))
    (hturn' : clientTurn s' calls' = some turn') (hrequest' : turn'.request = some request')
    (hsame : request'.server ∈ places) :
    request.time + seconds request.record.retryTime < request'.time ∧
      request'.record.retryTime = request.record.retryTime := by
  have hsince : AccessedSince request.time request.record.retryTime (s', places) :=
    after_invariant (fun _ _ _ _ h _ hfollow => h.follow hfollow)
      (accessedSince_of_request hsteady hturn hrequest hreported) (allMeet_true _ _) hrun
  obtain ⟨r, hr, haccess, hretry⟩ := hsince.records _ hsame
  cases turnEffect_of_clientTurn hturn' with
  | quiet => cases hrequest'
  | @asked _ _ server record _ hrecord hpassed =>
    obtain rfl := Option.some.inj hrequest'
    obtain rfl : record = r := Option.some.inj (hrecord.symm.trans hr)
    rw [hretry] at hpassed
    refine ⟨?_, hretry⟩
    calc request.time + seconds request.record.retryTime
        ≤ record.lastaccessTime + seconds request.record.retryTime := by omega
      _ < s'.clock.now := hpassed
      _ ≤ s'.clock.tick.now := hsince.steady.now_le (.tick _)

/-- A client with one probationary server, and readings that are some seconds apart. -/
def oneServerClient (gap : ℤ) : ClientState :=
  { newClient Mem.zero with
    config := { (newClient Mem.zero).config with
      probationaryServers := [.ofIp4Peer twoPeers 4] }
    clock := ⟨fun n => seconds (100 + gap * n), 0⟩ }

theorem steady_oneServerClient {gap : ℤ} (hgap : 0 ≤ gap) : (oneServerClient gap).clock.Steady := by
  intro i j hij
  have hmul : gap * i ≤ gap * j := Int.mul_le_mul_of_nonneg_left (Int.ofNat_le.2 hij) hgap
  change seconds (100 + gap * i) ≤ seconds (100 + gap * j)
  rw [seconds, seconds]
  omega

/-- A turn in which a request is sent, and `recv` does what is given. -/
def requestCalls (received : Received) : SystemCalls := ⟨true, true, received, 0, 0⟩

/-- A server that is promoted for its answer is asked again after its retry time. -/
theorem retry_interval_kept_example :
    ∃ turn request turn' request',
      clientTurn (oneServerClient 100) (requestCalls (.datagram [0, 9, 2, 1, 0, 5, 5, 1, 7])) =
          some turn ∧
        turn.request = some request ∧ turn.places request.server = [.active 0] ∧
        clientTurn turn.state (requestCalls .timedOut) = some turn' ∧
        turn'.request = some request' ∧ request'.server = .active 0 ∧
        request.time + seconds request.record.retryTime < request'.time := by
  obtain ⟨turn, request, turn', request', hturn, hrequest, hplaces, hturn', hrequest', hserver⟩ :
      ∃ turn request turn' request',
        clientTurn (oneServerClient 100) (requestCalls (.datagram [0, 9, 2, 1, 0, 5, 5, 1, 7])) =
            some turn ∧
          turn.request = some request ∧ turn.places request.server = [.active 0] ∧
          clientTurn turn.state (requestCalls .timedOut) = some turn' ∧
          turn'.request = some request' ∧ request'.server = .active 0 :=
    ⟨_, _, _, _, rfl, rfl, rfl, rfl, rfl, rfl⟩
  have hsame : request'.server ∈ turn.places request.server := by
    rw [hplaces, hserver]
    exact List.mem_cons_self
  have hrun : after follow [] (turn.state, turn.places request.server) =
      some (turn.state, turn.places request.server) := rfl
  exact ⟨turn, request, turn', request', hturn, hrequest, hplaces, hturn', hrequest', hserver,
    (retry_interval_kept (steady_oneServerClient (by decide)) hturn hrequest
      (fun h => nomatch h) hrun
      hturn' hrequest' hsame).1⟩

/-- When `recv` fails with another error than a timeout, a server is asked again in the next turn,
after two seconds. -/
theorem asked_again_after_error :
    ∃ turn request turn' request',
      clientTurn (oneServerClient 1) (requestCalls .failed) = some turn ∧
        turn.request = some request ∧
        clientTurn turn.state (requestCalls .timedOut) = some turn' ∧
        turn'.request = some request' ∧ request'.server ∈ turn.places request.server ∧
        request'.record = request.record ∧ request'.time = request.time + seconds 2 ∧
        ¬ request.time + seconds request.record.retryTime < request'.time :=
  ⟨_, _, _, _, rfl, rfl, rfl, rfl, List.mem_cons_self, rfl, rfl, by decide⟩

end RetryInterval

end Nrpd
