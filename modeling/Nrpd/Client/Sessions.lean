import Nrpd.Client.Datagrams
import Nrpd.Client.ServerCalls

/-!
# Sessions of the client

The client's functions on their whole state: requests and responses in its buffer, and the random
devices. A response is handed to `ParseResponse` when the validator has accepted it. What it does to
the configuration is what the calls for its messages do, one after the other, read from the response
as it was received; the masking of entropy in the buffer changes no other message. So every session
is a run of the client's calls.

## Main definitions

* `AcceptedResponse`: a response with the offsets of its messages.
* `responseCalls`: the calls for the messages of a response.
* `ClientSession`, `SessionCall`, `SessionCall.run`: the states and the calls.

## Main results

* `parseResponse_calls`: `ParseResponse` makes the calls for the messages.
* `SessionCall.after_calls`: a call of a session is a list of calls on the configuration.
* `ClientSession.toClientRun_reachable`: sessions are runs of the client's calls.
-/

namespace Nrpd

open SteadyClock NrpdConfig FuelLoop Segments Runs

/-! ### Responses -/

/-- A packet that the validator accepts, with the offsets of its messages. -/
structure AcceptedResponse where
  packet : Mem
  messages : List ℕ
  accepted : IsResponsePacket packet messages

theorem AcceptedResponse.valid (response : AcceptedResponse) :
    validateResponsePacket response.packet = some true :=
  validateResponsePacket_iff.2 ⟨_, response.accepted⟩

theorem exists_acceptedResponse {m : Mem} (h : validateResponsePacket m = some true) :
    ∃ response : AcceptedResponse, response.packet = m := by
  obtain ⟨os, hos⟩ := validateResponsePacket_iff.1 h
  exact ⟨⟨m, os, hos⟩, rfl⟩

/-- The call for a message, if it has one. Peers are added when the client uses their family. -/
def messageCall (c : NrpdConfig) (m : Mem) (msg : ℕ) : Option ClientCall :=
  match NrpdMsgType.ofCode (hdrMsgType m msg) with
  | some .ip4peers => if c.clientEnableIp4 then some (.addServersFromMessage m msg) else none
  | some .ip6peers => if c.clientEnableIp6 then some (.addServersFromMessage m msg) else none
  | some .reject => some (.parseRejectMessage (rejectEntries m msg))
  | _ => none

/-- The calls for the messages of a response. -/
def responseCalls (c : NrpdConfig) (response : AcceptedResponse) : List ClientCall :=
  response.messages.filterMap (messageCall c response.packet)

/-- The calls that messages make. -/
def ClientCall.IsMessage : ClientCall → Prop
  | addServersFromMessage _ _ => True
  | parseRejectMessage _ => True
  | _ => False

theorem isMessage_of_mem_filterMap {c : NrpdConfig} {m : Mem} {os : List ℕ} {call : ClientCall}
    (h : call ∈ os.filterMap (messageCall c m)) : call.IsMessage := by
  obtain ⟨o, -, ho⟩ := List.mem_filterMap.1 h
  rw [messageCall] at ho
  split at ho
  · split at ho <;> cases ho
    exact trivial
  · split at ho <;> cases ho
    exact trivial
  · cases ho
    exact trivial
  · cases ho

/-- Messages other than entropy are the same in both buffers. -/
def SameContents (m m' : Mem) (os : List ℕ) : Prop :=
  ∀ o ∈ os, hdrMsgType m o ≠ NrpdMsgType.entropy.code → m.AgreeOn m' o (o + hdrLength m o)

section Messages

variable {m : Mem} {os : List ℕ} {o : ℕ} {s : ClientState}

/-- **Contents.** No message of a response changes another message than itself, nor itself when it
is not entropy. -/
theorem SameContents.takeMessage (h : SameContents m s.buffer os)
    (hheaders : SameHeaders m s.buffer os) (hpkt : IsResponsePacket m os) (server : ServerRef)
    (ho : o ∈ os) : SameContents m (s.takeMessage server o).buffer os := by
  obtain ⟨bytes, hbuffer, hbytes⟩ := s.buffer_takeMessage server o
  rcases hbytes with rfl | ⟨htype, hlength⟩
  · rw [hbuffer, Mem.write_nil]
    exact h
  · rw [← hheaders.hdrMsgType_eq ho] at htype
    rw [← hheaders.hdrCountOrSize_eq ho] at hlength
    have hlen : hdrLength m o = 4 + bytes.length := by
      obtain ⟨t, -, ht, hlen⟩ := (hpkt.messages o ho).hasRecords
      obtain rfl := NrpdMsgType.code_injective (ht.symm.trans htype)
      rw [hlen, hlength, recordSize, Nat.one_mul]
    intro o' ho' hother i hi hi'
    have hne : o ≠ o' := fun heq => hother (heq ▸ htype)
    rw [h o' ho' hother i hi hi', hbuffer, Mem.write_of_notMem]
    simp only [hdrContent]
    rcases hpkt.tiles.eq_or_disjoint ho ho' with heq | hafter | hbefore
    · exact absurd heq hne
    · omega
    · omega

/-- **One message.** It makes its call, as the response was received, and no other. -/
theorem after_messageCall (hheaders : SameHeaders m s.buffer os)
    (hcontents : SameContents m s.buffer os) (hpkt : IsResponsePacket m os) (ref : ServerRef)
    (ho : o ∈ os) :
    after ClientCall.run (messageCall s.config m o).toList ⟨s.config, s.clock, some ref⟩ =
      some ⟨(s.takeMessage ref o).config, (s.takeMessage ref o).clock, some ref⟩ := by
  have htype := hheaders.hdrMsgType_eq ho
  have hrecords := (hpkt.messages o ho).hasRecords
  have hadd {t : NrpdMsgType} (ht : hdrMsgType m o = t.code) (hpeers : isPeersType t = true)
      (hne : t ≠ .entropy) : s.config.addServersFromMessage m o s.clock =
        s.config.addServersFromMessage s.buffer o s.clock := by
    have hagree := hcontents o ho fun hentropy => hne (NrpdMsgType.code_injective (ht ▸ hentropy))
    rw [addServersFromMessage, htype, hrecords.peersOf_congr hagree ht hpeers,
      addServersFromMessage]
  rw [messageCall, ClientState.takeMessage, ← htype]
  cases hcode : NrpdMsgType.ofCode (hdrMsgType m o) with
  | none => rfl
  | some t =>
    have ht := NrpdMsgType.ofCode_eq_some.1 hcode
    cases t
    case ip4peers =>
      by_cases henabled : s.config.clientEnableIp4 = true
      · simp only [henabled, if_true, ClientState.takePeers, Option.toList_some, after,
          ClientCall.run, hadd ht rfl (by simp), Option.bind_some]
      · simp only [henabled, ClientState.takePeers]
        rfl
    case ip6peers =>
      by_cases henabled : s.config.clientEnableIp6 = true
      · simp only [henabled, if_true, ClientState.takePeers, Option.toList_some, after,
          ClientCall.run, hadd ht rfl (by simp), Option.bind_some]
      · simp only [henabled, ClientState.takePeers]
        rfl
    case reject =>
      have hagree := hcontents o ho fun hentropy => absurd (ht.symm.trans hentropy) (by decide)
      have hentries := hrecords.rejectEntries_congr hagree ht
      simp only [ClientState.takeRejections, Option.toList_some, after, ClientCall.run, hentries,
        Option.bind_eq_bind, Option.bind_some]
    all_goals rfl

/-- Two configurations whose clients use the same families. -/
def SameFamilies (c c' : NrpdConfig) : Prop :=
  c'.clientEnableIp4 = c.clientEnableIp4 ∧ c'.clientEnableIp6 = c.clientEnableIp6

theorem sameFamilies_addServersFromMessage (c : NrpdConfig) (m : Mem) (msg : ℕ)
    (clock : SteadyClock) : SameFamilies c (c.addServersFromMessage m msg clock).2.1 := by
  rw [addServersFromMessage_snd]
  exact addServers_invariant (P := SameFamilies c) _ (fun _ _ _ _ hc _ => hc) _ ⟨rfl, rfl⟩

theorem sameFamilies_takeMessage (s : ClientState) (ref : ServerRef) (o : ℕ) :
    SameFamilies s.config (s.takeMessage ref o).config := by
  have hpeers (enabled : Bool) : SameFamilies s.config (s.takePeers enabled o).config := by
    rw [ClientState.takePeers]
    by_cases henabled : enabled = true
    · rw [if_pos henabled]
      exact sameFamilies_addServersFromMessage s.config s.buffer o s.clock
    · rw [if_neg henabled]
      exact ⟨rfl, rfl⟩
  rw [ClientState.takeMessage]
  split
  · exact ⟨rfl, rfl⟩
  · exact hpeers _
  · exact hpeers _
  · cases ref <;> exact ⟨rfl, rfl⟩
  · exact ⟨rfl, rfl⟩

theorem messageCall_congr {c c' : NrpdConfig} (h : SameFamilies c c') (m : Mem) (o : ℕ) :
    messageCall c' m o = messageCall c m o := by
  rw [messageCall, h.1, h.2, messageCall]

end Messages

/-- What is kept between the messages of a response: the headers and the messages to come are as
they were received, and the configuration is what the calls made so far have left. -/
structure CallsMade (response : AcceptedResponse) (first : ClientState) (ref : ServerRef)
    (pre : List ℕ) (s : ClientState) : Prop where
  headers : SameHeaders response.packet s.buffer response.messages
  contents : SameContents response.packet s.buffer response.messages
  count : s.msgCount = pre.length
  families : SameFamilies first.config s.config
  calls : after ClientCall.run (pre.filterMap (messageCall first.config response.packet))
    ⟨first.config, first.clock, some ref⟩ = some ⟨s.config, s.clock, some ref⟩

theorem CallsMade.visit {response : AcceptedResponse} {first s : ClientState} {ref : ServerRef}
    {pre : List ℕ} {o : ℕ} (h : CallsMade response first ref pre s) (ho : o ∈ response.messages) :
    CallsMade response first ref (pre ++ [o])
      ((responseWalk ref maxResponseMessageSize).visit o s) where
  headers := h.headers.takeMessage response.accepted ref ho
  contents := h.contents.takeMessage h.headers response.accepted ref ho
  count := by simp [responseWalk, h.count]
  families := by
    obtain ⟨h4, h6⟩ := sameFamilies_takeMessage s ref o
    exact ⟨h4.trans h.families.1, h6.trans h.families.2⟩
  calls := by
    have hone := after_messageCall h.headers h.contents response.accepted ref ho
    rw [messageCall_congr h.families] at hone
    rw [List.filterMap_append, after_append, h.calls, Option.bind_some]
    cases hcall : messageCall first.config response.packet o <;>
      simpa [hcall, responseWalk] using hone

/-- **`ParseResponse`.** It ends, and makes the calls for the messages of the response. -/
theorem parseResponse_calls (response : AcceptedResponse) (s : ClientState) (ref : ServerRef) :
    ∃ s', parseResponse ref maxResponseMessageSize { s with buffer := response.packet } = some s' ∧
      after ClientCall.run (responseCalls s.config response) ⟨s.config, s.clock, some ref⟩ =
        some ⟨s'.config, s'.clock, some ref⟩ := by
  refine ⟨_, parseResponse_eq (s := { s with buffer := response.packet }) response.accepted ref, ?_⟩
  refine ((responseWalk ref maxResponseMessageSize).visitAll_invariant
    (CallsMade response s ref) ?_ ?_ ?_).calls
  · rintro pre o ⟨post, hos⟩ t ht -
    exact ht.visit (by simp [hos])
  · rintro pre o ⟨post, hos⟩ t ht hguard
    rw [guard_responseWalk response.accepted ht.headers hos ht.count] at hguard
    cases hguard
  · exact ⟨.refl _ _, fun _ _ _ _ _ _ => rfl, rfl, ⟨rfl, rfl⟩, rfl⟩

/-! ### Sessions -/

/-- The client, and the server that `GetNextServer` returned last. -/
structure ClientSession where
  client : ClientState
  current : Option ServerRef

/-- The calls of a session. The servers of a message may also come from elsewhere than a response.
-/
inductive SessionCall where
  | addServersFromMessage (m : Mem) (msg : ℕ)
  | getNextServer
  | constructRequest
  | parseResponse (response : AcceptedResponse)
  | markServerSuccessful
  | incrementServerFailCount
  | cleanBannedServers

namespace ClientSession

/-- The configuration and the clock of a session. -/
def toClientRun (s : ClientSession) : ClientRun := ⟨s.client.config, s.client.clock, s.current⟩

/-- A call on the configuration. -/
def call (s : ClientSession) (call : ClientCall) : Option ClientSession :=
  (call.run s.toClientRun).map fun called =>
    ⟨{ s.client with config := called.config, clock := called.clock }, called.current⟩

end ClientSession

/-- What a call does. -/
def SessionCall.run (s : ClientSession) : SessionCall → Option ClientSession
  | addServersFromMessage m msg => s.call (.addServersFromMessage m msg)
  | getNextServer => s.call .getNextServer
  | constructRequest => do
    let server ← s.toClientRun.server
    let request :=
      Nrpd.constructRequest s.client.config server maxResponseMessageSize s.client.buffer
    some { s with client := { s.client with buffer := request.2 } }
  | parseResponse response => do
    let ref ← s.current
    let client ← Nrpd.parseResponse ref maxResponseMessageSize
      { s.client with buffer := response.packet }
    some { s with client := client }
  | markServerSuccessful => s.call .markServerSuccessful
  | incrementServerFailCount => s.call .incrementServerFailCount
  | cleanBannedServers => s.call .cleanBannedServers

/-- The calls on the configuration that a call makes. -/
def SessionCall.calls (s : ClientSession) : SessionCall → List ClientCall
  | addServersFromMessage m msg => [.addServersFromMessage m msg]
  | getNextServer => [.getNextServer]
  | constructRequest => []
  | parseResponse response => responseCalls s.client.config response
  | markServerSuccessful => [.markServerSuccessful]
  | incrementServerFailCount => [.incrementServerFailCount]
  | cleanBannedServers => [.cleanBannedServers]

namespace ClientSession

variable {s s' : ClientSession}

theorem after_call {call : ClientCall} (h : s.call call = some s') :
    after ClientCall.run [call] s.toClientRun = some s'.toClientRun := by
  obtain ⟨called, hcalled, rfl⟩ := Option.map_eq_some_iff.1 h
  rw [after, hcalled]
  rfl

end ClientSession

open ClientSession in
/-- **One call.** A call of a session makes its calls on the configuration. -/
theorem SessionCall.after_calls {s s' : ClientSession} {call : SessionCall}
    (h : call.run s = some s') :
    after ClientCall.run (call.calls s) s.toClientRun = some s'.toClientRun := by
  cases call with
  | constructRequest =>
    obtain ⟨server, -, h⟩ := Option.bind_eq_some_iff.1 h
    obtain rfl := Option.some.inj h
    rfl
  | parseResponse response =>
    obtain ⟨ref, href, h⟩ := Option.bind_eq_some_iff.1 h
    obtain ⟨client, hclient, h⟩ := Option.bind_eq_some_iff.1 h
    obtain rfl := Option.some.inj h
    obtain ⟨client', hclient', hcalls⟩ := parseResponse_calls response s.client ref
    obtain rfl := Option.some.inj (hclient.symm.trans hclient')
    rw [calls, toClientRun, href, hcalls]
    rfl
  | _ => exact after_call h

/-- **Sessions.** A session is a run of calls on the configuration. What holds of the calls in every
run of them holds in every session. -/
theorem ClientSession.toClientRun_reachable {first : ClientSession → Prop}
    {first' : ClientRun → Prop} {meets : ClientRun → ClientCall → Prop} {s : ClientSession}
    (hfirst : ∀ s, first s → first' s.toClientRun)
    (h : Reachable first SessionCall.run (fun s (call : SessionCall) =>
      AllMeet ClientCall.run meets (call.calls s) s.toClientRun) s) :
    Reachable first' ClientCall.run meets s.toClientRun :=
  h.simulate toClientRun (fun s (call : SessionCall) => call.calls s) hfirst
    fun _ _ _ hmeets hrun => ⟨hmeets, SessionCall.after_calls hrun⟩

end Nrpd
