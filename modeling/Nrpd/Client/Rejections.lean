import Nrpd.Client.Bans
import Nrpd.Client.Requests
import Nrpd.Client.Sessions

/-!
# Rejected message types

A server that rejects a message type is not asked for it again, because the rejection is kept in the
record of the server. It is lost when a peers message appends another record of the server: in the
response that rejects the type, before it, or after it while the server is not active. In every
session without such records no request for the server has a message of the type.

## Main definitions

* `ServerRecord.requests`: whether a record is asked for peers of a type.
* `AcceptedResponse.Rejects`: a response rejects a type.
* `NrpdConfig.Muted`: no record of a server is asked for a type.
* `ClientCall.AddsNone`: a call appends no record of a server.

## Main results

* `ClientRun.Effect.muted`: what one call keeps.
* `ClientSession.rejected_not_requested`: what every session keeps.
-/

namespace Nrpd

open SteadyClock NrpdConfig ServerRecord Segments Runs

/-! ### Rejections -/

/-- Whether the server of a record is asked for peers of a type. -/
def ServerRecord.requests (r : ServerRecord) : NrpdMsgType → Bool
  | .ip4peers => r.ip4Peers
  | .ip6peers => r.ip6Peers
  | _ => false

/-- An entry of a reject message says that a type is not supported. -/
def NrpMessageReject.IsUnsupported (t : NrpdMsgType) (rej : NrpMessageReject) : Prop :=
  rej.reason = NrpdRejectReason.unsupported.code ∧ rej.msgType = t.code

/-- A message of the response rejects a type as not supported. -/
def AcceptedResponse.Rejects (response : AcceptedResponse) (t : NrpdMsgType) : Prop :=
  ∃ o ∈ response.messages, hdrMsgType response.packet o = NrpdMsgType.reject.code ∧
    ∃ rej ∈ rejectEntries response.packet o, rej.IsUnsupported t

variable {t : NrpdMsgType} {e : Host × UInt16}

/-- A change that keeps the server asks for no more types. -/
theorem ServerRecord.KeepsServer.requests {f : ServerRecord → ServerRecord} (hf : KeepsServer f)
    {r : ServerRecord} (h : r.requests t = false) : (f r).requests t = false := by
  cases t
  case ip4peers => exact Bool.eq_false_iff.2 fun htrue =>
    Bool.eq_false_iff.1 h (hf.ip4Peers r htrue)
  case ip6peers => exact Bool.eq_false_iff.2 fun htrue =>
    Bool.eq_false_iff.1 h (hf.ip6Peers r htrue)
  all_goals rfl

/-- **Rejections.** A server is not asked for the types that it rejects. -/
theorem requests_parseRejectMessage {entries : List NrpMessageReject} {rej : NrpMessageReject}
    (hrej : rej ∈ entries) (h : rej.IsUnsupported t) (r : ServerRecord) :
    (parseRejectMessage entries r).requests t = false := by
  induction entries generalizing r with
  | nil => cases hrej
  | cons first entries ih =>
    rcases List.mem_cons.1 hrej with rfl | hrest
    · refine (keepsServer_parseRejectMessage entries).requests ?_
      have hreason : NrpdRejectReason.ofCode rej.reason = some .unsupported := by
        rw [h.1]
        rfl
      rw [applyReject, hreason, h.2, NrpdMsgType.ofCode_code]
      cases t <;> rfl
    · exact ih hrest _

/-- The request for a server has messages of the types only that the server is asked for. -/
theorem notMem_of_requests_eq_false {c : NrpdConfig} {r : ServerRecord}
    (ht : isPeersType t = true) (h : r.requests t = false) {buffer pkt : Mem} {size : ℕ}
    {os : List ℕ} (hrequest : constructRequest c r maxResponseMessageSize buffer = (some size, pkt))
    (hos : IsRequestPacket pkt os) : t.code ∉ os.map (hdrMsgType pkt) := by
  obtain ⟨pkt', os', hbuilt, hos', -, htypes⟩ := constructRequest_spec c r buffer
  obtain ⟨-, rfl⟩ := Prod.mk.inj (hrequest.symm.trans hbuilt)
  rw [hos.tiles.unique hos'.tiles, htypes]
  intro hmem
  obtain ⟨t', ht', hcode⟩ := List.mem_map.1 hmem
  obtain rfl := NrpdMsgType.code_injective hcode
  rw [requestedTypes] at ht'
  cases t' <;> simp_all [isPeersType, ServerRecord.requests]

/-! ### The records of a server -/

namespace NrpdConfig

variable {c : NrpdConfig} {clock : SteadyClock} {refs : ServerRef → Prop} {ref : ServerRef}

/-- The records of a server, at the given references, are not asked for a type. -/
def MutedAt (refs : ServerRef → Prop) (t : NrpdMsgType) (e : Host × UInt16) (c : NrpdConfig) :
    Prop :=
  ∀ ref r, refs ref → c.server? ref = some r → endpoint r = e → r.requests t = false

/-- No record of a server is asked for a type. -/
def Muted (t : NrpdMsgType) (e : Host × UInt16) (c : NrpdConfig) : Prop :=
  ∀ r, c.HasRecord r → endpoint r = e → r.requests t = false

theorem muted_iff_mutedAt : c.Muted t e ↔ c.MutedAt (fun _ => True) t e :=
  ⟨fun h ref r _ hr => h r ⟨ref, hr⟩, fun h r ⟨ref, hr⟩ => h ref r trivial hr⟩

/-- The entries of a message that are for a server are passed over. -/
def AddsNone (e : Host × UInt16) : List ServerRecord → NrpdConfig → SteadyClock → Prop
  | [], _, _ => True
  | serv :: servs, c, clock => (endpoint serv = e → c.refuses serv clock = true) ∧
    AddsNone e servs (c.addServer serv clock).1 (c.addServer serv clock).2

/-- A record that is there after one entry was there before it, or is the one of the entry. -/
theorem server?_addServer {serv r : ServerRecord}
    (h : (c.addServer serv clock).1.server? ref = some r) :
    c.server? ref = some r ∨ c.refuses serv clock = false ∧ endpoint r = endpoint serv := by
  rw [addServer_eq] at h
  by_cases hrefuses : c.refuses serv clock = true
  · rw [if_pos hrefuses] at h
    exact .inl h
  · rw [if_neg hrefuses] at h
    cases ref with
    | configured i => exact .inl h
    | active i => exact .inl h
    | probationary i =>
      by_cases hold : i < c.probationaryServers.length
      · rw [server?, List.getElem?_append_left hold] at h
        exact .inl h
      · rw [server?, List.getElem?_append_right (not_lt.1 hold)] at h
        obtain rfl := List.mem_singleton.1 (List.mem_of_getElem? h)
        exact .inr ⟨by simpa using hrefuses, rfl⟩

/-- **New records.** They are none of the server. -/
theorem MutedAt.addServers (servs : List ServerRecord) :
    ∀ {c : NrpdConfig} {clock : SteadyClock}, AddsNone e servs c clock → c.MutedAt refs t e →
      (addServers servs c clock).1.MutedAt refs t e := by
  induction servs with
  | nil => exact fun _ h => h
  | cons serv servs ih =>
    intro c clock hnone h
    refine ih hnone.2 fun ref r href hr he => ?_
    rcases server?_addServer hr with hold | ⟨hrefuses, hnew⟩
    · exact h ref r href hold he
    · rw [hnone.1 (hnew.symm.trans he)] at hrefuses
      cases hrefuses

/-- **Changes.** A record that is changed where it is asks for no more types. -/
theorem MutedAt.updateServer {f : ServerRecord → ServerRecord} (hf : KeepsServer f)
    (h : c.MutedAt refs t e) : (c.updateServer ref f hf.host).MutedAt refs t e := by
  intro ref' r href hr he
  rw [server?_updateServer] at hr
  by_cases hsame : ref' = ref
  · rw [if_pos hsame] at hr
    obtain ⟨r', hr', rfl⟩ := Option.map_eq_some_iff.1 hr
    refine hf.requests (h ref' r' href (hsame ▸ hr') ?_)
    rw [← he, endpoint, endpoint, hf.host, hf.port]
  · rw [if_neg hsame] at hr
    exact h ref' r href hr he

/-- A rejection mutes the record it is for. -/
theorem MutedAt.reject {entries : List NrpMessageReject} {rej : NrpMessageReject}
    (hrej : rej ∈ entries) (hunsupported : rej.IsUnsupported t) (h : c.MutedAt (· ≠ ref) t e) :
    (c.updateServer ref (parseRejectMessage entries) (host_parseRejectMessage entries)).MutedAt
      (fun _ => True) t e := by
  intro ref' r _ hr he
  by_cases hsame : ref' = ref
  · rw [server?_updateServer, if_pos hsame] at hr
    obtain ⟨r', -, rfl⟩ := Option.map_eq_some_iff.1 hr
    exact requests_parseRejectMessage hrej hunsupported r'
  · exact h.updateServer (keepsServer_parseRejectMessage entries) ref' r hsame hr he

end NrpdConfig

/-! ### Calls -/

/-- A call appends no record of a server. -/
def ClientCall.AddsNone (e : Host × UInt16) (s : ClientRun) : ClientCall → Prop
  | addServersFromMessage m msg => NrpdConfig.AddsNone e (entriesOf m msg) s.config s.clock
  | _ => True

namespace ClientRun

variable {s s' : ClientRun} {call : ClientCall}

/-- **One call.** A call that appends no record of the server asks for no more types. -/
theorem Effect.muted (heffect : Effect s call s') (hnone : call.AddsNone e s)
    (h : s.config.Muted t e) : s'.config.Muted t e := by
  cases heffect with
  | added m msg => exact muted_iff_mutedAt.2 ((muted_iff_mutedAt.1 h).addServers _ hnone)
  | changed hcurrent hserv hstays hf =>
    exact muted_iff_mutedAt.2 ((muted_iff_mutedAt.1 h).updateServer hf)
  | returned => exact h
  | promoted hcurrent hserv =>
    intro r hr he
    rcases hasRecord_iff.1 hr with hr | hr | hr
    · exact h r (hasRecord_iff.2 (.inl hr)) he
    · rcases OrderedSet.mem_of_mem_emplace hr with rfl | hr
      · exact (keepsServer_succeeded _).requests
          (h _ (hasRecord_iff.2 (.inr (.inr (List.mem_of_getElem? hserv)))) he)
      · exact h r (hasRecord_iff.2 (.inr (.inl hr))) he
    · exact h r (hasRecord_iff.2 (.inr (.inr (List.mem_of_mem_eraseIdx hr)))) he
  | droppedProbationary =>
    intro r hr he
    rcases hasRecord_iff.1 hr with hr | hr | hr
    · exact h r (hasRecord_iff.2 (.inl hr)) he
    · exact h r (hasRecord_iff.2 (.inr (.inl hr))) he
    · exact h r (hasRecord_iff.2 (.inr (.inr (List.mem_of_mem_eraseIdx hr)))) he
  | droppedActive =>
    intro r hr he
    rcases hasRecord_iff.1 hr with hr | hr | hr
    · exact h r (hasRecord_iff.2 (.inl hr)) he
    · exact h r (hasRecord_iff.2 (.inr (.inl (List.mem_of_mem_eraseIdx hr)))) he
    · exact h r (hasRecord_iff.2 (.inr (.inr hr))) he
  | cleaned => exact h

/-- A message of a response that appends no record of the server asks for no more types, and the
server that was returned last stays where it is. -/
theorem mutedAt_of_message {refs : ServerRef → Prop} (hmessage : call.IsMessage)
    (hnone : call.AddsNone e s) (hrun : call.run s = some s') (h : s.config.MutedAt refs t e) :
    s'.config.MutedAt refs t e ∧ s'.current = s.current := by
  cases call with
  | addServersFromMessage m msg =>
    obtain rfl := Option.some.inj hrun
    rw [addServersFromMessage_snd]
    exact ⟨h.addServers _ hnone, rfl⟩
  | parseRejectMessage entries =>
    obtain ⟨ref, -, hrun⟩ := Option.bind_eq_some_iff.1 hrun
    obtain rfl := Option.some.inj hrun
    exact ⟨h.updateServer (keepsServer_parseRejectMessage entries), rfl⟩
  | _ => cases hmessage

end ClientRun

/-! ### Sessions -/

/-- A call of a session appends no record of a server. -/
def SessionCall.AddsNone (e : Host × UInt16) (s : ClientSession) (call : SessionCall) : Prop :=
  AllMeet ClientCall.run (fun s (call : ClientCall) => call.AddsNone e s) (call.calls s)
    s.toClientRun

namespace ClientSession

variable {s s₁ s₂ : ClientSession} {response : AcceptedResponse}

/-- **A response.** A response that rejects a type and appends no record of its server mutes the
server, if no other record of it is asked for the type. -/
theorem muted_of_parseResponse (hrejects : response.Rejects t)
    (hothers : s.client.config.MutedAt (fun ref => s.current ≠ some ref) t e)
    (hnone : (SessionCall.parseResponse response).AddsNone e s)
    (hparse : SessionCall.run s (.parseResponse response) = some s₁) :
    s₁.client.config.Muted t e := by
  obtain ⟨ref, href, -⟩ := Option.bind_eq_some_iff.1 hparse
  obtain ⟨o, ho, htype, rej, hrej, hunsupported⟩ := hrejects
  obtain ⟨pre, post, hos⟩ := List.append_of_mem ho
  have hcalls := SessionCall.after_calls hparse
  -- the calls before the rejection, the rejection, and the calls after it
  have hsplit : SessionCall.calls s (.parseResponse response) =
      pre.filterMap (messageCall s.client.config response.packet) ++
        .parseRejectMessage (rejectEntries response.packet o) ::
          post.filterMap (messageCall s.client.config response.packet) := by
    have hcall : messageCall s.client.config response.packet o =
        some (.parseRejectMessage (rejectEntries response.packet o)) := by
      rw [messageCall, htype]
      rfl
    rw [SessionCall.calls, responseCalls, hos, List.filterMap_append,
      List.filterMap_cons_some hcall]
  rw [SessionCall.AddsNone, hsplit] at hnone
  rw [hsplit, after_append] at hcalls
  obtain ⟨hbefore, hrest⟩ := allMeet_append hnone
  obtain ⟨r₁, hr₁, hcalls⟩ := Option.bind_eq_some_iff.1 hcalls
  obtain ⟨r₂, hr₂, hafter⟩ := Option.bind_eq_some_iff.1 hcalls
  have hmessages {os : List ℕ} {refs : ServerRef → Prop} (call : ClientCall)
      (hcall : call ∈ os.filterMap (messageCall s.client.config response.packet)) (r r' : ClientRun)
      (h : r.config.MutedAt refs t e ∧ r.current = some ref) (hnone : call.AddsNone e r)
      (hrun : call.run r = some r') : r'.config.MutedAt refs t e ∧ r'.current = some ref := by
    obtain ⟨hmuted, hcurrent⟩ :=
      ClientRun.mutedAt_of_message (isMessage_of_mem_filterMap hcall) hnone hrun h.1
    exact ⟨hmuted, hcurrent.trans h.2⟩
  obtain ⟨hmuted₁, hcurrent₁⟩ := after_invariant hmessages ⟨hothers, href⟩ hbefore hr₁
  have hmuted₂ : r₂.config.MutedAt (fun _ => True) t e ∧ r₂.current = some ref := by
    obtain ⟨ref', href', hr₂⟩ := Option.bind_eq_some_iff.1 hr₂
    obtain rfl : ref = ref' := Option.some.inj (hcurrent₁.symm.trans href')
    obtain rfl := Option.some.inj hr₂
    refine ⟨MutedAt.reject hrej hunsupported fun ref' r hne => hmuted₁ ref' r ?_, hcurrent₁⟩
    rw [href]
    exact fun heq => hne (Option.some.inj heq).symm
  obtain ⟨hmuted₃, -⟩ := after_invariant hmessages hmuted₂ ((hrest r₁ hr₁).2 r₂ hr₂) hafter
  exact muted_iff_mutedAt.2 hmuted₃

/-- Lists whose records carry the flag of their list, with both iterators at the end. -/
def AtStart (s : ClientSession) : Prop := s.toClientRun.AtStart

/-- The server that was returned last sends a response that rejects a type. -/
structure IsRejectedBy (s : ClientSession) (serv : ServerRecord) (t : NrpdMsgType)
    (response : AcceptedResponse) : Prop where
  server : s.toClientRun.server = some serv
  rejects : response.Rejects t

/-- **A rejected type is not requested again.** In every session: after a response in which the
server rejects a peers type, the requests for the records of the server have no message of the type,
if no other record of the server is asked for it when the response is parsed, and neither the
response nor a call after it appends a record of the server. -/
theorem rejected_not_requested (h : Reachable AtStart SessionCall.run (fun _ _ => True) s)
    {serv : ServerRecord} (ht : isPeersType t = true) (hrejected : s.IsRejectedBy serv t response)
    (hparse : SessionCall.run s (.parseResponse response) = some s₁)
    (hothers : s.client.config.MutedAt (fun ref => s.current ≠ some ref) t (endpoint serv))
    (hnone : (SessionCall.parseResponse response).AddsNone (endpoint serv) s)
    (hrun : Reachable (· = s₁) SessionCall.run
      (fun s (call : SessionCall) => call.AddsNone (endpoint serv) s) s₂)
    {r : ServerRecord} (hr : s₂.client.config.HasRecord r) (hsame : (r == serv) = true)
    {buffer pkt : Mem} {size : ℕ} {os : List ℕ}
    (hrequest :
      constructRequest s₂.client.config r maxResponseMessageSize buffer = (some size, pkt))
    (hos : IsRequestPacket pkt os) : t.code ∉ os.map (hdrMsgType pkt) := by
  have hstep₁ : s₁.toClientRun.InStep := by
    have hcall : Reachable AtStart SessionCall.run (fun _ _ => True) s₁ := h.call trivial hparse
    exact ClientRun.inStep_of_reachable (fun _ => ClientRun.AtStart.inStep) (toClientRun_reachable
      (fun _ => id) (hcall.mono fun s (call : SessionCall) _ => allMeet_true (call.calls s) _))
  have hmuted₁ := muted_of_parseResponse hrejected.rejects hothers hnone hparse
  have hsession : Reachable (· = s₁.toClientRun) ClientCall.run
      (fun s call => call.AddsNone (endpoint serv) s) s₂.toClientRun :=
    toClientRun_reachable (fun _ hs => congrArg toClientRun hs) hrun
  obtain ⟨-, hmuted₂⟩ := ClientRun.invariant_of_effect
    (P := fun s => s.config.Muted t (endpoint serv))
    (by rintro _ rfl; exact ⟨hstep₁, hmuted₁⟩)
    (fun _ _ _ _ hmuted hnone heffect => heffect.muted hnone hmuted)
    hsession
  exact notMem_of_requests_eq_false ht (hmuted₂ r hr (beq_iff_endpoint.1 hsame)) hrequest hos

/-- A session with a new client. -/
def sampleSession : ClientSession := ⟨newClient Mem.zero, none⟩

theorem atStart_sampleSession : sampleSession.AtStart :=
  ⟨fun _ hr => (nomatch hr), fun _ hr => (nomatch hr), rfl, rfl, rfl⟩

/-- A response that rejects peers of IPv4. -/
def rejectResponse : AcceptedResponse where
  packet := fun a => [0, 10, 2, 1, 0, 6, 3, 1, 4, 3].getD a 0
  messages := [4]
  accepted := by
    refine ⟨by decide, by decide, by decide, by decide, .cons (by decide) (.nil 10), fun o ho => ?_⟩
    obtain rfl := List.mem_singleton.1 ho
    refine .reject (by decide) (by decide) (by decide) fun i hi => ?_
    obtain rfl : i = 0 := Nat.lt_one_iff.1 hi
    exact ⟨⟨.ip4peers, by decide, by decide⟩, by decide⟩

theorem rejectResponse_rejects : rejectResponse.Rejects .ip4peers :=
  ⟨4, List.mem_cons_self, by decide, ⟨4, 3⟩, by decide, by decide, by decide⟩

/-- A server that has rejected peers of IPv4 is promoted, and is asked for them no more. -/
theorem rejected_not_requested_example :
    ∃ s s₁ s₂ serv r, after SessionCall.run
        [.addServersFromMessage ClientRun.oneServerResponse 4, .getNextServer] sampleSession =
          some s ∧
      s.IsRejectedBy serv .ip4peers rejectResponse ∧
      SessionCall.run s (.parseResponse rejectResponse) = some s₁ ∧
      after SessionCall.run [.markServerSuccessful, .getNextServer] s₁ = some s₂ ∧
      s₂.toClientRun.server = some r ∧
      ∀ buffer pkt size os, constructRequest s₂.client.config r maxResponseMessageSize buffer =
        (some size, pkt) → IsRequestPacket pkt os →
          NrpdMsgType.ip4peers.code ∉ os.map (hdrMsgType pkt) := by
  have hfirst : Reachable AtStart SessionCall.run (fun _ _ => True) sampleSession :=
    .first atStart_sampleSession
  refine ⟨_, _, _, _, _, rfl, ⟨rfl, rejectResponse_rejects⟩, rfl, rfl, rfl,
    fun buffer pkt size os hrequest hos => ?_⟩
  refine rejected_not_requested (hfirst.after
    [.addServersFromMessage ClientRun.oneServerResponse 4, .getNextServer] rfl) rfl
    ⟨rfl, rejectResponse_rejects⟩ rfl ?_ ⟨trivial, fun _ _ => trivial⟩
    (.call (.call (.first rfl) (a := .markServerSuccessful) ⟨trivial, fun _ _ => trivial⟩ rfl)
      (a := .getNextServer) ⟨trivial, fun _ _ => trivial⟩ rfl) ⟨.active 0, rfl⟩
        (by decide) hrequest hos
  -- the record of the server is the only one
  rintro (_ | _ | _ | i) r hne href -
  · cases href
  · cases href
  · exact absurd rfl hne
  · cases href

/-- A response that rejects peers of IPv4 and lists the server itself. -/
def relistResponse : AcceptedResponse where
  packet := fun a =>
    [0, 20, 2, 2, 0, 6, 3, 1, 4, 3, 0, 10, 4, 1, 10, 0, 0, 1, 31, 144].getD a 0
  messages := [4, 10]
  accepted := by
    refine ⟨by decide, by decide, by decide, by decide,
      .cons (by decide) (.cons (by decide) (.nil 20)), fun o ho => ?_⟩
    rcases List.mem_cons.1 ho with rfl | ho
    · refine .reject (by decide) (by decide) (by decide) fun i hi => ?_
      obtain rfl : i = 0 := Nat.lt_one_iff.1 hi
      exact ⟨⟨.ip4peers, by decide, by decide⟩, by decide⟩
    · obtain rfl := List.mem_singleton.1 ho
      exact .ip4peers (by decide) (by decide)

/-- A probationary server rejects peers of IPv4 and lists itself in one response. Its new record is
returned next, and it is asked for peers of IPv4 again. -/
theorem relisted_server_requested :
    ∃ s s₁ s₂ serv r, Reachable AtStart SessionCall.run (fun _ _ => True) s ∧
      s.IsRejectedBy serv .ip4peers relistResponse ∧
      SessionCall.run s (.parseResponse relistResponse) = some s₁ ∧
      SessionCall.run s₁ .getNextServer = some s₂ ∧ s₂.toClientRun.server = some r ∧
      (r == serv) = true ∧
      ∃ size pkt os, constructRequest s₂.client.config r maxResponseMessageSize Mem.zero =
          (some size, pkt) ∧
        IsRequestPacket pkt os ∧ NrpdMsgType.ip4peers.code ∈ os.map (hdrMsgType pkt) := by
  have hfirst : Reachable AtStart SessionCall.run (fun _ _ => True) sampleSession :=
    .first atStart_sampleSession
  have hrejects : relistResponse.Rejects .ip4peers :=
    ⟨4, List.mem_cons_self, by decide, ⟨4, 3⟩, by decide, by decide, by decide⟩
  obtain ⟨s, s₁, s₂, serv, r, hs, hserver, hparse, hnext, hr, hsame, htypes⟩ :
      ∃ s s₁ s₂ serv r, Reachable AtStart SessionCall.run (fun _ _ => True) s ∧
        s.toClientRun.server = some serv ∧
        SessionCall.run s (.parseResponse relistResponse) = some s₁ ∧
        SessionCall.run s₁ .getNextServer = some s₂ ∧ s₂.toClientRun.server = some r ∧
        (r == serv) = true ∧ .ip4peers ∈ requestedTypes s₂.client.config r :=
    ⟨_, _, _, _, _, hfirst.after
      [.addServersFromMessage ClientRun.oneServerResponse 4, .getNextServer] rfl, rfl, rfl, rfl,
        rfl,
      by decide, by decide⟩
  obtain ⟨pkt, os, hrequest, hos, -, hmap⟩ := constructRequest_spec s₂.client.config r Mem.zero
  refine ⟨s, s₁, s₂, serv, r, hs, ⟨hserver, hrejects⟩, hparse, hnext, hr, hsame, _, pkt, os,
    hrequest,
    hos, ?_⟩
  rw [hmap]
  exact List.mem_map_of_mem htypes

end ClientSession

end Nrpd
