import Nrpd.Node.Servers

/-!
# Whom a node asks

A client learns servers from answers, and it accepts an answer only while it waits for a server
that it has sent a request to. So every server that it knows, and every server that it sends a
request to, is at the end of a chain of accepted answers: the first one comes from a server that was
known at the start, and each one lists the server that the next one comes from. Datagrams that
nobody has asked for add no server; the packets of a node go to such servers, and to the addresses
that its server was sent datagrams from.

## Main definitions

* `Node.Learned`: the servers at the ends of chains of accepted answers.

## Main results

* `Node.Ran.learned`: where the servers come from that a node knows and asks, and where its packets
  go.
-/

namespace Nrpd

open NrpdConfig ServerRecord

/-! ### Configured servers -/

section Configured

variable {c c' : NrpdConfig} {clock clock' : SteadyClock} {ref : ServerRef}

/-- The endpoints of the configured servers. -/
def NrpdConfig.configuredEndpoints (c : NrpdConfig) : List (Host × UInt16) :=
  c.configuredServers.map endpoint

theorem NrpdConfig.SameRecords.configuredEndpoints_eq (h : c.SameRecords c') :
    c'.configuredEndpoints = c.configuredEndpoints := by
  rw [configuredEndpoints, configuredEndpoints, h.configured]

theorem NrpdConfig.configuredEndpoints_updateServer (c : NrpdConfig) (ref : ServerRef)
    {f : ServerRecord → ServerRecord} (hf : KeepsServer f) :
    (c.updateServer ref f hf.host).configuredEndpoints = c.configuredEndpoints := by
  cases ref with
  | configured i =>
    have hkeeps : endpoint ∘ f = endpoint := funext fun r => hf.endpoint_eq r
    refine List.ext_getElem? fun j => ?_
    simp only [configuredEndpoints, updateServer, List.getElem?_map, List.getElem?_modify]
    by_cases hj : i = j
    · simp only [if_pos hj, Option.map_eq_map, Option.map_map, hkeeps]
    · simp only [if_neg hj, Option.map_eq_map, Option.map_map]
      rfl
  | _ => rfl

theorem NrpdConfig.configuredEndpoints_withoutServer (c : NrpdConfig) (ref : ServerRef) :
    (c.withoutServer ref).configuredEndpoints = c.configuredEndpoints := by
  cases ref <;> rfl

theorem Intake.configuredEndpoints_foldl_take (ref : ServerRef) (msgs : List ResponseMessage)
    (s : Intake) :
    (msgs.foldl (Intake.take ref) s).config.configuredEndpoints =
      s.config.configuredEndpoints := by
  have hpeers (s : Intake) (enabled : Bool) (servers : List (Host × UInt16)) :
      (s.takePeers enabled servers).config.configuredEndpoints = s.config.configuredEndpoints := by
    cases enabled with
    | false => rfl
    | true =>
      exact addServers_invariant
        (P := fun c => c.configuredEndpoints = s.config.configuredEndpoints) _
        (fun _ _ _ _ hc _ => hc) s.clock rfl
  induction msgs generalizing s with
  | nil => rfl
  | cons msg msgs ih =>
    refine (ih (s.take ref msg)).trans ?_
    cases msg with
    | entropy bytes => rfl
    | ip4peers peers => exact hpeers s _ _
    | ip6peers peers => exact hpeers s _ _
    | reject entries =>
      exact configuredEndpoints_updateServer s.config ref (keepsServer_parseRejectMessage entries)

end Configured

/-! ### Chains of answers -/

namespace Node

variable {n n' : Node} {calls : List NodeCall} {log : List Sent} {call : NodeCall}
  {sent : Option Sent} {k : ℕ}

/-- **One call.** The configured servers stay. -/
theorem configuredEndpoints_of_run (hsound : n.Sound k) (hk : k + call.receives < 67108864)
    (hrun : call.run n = some (n', sent)) :
    n'.config.configuredEndpoints = n.config.configuredEndpoints := by
  cases changes_of_run hsound hk hrun with
  | same hsame => exact hsame.configuredEndpoints_eq
  | failure hasked hwaits hcounted =>
    obtain ⟨serv, -, ⟨-, hsame⟩ | ⟨-, -, hsame⟩⟩ := hwaits.of_incrementServerFailCount hcounted
    · exact hsame.configuredEndpoints_eq.trans
        (configuredEndpoints_updateServer _ _ (keepsServer_failed _))
    · exact hsame.configuredEndpoints_eq.trans (configuredEndpoints_withoutServer _ _)
  | @success system packet os ref parsed _ hasked hwaits hhears hintake hparsed hmarked =>
    have htook : parsed.config.configuredEndpoints = n.config.configuredEndpoints := by
      rw [show parsed.config = parsed.intake.config from rfl, hintake]
      exact Intake.configuredEndpoints_foldl_take ref _ n.client.intake
    refine Eq.trans ?_ htook
    obtain ⟨serv, -, hsame | ⟨i, rfl, hsame⟩⟩ := hparsed.of_markServerSuccessful hmarked
    · exact hsame.configuredEndpoints_eq.trans
        (configuredEndpoints_updateServer _ _ (keepsServer_succeeded _))
    · exact hsame.configuredEndpoints_eq

/-- The endpoints that the client of a node has reason to know behind a run: those of the servers
that it knew at the start, and those that an accepted answer of such a server lists. -/
inductive Learned (n : Node) (calls : List NodeCall) : Host × UInt16 → Prop
  | start {serv : ServerRecord} (hserv : n.config.HasRecord serv) : Learned n calls (endpoint serv)
  | told {e e' : Host × UInt16} {packet : Mem} {os : List ℕ} {msg : ResponseMessage}
      (hfrom : Learned n calls e) (hanswer : n.Answered calls e packet os)
      (hmsg : msg ∈ messagesAt packet os) (he : e' ∈ msg.servers) : Learned n calls e'

theorem Learned.append {e : Host × UInt16} (h : n.Learned calls e) (more : List NodeCall) :
    n.Learned (calls ++ more) e := by
  induction h with
  | start hserv => exact .start hserv
  | told _ hanswer hmsg he ih => exact .told ih (hanswer.append more) hmsg he

/-- A request is sent to a server that is known. -/
theorem hasRecord_of_request {request : Request} {bytes : List UInt8}
    (hrun : call.run n = some (n', some (.request request bytes))) :
    n.config.HasRecord request.record := by
  cases call with
  | sendRequest connected sent =>
    obtain ⟨asked, hsend, hrequest⟩ := NodeCall.of_request hrun
    obtain ⟨next, record, hnext, hrecord, -, -, -, hof⟩ := ClientState.of_sendRequest hsend
    obtain ⟨-, rfl, -⟩ := hof request bytes hrequest
    obtain ⟨ia, ip, flag, -, -, heq, -⟩ := getNextServer_eq_some hnext
    refine ⟨next.1, Eq.trans ?_ hrecord⟩
    rw [heq]
    cases next.1 <;> rfl
  | serve bytes srcAddr =>
    exact absurd rfl ((NodeCall.of_serve hrun).2 _ _)
  | receiveResponse system =>
    obtain ⟨_, _, -, -, -, hnone⟩ := NodeCall.of_receiveResponse hrun
    cases hnone
  | cleanRecentClients => cases hrun
  | cleanBannedServers => cases hrun

/-- What a node knows and has asked. -/
structure Chained (n : Node) (calls : List NodeCall) (n' : Node) (log : List Sent) : Prop where
  configured : n'.config.configuredEndpoints = n.config.configuredEndpoints
  lists : n'.config.Endpoints (n.Learned calls) (n.Learned calls)
  asked : ∀ request bytes, Sent.request request bytes ∈ log →
    n.Learned calls (endpoint request.record)

theorem Chained.of_hasRecord (h : Chained n calls n' log) {serv : ServerRecord}
    (hserv : n'.config.HasRecord serv) : n.Learned calls (endpoint serv) := by
  rcases hasRecord_iff.1 hserv with hmem | hmem | hmem
  · have hendpoint : endpoint serv ∈ n.config.configuredEndpoints :=
      h.configured ▸ List.mem_map_of_mem hmem
    obtain ⟨first, hfirst, hsame⟩ := List.mem_map.1 hendpoint
    exact hsame ▸ .start (hasRecord_iff.2 (.inl hfirst))
  · exact h.lists.active serv hmem
  · exact h.lists.probationary serv hmem

/-- **One call.** -/
theorem Chained.run {m : Node} {log' : List Sent} (h : Chained n calls m log')
    (hran : n.Ran calls m log') (hsound : m.Sound k) (hk : k + call.receives < 67108864)
    (hrun : call.run m = some (n', sent)) :
    Chained n (calls ++ [call]) n' (log' ++ sent.toList) where
  configured := (configuredEndpoints_of_run hsound hk hrun).trans h.configured
  lists := by
    have hbefore := h.lists.mono (fun e he => he.append [call]) fun e he => he.append [call]
    refine endpoints_of_run hbefore hsound hk hrun ?_ ?_
    · intro system packet os ref serv hcall hhears hasked hserv
      exact (h.of_hasRecord ⟨ref, hserv⟩).append [call]
    · rintro system packet os rfl hhears msg hmsg e he
      obtain ⟨ref, received, hasked, -⟩ := NodeCall.of_receiveResponse hrun
      obtain ⟨serv, -, -, hserv, -⟩ := hran.askedSent ref hasked
      exact .told ((h.of_hasRecord ⟨ref, hserv⟩).append _)
        (answered_of_hears hran hhears hasked hserv) hmsg he
  asked request bytes hmem := by
    rcases List.mem_append.1 hmem with hmem | hmem
    · exact (h.asked request bytes hmem).append [call]
    · cases sent with
      | none => cases hmem
      | some sent =>
        obtain rfl := List.mem_singleton.1 hmem
        exact (h.of_hasRecord (hasRecord_of_request hrun)).append [call]

theorem Ran.chained (h : n.Ran calls n' log) : Chained n calls n' log := by
  induction calls using List.reverseRecOn generalizing n' log with
  | nil =>
    obtain ⟨rfl, rfl⟩ := Prod.mk.inj (Option.some.inj h.after)
    exact ⟨rfl, ⟨fun r hr => .start (hasRecord_iff.2 (.inr (.inl hr))),
      fun r hr => .start (hasRecord_iff.2 (.inr (.inr hr)))⟩, fun _ _ hmem => nomatch hmem⟩
  | append_singleton calls call ih =>
    obtain ⟨m, log', sent, hran, hrun, rfl, hsound, hk⟩ := h.init
    exact (ih hran).run hran hsound hk hrun

/-- A packet of the server goes to an address that a datagram came from. -/
theorem Ran.served (h : n.Ran calls n' log) {reply : Reply} (hreply : .reply reply ∈ log) :
    ∃ bytes, .serve bytes reply.dest ∈ calls := by
  induction calls using List.reverseRecOn generalizing n' log with
  | nil =>
    obtain ⟨-, rfl⟩ := Prod.mk.inj (Option.some.inj h.after)
    cases hreply
  | append_singleton calls call ih =>
    obtain ⟨m, log', sent, hran, hrun, rfl, -⟩ := h.init
    rcases List.mem_append.1 hreply with hreply | hreply
    · obtain ⟨bytes, hserve⟩ := ih hran hreply
      exact ⟨bytes, List.mem_append_left _ hserve⟩
    · rw [Option.mem_toList.1 hreply] at hrun
      obtain ⟨bytes, rfl⟩ := NodeCall.of_reply hrun
      exact ⟨bytes, List.mem_append_right _ List.mem_cons_self⟩

/-- **Contacts.** In every run, whatever datagrams come in: every server that the node has a record
of, and every server that it has sent a request to, is at the end of a chain of answers that the
node accepted, each of them from a server that it had sent a request to; the first server of the
chain was known at the start. Every packet of the node goes to the address of such a server, or to
one that a datagram came from. -/
theorem Ran.learned (h : n.Ran calls n' log) :
    (∀ serv, n'.config.HasRecord serv → n.Learned calls (endpoint serv)) ∧
    (∀ request bytes, Sent.request request bytes ∈ log →
      n.Learned calls (endpoint request.record)) ∧
    ∀ sent ∈ log, (∃ serv, n.Learned calls (endpoint serv) ∧ sent.dest = connectServer serv) ∨
      ∃ bytes, .serve bytes sent.dest ∈ calls := by
  refine ⟨fun _ => h.chained.of_hasRecord, h.chained.asked, fun sent hsent => ?_⟩
  cases sent with
  | request request bytes =>
    exact .inl ⟨request.record, h.chained.asked request bytes hsent, rfl⟩
  | reply reply => exact .inr (h.served hsent)

/-- A node that is told of another server. -/
theorem Ran.learned_example :
    let calls := [NodeCall.sendRequest true true,
      .receiveResponse (requestCalls (.datagram [0, 14, 2, 1, 0, 10, 4, 1, 10, 0, 0, 9, 31, 144]))]
    ∃ n' log, sampleNode.Ran calls n' log ∧ ∃ serv, n'.config.HasRecord serv ∧
      endpoint serv = (.ip4 #v[10, 0, 0, 9], 8080) ∧
      sampleNode.Learned calls (.ip4 #v[10, 0, 0, 9], 8080) := by
  intro calls
  obtain ⟨n', log, hran, hknown⟩ := exists_ran_sampleNode calls
    (fun s => s.1.config.probationaryServers.map endpoint) [(.ip4 #v[10, 0, 0, 9], 8080)]
    (by decide) (by decide)
  have hmem : (Host.ip4 #v[10, 0, 0, 9], (8080 : UInt16)) ∈
      n'.config.probationaryServers.map endpoint := hknown ▸ List.mem_singleton.2 rfl
  obtain ⟨serv, hserv, hendpoint⟩ := List.mem_map.1 hmem
  have hrecord : n'.config.HasRecord serv := hasRecord_iff.2 (.inr (.inr hserv))
  exact ⟨n', log, hran, serv, hrecord, hendpoint, hendpoint ▸ hran.learned.1 serv hrecord⟩

end Node

end Nrpd
