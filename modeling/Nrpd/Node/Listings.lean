import Nrpd.Node.Contacts
import Nrpd.Node.Entropy

/-!
# Whom a node lists

The server of a node lists active servers, and a server becomes active when it answers the client.
So a node passes on only what it has heard from, whatever datagrams come in. The node that `main`
starts has no servers: nobody reads a configuration file, and the list in the constructor is
commented out. Its first `GetNextServer` reads the front of an empty list; until then the lists stay
empty, and no packet lists a server. What the program does behind that call is left out.

## Main definitions

* `Node.main`: the node that is started.

## Main results

* `Node.Ran.listed_answered`: the servers in the packets of a node.
* `Node.main_alone`: the runs of the program as it is started, up to its first `GetNextServer`.
-/

namespace Nrpd

open NrpdConfig

namespace Node

variable {n n' : Node} {calls : List NodeCall} {log : List Sent}

/-! ### Packets -/

/-- The packets of a node list servers that have answered, or were active at the start. -/
theorem Ran.tells_answered (h : n.Ran calls n' log) : ∀ reply ∈ replies log,
    Tells (fun msg => ∀ e ∈ msg.servers,
      (∃ r₀ ∈ n.config.activeServers.elems, endpoint r₀ = e) ∨ n.AnsweredBy calls e)
      reply.bytes := by
  induction calls using List.reverseRecOn generalizing n' log with
  | nil =>
    obtain ⟨-, rfl⟩ := Prod.mk.inj (Option.some.inj h.after)
    exact fun reply hreply => absurd hreply List.not_mem_nil
  | append_singleton calls call ih =>
    obtain ⟨m, log', sent, hran, hrun, rfl, hsound, hk⟩ := h.init
    have hgrow : ∀ e, ((∃ r₀ ∈ n.config.activeServers.elems, endpoint r₀ = e) ∨
        n.AnsweredBy calls e) → (∃ r₀ ∈ n.config.activeServers.elems, endpoint r₀ = e) ∨
        n.AnsweredBy (calls ++ [call]) e := fun e he => he.imp_right (·.append [call])
    intro reply hreply
    rw [replies_append] at hreply
    have hbefore : Tells (fun msg => ∀ e ∈ msg.servers,
        (∃ r₀ ∈ n.config.activeServers.elems, endpoint r₀ = e) ∨ n.AnsweredBy calls e)
        reply.bytes := by
      rcases List.mem_append.1 hreply with hreply | hreply
      · exact ih hran reply hreply
      · exact tells_of_run
          (fun _ _ _ _ hmsg => servers_of_mem_answer hran.endpointsAnswered.active hmsg)
          hsound hk hrun hreply
    exact hbefore.mono fun msg hmsg e he => hgrow e (hmsg e he)

/-- **Packets.** In every run, whatever datagrams come in: every server that a reader finds in a
packet of the node, whatever else is in its buffer, was active at the start, or the node sent a
request to its endpoint and accepted an answer while it waited for it. -/
theorem Ran.listed_answered (h : n.Ran calls n' log) {reply : Reply} (hreply : reply ∈ replies log)
    {m : Mem} {os : List ℕ} (hpkt : IsResponsePacket (m.write 0 reply.bytes) os) :
    ∀ msg ∈ messagesAt (m.write 0 reply.bytes) os, ∀ e ∈ msg.servers,
      (∃ r₀ ∈ n.config.activeServers.elems, endpoint r₀ = e) ∨ n.AnsweredBy calls e := by
  have htells := h.tells_answered reply hreply
  have hshort := htells.length_le
  rw [← List.take_of_length_le hshort] at hpkt ⊢
  exact htells.heard hpkt

/-- A node that has been asked for peers, and whose server has answered then, lists it. -/
theorem Ran.listed_answered_example :
    let calls := [NodeCall.serve peersRequestBytes (.inet #v[10, 0, 0, 9] 4000),
      .sendRequest true true,
      .receiveResponse (requestCalls (.datagram [0, 9, 2, 1, 0, 5, 5, 1, 7])),
      .serve peersRequestBytes (.inet #v[10, 0, 0, 10] 4000)]
    ∃ n' log reply msg, sampleNode.Ran calls n' log ∧ reply ∈ replies log ∧
      msg ∈ messagesAt (Mem.zero.write 0 reply.bytes) [4, 16] ∧
      (.ip4 #v[10, 0, 0, 1], 8080) ∈ msg.servers ∧
      sampleNode.AnsweredBy calls (.ip4 #v[10, 0, 0, 1], 8080) := by
  intro calls
  set packet : List UInt8 := [0, 26, 2, 2, 0, 12, 5, 8, 7, 7, 7, 7, 7, 7, 7, 7, 0, 10, 4, 1, 10, 0,
    0, 1, 31, 144]
  obtain ⟨n', log, hran, hsent⟩ := exists_ran_sampleNode calls
    (fun s => ((replies s.2).map Reply.bytes).drop 1) [packet] (by decide) (by decide)
  have hmem : packet ∈ (replies log).map Reply.bytes :=
    List.mem_of_mem_drop (hsent ▸ List.mem_singleton.2 rfl : packet ∈ List.drop 1 _)
  obtain ⟨reply, hreply, hbytes⟩ := List.mem_map.1 hmem
  have hpkt : IsResponsePacket (Mem.zero.write 0 packet) [4, 16] := by
    refine ⟨by decide, by decide, by decide, by decide,
      .cons (by decide) (.cons (by decide) (.nil 26)), fun o ho => ?_⟩
    rcases List.mem_pair.1 ho with rfl | rfl
    · exact .entropy (by decide) (by decide)
    · exact .ip4peers (by decide) (by decide)
  have hlists : ∃ msg ∈ messagesAt (Mem.zero.write 0 packet) [4, 16],
      (Host.ip4 #v[10, 0, 0, 1], (8080 : UInt16)) ∈ msg.servers := by decide
  obtain ⟨msg, hmsg, he⟩ := hlists
  rw [← hbytes] at hpkt hmsg
  refine ⟨n', log, reply, msg, hran, hreply, hmsg, he, ?_⟩
  rcases hran.listed_answered hreply hpkt msg hmsg _ he with ⟨r₀, hr₀, -⟩ | hanswered
  · cases hr₀
  · exact hanswered

/-! ### Nodes that know nobody -/

/-- Nothing is learned without a server to ask. -/
theorem not_learned (hnone : ∀ serv, ¬ n.config.HasRecord serv) (e : Host × UInt16) :
    ¬ n.Learned calls e := fun h => by
  induction h with
  | start hserv => exact hnone _ hserv
  | told _ _ _ _ ih => exact ih

theorem not_answeredBy (hnone : ∀ serv, ¬ n.config.HasRecord serv) (e : Host × UInt16) :
    ¬ n.AnsweredBy calls e := by
  rintro ⟨packet, os, before, system, after, waiting, log, ref, serv, request, bytes, rfl, hran,
    -, -, -, -, hsent, -⟩
  exact not_learned hnone _ (hran.chained.asked request bytes hsent)

/-- The node that `main` starts, when no system call fails: the client with its devices and its
memory, and the flags that the constructor of the configuration leaves as they are in memory. -/
def main (client : ClientState) (enableIp4Peers enableIp6Peers : Bool) (random : RandomDevice) :
    Node :=
  let config := NrpdConfig.new enableIp4Peers enableIp6Peers client.clock
  let server := initializeServer config.1 random config.2
  { client := { client with config := config.1, clock := server.2 }
    recentClients := server.1.recentClients
    random := server.1.random
    mtu := server.1.mtu
    asked := none }

section Main

variable {client : ClientState} {enableIp4Peers enableIp6Peers : Bool} {random : RandomDevice}

theorem atStart_main : (main client enableIp4Peers enableIp6Peers random).AtStart where
  client := ⟨(fun _ hr => nomatch hr), (fun _ hr => nomatch hr), rfl, rfl, rfl⟩
  counts ipv6 := by cases ipv6 <;> rfl
  asked := rfl
  recentClients _ := rfl
  lifetimeSeconds := rfl

theorem not_hasRecord_main (serv : ServerRecord) :
    ¬ (main client enableIp4Peers enableIp6Peers random).config.HasRecord serv := fun h => by
  rcases hasRecord_iff.1 h with hmem | hmem | hmem <;> cases hmem

/-- **The program.** In every run of the program as `main` starts it, up to the first
`GetNextServer` of its client, and whatever datagrams come in: the lists of servers are empty, no
packet of the server lists one, and this `GetNextServer` has no result, since it reads the front of
the empty list of configured servers. -/
theorem main_alone (h : (main client enableIp4Peers enableIp6Peers random).Ran calls n' log) :
    (∀ serv, ¬ n'.config.HasRecord serv) ∧
    (∀ reply ∈ replies log, Tells (fun msg => msg.servers = []) reply.bytes) ∧
    n'.config.getNextServer = none := by
  have hnone : ∀ serv, ¬ n'.config.HasRecord serv := fun serv hserv =>
    not_learned not_hasRecord_main _ (h.chained.of_hasRecord hserv)
  refine ⟨hnone, fun reply hreply => ?_, ?_⟩
  · refine (h.tells_answered reply hreply).mono fun msg hmsg => ?_
    refine List.eq_nil_iff_forall_not_mem.2 fun e he => ?_
    rcases hmsg e he with ⟨r₀, hr₀, -⟩ | hanswered
    · exact not_hasRecord_main r₀ (hasRecord_iff.2 (.inr (.inl hr₀)))
    · exact not_answeredBy not_hasRecord_main e hanswered
  · have hactive : n'.config.activeServers.elems = [] :=
      List.eq_nil_iff_forall_not_mem.2 fun r hr => hnone r (hasRecord_iff.2 (.inr (.inl hr)))
    have hprob : n'.config.probationaryServers = [] :=
      List.eq_nil_iff_forall_not_mem.2 fun r hr => hnone r (hasRecord_iff.2 (.inr (.inr hr)))
    have hconfigured : n'.config.configuredServers = [] :=
      List.eq_nil_iff_forall_not_mem.2 fun r hr => hnone r (hasRecord_iff.2 (.inl hr))
    refine Option.eq_none_iff_forall_ne_some.2 fun ⟨ref, c⟩ hnext => ?_
    obtain ⟨-, hfallback⟩ := atFallback_of_getNextServer hactive hprob hnext
    obtain ⟨_, _, _, -, -, rfl, -⟩ := getNextServer_eq_some hnext
    exact hfallback.configured hconfigured

/-- The program answers a request for peers with entropy alone. -/
theorem main_alone_example :
    let calls := [NodeCall.serve peersRequestBytes (.inet #v[10, 0, 0, 9] 4000)]
    ∃ n' log, (main (newClient Mem.zero) true true steadyDevice).Ran calls n' log ∧
      (replies log).map Reply.bytes = [[0, 16, 2, 1, 0, 12, 5, 8, 7, 7, 7, 7, 7, 7, 7, 7]] ∧
      n'.config.getNextServer = none := by
  intro calls
  have hsent : ((Runs.after NodeCall.log calls
      (main (newClient Mem.zero) true true steadyDevice, [])).map fun s =>
        (replies s.2).map Reply.bytes) =
      some [[0, 16, 2, 1, 0, 12, 5, 8, 7, 7, 7, 7, 7, 7, 7, 7]] := by decide
  obtain ⟨⟨n', log⟩, hafter, hbytes⟩ := Option.map_eq_some_iff.1 hsent
  have hran : (main (newClient Mem.zero) true true steadyDevice).Ran calls n' log :=
    ⟨atStart_main, by decide, hafter⟩
  exact ⟨n', log, hran, hbytes, (main_alone hran).2.2⟩

end Main

end Node

end Nrpd
