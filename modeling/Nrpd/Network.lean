import Nrpd.Lib.Interleaving
import Nrpd.Node.Entropy

/-!
# Nodes that ask each other

Nodes take turns in any order, each of them one step, and what a client receives was sent by the
server of some node before: datagrams are lost, delayed, doubled, and delivered to any client. The
servers receive whatever they are sent. Lists of servers travel from node to node in the answers,
and a node passes on only servers that are active: the servers that a node learns from others were
active at the start somewhere, or have answered somebody.

## Main definitions

* `Network.Delivers`: what a client of a closed network receives.
* `Network.Ran`: the runs of a closed network.
* `Network.Vouched`: the endpoints that some node has reason to pass on.

## Main results

* `Network.Ran.grounded`: what the nodes know and send.
* `Network.Ran.entropy_read`: what they write to their random devices.
-/

namespace Nrpd

open Interleaving NrpdConfig

/-- The nodes of a network, each with what it sent. -/
abbrev Network (ι : Type*) := ι → Node × List Sent

namespace Network

variable {ι : Type*}

/-- A client receives packets only that a server of the network has sent. -/
def Delivers (s : Network ι) (call : ι × NodeCall) : Prop :=
  ∀ system bytes, call.2 = .receiveResponse system → system.received = .datagram bytes →
    ∃ j, ∃ reply ∈ replies (s j).2, reply.bytes = bytes

/-- The endpoints that some node has reason to pass on: it had the server among its active ones at
the start, or it sent a request there and accepted an answer. -/
def Vouched [DecidableEq ι] (first : ι → Node) (calls : List (ι × NodeCall)) (e : Host × UInt16) :
    Prop :=
  ∃ i, (∃ r ∈ (first i).config.activeServers.elems, endpoint r = e) ∨
    (first i).AnsweredBy (callsOf i calls) e

/-! ### Runs -/

variable [DecidableEq ι]

/-- The runs of a closed network. -/
structure Ran (first : ι → Node) (calls : List (ι × NodeCall)) (s : Network ι) : Prop where
  start : ∀ i, (first i).AtStart
  few : ∀ i, (first i).config.activeServers.elems.length +
    ((callsOf i calls).map NodeCall.receives).sum < 67108864
  delivers : Runs.AllMeet (step NodeCall.log) Delivers calls fun i => (first i, [])
  after : Runs.after (step NodeCall.log) calls (fun i => (first i, [])) = some s

variable {first : ι → Node} {calls more : List (ι × NodeCall)} {call : ι × NodeCall}
  {s s' : Network ι}

/-- A run of a network is a run of each of its nodes. -/
theorem Ran.node (h : Ran first calls s) (i : ι) :
    (first i).Ran (callsOf i calls) (s i).1 (s i).2 :=
  ⟨h.start i, h.few i, after_callsOf h.after i⟩

/-- A run without its last call. -/
theorem Ran.init (h : Ran first (calls ++ [call]) s') :
    ∃ s, Ran first calls s ∧ Delivers s call ∧ step NodeCall.log s call = some s' := by
  obtain ⟨s, hinit, hstep⟩ := Runs.after_concat h.after
  obtain ⟨hdelivers, hlast⟩ := Runs.allMeet_append h.delivers
  refine ⟨s, ⟨h.start, fun i => ?_, hdelivers, hinit⟩, (hlast s hinit).1, hstep⟩
  have hfew := h.few i
  rw [callsOf_append, List.map_append, List.sum_append] at hfew
  omega

/-- What a node with one server, which is not active, answers. -/
def sampleAnswer : List UInt8 := [0, 16, 2, 1, 0, 12, 5, 8, 7, 7, 7, 7, 7, 7, 7, 7]

/-- One node asks the other, and takes its answer. -/
def sampleCalls : List (Bool × NodeCall) :=
  [(false, .sendRequest true true),
    (true, .serve peersRequestBytes (.inet (.ofFn fun _ => 10) 4000)),
    (false, .receiveResponse (requestCalls (.datagram sampleAnswer)))]

theorem exists_ran_sampleCalls {β : Type*} (f : Network Bool → β) (value : β)
    (h : (Runs.after (step NodeCall.log) sampleCalls fun _ => (sampleNode, [])).map f =
      some value) :
    ∃ s, Ran (fun _ => sampleNode) sampleCalls s ∧ f s = value := by
  obtain ⟨s, hafter, hvalue⟩ := Option.map_eq_some_iff.1 h
  refine ⟨s, ⟨fun _ => atStart_sampleNode, fun i => ?_, ?_, hafter⟩, hvalue⟩
  · cases i <;> decide
  refine ⟨(fun _ _ h => nomatch h), fun s₁ h₁ => ⟨(fun _ _ h => nomatch h), fun s₂ h₂ => ⟨?_,
    fun _ _ => trivial⟩⟩⟩
  rintro system bytes hcall hreceived
  obtain rfl := NodeCall.receiveResponse.inj hcall
  obtain rfl := Received.datagram.inj hreceived
  have htwo : Runs.after (step NodeCall.log) (sampleCalls.take 2) (fun _ => (sampleNode, [])) =
      some s₂ := by
    show ((step NodeCall.log _ _).bind fun s => (step NodeCall.log s _).bind some) = some s₂
    rw [h₁, Option.bind_some, h₂]
    rfl
  have hsent : (Runs.after (step NodeCall.log) (sampleCalls.take 2)
      (fun _ => (sampleNode, []))).map (fun s => (replies (s true).2).map Reply.bytes) =
        some [sampleAnswer] := by decide
  rw [htwo, Option.map_some] at hsent
  have hmem : sampleAnswer ∈ (replies (s₂ true).2).map Reply.bytes :=
    Option.some.inj hsent ▸ List.mem_cons_self
  obtain ⟨reply, hreply, hbytes⟩ := List.mem_map.1 hmem
  exact ⟨true, reply, hreply, hbytes⟩

/-! ### Servers -/

theorem Vouched.append {e : Host × UInt16} (h : Vouched first calls e) :
    Vouched first (calls ++ more) e := by
  obtain ⟨i, h⟩ := h
  refine ⟨i, h.imp_right fun hanswered => ?_⟩
  rw [callsOf_append]
  exact hanswered.append _

/-- What a client of the network knows: the active servers are vouched for, the probationary ones
were known at the start or are vouched for, and so is what the packets list. -/
structure Grounded (first : ι → Node) (calls : List (ι × NodeCall)) (s : Network ι) : Prop where
  lists : ∀ i, (s i).1.config.Endpoints (Vouched first calls) fun e =>
    (∃ r ∈ (first i).config.probationaryServers, endpoint r = e) ∨ Vouched first calls e
  packets : ∀ i, ∀ reply ∈ replies (s i).2,
    Tells (fun msg => ∀ e ∈ msg.servers, Vouched first calls e) reply.bytes

/-- **One call.** -/
theorem Grounded.run (h : Grounded first calls s) (hran : Ran first (calls ++ [call]) s')
    (hs : Ran first calls s) (hdelivers : Delivers s call)
    (hstep : step NodeCall.log s call = some s') : Grounded first (calls ++ [call]) s' := by
  obtain ⟨i, call⟩ := call
  obtain ⟨hown, hothers⟩ := of_step hstep
  obtain ⟨left, hrun, hleft⟩ := Option.map_eq_some_iff.1 hown
  obtain ⟨hstate, hlog⟩ := Prod.ext_iff.1 hleft
  have hgrow : ∀ e, Vouched first calls e → Vouched first (calls ++ [(i, call)]) e :=
    fun e he => he.append
  have hlists (j : ι) := (h.lists j).mono hgrow fun e he => he.imp_right (hgrow e)
  have hpackets (j : ι) (reply : Reply) (hreply : reply ∈ replies (s j).2) :=
    (h.packets j reply hreply).mono fun msg hmsg e he => hgrow e (hmsg e he)
  have hsound := (hs.node i).sound
  have hfew := hran.few i
  rw [callsOf_append, callsOf_cons_self, callsOf_nil, List.map_append, List.sum_append,
    List.map_singleton, List.sum_singleton, ← Nat.add_assoc] at hfew
  refine ⟨fun j => ?_, fun j reply hreply => ?_⟩
  · by_cases hj : j = i
    · subst hj
      rw [← show left.1 = (s' j).1 from hstate]
      refine Node.endpoints_of_run (hlists j) hsound hfew hrun ?_ ?_
      · rintro system packet os ref serv rfl hhears hasked hserv
        refine ⟨j, .inr ?_⟩
        rw [callsOf_append, callsOf_cons_self, callsOf_nil]
        exact ⟨packet, os, Node.answered_of_hears (hs.node j) hhears hasked hserv⟩
      · rintro system packet os rfl ⟨bytes, hreceived, rfl, hpkt⟩ msg hmsg e he
        obtain ⟨k, reply, hreply, rfl⟩ := hdelivers system bytes rfl hreceived
        exact .inr ((hpackets k reply hreply).heard hpkt msg hmsg e he)
    · rw [hothers j hj]
      exact hlists j
  · by_cases hj : j = i
    · subst hj
      rw [← show (s j).2 ++ left.2.toList = (s' j).2 from hlog, replies_append] at hreply
      rcases List.mem_append.1 hreply with hreply | hreply
      · exact hpackets j reply hreply
      exact Node.tells_of_run
        (fun _ _ _ _ hmsg => Node.servers_of_mem_answer (hlists j).active hmsg)
        hsound hfew hrun hreply
    · rw [hothers j hj] at hreply
      exact hpackets j reply hreply

/-- **Gossip.** In every run of a closed network, in whatever order its nodes take turns: a server
that a node has, and did not have at the start, was active at some node at the start, or some node
sent a request to its endpoint and accepted an answer. The same holds of every active server, and of
every server that a client reads in a packet. -/
theorem Ran.grounded (h : Ran first calls s) :
    (∀ i, (s i).1.config.Endpoints (Vouched first calls) fun e =>
      (∃ r ∈ (first i).config.probationaryServers, endpoint r = e) ∨ Vouched first calls e) ∧
    ∀ i, ∀ reply ∈ replies (s i).2, ∀ m os, IsResponsePacket (Mem.write m 0 reply.bytes) os →
      ∀ msg ∈ messagesAt (Mem.write m 0 reply.bytes) os, ∀ e ∈ msg.servers,
        Vouched first calls e := by
  have hgrounded : Grounded first calls s := by
    induction calls using List.reverseRecOn generalizing s with
    | nil =>
      obtain rfl := Option.some.inj h.after
      exact ⟨fun i => ⟨fun r hr => ⟨i, .inl ⟨r, hr, rfl⟩⟩, fun r hr => .inl ⟨r, hr, rfl⟩⟩,
        fun i reply hreply => nomatch hreply⟩
    | append_singleton calls call ih =>
      obtain ⟨t, ht, hdelivers, hstep⟩ := h.init
      exact (ih ht).run h ht hdelivers hstep
  refine ⟨hgrounded.lists, fun i reply hreply m os hpkt => ?_⟩
  have htells := hgrounded.packets i reply hreply
  have hshort := htells.length_le
  rw [← List.take_of_length_le hshort] at hpkt ⊢
  exact htells.heard hpkt

/-- The server of the node that was asked is active behind its answer. -/
theorem Ran.grounded_example : ∃ s, Ran (fun _ => sampleNode) sampleCalls s ∧
    ∃ r ∈ (s false).1.config.activeServers.elems,
      Vouched (fun _ => sampleNode) sampleCalls (endpoint r) := by
  obtain ⟨s, hran, hlength⟩ := exists_ran_sampleCalls
    (fun s => (s false).1.config.activeServers.elems.length) 1 (by decide)
  obtain ⟨r, hr⟩ := List.exists_mem_of_length_pos (Nat.lt_of_lt_of_eq Nat.one_pos hlength.symm)
  exact ⟨s, hran, r, hr, (hran.grounded.1 false).active r hr⟩

/-! ### Entropy -/

/-- What a client accepts is a packet of some node, and its entropy is read from the device there.
-/
theorem Ran.readFrom_of_hears (h : Ran first calls s) {i : ι} {system : SystemCalls} {packet : Mem}
    {os : List ℕ} {data : List UInt8} (hdelivers : Delivers s (i, .receiveResponse system))
    (hhears : (s i).1.Hears system packet os) (hdata : .entropy data ∈ messagesAt packet os) :
    ∃ j, Node.ReadFrom (first j).random data := by
  obtain ⟨bytes, hreceived, rfl, hpkt⟩ := hhears
  obtain ⟨j, reply, hreply, rfl⟩ := hdelivers system bytes rfl hreceived
  exact ⟨j, ((h.node j).tells_entropy reply hreply).heard hpkt _ hdata data rfl⟩

/-- The entropy that a node accepts in a run is read from the device of some node. -/
theorem Ran.readFrom_of_heardEntropy (h : Ran first calls s) {i : ι} {data : List UInt8}
    (hheard : (first i).HeardEntropy (callsOf i calls) data) :
    ∃ j, Node.ReadFrom (first j).random data := by
  induction calls using List.reverseRecOn generalizing s with
  | nil =>
    obtain ⟨system, packet, os, ⟨before, after, waiting, log, hcalls, -⟩, -⟩ := hheard
    rw [callsOf_nil] at hcalls
    exact absurd hcalls.symm (List.append_ne_nil_of_right_ne_nil _ (List.cons_ne_nil _ _))
  | append_singleton calls call ih =>
    obtain ⟨t, ht, hdelivers, -⟩ := h.init
    obtain ⟨j, call⟩ := call
    rw [callsOf_append] at hheard
    by_cases hj : i = j
    · subst hj
      rw [callsOf_cons_self, callsOf_nil] at hheard
      obtain ⟨system, packet, os, haccepted, hdata⟩ := hheard
      rcases haccepted.of_append_singleton with hbefore | ⟨rfl, m, log, hran, hhears⟩
      · exact ih ht ⟨system, packet, os, hbefore, hdata⟩
      · obtain ⟨rfl, -⟩ := Prod.mk.inj (Option.some.inj (hran.after.symm.trans (ht.node i).after))
        exact ht.readFrom_of_hears hdelivers hhears hdata
    · rw [callsOf_cons_of_ne (Ne.symm hj), callsOf_nil, List.append_nil] at hheard
      exact ih ht hheard

/-- **Entropy.** In every run of a closed network, in whatever order its nodes take turns: each
block that a node writes to its random device is of the time points of a turn in which it accepted
an answer, or it is what a server of the network has read from its own device, with each byte kept
or zeroed. -/
theorem Ran.entropy_read (h : Ran first calls s) (i : ι) :
    ∃ blocks, (s i).1.client.sink.written = (first i).client.sink.written ++ blocks ∧
      (first i).Poured (callsOf i calls) blocks ∧
      ∀ block ∈ blocks, (first i).HeardTime (callsOf i calls) block ∨
        ∃ j data, Node.ReadFrom (first j).random data ∧ Masked data block := by
  obtain ⟨blocks, hwritten, hpoured⟩ := (h.node i).exists_poured
  refine ⟨blocks, hwritten, hpoured, fun block hblock => (hpoured.source hblock).imp_right ?_⟩
  rintro ⟨data, hheard, hmasked⟩
  obtain ⟨j, hread⟩ := h.readFrom_of_heardEntropy hheard
  exact ⟨j, data, hread, hmasked⟩

/-- The client wrote what a server had read; the time points of its turn were the same. -/
theorem Ran.entropy_read_example : ∃ s, Ran (fun _ => sampleNode) sampleCalls s ∧
    (s false).1.client.sink.written = [[7, 7, 7, 7, 7, 7, 7, 7]] ∧
    ∃ data, Node.ReadFrom sampleNode.random data ∧ Masked data [7, 7, 7, 7, 7, 7, 7, 7] := by
  obtain ⟨s, hran, hwritten⟩ := exists_ran_sampleCalls (fun s => (s false).1.client.sink.written)
    [[7, 7, 7, 7, 7, 7, 7, 7]] (by decide)
  obtain ⟨blocks, hblocks, -, hsource⟩ := hran.entropy_read false
  rw [show sampleNode.client.sink.written = [] from rfl, List.nil_append, hwritten] at hblocks
  refine ⟨s, hran, hwritten, ?_⟩
  rcases hsource _ (hblocks ▸ List.mem_cons_self) with ⟨system, _, _, haccepted, htime⟩ | hread
  · obtain ⟨before, after, _, _, hcalls, -⟩ := haccepted
    have hmem : NodeCall.receiveResponse system ∈ callsOf false sampleCalls := by
      rw [hcalls]
      exact List.mem_append_right _ List.mem_cons_self
    rw [show callsOf false sampleCalls = [.sendRequest true true,
      .receiveResponse (requestCalls (.datagram sampleAnswer))] from rfl] at hmem
    simp only [List.mem_cons, List.not_mem_nil, reduceCtorEq, false_or, or_false,
      NodeCall.receiveResponse.injEq] at hmem
    subst hmem
    cases htime
  · obtain ⟨_, data, hread, hmasked⟩ := hread
    exact ⟨data, hread, hmasked⟩

end Network

end Nrpd
