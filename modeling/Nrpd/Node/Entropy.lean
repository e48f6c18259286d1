import Nrpd.Client.Scrambling
import Nrpd.Node.Servers
import Nrpd.Node.Service
import Nrpd.Round

/-!
# Where the entropy of a node comes from

The client of a node writes to its random device. Over whole runs, what is written are the entropy
messages of the answers that were accepted, one block for each, in which bytes were zeroed, and at
most one reading of the clock behind those of an answer; nothing else of what is received gets
there. The entropy of the packets that a server sends is read from its own random device.

## Main definitions

* `Masked`: entropy of which bytes were zeroed.
* `SystemCalls.timeEntropy`: what a turn adds from its two time points.
* `Node.Pours`, `Node.Poured`: the blocks that a call writes, and those of a run.
* `Node.Accepted`: an answer that was accepted in a run.

## Main results

* `Node.pours_of_run`: what a call writes.
* `Node.Ran.poured`: what a node has written.
* `Node.Ran.tells_entropy`: what the packets of a node contain.
-/

namespace Nrpd

open NrpdConfig

/-! ### Blocks -/

/-- Entropy of which bytes were zeroed. -/
def Masked (data block : List UInt8) : Prop :=
  List.Forall₂ (fun byte kept => kept = byte ∨ kept = 0) data block

theorem Masked.refl (data : List UInt8) : Masked data data := by
  induction data with
  | nil => exact .nil
  | cons byte data ih => exact .cons (.inl rfl) ih

theorem masked_maskEntropy (secret : Mem) (data : List UInt8) :
    Masked data (maskEntropy secret data) := by
  refine List.forall₂_iff_get.2 ⟨(length_maskEntropy secret data).symm, fun i hi hi' => ?_⟩
  have hbit := mul_shiftRight_and_one (data.get ⟨i, hi⟩) (secret (i / 8)) (Nat.mod_lt i (by decide))
  simp only [maskEntropy, List.get_eq_getElem, List.getElem_mapIdx] at hbit ⊢
  rw [hbit]
  split_ifs
  · exact .inl rfl
  · exact .inr rfl

theorem exists_of_mem_masked {entropies masked : List (List UInt8)} {block : List UInt8}
    (h : List.Forall₂ Masked entropies masked) (hblock : block ∈ masked) :
    ∃ data ∈ entropies, Masked data block := by
  induction h with
  | nil => cases hblock
  | cons hfirst _ ih =>
    rcases List.mem_cons.1 hblock with rfl | hblock
    · exact ⟨_, List.mem_cons_self, hfirst⟩
    · obtain ⟨data, hdata, hmasked⟩ := ih hblock
      exact ⟨data, List.mem_cons_of_mem _ hdata, hmasked⟩

/-- The block of the two time points of a turn, unless their difference shows a clock of a low
resolution. -/
def SystemCalls.timeEntropy (system : SystemCalls) : List (List UInt8) :=
  if (system.secondTimePoint - system.firstTimePoint) % 10000 ≠ 0 then
    [int64Bytes (system.firstTimePoint ^^^ system.secondTimePoint)]
  else []

theorem written_addTimeEntropy (s : ClientState) (system : SystemCalls) :
    (s.addTimeEntropy system).sink.written = s.sink.written ++ system.timeEntropy := by
  rw [ClientState.addTimeEntropy, SystemCalls.timeEntropy]
  split_ifs
  · rfl
  · exact (List.append_nil _).symm

/-! ### The client -/

/-- **One message.** Only an entropy message writes something. -/
theorem written_take (s : Intake) (ref : ServerRef) (msg : ResponseMessage) :
    ∃ masked, (s.take ref msg).sink.written = s.sink.written ++ masked ∧
      List.Forall₂ Masked msg.entropy?.toList masked := by
  have hpeers (enabled : Bool) :
      (s.takePeers enabled msg.servers).sink.written = s.sink.written ++ [] := by
    rw [List.append_nil]
    cases enabled <;> rfl
  cases msg with
  | entropy data =>
    refine ⟨_, rfl, .cons ?_ .nil⟩
    split_ifs
    · exact .refl data
    · exact masked_maskEntropy _ data
  | ip4peers peers => exact ⟨[], hpeers _, .nil⟩
  | ip6peers peers => exact ⟨[], hpeers _, .nil⟩
  | reject entries => exact ⟨[], (List.append_nil _).symm, .nil⟩

/-- **Messages.** Each entropy message writes one block. -/
theorem written_foldl_take (ref : ServerRef) (msgs : List ResponseMessage) (s : Intake) :
    ∃ masked, (msgs.foldl (Intake.take ref) s).sink.written = s.sink.written ++ masked ∧
      List.Forall₂ Masked (msgs.filterMap ResponseMessage.entropy?) masked := by
  induction msgs generalizing s with
  | nil => exact ⟨[], (List.append_nil _).symm, .nil⟩
  | cons msg msgs ih =>
    obtain ⟨first, hfirst, hmasked⟩ := written_take s ref msg
    obtain ⟨rest, hrest, hmaskedRest⟩ := ih (s.take ref msg)
    refine ⟨first ++ rest, ?_, ?_⟩
    · rw [List.foldl_cons, hrest, hfirst, List.append_assoc]
    · rw [List.filterMap_eq_flatMap_toList, List.flatMap_cons, ← List.filterMap_eq_flatMap_toList]
      exact List.rel_append hmasked hmaskedRest

theorem sink_reportFailure {s : ClientState} {ref : ServerRef}
    {reported : ClientState × (ServerRef → List ServerRef)}
    (h : s.reportFailure ref = some reported) : reported.1.sink = s.sink := by
  obtain ⟨counted, -, h⟩ := Option.bind_eq_some_iff.1 h
  obtain rfl := Option.some.inj h
  rfl

namespace Node

variable {n n' : Node} {calls : List NodeCall} {log : List Sent} {call : NodeCall}
  {sent : Option Sent}

/-- The blocks that a call writes to the random device: one for each entropy message of an answer
that is accepted, and one for the time points of its turn; any other call writes nothing. -/
inductive Pours (n : Node) (call : NodeCall) : List (List UInt8) → Prop
  | accepted {system : SystemCalls} {packet : Mem} {os : List ℕ} {masked : List (List UInt8)}
      (hcall : call = .receiveResponse system) (hhears : n.Hears system packet os)
      (hmasked : List.Forall₂ Masked
        ((messagesAt packet os).filterMap ResponseMessage.entropy?) masked) :
      Pours n call (masked ++ system.timeEntropy)
  | other (h : ∀ system packet os, call = .receiveResponse system → ¬ n.Hears system packet os) :
      Pours n call []

/-- A call that accepts no answer leaves the device as it is. -/
theorem exists_pours_of_other {sink : RandomSink} (hsink : sink = n.client.sink)
    (hother : ∀ system packet os, call = .receiveResponse system → ¬ n.Hears system packet os) :
    ∃ blocks, sink.written = n.client.sink.written ++ blocks ∧ n.Pours call blocks :=
  ⟨[], by rw [hsink, List.append_nil], .other hother⟩

/-- **The client.** It writes the entropy of an answer that it accepts, and the time. -/
theorem pours_receiveResponse {ref : ServerRef} {system : SystemCalls}
    {received : ClientState × (ServerRef → List ServerRef)}
    (h : n.client.receiveResponse ref system = some received) :
    ∃ blocks, received.1.sink.written = n.client.sink.written ++ blocks ∧
      n.Pours (.receiveResponse system) blocks := by
  have hnothing (hsink : received.1.sink = n.client.sink)
      (hother : ∀ packet os, ¬ n.Hears system packet os) :
      ∃ blocks, received.1.sink.written = n.client.sink.written ++ blocks ∧
        n.Pours (.receiveResponse system) blocks := by
    refine exists_pours_of_other hsink fun system' packet os heq => ?_
    obtain rfl := NodeCall.receiveResponse.inj heq
    exact hother packet os
  rw [ClientState.receiveResponse] at h
  cases hreceived : system.received with
  | timedOut =>
    rw [hreceived] at h
    refine hnothing (sink_reportFailure h) ?_
    rintro packet os ⟨bytes, hdatagram, -⟩
    rw [hreceived] at hdatagram
    cases hdatagram
  | failed =>
    rw [hreceived] at h
    obtain rfl := Option.some.inj h
    refine hnothing rfl ?_
    rintro packet os ⟨bytes, hdatagram, -⟩
    rw [hreceived] at hdatagram
    cases hdatagram
  | datagram bytes =>
    rw [hreceived] at h
    obtain ⟨valid, hvalid, h⟩ := Option.bind_eq_some_iff.1 h
    cases valid with
    | false =>
      rw [if_neg Bool.false_ne_true] at h
      refine hnothing ((sink_reportFailure h).trans rfl) ?_
      rintro packet os ⟨bytes', hdatagram, rfl, hos⟩
      obtain rfl := Received.datagram.inj (hreceived.symm.trans hdatagram)
      rw [validateResponsePacket_iff.2 ⟨os, hos⟩] at hvalid
      cases hvalid
    | true =>
      rw [if_pos rfl] at h
      obtain ⟨parsed, hparsed, h⟩ := Option.bind_eq_some_iff.1 h
      obtain ⟨reported, hreported, h⟩ := Option.bind_eq_some_iff.1 h
      obtain ⟨marked, -, hreported⟩ := Option.bind_eq_some_iff.1 hreported
      obtain rfl := Option.some.inj hreported
      obtain rfl := Option.some.inj h
      obtain ⟨os, hos⟩ := validateResponsePacket_iff.1 hvalid
      obtain ⟨parsed', hparsed', htaken⟩ := parseResponse_eq_take hos ref
      obtain rfl := Option.some.inj (hparsed.symm.trans hparsed')
      obtain ⟨masked, hwritten, hmasked⟩ :=
        written_foldl_take ref (messagesAt _ os) n.client.intake
      have hsink : parsed.sink.written = n.client.sink.written ++ masked :=
        (congrArg (fun s : Intake => s.sink.written) htaken).trans hwritten
      refine ⟨masked ++ system.timeEntropy, ?_, .accepted rfl ⟨bytes, hreceived, rfl, hos⟩ hmasked⟩
      rw [written_addTimeEntropy, ← List.append_assoc]
      exact congrArg (· ++ system.timeEntropy) hsink

/-- **One call.** Nothing is written but by a client that comes back from `recv`. -/
theorem pours_of_run (hrun : call.run n = some (n', sent)) :
    ∃ blocks, n'.client.sink.written = n.client.sink.written ++ blocks ∧ n.Pours call blocks := by
  have hnothing (hsink : n'.client.sink = n.client.sink)
      (hother : ∀ system, call ≠ .receiveResponse system) :
      ∃ blocks, n'.client.sink.written = n.client.sink.written ++ blocks ∧
        n.Pours call blocks :=
    exists_pours_of_other hsink fun system _ _ heq => absurd heq (hother system)
  cases call with
  | serve bytes srcAddr =>
    obtain ⟨⟨server, clock, rfl⟩, -⟩ := NodeCall.of_serve hrun
    exact hnothing rfl fun _ => NodeCall.noConfusion
  | sendRequest connected sent' =>
    obtain ⟨-, asked, hsend, rfl, -⟩ := NodeCall.of_sendRequest hrun
    obtain ⟨_, _, -, -, -, -, hsink, -⟩ := ClientState.of_sendRequest hsend
    exact hnothing hsink fun _ => NodeCall.noConfusion
  | receiveResponse system =>
    obtain ⟨ref, received, -, hreceived, rfl, -⟩ := NodeCall.of_receiveResponse hrun
    exact pours_receiveResponse hreceived
  | cleanRecentClients =>
    obtain ⟨rfl, -⟩ := Prod.mk.inj (Option.some.inj hrun)
    exact hnothing rfl fun _ => NodeCall.noConfusion
  | cleanBannedServers =>
    obtain ⟨rfl, -⟩ := Prod.mk.inj (Option.some.inj hrun)
    exact hnothing rfl fun _ => NodeCall.noConfusion

/-! ### Runs -/

/-- The blocks that are written in a run, call by call. -/
inductive Poured (n : Node) : List NodeCall → List (List UInt8) → Prop
  | start : Poured n [] []
  | call {calls : List NodeCall} {blocks more : List (List UInt8)} {call : NodeCall} {m : Node}
      {log : List Sent} (h : Poured n calls blocks) (hran : n.Ran calls m log)
      (hpours : m.Pours call more) : Poured n (calls ++ [call]) (blocks ++ more)

/-- In a run, the node accepted an answer. -/
def Accepted (n : Node) (calls : List NodeCall) (system : SystemCalls) (packet : Mem)
    (os : List ℕ) : Prop :=
  ∃ before after waiting log, calls = before ++ .receiveResponse system :: after ∧
    n.Ran before waiting log ∧ waiting.Hears system packet os

theorem Accepted.append {system : SystemCalls} {packet : Mem} {os : List ℕ}
    (h : n.Accepted calls system packet os) (more : List NodeCall) :
    n.Accepted (calls ++ more) system packet os := by
  obtain ⟨before, after, waiting, log, rfl, hrest⟩ := h
  exact ⟨before, after ++ more, waiting, log, by rw [List.append_assoc, List.cons_append], hrest⟩

theorem Accepted.of_append_singleton {system : SystemCalls} {packet : Mem} {os : List ℕ}
    (h : n.Accepted (calls ++ [call]) system packet os) :
    n.Accepted calls system packet os ∨
      call = .receiveResponse system ∧ ∃ m log, n.Ran calls m log ∧ m.Hears system packet os := by
  obtain ⟨before, after, waiting, log, hcalls, hran, hhears⟩ := h
  cases after using List.reverseRecOn with
  | nil =>
    obtain ⟨rfl, hlast⟩ := List.append_inj' hcalls rfl
    exact .inr ⟨List.singleton_inj.1 hlast, waiting, log, hran, hhears⟩
  | append_singleton after last =>
    rw [← List.cons_append, ← List.append_assoc] at hcalls
    exact .inl ⟨before, after, waiting, log, (List.append_inj' hcalls rfl).1, hran, hhears⟩

/-- In a run, the node accepted an answer with an entropy message. -/
def HeardEntropy (n : Node) (calls : List NodeCall) (data : List UInt8) : Prop :=
  ∃ system packet os, n.Accepted calls system packet os ∧ .entropy data ∈ messagesAt packet os

/-- In a run, the node accepted an answer in a turn whose time points give the block. -/
def HeardTime (n : Node) (calls : List NodeCall) (block : List UInt8) : Prop :=
  ∃ system packet os, n.Accepted calls system packet os ∧ block ∈ system.timeEntropy

/-- Every block of a run has one of two sources. -/
theorem Poured.source {blocks : List (List UInt8)} {block : List UInt8} (h : n.Poured calls blocks)
    (hblock : block ∈ blocks) :
    n.HeardTime calls block ∨ ∃ data, n.HeardEntropy calls data ∧ Masked data block := by
  induction h with
  | start => cases hblock
  | @call calls blocks more call m log _ hran hpours ih =>
    rcases List.mem_append.1 hblock with hblock | hblock
    · rcases ih hblock with ⟨system, packet, os, haccepted, htime⟩ | ⟨data, hheard, hmasked⟩
      · exact .inl ⟨system, packet, os, haccepted.append _, htime⟩
      · obtain ⟨system, packet, os, haccepted, hdata⟩ := hheard
        exact .inr ⟨data, ⟨system, packet, os, haccepted.append _, hdata⟩, hmasked⟩
    cases hpours with
    | other _ => cases hblock
    | @accepted system packet os masked hcall hhears hmasked =>
      have haccepted : n.Accepted (calls ++ [call]) system packet os :=
        ⟨calls, [], m, log, by rw [hcall], hran, hhears⟩
      rcases List.mem_append.1 hblock with hblock | hblock
      · obtain ⟨data, hdata, hkept⟩ := exists_of_mem_masked hmasked hblock
        obtain ⟨msg, hmsg, hentropy⟩ := List.mem_filterMap.1 hdata
        cases msg with
        | entropy data' =>
          obtain rfl := Option.some.inj hentropy
          exact .inr ⟨_, ⟨system, packet, os, haccepted, hmsg⟩, hkept⟩
        | _ => cases hentropy
      · exact .inl ⟨system, packet, os, haccepted, hblock⟩

/-- What a run writes. -/
theorem Ran.exists_poured (h : n.Ran calls n' log) :
    ∃ blocks, n'.client.sink.written = n.client.sink.written ++ blocks ∧
      n.Poured calls blocks := by
  induction calls using List.reverseRecOn generalizing n' log with
  | nil =>
    obtain ⟨rfl, -⟩ := Prod.mk.inj (Option.some.inj h.after)
    exact ⟨[], (List.append_nil _).symm, .start⟩
  | append_singleton calls call ih =>
    obtain ⟨m, log', sent, hran, hrun, -⟩ := h.init
    obtain ⟨blocks, hwritten, hpoured⟩ := ih hran
    obtain ⟨more, hmore, hpours⟩ := pours_of_run hrun
    exact ⟨blocks ++ more, by rw [hmore, hwritten, List.append_assoc], hpoured.call hran hpours⟩

/-- **The random device.** In every run the client writes, for each answer that it accepts, its
entropy messages in their order with every byte kept or zeroed, and behind them at most one block
of the time points of the turn. So each block that is written is of one of these two kinds. -/
theorem Ran.poured (h : n.Ran calls n' log) :
    ∃ blocks, n'.client.sink.written = n.client.sink.written ++ blocks ∧ n.Poured calls blocks ∧
      ∀ block ∈ blocks,
        n.HeardTime calls block ∨ ∃ data, n.HeardEntropy calls data ∧ Masked data block := by
  obtain ⟨blocks, hwritten, hpoured⟩ := h.exists_poured
  exact ⟨blocks, hwritten, hpoured, fun block hblock => hpoured.source hblock⟩

/-- A node that wrote the entropy of its server and the time, and nothing of a packet that it did
not accept. -/
theorem Ran.poured_example :
    let calls := [NodeCall.sendRequest true true,
      .receiveResponse { requestCalls (.datagram [0, 9, 2, 1, 0, 5, 5, 1, 7]) with
        firstTimePoint := 5, secondTimePoint := 6 },
      .sendRequest true true, .receiveResponse (requestCalls (.datagram [0, 9, 2, 1, 0]))]
    ∃ n' log, sampleNode.Ran calls n' log ∧
      n'.client.sink.written = [[7], [3, 0, 0, 0, 0, 0, 0, 0]] ∧
      sampleNode.Poured calls n'.client.sink.written := by
  intro calls
  obtain ⟨n', log, hran, hwritten⟩ := exists_ran_sampleNode calls (·.1.client.sink.written)
    [[7], [3, 0, 0, 0, 0, 0, 0, 0]] (by decide) (by decide)
  obtain ⟨blocks, hblocks, hpoured, -⟩ := hran.poured
  rw [show sampleNode.client.sink.written = [] from rfl, List.nil_append] at hblocks
  exact ⟨n', log, hran, hwritten, hblocks ▸ hpoured⟩

/-! ### The server -/

/-- Entropy that is read from a device. -/
def ReadFrom (device : RandomDevice) (data : List UInt8) : Prop :=
  ∃ read size, data = (device.skip read).delivered size

/-- **One call.** The random device of a node is read further. -/
theorem random_of_run (hsound : n.Sound k) (hk : k + call.receives < 67108864)
    (hrun : call.run n = some (n', sent)) : ∃ reads, n'.random = n.random.skip reads := by
  by_cases hserve : ∃ bytes srcAddr, call = .serve bytes srcAddr
  · obtain ⟨bytes, srcAddr, rfl⟩ := hserve
    have hserves := serves_of_run hsound.counts (hsound.few.trans_lt (by omega)) hrun
    cases hserves with
    | malformed => exact ⟨0, rfl⟩
    | tooSoon => exact ⟨0, rfl⟩
    | @answered os => exact (Responder.supplies_respond _ _ _ _).exists_skip
  · have hapart := apart_of_run hrun fun bytes srcAddr heq => hserve ⟨bytes, srcAddr, heq⟩
    exact ⟨0, hapart.random⟩

/-- The entropy of an answer is read from the random device. -/
theorem readFrom_of_mem_answer {buffer : Mem} {srcAddr : SockaddrStorage} {os : List ℕ}
    {data : List UInt8} (hmsg : .entropy data ∈ (n.answer buffer srcAddr os).1) :
    ReadFrom n.random data := by
  have hmem : data ∈ (n.answer buffer srcAddr os).1.filterMap ResponseMessage.entropy? :=
    List.mem_filterMap.2 ⟨_, hmsg, rfl⟩
  exact (Responder.supplies_respond _ _ _ _).exists_read_of_mem hmem

/-- **Packets.** The entropy of the packets that a node sends is read from its random device. -/
theorem Ran.tells_entropy (h : n.Ran calls n' log) : ∀ reply ∈ replies log,
    Tells (fun msg => ∀ data, msg = .entropy data → ReadFrom n.random data) reply.bytes := by
  set Q : ResponseMessage → Prop := fun msg => ∀ data, msg = .entropy data → ReadFrom n.random data
  have hall : (∃ reads, n'.random = n.random.skip reads) ∧
      ∀ reply ∈ replies log, Tells Q reply.bytes := by
    refine h.invariant (P := fun s => (∃ reads, s.1.random = n.random.skip reads) ∧
      ∀ reply ∈ replies s.2, Tells Q reply.bytes) ⟨⟨0, rfl⟩, fun _ hreply => nomatch hreply⟩ ?_
    intro k call m m' log sent hsound hk ⟨⟨reads, hreads⟩, htells⟩ hrun
    obtain ⟨more, hmore⟩ := random_of_run hsound hk hrun
    refine ⟨⟨reads + more, ?_⟩, fun reply hreply => ?_⟩
    · rw [hmore, hreads, RandomDevice.skip_skip]
    rw [replies_append] at hreply
    rcases List.mem_append.1 hreply with hreply | hreply
    · exact htells reply hreply
    refine tells_of_run (fun bytes srcAddr os msg hmsg data hdata => ?_) hsound hk hrun hreply
    obtain ⟨read, size, hread⟩ := readFrom_of_mem_answer (hdata ▸ hmsg)
    exact ⟨reads + read, size, by rw [hread, hreads, RandomDevice.skip_skip]⟩
  exact hall.2

end Node

end Nrpd
