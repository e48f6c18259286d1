import Nrpd.Node.Servers

/-!
# The chances of the servers

A server is removed at its fourth failure in a row, so its record has at most four chances left.
The client takes one of them for every failure that it reports. It gives new ones only when it
accepts an answer: four to every server that the answer lists, and to the server that it has asked
those that it had lost. A client whose requests are not answered any more runs out of servers.

## Main definitions

* `ServerRecord.chances`, `NrpdConfig.chances`: the chances of a record, and of all of them.
* `Node.failures`, `Node.granted`: the failures that a call reports, and the chances that it gives.

## Main results

* `Node.chances_of_run`: what a call takes and gives.
* `Node.Ran.failures_bounded`: what the calls of a run take and give.
-/

namespace Nrpd

open NrpdConfig ServerRecord Segments

/-! ### Chances -/

/-- How many failures in a row are left to a server, the one that removes it included. -/
def ServerRecord.chances (r : ServerRecord) : ℕ := max 1 (4 - r.failureCount).toNat

/-- The chances of the records of a list. -/
def chancesOf (l : List ServerRecord) : ℕ := (l.map ServerRecord.chances).sum

/-- The chances of all records. -/
def NrpdConfig.chances (c : NrpdConfig) : ℕ :=
  chancesOf c.configuredServers + chancesOf c.activeServers.elems + chancesOf c.probationaryServers

section Records

variable {r : ServerRecord} {now : ℤ}

theorem ServerRecord.chances_pos (r : ServerRecord) : 1 ≤ r.chances := Nat.le_max_left _ _

theorem ServerRecord.chances_succeeded (now : ℤ) (r : ServerRecord) :
    (succeeded now r).chances = 4 := rfl

/-- A failure takes a chance, and there is one left while the server stays. -/
theorem ServerRecord.chances_failed (hfew : failsOut r = false) :
    (failed now r).chances + 1 = r.chances := by
  have hcount : r.failureCount < 3 := by
    by_contra hmany
    rw [failsOut_iff.2 (by omega)] at hfew
    cases hfew
  have hfailed : (failed now r).failureCount = r.failureCount + 1 := rfl
  rw [ServerRecord.chances, ServerRecord.chances, hfailed]
  omega

theorem ServerRecord.chances_parseRejectMessage (entries : List NrpMessageReject)
    (r : ServerRecord) : (parseRejectMessage entries r).chances = r.chances := by
  have hcount : (parseRejectMessage entries r).failureCount = r.failureCount := by
    induction entries generalizing r with
    | nil => rfl
    | cons rej entries ih =>
      refine (ih (applyReject r rej)).trans ?_
      rw [applyReject]
      split <;> first | rfl | split <;> rfl
  rw [ServerRecord.chances, ServerRecord.chances, hcount]

end Records

section Lists

variable {l : List ServerRecord} {r : ServerRecord} {i : ℕ}

theorem chancesOf_cons (r : ServerRecord) (l : List ServerRecord) :
    chancesOf (r :: l) = r.chances + chancesOf l := by
  rw [chancesOf, List.map_cons, List.sum_cons, chancesOf]

theorem chancesOf_append (l l' : List ServerRecord) :
    chancesOf (l ++ l') = chancesOf l + chancesOf l' := by
  rw [chancesOf, List.map_append, List.sum_append, chancesOf, chancesOf]

theorem chancesOf_perm {l' : List ServerRecord} (h : l.Perm l') : chancesOf l = chancesOf l' :=
  (h.map ServerRecord.chances).sum_eq

theorem length_le_chancesOf (l : List ServerRecord) : l.length ≤ chancesOf l := by
  induction l with
  | nil => exact Nat.zero_le _
  | cons r l ih =>
    have hpos := r.chances_pos
    rw [List.length_cons, chancesOf_cons]
    omega

theorem chancesOf_eraseIdx (h : l[i]? = some r) :
    r.chances + chancesOf (l.eraseIdx i) = chancesOf l := by
  obtain ⟨hi, rfl⟩ := List.getElem?_eq_some_iff.1 h
  rw [← chancesOf_cons]
  exact chancesOf_perm (List.getElem_cons_eraseIdx_perm hi)

theorem chancesOf_modify (f : ServerRecord → ServerRecord) (h : l[i]? = some r) :
    chancesOf (l.modify i f) + r.chances = chancesOf l + (f r).chances := by
  have hchanged : (l.modify i f)[i]? = some (f r) := by
    rw [List.getElem?_modify, h]
    exact congrArg some (if_pos rfl)
  have hold := chancesOf_eraseIdx h
  have hnew := chancesOf_eraseIdx hchanged
  rw [List.eraseIdx_modify_of_eq] at hnew
  omega

/-- A set takes the record, or has an equivalent one. -/
theorem chancesOf_emplace_le (s : OrderedSet ServerRecord lt) (r : ServerRecord) :
    chancesOf (s.emplace r).1.elems ≤ chancesOf s.elems + r.chances := by
  by_cases hold : s.contains r = true
  · rw [OrderedSet.emplace_of_contains hold]
    exact Nat.le_add_right _ _
  · rw [OrderedSet.emplace_of_not_contains (by simpa using hold),
      chancesOf_perm (OrderedSet.perm_insertNew _), chancesOf_cons, Nat.add_comm]

end Lists

/-! ### What changes them -/

namespace NrpdConfig

variable {c c' : NrpdConfig} {clock clock' : SteadyClock} {ref : ServerRef} {r : ServerRecord}

theorem SameRecords.chances_eq (h : c.SameRecords c') : c'.chances = c.chances := by
  rw [NrpdConfig.chances, NrpdConfig.chances, h.configured, h.active, h.probationary]

/-- Every server of the two lists has a chance. -/
theorem length_le_chances (c : NrpdConfig) :
    c.activeServers.elems.length + c.probationaryServers.length ≤ c.chances := by
  have hactive := length_le_chancesOf c.activeServers.elems
  have hprob := length_le_chancesOf c.probationaryServers
  rw [NrpdConfig.chances]
  omega

theorem chances_updateServer {f : ServerRecord → ServerRecord} (hf : ∀ r, (f r).host = r.host)
    (h : c.server? ref = some r) :
    (c.updateServer ref f hf).chances + r.chances = c.chances + (f r).chances := by
  cases ref with
  | configured i =>
    have := chancesOf_modify f h
    simp only [NrpdConfig.chances, updateServer]
    omega
  | active i =>
    have := chancesOf_modify f h
    simp only [NrpdConfig.chances, updateServer, OrderedSet.modify]
    omega
  | probationary i =>
    have := chancesOf_modify f h
    simp only [NrpdConfig.chances, updateServer]
    omega

/-- A place without a record is not changed. -/
theorem chances_updateServer_of_none {f : ServerRecord → ServerRecord}
    (hf : ∀ r, (f r).host = r.host) (h : c.server? ref = none) :
    (c.updateServer ref f hf).chances = c.chances := by
  cases ref with
  | configured i =>
    simp only [NrpdConfig.chances, updateServer]
    rw [List.modify_eq_self (List.getElem?_eq_none_iff.1 h)]
  | active i =>
    simp only [NrpdConfig.chances, updateServer, OrderedSet.modify]
    rw [List.modify_eq_self (List.getElem?_eq_none_iff.1 h)]
  | probationary i =>
    simp only [NrpdConfig.chances, updateServer]
    rw [List.modify_eq_self (List.getElem?_eq_none_iff.1 h)]

theorem chances_withoutServer (hlisted : ∀ i, ref ≠ .configured i) (h : c.server? ref = some r) :
    r.chances + (c.withoutServer ref).chances = c.chances := by
  cases ref with
  | configured i => exact absurd rfl (hlisted i)
  | active i =>
    have := chancesOf_eraseIdx h
    simp only [NrpdConfig.chances, withoutServer, OrderedSet.eraseIdx]
    omega
  | probationary i =>
    have := chancesOf_eraseIdx h
    simp only [NrpdConfig.chances, withoutServer]
    omega

/-- New records come with their chances. -/
theorem chances_addServers_le (servs : List ServerRecord) (c : NrpdConfig) (clock : SteadyClock) :
    (addServers servs c clock).1.chances ≤ c.chances + chancesOf servs := by
  induction servs generalizing c clock with
  | nil => exact Nat.le_add_right _ _
  | cons serv servs ih =>
    have hadded : (c.addServer serv clock).1.chances ≤ c.chances + serv.chances := by
      rw [addServer_eq]
      by_cases hrefuses : c.refuses serv clock = true
      · rw [if_pos hrefuses]
        exact Nat.le_add_right _ _
      · have hrecord : (c.recordFor serv).chances = serv.chances := rfl
        rw [if_neg hrefuses]
        simp only [NrpdConfig.chances, chancesOf_append, chancesOf_cons, hrecord, ← Nat.add_assoc]
        exact Nat.le_refl _
    have hrest := ih (c.addServer serv clock).1 (c.addServer serv clock).2
    rw [chancesOf_cons]
    exact hrest.trans (by omega)

/-- **Failures.** They take a chance. -/
theorem chances_incrementServerFailCount (h : Waits c clock ref)
    (hrun : c.incrementServerFailCount ref clock = some (c', clock')) :
    c'.chances + 1 ≤ c.chances := by
  obtain ⟨serv, hserv, ⟨hfew, hsame⟩ | ⟨-, hlisted, hsame⟩⟩ := h.of_incrementServerFailCount hrun
  · have hupdated := chances_updateServer (host_failed clock.now) hserv
    have hfailed : (failed clock.now serv).chances + 1 = serv.chances := chances_failed hfew
    rw [hsame.chances_eq]
    omega
  · have hremoved := chances_withoutServer hlisted hserv
    have hpos := serv.chances_pos
    rw [hsame.chances_eq]
    omega

/-- **Successes.** They give back the chances that were lost. -/
theorem chances_markServerSuccessful (h : Waits c clock ref)
    (hrun : c.markServerSuccessful ref clock = some (c', clock')) :
    c'.chances ≤ c.chances + 3 := by
  obtain ⟨serv, hserv, hsame | ⟨i, rfl, hsame⟩⟩ := h.of_markServerSuccessful hrun
  · have hupdated := chances_updateServer (host_succeeded clock.now) hserv
    have hpos := serv.chances_pos
    rw [chances_succeeded] at hupdated
    rw [hsame.chances_eq]
    omega
  · have hadded := chancesOf_emplace_le c.activeServers (succeeded clock.now serv)
    have hremoved : serv.chances + (c.withoutServer (.probationary i)).chances = c.chances :=
      chances_withoutServer (fun j hj => ServerRef.noConfusion hj) hserv
    have hpos := serv.chances_pos
    rw [chances_succeeded] at hadded
    rw [hsame.chances_eq]
    simp only [NrpdConfig.chances, withoutServer] at hremoved ⊢
    omega

end NrpdConfig

/-- **Messages.** Every server that is listed comes with four chances at most. -/
theorem Intake.chances_take_le (ref : ServerRef) (s : Intake) (msg : ResponseMessage) :
    (s.take ref msg).config.chances ≤ s.config.chances + 4 * msg.servers.length := by
  have hpeers (enabled : Bool) : (s.takePeers enabled msg.servers).config.chances ≤
      s.config.chances + 4 * msg.servers.length := by
    cases enabled with
    | false => exact Nat.le_add_right _ _
    | true =>
      refine (chances_addServers_le _ s.config s.clock).trans ?_
      rw [chancesOf, List.map_map]
      have hnew : ServerRecord.chances ∘ (fun e : Host × UInt16 => ServerRecord.new e.1 e.2) =
          fun _ => 4 := rfl
      rw [hnew, List.map_const', List.sum_replicate, Nat.nsmul_eq_mul, Nat.mul_comm]
  cases msg with
  | entropy bytes => exact Nat.le_add_right _ _
  | ip4peers peers => exact hpeers _
  | ip6peers peers => exact hpeers _
  | reject entries =>
    have hhost := host_parseRejectMessage entries
    refine Nat.le_of_eq (?_ : (s.config.updateServer ref _ hhost).chances = s.config.chances)
    cases hserv : s.config.server? ref with
    | none => exact chances_updateServer_of_none hhost hserv
    | some serv =>
      have hupdated := chances_updateServer hhost hserv
      rw [chances_parseRejectMessage] at hupdated
      omega

theorem Intake.chances_foldl_take_le (ref : ServerRef) (msgs : List ResponseMessage) (s : Intake) :
    (msgs.foldl (Intake.take ref) s).config.chances ≤
      s.config.chances + 4 * (msgs.map fun msg => msg.servers.length).sum := by
  induction msgs generalizing s with
  | nil => exact Nat.le_add_right _ _
  | cons msg msgs ih =>
    have htaken := s.chances_take_le ref msg
    have hrest := ih (s.take ref msg)
    rw [List.map_cons, List.sum_cons, Nat.mul_add]
    exact hrest.trans (by omega)

/-! ### How many servers a packet lists -/

section Packets

variable {m : Mem} {os : List ℕ}

/-- A server takes six bytes at least. -/
theorem servers_le_of_messageAt {o : ℕ} {msg : ResponseMessage} (h : IsResponseMessage m o)
    (hmsg : messageAt m o = some msg) : 6 * msg.servers.length ≤ hdrLength m o := by
  cases h with
  | reject htype =>
    rw [messageAt, NrpdMsgType.ofCode_eq_some.2 htype] at hmsg
    obtain rfl := Option.some.inj hmsg
    exact Nat.zero_le _
  | entropy htype =>
    rw [messageAt, NrpdMsgType.ofCode_eq_some.2 htype] at hmsg
    obtain rfl := Option.some.inj hmsg
    exact Nat.zero_le _
  | ip4peers htype hlen =>
    rw [messageAt, NrpdMsgType.ofCode_eq_some.2 htype] at hmsg
    obtain rfl := Option.some.inj hmsg
    rw [hlen, ResponseMessage.servers, List.length_map, List.length_map, List.length_range]
    omega
  | ip6peers htype hlen =>
    rw [messageAt, NrpdMsgType.ofCode_eq_some.2 htype] at hmsg
    obtain rfl := Option.some.inj hmsg
    rw [hlen, ResponseMessage.servers, List.length_map, List.length_map, List.length_range]
    omega

/-- **Packets.** The servers of all messages fit the packet. -/
theorem servers_le_of_isResponsePacket (h : IsResponsePacket m os) :
    ((messagesAt m os).map fun msg => msg.servers.length).sum ≤ pktLength m / 6 := by
  have hsize : pktMessages + 6 * ((messagesAt m os).map fun msg => msg.servers.length).sum ≤
      pktLength m := by
    have htiles := h.tiles
    have hmessages := h.messages
    generalize pktMessages = a at htiles ⊢
    generalize pktLength m = b at htiles ⊢
    clear h
    induction htiles with
    | nil => exact Nat.le_refl _
    | @cons o b os hpos htail ih =>
      have hfirst := hmessages o List.mem_cons_self
      obtain ⟨msg, hmsg⟩ := exists_messageAt hfirst
      have hservers := servers_le_of_messageAt hfirst hmsg
      have hrest := ih fun o ho => hmessages o (List.mem_cons_of_mem _ ho)
      rw [messagesAt, List.filterMap_cons, hmsg]
      rw [messagesAt] at hrest
      simp only [List.map_cons, List.sum_cons]
      omega
  omega

end Packets

/-! ### Runs -/

namespace Node

variable {n n' : Node} {calls : List NodeCall} {log : List Sent} {call : NodeCall}
  {sent : Option Sent} {k : ℕ}

/-- What the client of a node has in its buffer behind a datagram. -/
def packetOf (n : Node) (bytes : List UInt8) : Mem :=
  n.client.buffer.write 0 (bytes.take maxResponseMessageSize)

/-- How many failures a call reports: one when the client comes back from `recv` without an answer
that it accepts, unless `recv` failed for another reason than a timeout. -/
def failures (n : Node) : NodeCall → ℕ
  | .receiveResponse system =>
    match system.received with
    | .timedOut => 1
    | .failed => 0
    | .datagram bytes => if validateResponsePacket (n.packetOf bytes) = some true then 0 else 1
  | _ => 0

/-- How many chances a call may give: four for every six bytes of an answer that is accepted, which
is as much as a server takes, and three for the server that was asked. -/
def granted (n : Node) : NodeCall → ℕ
  | .receiveResponse system =>
    match system.received with
    | .datagram bytes =>
      if validateResponsePacket (n.packetOf bytes) = some true then
        4 * (pktLength (n.packetOf bytes) / 6) + 3
      else 0
    | _ => 0
  | _ => 0

theorem failures_le_one (n : Node) (call : NodeCall) : n.failures call ≤ 1 := by
  cases call with
  | receiveResponse system =>
    rw [failures]
    cases system.received with
    | timedOut => exact Nat.le_refl 1
    | failed => exact Nat.zero_le 1
    | datagram bytes =>
      show (if _ then 0 else 1) ≤ 1
      split <;> omega
  | _ => exact Nat.zero_le _

/-- **One call.** A failure takes a chance, and only an answer gives some. -/
theorem chances_of_run (hsound : n.Sound k) (hk : k + call.receives < 67108864)
    (hrun : call.run n = some (n', sent)) :
    n.failures call + n'.config.chances ≤ n.config.chances + n.granted call := by
  cases changes_of_run hsound hk hrun with
  | same hsame hidle =>
    have hnone : n.failures call = 0 := by
      cases call with
      | receiveResponse system => rw [failures, hidle system rfl]
      | _ => rfl
    rw [hnone, hsame.chances_eq]
    omega
  | @failure system _ _ hasked hwaits hcounted =>
    have hone := n.failures_le_one (.receiveResponse system)
    have htaken := chances_incrementServerFailCount hwaits hcounted
    omega
  | @success system packet os ref parsed _ hasked hwaits hhears hintake hparsed hmarked =>
    obtain ⟨bytes, hreceived, hpacket, hos⟩ := hhears
    have hvalid : validateResponsePacket (n.packetOf bytes) = some true := by
      rw [packetOf, ← hpacket]
      exact validateResponsePacket_iff.2 ⟨os, hos⟩
    have hnone : n.failures (.receiveResponse system) = 0 := by
      simp only [failures, hreceived, if_pos hvalid]
    have hgranted : n.granted (.receiveResponse system) = 4 * (pktLength packet / 6) + 3 := by
      simp only [granted, hreceived, if_pos hvalid]
      rw [hpacket, packetOf]
    have hconfig : parsed.config = ((messagesAt packet os).foldl (Intake.take ref)
        n.client.intake).config := congrArg Intake.config hintake
    have htaken : parsed.config.chances ≤ n.config.chances + 4 * (pktLength packet / 6) := by
      have hservers := servers_le_of_isResponsePacket hos
      have hmessages := Intake.chances_foldl_take_le ref (messagesAt packet os) n.client.intake
      rw [← hconfig] at hmessages
      exact hmessages.trans (Nat.add_le_add_left (Nat.mul_le_mul_left 4 hservers) _)
    have hsuccess := chances_markServerSuccessful hparsed hmarked
    rw [hnone, hgranted]
    omega

/-- **Failures.** In every run, the failures that the client reports are paid for by the chances of
the servers that it had at the start, and by those that the answers have given since; what is left
of them stands in the records, and every server of the two lists has one. -/
theorem Ran.failures_bounded (h : n.Ran calls n' log) :
    Runs.total NodeCall.log (fun s => s.1.failures) calls (n, []) + n'.config.chances ≤
        n.config.chances + Runs.total NodeCall.log (fun s => s.1.granted) calls (n, []) ∧
      n'.config.activeServers.elems.length + n'.config.probationaryServers.length ≤
        n'.config.chances := by
  refine ⟨?_, length_le_chances n'.config⟩
  have hcall (k : ℕ) (call : NodeCall) (s s' : Node × List Sent)
      (hk : k + call.receives < 67108864) (hs : s.1.Sound k) (hlog : call.log s = some s') :
      s'.1.Sound (k + call.receives) ∧
        s.1.failures call + s'.1.config.chances ≤ s.1.config.chances + s.1.granted call := by
    obtain ⟨left, hrun, rfl⟩ := Option.map_eq_some_iff.1 hlog
    exact ⟨hs.run hk hrun, chances_of_run hs hk hrun⟩
  exact Runs.total_potential (P := fun k (s : Node × List Sent) => s.1.Sound k) hcall h.start.sound
    h.few h.after

/-- A node whose only server does not answer. -/
theorem Ran.failures_bounded_example :
    let calls := [NodeCall.sendRequest true true, .receiveResponse (requestCalls .timedOut)]
    ∃ n' log, sampleNode.Ran calls n' log ∧
      Runs.total NodeCall.log (fun s => s.1.failures) calls (sampleNode, []) = 1 ∧
      n'.config.chances ≤ 3 := by
  intro calls
  obtain ⟨n', log, hran, -⟩ := exists_ran_sampleNode calls (fun _ => ()) () (by decide) (by decide)
  have hfailed : Runs.total NodeCall.log (fun s => s.1.failures) calls (sampleNode, []) = 1 := by
    decide
  have hgranted : Runs.total NodeCall.log (fun s => s.1.granted) calls (sampleNode, []) = 0 := by
    decide
  have hstart : sampleNode.config.chances = 4 := by decide
  have hbound := hran.failures_bounded.1
  rw [hfailed, hgranted, hstart] at hbound
  exact ⟨n', log, hran, hfailed, by omega⟩

end Node

end Nrpd
