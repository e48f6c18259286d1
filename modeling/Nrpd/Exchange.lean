import Mathlib.Data.List.Nodup
import Nrpd.Client.Requests
import Nrpd.Server.Packets

/-!
# A request and its answer

What the client asks for and what the server answers, put together. The request of the client is one
that the server accepts, and the packet of the server is one that the client accepts, has entropy,
and is about each type that was asked for at most once: it has a message of the type, or rejects it.

## Main definitions

* `answeredTypes`: the types that a message of a response is about.
* `AnswersRequest`: a response to a request for given types.

## Main results

* `IsReply.answeredTypes_subperm`: a reply is about the types of the request.
* `exists_entropy`: a request that starts with entropy gets entropy.
* `constructRequest_answered`: the request of the client and the answer of the server.
-/

namespace Nrpd

open FixedWidth FuelLoop Segments

/-! ### The types of a response -/

/-- The types that a message of a response is about: those that its entries name, if it is a reject
message, and its own otherwise. -/
def answeredTypes (m : Mem) (o : ℕ) : List UInt8 :=
  if hdrMsgType m o = NrpdMsgType.reject.code then (rejectEntries m o).map (·.msgType)
  else [hdrMsgType m o]

/-- A response to a request for the types `types`. -/
structure AnswersRequest (m : Mem) (os : List ℕ) (types : List NrpdMsgType) : Prop where
  packet : IsResponsePacket m os
  entropy : ∃ o ∈ os, hdrMsgType m o = NrpdMsgType.entropy.code
  once : ∀ t ∈ types, isPeersType t = true → (os.flatMap (answeredTypes m)).count t.code ≤ 1
  unsupported : ∀ o ∈ os, hdrMsgType m o = NrpdMsgType.reject.code →
    ∀ rej ∈ rejectEntries m o, rej.reason = NrpdRejectReason.unsupported.code

section Types

variable {m m' : Mem} {o o' : ℕ} {entries : List NrpMessageReject}

/-- The entries of a reject message depend on its own bytes, wherever they stand. -/
theorem rejectEntries_of_read_eq (hmsg : IsResponseMessage m o)
    (hreject : hdrMsgType m o = NrpdMsgType.reject.code)
    (hread : m.read o (hdrLength m o) = m'.read o' (hdrLength m o)) :
    rejectEntries m o = rejectEntries m' o' := by
  have hlen : hdrLength m o = 4 + 2 * (hdrCountOrSize m o).toNat := by
    obtain ⟨-, -, hlen, -⟩ | ⟨htype, -⟩ | ⟨htype, -⟩ | ⟨htype, -⟩ := hmsg
    · exact hlen
    all_goals exact absurd (hreject.symm.trans htype) (by decide)
  unfold rejectEntries
  rw [← hdrCountOrSize_of_read_eq hread (by omega)]
  refine List.map_congr_left fun i hi => ?_
  have hbyte {j : ℕ} (hj : j < hdrLength m o) : m (o + j) = m' (o' + j) :=
    Mem.read_eq_iff.1 hread j hj
  rw [List.mem_range] at hi
  simp only [rejectEntryAt, hdrContent, sizeofReject, Nat.add_assoc]
  rw [hbyte (by omega), hbyte (by omega)]

theorem answeredTypes_of_read_eq (hmsg : IsResponseMessage m o)
    (hread : m.read o (hdrLength m o) = m'.read o' (hdrLength m o)) :
    answeredTypes m o = answeredTypes m' o' := by
  have h4 := hmsg.hdrLength_ge
  unfold answeredTypes
  rw [← hdrMsgType_of_read_eq hread (by omega)]
  split_ifs with hreject
  · rw [rejectEntries_of_read_eq hmsg hreject hread]
  · rfl

/-- Whether a packet answers a request depends on its own bytes. -/
theorem AnswersRequest.congr {os : List ℕ} {types : List NrpdMsgType}
    (h : AnswersRequest m os types) (hagree : m.AgreeOn m' 0 (pktLength m)) :
    AnswersRequest m' os types := by
  have hread : ∀ o ∈ os, m.read o (hdrLength m o) = m'.read o (hdrLength m o) := fun o ho =>
    hagree.read (Nat.zero_le o) (h.packet.bounds o ho).2
  have htype : ∀ o ∈ os, hdrMsgType m o = hdrMsgType m' o := fun o ho =>
    hdrMsgType_of_read_eq (hread o ho) (by
      have := (h.packet.messages o ho).hdrLength_ge
      omega)
  refine ⟨h.packet.congr hagree, ?_, fun t ht hpeers => ?_, fun o ho hreject => ?_⟩
  · obtain ⟨o, ho, hentropy⟩ := h.entropy
    exact ⟨o, ho, (htype o ho).symm.trans hentropy⟩
  · have hsame : os.flatMap (answeredTypes m) = os.flatMap (answeredTypes m') :=
      List.flatMap_congr fun o ho => answeredTypes_of_read_eq (h.packet.messages o ho) (hread o ho)
    rw [← hsame]
    exact h.once t ht hpeers
  · have hreject' := (htype o ho).trans hreject
    rw [← rejectEntries_of_read_eq (h.packet.messages o ho) hreject' (hread o ho)]
    exact h.unsupported o ho hreject'

theorem IsRejection.rejectEntries_eq (h : IsRejection m entries) : rejectEntries m 0 = entries := by
  refine List.ext_getElem (by simp [rejectEntries, h.count]) fun i hi hi' => ?_
  have hentry := h.entry i hi'
  simp only [rejectEntries, List.getElem_map, List.getElem_range, hdrContent, sizeofReject,
    Nat.zero_add, Nat.mul_comm i]
  exact hentry

end Types

/-! ### The types of a reply -/

section Reply

variable {pkt packet : Mem} {c : NrpdConfig} {random : RandomDevice} {mtu : ℤ} {o : ℕ}
  {os os' : List ℕ} {s : ParseState} {msgs : List Mem}

/-- **The types of a reply.** A reply is about types of the request, and about none more often than
the request. -/
theorem IsReply.answeredTypes_subperm (h : IsReply pkt c random mtu os s) :
    (s.msgs.flatMap (answeredTypes · 0)).Subperm (os.map (hdrMsgType pkt)) := by
  obtain ⟨rejected, answers, hsplit, hrejected, -, hinOrder⟩ := h.split
  have hanswers : answers.flatMap (answeredTypes · 0) = answers.map (hdrMsgType · 0) := by
    rw [List.map_eq_flatMap]
    refine List.flatMap_congr fun m hm => if_neg ?_
    exact msgType_ne_reject_of_sublist hinOrder _ (List.mem_map_of_mem hm)
  have hrejections : (rejected.flatMap (answeredTypes · 0)).Sublist
      ((os.map (hdrMsgType pkt)).filter (rejectsType c)) := by
    rcases hrejected with rfl | ⟨m, entries, rfl, -, hleading, hrejection⟩
    · exact List.nil_sublist _
    · rw [List.flatMap_singleton, answeredTypes, if_pos hrejection.msgType,
        hrejection.rejectEntries_eq]
      have := (hleading.map (·.msgType)).sublist
      simpa [rejectionsOf, Function.comp_def] using this
  rw [hsplit, List.flatMap_append, hanswers]
  exact (hrejections.append hinOrder).subperm.trans (List.filter_append_perm _ _).subperm

/-- The rejections of a reply say that the types are not supported. -/
theorem IsReply.reason_eq (h : IsReply pkt c random mtu os s) {m : Mem} (hm : m ∈ s.msgs)
    (hreject : hdrMsgType m 0 = NrpdMsgType.reject.code) :
    ∀ rej ∈ rejectEntries m 0, rej.reason = NrpdRejectReason.unsupported.code := by
  rcases h.reject_or_answer hm with ⟨entries, -, hleading, hrejection⟩ | ⟨-, htype⟩
  · rw [hrejection.rejectEntries_eq]
    exact fun rej hrej => reason_of_mem_rejectionsOf rej (hleading.subset hrej)
  · exact absurd hreject htype

/-- **Entropy.** A request that starts with entropy gets entropy, when the device delivers some: as
the first answer has the whole packet for itself. -/
theorem exists_entropy (hos : IsRequestPacket pkt (o :: os))
    (hentropy : hdrMsgType pkt o = NrpdMsgType.entropy.code) (hdelivers : random.Delivers)
    (hfit : c.SizesFit) (hmin : 263 ≤ mtu) (hmax : mtu ≤ 1236)
    (hparse : parseMessages pkt mtu c random = some (true, s)) :
    ∃ m ∈ s.msgs, hdrMsgType m 0 = NrpdMsgType.entropy.code := by
  obtain ⟨a, ha⟩ := Int.eq_ofNat_of_zero_le (show 0 ≤ mtu - 4 by omega)
  set start := ParseState.start mtu c random with hstart
  have havailable : start.available = a := by
    have := calculateRemainingBytes_eq (show 0 ≤ mtu - 4 by omega) (by omega)
      (show ([] : List NrpMessageReject).length < 256 by decide)
    rw [List.length_nil, if_pos rfl] at this
    exact this.trans ha
  have hkeep : rejectsType start.config (hdrMsgType pkt o) = false := by
    rw [hentropy]
    rfl
  have hyields : yields start.config start.random a (hdrMsgType pkt o) (hdrCountOrSize pkt o) =
      true := by
    have hpos := (requestedEntropy_mem c (hdrCountOrSize pkt o)).1
    rw [hentropy]
    simp only [yields, NrpdMsgType.ofCode_code, decide_eq_true_eq]
    exact ⟨by omega, hdelivers.delivered_ne_nil (fittingCount_pos Nat.one_pos hpos (by omega))⟩
  obtain ⟨m, size, hanswered⟩ :=
    ParseState.answer_of_yields hfit havailable (by omega) hkeep hyields
  obtain ⟨t, ht, hanswer⟩ := hanswered.isAnswer
  have hguard : (parseWalk pkt).guard o start = true := by
    have hbounds := hos.bounds o List.mem_cons_self
    simp only [parseWalk, endOfPacket, havailable, Bool.and_eq_true, decide_eq_true_eq]
    exact ⟨decide_eq_true (by omega), by omega⟩
  have hturn : m ∈ ((parseWalk pkt).visit o start).msgs := by
    show m ∈ (start.answer (hdrMsgType pkt o) (hdrCountOrSize pkt o)).msgs
    rw [hanswered.msgs]
    exact List.mem_append_right _ (List.mem_singleton_self m)
  have hover : m ∈ ((parseWalk pkt).visitAll (o :: os) start).msgs := by
    rw [(parseWalk pkt).visitAll_cons_of_guard hguard]
    exact (msgs_visitAll_parseWalk os _).subset hturn
  rw [parseMessages_eq random hos hmin] at hparse
  obtain rfl := (Prod.mk.inj (Option.some.inj hparse)).2
  exact ⟨m, (msgs_pushRejections _).subset hover, by rw [hanswer.msgType, ← ht, hentropy]⟩

/-- What a packet holds is about the types of the messages. -/
theorem flatMap_answeredTypes_of_holds (h : List.Forall₂ (Holds packet) os' msgs)
    (hmsgs : ∀ m ∈ msgs, IsResponseMessage m 0) :
    os'.flatMap (answeredTypes packet) = msgs.flatMap (answeredTypes · 0) := by
  induction h with
  | nil => rfl
  | cons hholds _ ih =>
    rw [List.forall_mem_cons] at hmsgs
    rw [List.flatMap_cons, List.flatMap_cons, ih hmsgs.2,
      answeredTypes_of_read_eq hmsgs.1 hholds.symm]

end Reply

/-! ### The exchange -/

section Exchange

variable {pkt : Mem} {c : NrpdConfig} {random : RandomDevice} {mtu : ℤ} {os : List ℕ}
  {s : ParseState} {types : List NrpdMsgType}

/-- **The answer.** A reply with entropy is sent as a packet that answers the request. -/
theorem IsReply.answersRequest (h : IsReply pkt c random mtu os s) (hos : IsRequestPacket pkt os)
    (hmax : mtu ≤ 1236) (hentropy : ∃ m ∈ s.msgs, hdrMsgType m 0 = NrpdMsgType.entropy.code)
    (htypes : os.map (hdrMsgType pkt) = types.map NrpdMsgType.code) (hnodup : types.Nodup)
    (buffer : Mem) :
    ∃ packet os', Nrpd.sendPacket buffer mtu s = .sent packet (pktLength packet) ∧
      AnswersRequest packet os' types := by
  obtain ⟨m₀, hm₀, hentropy⟩ := hentropy
  have hknown : ∀ o ∈ os, hdrMsgType pkt o < nrpdMsgTypeMax := by
    intro o ho
    obtain ⟨t, -, ht⟩ := List.mem_map.1 (htypes ▸ List.mem_map_of_mem ho)
    rw [← ht]
    cases t <;> decide
  have hmsgs : ∀ m ∈ s.msgs, IsResponseMessage m 0 :=
    (h.forall_isResponseMessage_iff hos).2 (h.rejectsKnownTypes hknown)
  obtain ⟨packet, os', hpacket, htype, hlen, hle, hcount, hpos, htiles, hholds⟩ :=
    h.assemblePacket hmax (List.ne_nil_of_mem hm₀) buffer
  have hread {o : ℕ} {m : Mem} (hm : m ∈ s.msgs) (ho : Holds packet o m) :
      hdrMsgType m 0 = hdrMsgType packet o :=
    hdrMsgType_of_read_eq ho.symm (by
      have := (hmsgs m hm).hdrLength_ge
      omega)
  have hmessages := (forall_isResponseMessage_iff_of_holds hholds h.hdrLength_ge).2 hmsgs
  refine ⟨packet, os', ?_, ⟨hle, htype, by omega, hcount, htiles, hmessages⟩, ?_, ?_, ?_⟩
  · rw [hlen]
    exact h.sendPacket_of_assemblePacket buffer hpacket
  · obtain ⟨i, hi, rfl⟩ := List.getElem_of_mem hm₀
    have hi' : i < os'.length := hholds.length_eq.symm ▸ hi
    exact ⟨os'[i], List.getElem_mem hi',
      (hread hm₀ (hholds.get hi' hi)).symm.trans hentropy⟩
  · intro t ht _
    have hcodes : (types.map NrpdMsgType.code).Nodup :=
      hnodup.map fun _ _ h => NrpdMsgType.code_injective h
    rw [flatMap_answeredTypes_of_holds hholds hmsgs]
    calc (s.msgs.flatMap (answeredTypes · 0)).count t.code
        ≤ (os.map (hdrMsgType pkt)).count t.code := h.answeredTypes_subperm.count_le _
      _ ≤ 1 := htypes ▸ List.nodup_iff_count_le_one.1 hcodes _
  · intro o ho hreject
    obtain ⟨i, hi, rfl⟩ := List.getElem_of_mem ho
    have hi' : i < s.msgs.length := hholds.length_eq ▸ hi
    have hm := List.getElem_mem hi'
    have hheld : Holds packet os'[i] s.msgs[i] := hholds.get hi hi'
    have hreject' := (hread hm hheld).trans hreject
    rw [← rejectEntries_of_read_eq (hmsgs _ hm) hreject' hheld.symm]
    exact h.reason_eq hm hreject'

/-- **Client and server.** The server accepts the request of the client, whatever follows it in the
buffer; and as long as the sizes of peers messages are in range and the device delivers some bytes
for each read, it answers with a packet that the client accepts, whatever follows it, and that
answers the request. -/
theorem constructRequest_answered (client : NrpdConfig) (server : ServerRecord) (buffer : Mem) :
    ∃ size request, constructRequest client server maxResponseMessageSize buffer =
        (some size, request) ∧
      ∀ received, request.AgreeOn received 0 size →
        validateRequestPacket received = some true ∧
        (∃ os, IsRequestPacket received os ∧ os.map (hdrMsgType received) =
          (requestedTypes client server).map NrpdMsgType.code) ∧
        ∀ (c : NrpdConfig) (mtu : ℤ) (random : RandomDevice), c.CountsFit →
          mtu = maxIp4PacketSize ∨ mtu = maxIp6PacketSize → random.Delivers →
          ∃ s packet, ∃ n : ℕ, parseMessages received mtu c random = some (true, s) ∧ s.msgs ≠ [] ∧
            sendPacket received mtu s = .sent packet n ∧
            ∀ answer, packet.AgreeOn answer 0 n →
              validateResponsePacket answer = some true ∧
              ∃ os, AnswersRequest answer os (requestedTypes client server) := by
  obtain ⟨request, os, hrequest, hos, hbare, htypes⟩ := constructRequest_spec client server buffer
  refine ⟨pktLength request, request, hrequest, ?_⟩
  intro received hagree
  obtain ⟨hos, hsame⟩ := hos.congr_of_bare hbare hagree
  rw [List.map_congr_left hsame] at htypes
  refine ⟨validateRequestPacket_iff.2 ⟨os, hos⟩, ⟨os, hos, htypes⟩, ?_⟩
  intro c mtu random hcounts hmtu hdelivers
  have hrange : 263 ≤ mtu ∧ mtu ≤ 1236 := by
    rcases hmtu with rfl | rfl <;> simp
  obtain ⟨s, hparse, hreply⟩ :=
    parseMessages_spec random hos hcounts.sizesFit hrange.1 hrange.2
  -- entropy is asked for first
  obtain ⟨o, rest, rfl, hfirst⟩ : ∃ o rest, os = o :: rest ∧
      hdrMsgType received o = NrpdMsgType.entropy.code := by
    cases os with
    | nil => simp [requestedTypes] at htypes
    | cons o rest =>
      rw [requestedTypes, List.append_assoc, List.singleton_append, List.map_cons,
        List.map_cons] at htypes
      exact ⟨o, rest, rfl, (List.cons.inj htypes).1⟩
  have hentropy := exists_entropy hos hfirst hdelivers hcounts.sizesFit hrange.1 hrange.2 hparse
  obtain ⟨packet, os', hsent, hanswers⟩ := hreply.answersRequest hos hrange.2 hentropy htypes
    (nodup_requestedTypes client server) received
  obtain ⟨m, hm, -⟩ := hentropy
  refine ⟨s, packet, pktLength packet, hparse, List.ne_nil_of_mem hm, hsent, fun answer h => ?_⟩
  have hanswers' := hanswers.congr h
  exact ⟨validateResponsePacket_iff.2 ⟨os', hanswers'.packet⟩, os', hanswers'⟩

/-- A new configuration. -/
def newConfig : NrpdConfig := (NrpdConfig.new true true ⟨fun _ => 0, 0⟩).1

/-- A new record. -/
def newRecord : ServerRecord := .new (.ip4 #v[10, 0, 0, 1]) 8080

/-- A new client and a new server. -/
theorem constructRequest_answered_example :
    ∃ size request s packet, ∃ n : ℕ,
      constructRequest newConfig newRecord maxResponseMessageSize Mem.zero = (some size, request) ∧
      parseMessages request maxIp4PacketSize newConfig steadyDevice = some (true, s) ∧
      sendPacket request maxIp4PacketSize s = .sent packet n ∧
      validateResponsePacket packet = some true := by
  obtain ⟨size, request, hrequest, hserver⟩ :=
    constructRequest_answered newConfig newRecord Mem.zero
  obtain ⟨-, -, hanswered⟩ := hserver request fun _ _ _ => rfl
  obtain ⟨s, packet, n, hparse, -, hsent, hclient⟩ := hanswered newConfig maxIp4PacketSize
    steadyDevice ⟨by decide, fun ipv6 => .inl (by cases ipv6 <;> decide)⟩ (.inl rfl)
    delivers_steadyDevice
  exact ⟨size, request, s, packet, n, hrequest, hparse, hsent, (hclient packet fun _ _ _ => rfl).1⟩

/-- When the size of a message with all counted servers wraps round, the client does not accept the
answer to its request. -/
theorem constructRequest_refused :
    ∃ size request s packet, ∃ n : ℕ,
      constructRequest newConfig newRecord maxResponseMessageSize Mem.zero = (some size, request) ∧
      overcountingConfig.activeServers.elems.length < 67108864 ∧
      (∀ ipv6, -1 ≤ overcountingConfig.cachedCount ipv6) ∧ steadyDevice.Delivers ∧
      parseMessages request maxIp6PacketSize overcountingConfig steadyDevice = some (true, s) ∧
      s.msgs ≠ [] ∧ sendPacket request maxIp6PacketSize s = .sent packet n ∧
      validateResponsePacket packet = some false :=
  ⟨_, _, _, _, _, rfl, by decide, by decide, delivers_steadyDevice, rfl, List.cons_ne_nil _ _, rfl,
    by decide⟩

end Exchange

end Nrpd
