import Nrpd.Config.NrpdConfig
import Nrpd.Lib.RandomDevice
import Nrpd.Protocol.ResponseRoundTrip

/-!
# What a server is for

A responder answers the messages of a request, one after the other, as long as there is room in the
packet: servers that it knows of the family that is asked for, bytes of its random device, or the
rejection of a type that it does not support. The room of the rejections is kept free from the first
one on; they make up one message, which goes to the front. This is what the answers of a server
amount to, with lists and natural numbers in place of buffers and machine integers.

## Main definitions

* `Responder`, `Responder.Draft`: what an answer is made of.
* `Responder.respond`: the messages of the answer.

## Main results

* `Responder.listsOwn_of_mem_respond`: an answer lists servers of the responder only.
* `Responder.supplies_respond`: every entropy message of an answer is a read of its own.
* `Responder.wellFormed_of_mem_respond`: the messages of an answer are those of a response.
-/

namespace Nrpd

/-! ### Peers -/

/-- The bytes of a port. -/
def portBytes (port : UInt16) : Vector UInt8 2 := ⟨(be16Bytes port.toNat).toArray, rfl⟩

theorem be16_portBytes (port : UInt16) :
    256 * (portBytes port)[0].toNat + (portBytes port)[1].toNat = port.toNat := by
  have hlt := port.toNat_lt
  show 256 * (UInt8.ofNat (port.toNat / 256)).toNat + (UInt8.ofNat (port.toNat % 256)).toNat = _
  rw [UInt8.toNat_ofNat', UInt8.toNat_ofNat']
  omega

/-- The entry of a server in an `ip4peers` message. -/
def ip4Entry : Host × UInt16 → Option (Vector UInt8 sizeofIp4Peer)
  | (.ip4 b, port) => some (b ++ portBytes port)
  | (.ip6 _, _) => none

/-- The entry of a server in an `ip6peers` message. -/
def ip6Entry : Host × UInt16 → Option (Vector UInt8 sizeofIp6Peer)
  | (.ip4 _, _) => none
  | (.ip6 b, port) => some (b ++ portBytes port)

/-- The message with servers of a family. -/
def ResponseMessage.ofPeers (ipv6 : Bool) (servers : List (Host × UInt16)) : ResponseMessage :=
  if ipv6 then .ip6peers (servers.filterMap ip6Entry) else .ip4peers (servers.filterMap ip4Entry)

/-- The server of an entry of an `ip4peers` message. -/
def serverOfIp4 (peer : Vector UInt8 sizeofIp4Peer) : Host × UInt16 :=
  (.ip4 (.ofFn fun i => peer[i.val]), .ofNat (256 * peer[4].toNat + peer[5].toNat))

/-- The server of an entry of an `ip6peers` message. -/
def serverOfIp6 (peer : Vector UInt8 sizeofIp6Peer) : Host × UInt16 :=
  (.ip6 (.ofFn fun i => peer[i.val]), .ofNat (256 * peer[16].toNat + peer[17].toNat))

/-- An entry tells its server. -/
theorem serverOfIp4_of_entry {e : Host × UInt16} {peer : Vector UInt8 sizeofIp4Peer}
    (h : ip4Entry e = some peer) : serverOfIp4 peer = e := by
  obtain ⟨host, port⟩ := e
  cases host with
  | ip6 b => cases h
  | ip4 b =>
    obtain rfl := Option.some.inj h
    refine Prod.ext (congrArg Host.ip4 (Vector.ext fun i hi => ?_)) ?_
    · rw [Vector.getElem_ofFn, Vector.getElem_append_left hi]
    · have hport := be16_portBytes port
      have hhigh : (b ++ portBytes port)[4] = (portBytes port)[0] :=
        Vector.getElem_append_right (by decide) (by decide)
      have hlow : (b ++ portBytes port)[5] = (portBytes port)[1] :=
        Vector.getElem_append_right (by decide) (by decide)
      show UInt16.ofNat (256 * ((b ++ portBytes port)[4]).toNat +
        ((b ++ portBytes port)[5]).toNat) = port
      rw [hhigh, hlow, hport, UInt16.ofNat_toNat]

/-- An entry tells its server. -/
theorem serverOfIp6_of_entry {e : Host × UInt16} {peer : Vector UInt8 sizeofIp6Peer}
    (h : ip6Entry e = some peer) : serverOfIp6 peer = e := by
  obtain ⟨host, port⟩ := e
  cases host with
  | ip4 b => cases h
  | ip6 b =>
    obtain rfl := Option.some.inj h
    refine Prod.ext (congrArg Host.ip6 (Vector.ext fun i hi => ?_)) ?_
    · rw [Vector.getElem_ofFn, Vector.getElem_append_left hi]
    · have hport := be16_portBytes port
      have hhigh : (b ++ portBytes port)[16] = (portBytes port)[0] :=
        Vector.getElem_append_right (by decide) (by decide)
      have hlow : (b ++ portBytes port)[17] = (portBytes port)[1] :=
        Vector.getElem_append_right (by decide) (by decide)
      show UInt16.ofNat (256 * ((b ++ portBytes port)[16]).toNat +
        ((b ++ portBytes port)[17]).toNat) = port
      rw [hhigh, hlow, hport, UInt16.ofNat_toNat]

/-- The servers that a message lists. -/
def ResponseMessage.servers : ResponseMessage → List (Host × UInt16)
  | ip4peers peers => peers.map serverOfIp4
  | ip6peers peers => peers.map serverOfIp6
  | _ => []

/-- The bytes of entropy that a message has, if it is one of entropy. -/
def ResponseMessage.entropy? : ResponseMessage → Option (List UInt8)
  | entropy bytes => some bytes
  | _ => none

/-! ### Responders -/

/-- The servers that are listed, the families that are supported, and the size of an entropy message
when the request does not give one. -/
structure Responder where
  servers : Bool → List (Host × UInt16)
  enabled : Bool → Bool
  entropySize : ℕ

namespace Responder

/-- An answer in the making: the bytes that are left for it, the types that are rejected, the
messages, and the random device. -/
structure Draft where
  room : ℕ
  rejected : List UInt8
  messages : List ResponseMessage
  device : RandomDevice

namespace Draft

/-- The bytes that are left for the next message. -/
def available (d : Draft) : ℕ :=
  if d.rejected = [] then d.room else d.room - (4 + 2 * d.rejected.length)

/-- Append a message. -/
def say (d : Draft) (msg : ResponseMessage) : Draft :=
  { d with messages := d.messages ++ [msg], room := d.room - msg.bytes.length }

/-- Reject a type. -/
def reject (d : Draft) (msgType : UInt8) : Draft := { d with rejected := d.rejected ++ [msgType] }

/-- The rejections that fit go to the front. -/
def finish (d : Draft) : List ResponseMessage :=
  let entries : List NrpMessageReject :=
    (d.rejected.take ((d.room - 4) / 2)).map (⟨·, NrpdRejectReason.unsupported.code⟩)
  if entries = [] then d.messages else .reject entries :: d.messages

end Draft

variable (r : Responder)

/-- List servers of a family: as many as are asked for and fit. -/
def list (d : Draft) (ipv6 : Bool) (count : UInt8) : Draft :=
  let wanted := if count = 0 then (r.servers ipv6).length else count.toNat
  let listed := (r.servers ipv6).take (min wanted ((d.available - 4) / sizeofPeer ipv6))
  if listed = [] then d else d.say (.ofPeers ipv6 listed)

/-- Read entropy: as many bytes as are asked for and fit. -/
def draw (d : Draft) (size : UInt8) : Draft :=
  if d.available < 5 then d
  else
    let wanted := if size = 0 then r.entropySize else size.toNat
    let data := d.device.delivered (min wanted (d.available - 4))
    let drawn := { d with device := d.device.skip 1 }
    if data = [] then drawn else drawn.say (.entropy data)

/-- Answer a message of a request. -/
def answerOne (d : Draft) (msgType count : UInt8) : Draft :=
  match NrpdMsgType.ofCode msgType with
  | some .ip4peers => if r.enabled false then r.list d false count else d.reject msgType
  | some .ip6peers => if r.enabled true then r.list d true count else d.reject msgType
  | some .entropy => r.draw d count
  | _ => d.reject msgType

/-- Answer the messages of a request, as long as there is room. -/
def answer : List (UInt8 × UInt8) → Draft → Draft
  | [], d => d
  | (msgType, count) :: requests, d =>
    if d.available = 0 then d else answer requests (r.answerOne d msgType count)

/-- The messages of the answer, in a packet of `mtu` bytes, and the device behind it. -/
def respond (mtu : ℕ) (device : RandomDevice) (requests : List (UInt8 × UInt8)) :
    List ResponseMessage × RandomDevice :=
  let d := r.answer requests ⟨mtu - 4, [], [], device⟩
  (d.finish, d.device)

variable {r} {d : Draft} {requests : List (UInt8 × UInt8)}

/-- What an answer to a message does: nothing, a rejection, a list of servers, or a read. -/
inductive Answers (r : Responder) (d : Draft) (msgType : UInt8) : Draft → Prop
  | nothing : Answers r d msgType d
  | rejected (htype : NrpdMsgType.ofCode msgType ≠ some .entropy) :
    Answers r d msgType (d.reject msgType)
  | listed (ipv6 : Bool) (n : ℕ) (hne : (r.servers ipv6).take n ≠ [])
    (hfit : n * sizeofPeer ipv6 ≤ d.available) :
    Answers r d msgType (d.say (.ofPeers ipv6 ((r.servers ipv6).take n)))
  | failed : Answers r d msgType { d with device := d.device.skip 1 }
  | drawn (n : ℕ) (hne : d.device.delivered n ≠ []) (hmax : n ≤ 255 ∨ n ≤ r.entropySize) :
    Answers r d msgType
      ({ d with device := d.device.skip 1 }.say (.entropy (d.device.delivered n)))

theorem answers_list (d : Draft) (ipv6 : Bool) (msgType count : UInt8) :
    r.Answers d msgType (r.list d ipv6 count) := by
  simp only [list]
  generalize (if count = 0 then (r.servers ipv6).length else count.toNat) = wanted
  split_ifs with hnil
  · exact .nothing
  · refine .listed ipv6 _ hnil ?_
    calc min wanted ((d.available - 4) / sizeofPeer ipv6) * sizeofPeer ipv6
        ≤ (d.available - 4) / sizeofPeer ipv6 * sizeofPeer ipv6 :=
          Nat.mul_le_mul_right _ (Nat.min_le_right _ _)
      _ ≤ d.available - 4 := Nat.div_mul_le_self _ _
      _ ≤ d.available := Nat.sub_le _ _

theorem answers_draw (d : Draft) (msgType size : UInt8) : r.Answers d msgType (r.draw d size) := by
  have hsize := size.toNat_lt
  simp only [draw]
  by_cases hroom : d.available < 5
  · rw [if_pos hroom]
    exact .nothing
  rw [if_neg hroom]
  by_cases hzero : size = 0
  · rw [if_pos hzero]
    split_ifs with hnil
    · exact .failed
    · exact .drawn _ hnil (.inr (Nat.min_le_left _ _))
  · rw [if_neg hzero]
    split_ifs with hnil
    · exact .failed
    · exact .drawn _ hnil (.inl ((Nat.min_le_left _ _).trans (by omega)))

theorem answers_answerOne (r : Responder) (d : Draft) (msgType count : UInt8) :
    r.Answers d msgType (r.answerOne d msgType count) := by
  have hpeers (ipv6 : Bool) (htype : NrpdMsgType.ofCode msgType ≠ some .entropy) :
      r.Answers d msgType
        (if r.enabled ipv6 then r.list d ipv6 count else d.reject msgType) := by
    split_ifs
    · exact answers_list d ipv6 msgType count
    · exact .rejected htype
  rw [answerOne]
  cases htype : NrpdMsgType.ofCode msgType with
  | none => exact .rejected (by rw [htype]; exact nofun)
  | some type =>
    cases type with
    | ip4peers => exact hpeers false (by rw [htype]; exact nofun)
    | ip6peers => exact hpeers true (by rw [htype]; exact nofun)
    | entropy => exact answers_draw d msgType count
    | _ => exact .rejected (by rw [htype]; exact nofun)

/-- **Invariant rule.** What every answer to a message keeps is kept by all of them. -/
theorem answer_invariant {P : Draft → Prop}
    (hone : ∀ d d' msgType count, (msgType, count) ∈ requests → r.Answers d msgType d' → P d → P d')
    (h : P d) : P (r.answer requests d) := by
  induction requests generalizing d with
  | nil => exact h
  | cons request requests ih =>
    obtain ⟨msgType, count⟩ := request
    have hfirst := hone d _ msgType count List.mem_cons_self (answers_answerOne r d msgType count) h
    rw [answer]
    split_ifs
    · exact h
    · exact ih (fun d d' msgType count hmem =>
        hone d d' msgType count (List.mem_cons_of_mem _ hmem)) hfirst

/-- A message of a request is rejected at most once. -/
theorem length_rejected_answerOne_le (r : Responder) (d : Draft) (msgType count : UInt8) :
    (r.answerOne d msgType count).rejected.length ≤ d.rejected.length + 1 := by
  have hanswers := answers_answerOne r d msgType count
  generalize r.answerOne d msgType count = d' at hanswers ⊢
  cases hanswers with
  | rejected => rw [Draft.reject, List.length_append, List.length_singleton]
  | _ => exact Nat.le_succ _

theorem length_rejected_answer_le (r : Responder) (requests : List (UInt8 × UInt8)) (d : Draft) :
    (r.answer requests d).rejected.length ≤ d.rejected.length + requests.length := by
  induction requests generalizing d with
  | nil => exact Nat.le_refl _
  | cons request requests ih =>
    obtain ⟨msgType, count⟩ := request
    have hone := length_rejected_answerOne_le r d msgType count
    have hrest := ih (r.answerOne d msgType count)
    rw [answer, List.length_cons]
    split_ifs <;> omega

/-- The messages of an answer: the rejections, and those of the draft. -/
theorem mem_respond {mtu : ℕ} {device : RandomDevice} {msg : ResponseMessage}
    (hmsg : msg ∈ (r.respond mtu device requests).1) :
    let d := r.answer requests ⟨mtu - 4, [], [], device⟩
    msg ∈ d.messages ∨ ∃ entries : List NrpMessageReject, entries ≠ [] ∧ msg = .reject entries ∧
      entries = (d.rejected.take ((d.room - 4) / 2)).map
        (⟨·, NrpdRejectReason.unsupported.code⟩) := by
  simp only [respond, Draft.finish] at hmsg
  split_ifs at hmsg with hnil
  · exact .inl hmsg
  · rcases List.mem_cons.1 hmsg with rfl | hmsg
    · exact .inr ⟨_, hnil, rfl, rfl⟩
    · exact .inl hmsg

/-! ### What an answer tells -/

theorem mem_of_mem_servers_ofPeers {ipv6 : Bool} {servers : List (Host × UInt16)}
    {e : Host × UInt16} (h : e ∈ (ResponseMessage.ofPeers ipv6 servers).servers) : e ∈ servers := by
  cases ipv6 with
  | false =>
    obtain ⟨peer, hpeer, rfl⟩ := List.mem_map.1 h
    obtain ⟨e, he, hentry⟩ := List.mem_filterMap.1 hpeer
    rwa [serverOfIp4_of_entry hentry]
  | true =>
    obtain ⟨peer, hpeer, rfl⟩ := List.mem_map.1 h
    obtain ⟨e, he, hentry⟩ := List.mem_filterMap.1 hpeer
    rwa [serverOfIp6_of_entry hentry]

/-- What holds of a draft and of a message holds of the draft with the message. -/
theorem forall_mem_say {P : ResponseMessage → Prop} {msg' : ResponseMessage}
    (h : ∀ msg ∈ d.messages, P msg) (h' : P msg') : ∀ msg ∈ (d.say msg').messages, P msg := by
  intro msg hmsg
  rcases List.mem_append.1 hmsg with hmsg | hmsg
  · exact h msg hmsg
  · rwa [List.mem_singleton.1 hmsg]

/-- A message lists servers of the responder only. -/
def ListsOwn (r : Responder) (msg : ResponseMessage) : Prop :=
  ∀ e ∈ msg.servers, ∃ ipv6, e ∈ r.servers ipv6

/-- **Peers.** An answer lists servers of the responder only. -/
theorem listsOwn_of_mem_respond {mtu : ℕ} {device : RandomDevice} {msg : ResponseMessage}
    (hmsg : msg ∈ (r.respond mtu device requests).1) : r.ListsOwn msg := by
  have hanswer : ∀ msg ∈ (r.answer requests ⟨mtu - 4, [], [], device⟩).messages,
      r.ListsOwn msg := by
    refine answer_invariant (P := fun d => ∀ msg ∈ d.messages, r.ListsOwn msg)
      (fun d d' msgType count _ hanswers hd => ?_) fun msg hmsg => absurd hmsg List.not_mem_nil
    cases hanswers with
    | listed ipv6 n =>
      exact forall_mem_say hd fun e he =>
        ⟨ipv6, List.mem_of_mem_take (mem_of_mem_servers_ofPeers he)⟩
    | drawn n => exact forall_mem_say hd fun e he => absurd he List.not_mem_nil
    | _ => exact hd
  rcases mem_respond hmsg with hmsg | ⟨entries, -, rfl, -⟩
  · exact hanswer msg hmsg
  · exact fun e he => absurd he List.not_mem_nil

/-- **Entropy.** Every entropy message of an answer is a read of its own, in the order of the
messages. -/
theorem supplies_respond (r : Responder) (mtu : ℕ) (device : RandomDevice)
    (requests : List (UInt8 × UInt8)) :
    device.Supplies ((r.respond mtu device requests).1.filterMap ResponseMessage.entropy?)
      (r.respond mtu device requests).2 := by
  have hanswer : device.Supplies
      ((r.answer requests ⟨mtu - 4, [], [], device⟩).messages.filterMap ResponseMessage.entropy?)
      (r.answer requests ⟨mtu - 4, [], [], device⟩).device := by
    refine answer_invariant (P := fun d => device.Supplies
      (d.messages.filterMap ResponseMessage.entropy?) d.device)
      (fun d d' msgType count _ hanswers hd => ?_) .nil
    cases hanswers with
    | nothing => exact hd
    | rejected => exact hd
    | listed ipv6 n =>
      have hnone : (ResponseMessage.ofPeers ipv6 ((r.servers ipv6).take n)).entropy? = none := by
        cases ipv6 <;> rfl
      simpa [Draft.say, hnone] using hd
    | failed => exact hd.unused
    | drawn n => simpa [Draft.say, ResponseMessage.entropy?] using hd.block n
  simp only [respond, Draft.finish]
  split_ifs
  · exact hanswer
  · rw [List.filterMap_cons_none rfl]
    exact hanswer

/-! ### Answers are responses -/

/-- Each list has the servers of its family. -/
def OfFamilies (r : Responder) : Prop := ∀ ipv6, ∀ e ∈ r.servers ipv6, e.1.ipv6 = ipv6

theorem count_ofPeers {ipv6 : Bool} {servers : List (Host × UInt16)}
    (h : ∀ e ∈ servers, e.1.ipv6 = ipv6) :
    (ResponseMessage.ofPeers ipv6 servers).count = servers.length := by
  cases ipv6 with
  | false =>
    refine List.filterMap_length_eq_length.2 fun ⟨host, port⟩ he => ?_
    cases host with
    | ip4 bytes => rfl
    | ip6 bytes => exact absurd (h _ he) (by simp [Host.ipv6])
  | true =>
    refine List.filterMap_length_eq_length.2 fun ⟨host, port⟩ he => ?_
    cases host with
    | ip4 bytes => exact absurd (h _ he) (by simp [Host.ipv6])
    | ip6 bytes => rfl

section WellFormed

variable {mtu : ℕ} {device : RandomDevice} {msg : ResponseMessage}

/-- A message of an answer has between one and 255 records. -/
theorem count_of_mem_respond (hfamilies : r.OfFamilies) (hentropy : r.entropySize ≤ 255)
    (hmtu : mtu ≤ 1236) (hfew : requests.length ≤ 255)
    (hmsg : msg ∈ (r.respond mtu device requests).1) : 1 ≤ msg.count ∧ msg.count ≤ 255 := by
  have hanswer : (r.answer requests ⟨mtu - 4, [], [], device⟩).room ≤ 1232 ∧
      ∀ msg ∈ (r.answer requests ⟨mtu - 4, [], [], device⟩).messages,
        1 ≤ msg.count ∧ msg.count ≤ 255 := by
    refine answer_invariant (P := fun d => d.room ≤ 1232 ∧ ∀ msg ∈ d.messages,
      1 ≤ msg.count ∧ msg.count ≤ 255) (fun d d' msgType count _ hanswers hd => ?_)
      ⟨(show mtu - 4 ≤ 1232 by omega), fun msg hmsg => absurd hmsg List.not_mem_nil⟩
    obtain ⟨hroom, hd⟩ := hd
    have havailable : d.available ≤ d.room := by
      rw [Draft.available]
      split_ifs
      · exact Nat.le_refl _
      · exact Nat.sub_le _ _
    cases hanswers with
    | listed ipv6 n hne hfit =>
      refine ⟨(Nat.sub_le _ _).trans hroom, forall_mem_say hd ?_⟩
      rw [count_ofPeers fun e he => hfamilies ipv6 e (List.mem_of_mem_take he)]
      have hsize : 6 ≤ sizeofPeer ipv6 := by cases ipv6 <;> decide
      have hmul := Nat.mul_le_mul_left n hsize
      exact ⟨List.length_pos_iff.2 hne, (List.length_take_le _ _).trans (by omega)⟩
    | drawn n hne hmax =>
      refine ⟨(Nat.sub_le _ _).trans hroom, forall_mem_say hd ?_⟩
      have hlength := RandomDevice.length_delivered_le d.device n
      exact ⟨List.length_pos_iff.2 hne, hlength.trans (by omega)⟩
    | _ => exact ⟨hroom, hd⟩
  rcases mem_respond hmsg with hmsg | ⟨entries, hne, rfl, hentries⟩
  · exact hanswer.2 msg hmsg
  · have hrejected := length_rejected_answer_le r requests ⟨mtu - 4, [], [], device⟩
    refine ⟨List.length_pos_iff.2 hne, ?_⟩
    rw [List.length_nil, Nat.zero_add] at hrejected
    rw [ResponseMessage.count, hentries, List.length_map]
    exact (List.length_take_le' _ _).trans (hrejected.trans hfew)

/-- The entries of an answer reject types of the request, and not entropy. -/
theorem entries_of_mem_respond (hmsg : msg ∈ (r.respond mtu device requests).1) :
    ∀ rej ∈ msg.entries, rej.reason = NrpdRejectReason.unsupported.code ∧
      NrpdMsgType.ofCode rej.msgType ≠ some .entropy ∧
      ∃ count, (rej.msgType, count) ∈ requests := by
  have hanswer : (∀ msgType ∈ (r.answer requests ⟨mtu - 4, [], [], device⟩).rejected,
      NrpdMsgType.ofCode msgType ≠ some .entropy ∧ ∃ count, (msgType, count) ∈ requests) ∧
      ∀ msg ∈ (r.answer requests ⟨mtu - 4, [], [], device⟩).messages, msg.entries = [] := by
    refine answer_invariant (P := fun d => (∀ msgType ∈ d.rejected,
      NrpdMsgType.ofCode msgType ≠ some .entropy ∧ ∃ count, (msgType, count) ∈ requests) ∧
        ∀ msg ∈ d.messages, msg.entries = []) (fun d d' msgType count hmem hanswers hd => ?_)
      ⟨fun _ h => absurd h List.not_mem_nil, fun _ h => absurd h List.not_mem_nil⟩
    cases hanswers with
    | rejected htype =>
      refine ⟨fun type hrejected => ?_, hd.2⟩
      rcases List.mem_append.1 hrejected with hrejected | hrejected
      · exact hd.1 type hrejected
      · rw [List.mem_singleton.1 hrejected]
        exact ⟨htype, count, hmem⟩
    | listed ipv6 n =>
      refine ⟨hd.1, forall_mem_say hd.2 ?_⟩
      cases ipv6 <;> rfl
    | drawn n => exact ⟨hd.1, forall_mem_say hd.2 rfl⟩
    | _ => exact hd
  intro rej hrej
  rcases mem_respond hmsg with hmsg | ⟨entries, -, rfl, hentries⟩
  · rw [hanswer.2 msg hmsg] at hrej
    cases hrej
  · have hrej : rej ∈ entries := hrej
    rw [hentries] at hrej
    obtain ⟨msgType, htype, rfl⟩ := List.mem_map.1 hrej
    obtain ⟨hother, count, hmem⟩ := hanswer.1 msgType (List.mem_of_mem_take htype)
    exact ⟨rfl, hother, count, hmem⟩

/-- **Answers.** The messages of an answer to a request for known types are those of a response. -/
theorem wellFormed_of_mem_respond (hfamilies : r.OfFamilies) (hentropy : r.entropySize ≤ 255)
    (hmtu : mtu ≤ 1236) (hfew : requests.length ≤ 255)
    (hknown : ∀ request ∈ requests, ∃ t : NrpdMsgType, 4 ≤ t.code.toNat ∧ request.1 = t.code)
    (hmsg : msg ∈ (r.respond mtu device requests).1) : msg.WellFormed := by
  obtain ⟨hpos, hle⟩ := count_of_mem_respond hfamilies hentropy hmtu hfew hmsg
  refine ⟨hpos, hle, fun rej hrej => ?_⟩
  obtain ⟨hreason, hother, count, hmem⟩ := entries_of_mem_respond hmsg rej hrej
  obtain ⟨t, hcode, htype⟩ := hknown _ hmem
  refine ⟨⟨t, ?_, htype⟩, by rw [hreason]; decide⟩
  have hne : t ≠ .entropy := by
    rintro rfl
    exact hother (NrpdMsgType.ofCode_eq_some.2 htype)
  cases t <;> simp_all [rejectableTypes, NrpdMsgType.code]

end WellFormed

end Responder

end Nrpd
