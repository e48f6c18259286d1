import Nrpd.Server.PeersAnswers
import Nrpd.Server.Replies

/-!
# The room for the rejections

`CalculateRemainingBytes` reserves the room for the reject message as soon as something is rejected,
and answers only spend what is left beside it. The loop of `ParseMessages` goes on while one byte is
left, though, and a rejection takes six bytes when it is the first and two when it is not. So the
reject message has all of the rejections exactly when each of them was met with as much room. How
much there is follows from the request, the counts of servers and what the device delivers.

Nothing is assumed about the counts of servers here: the sizes of peers messages may wrap round.

## Main definitions

* `KeepsRejections`: every rejection has its entry in the reject message.
* `answerBytes`: the bytes that the answer to a message takes.
* `rejectionsFit`: whether every rejection is met with the bytes that it takes.

## Main results

* `generatePeersResponse_bytes`, `generateEntropyResponse_bytes`: the bytes of single answers.
* `ParseState.spends_answer`: what a turn that rejects nothing spends.
* `reserved_visitAll`: the room that is reserved behind the loop.
* `parseMessages_keepsRejections_iff`: when no rejection is dropped.
-/

namespace Nrpd

open FixedWidth FuelLoop Segments

/-! ### What an answer takes -/

/-- The bytes that a peers message takes, of those that are available: the size for all servers that
are asked for, if it is available and their records fit it, or the size for as many as fit. -/
def peersBytes (c : NrpdConfig) (type : NrpdMsgType) (msgCount available : ℕ) : ℕ :=
  let asked := askedFor c type msgCount
  let all := u32 (4 + recordSize type * asked)
  let fitting := (available - 4) / recordSize type
  if asked ≤ 0 then 0
  else if all ≤ available then
    -- the size wraps round where too many servers are counted, and their number is cut to a byte
    if 0 < u8 asked ∧ 4 + recordSize type * u8 asked ≤ all then all else 0
  else if fitting = 0 then 0 else 4 + recordSize type * fitting

/-- The bytes that an entropy message takes, of those that are available. -/
def entropyBytes (c : NrpdConfig) (random : RandomDevice) (size : UInt8) (available : ℕ) : ℕ :=
  let data := random.delivered (fittingCount available 1 (requestedEntropy c size))
  if 5 ≤ available ∧ data ≠ [] then 4 + data.length else 0

/-- The bytes that the answer to a message takes, of those that are available. -/
def answerBytes (c : NrpdConfig) (random : RandomDevice) (available : ℕ) (msgType count : UInt8) :
    ℕ :=
  match NrpdMsgType.ofCode msgType with
  | some .ip4peers => peersBytes c .ip4peers count.toNat available
  | some .ip6peers => peersBytes c .ip6peers count.toNat available
  | some .entropy => entropyBytes c random count available
  | _ => 0

section Peers

variable {c : NrpdConfig} {type : NrpdMsgType} {msgCount available size : ℕ} {n : ℤ}

/-- A list is asked for and some servers are counted, so there is a message if its records fit. -/
theorem exists_peersMessage_of_fits (htype : isPeersType type = true) (hn : 0 < n)
    (hcounted : 0 < (c.activeServerCount type).1) (hbyte : 0 < u8 n)
    (hfits : 4 + recordSize type * u8 n ≤ size) : ∃ m, peersMessage c type n size = some m := by
  have hcases : type = .ip4peers ∨ type = .ip6peers := by
    cases type <;> simp [isPeersType] at htype <;> simp
  have htoNat : (UInt8.ofNat (u8 n)).toNat = u8 n := by
    rw [UInt8.toNat_ofNat', Nat.mod_eq_of_lt (by rw [u8]; omega)]
  have hne : UInt8.ofNat (u8 n) ≠ 0 := fun hzero => by
    rw [hzero] at htoNat
    exact hbyte.ne htoNat
  have hsame := (c.sameAnswers_activeServerCount type).count type
  obtain ⟨data, hdata⟩ := NrpdConfig.exists_getServerList (c := (c.activeServerCount type).2)
    htype hn (by rw [hsame]; exact hcounted)
  have hroom : 4 + (UInt8.ofNat (u8 n)).toNat * recordSize type ≤ size := by
    rw [htoNat, Nat.mul_comm]
    exact hfits
  rw [peersMessage, hdata, generateResponsePeersMessage_of_fits hcases hne hroom]
  exact ⟨_, rfl⟩

theorem peersMessage_isSome_iff (htype : isPeersType type = true) :
    (peersMessage c type n size).isSome = true ↔
      0 < n ∧ 0 < (c.activeServerCount type).1 ∧ 0 < u8 n ∧ 4 + recordSize type * u8 n ≤ size := by
  constructor
  · intro hsome
    obtain ⟨m, hm⟩ := Option.isSome_iff_exists.1 hsome
    obtain ⟨hbyte, hfits, -⟩ := of_peersMessage_eq_some htype hm
    have hpos : ¬ (n ≤ 0 ∨ (c.activeServerCount type).1 ≤ 0) := fun hno => by
      rw [peersMessage_eq_none hno] at hm
      cases hm
    exact ⟨by omega, by omega, hbyte, hfits⟩
  · rintro ⟨hn, hcounted, hbyte, hfits⟩
    obtain ⟨m, hm⟩ := exists_peersMessage_of_fits htype hn hcounted hbyte hfits
    rw [hm]
    rfl

theorem askedFor_nonpos (h : askedFor c type msgCount ≤ 0) :
    askedFor c type msgCount = 0 ∨ (c.activeServerCount type).1 ≤ 0 := by
  simp only [askedFor] at h ⊢
  split_ifs at h ⊢ <;> omega

theorem activeServerCount_pos (h : 0 < askedFor c type msgCount) :
    0 < (c.activeServerCount type).1 := by
  simp only [askedFor] at h
  split_ifs at h <;> omega

/-- The bytes are those of the message that is computed, if there is one. -/
theorem peersBytes_eq (htype : isPeersType type = true) (hmax : available ≤ 1232)
    (hsized : calculateMessageSize available (recordSize type) (askedFor c type msgCount) =
      (size, n)) :
    size < 65536 ∧ peersBytes c type msgCount available =
      if (peersMessage c type n size).isSome then size else 0 := by
  have hsmall := (recordSize_of_isPeersType htype).2
  have hmul := Nat.mul_div_le (available - 4) (recordSize type)
  have hfitting := fittingCount_lt (n := (available - 4) / recordSize type) hmax hsmall.1
  rw [fittingCount, Nat.min_self] at hfitting
  simp only [peersMessage_isSome_iff htype, peersBytes]
  rw [calculateMessageSize_cases _ (by omega) (by omega)] at hsized
  by_cases hpos : askedFor c type msgCount ≤ 0
  · -- nothing is asked for
    rw [if_pos hpos]
    split_ifs at hsized with h4 hall hnone <;> obtain ⟨rfl, rfl⟩ := Prod.mk.inj hsized
    · exact ⟨by omega, (if_neg fun h => absurd h.1 (not_lt.2 hpos)).symm⟩
    · exact ⟨by omega, (if_neg fun h => absurd h.1 (not_lt.2 hpos)).symm⟩
    · exact ⟨by omega, (if_neg fun h => absurd h.1 (not_lt.2 hpos)).symm⟩
    · refine ⟨by omega, (if_neg fun h => ?_).symm⟩
      rcases askedFor_nonpos hpos with hzero | hcounted
      · rw [hzero, Int.mul_zero, Int.add_zero] at hall
        exact hall (not_lt.1 h4)
      · exact absurd h.2.1 (not_lt.2 hcounted)
  · have hcounted := activeServerCount_pos (not_le.1 hpos)
    rw [if_neg hpos]
    split_ifs at hsized with h4 hall hnone <;> obtain ⟨rfl, rfl⟩ := Prod.mk.inj hsized
    · -- no room for a header
      have hquot : (available - 4) / recordSize type = 0 := Nat.div_eq_of_lt (by omega)
      rw [if_pos hquot, ite_self]
      refine ⟨by omega, ?_⟩
      split_ifs with hall hfits
      · omega
      · rfl
      · rfl
    · -- the size for all that are asked for
      simp only [if_pos hall, not_le.1 hpos, hcounted, true_and]
      exact ⟨by omega, trivial⟩
    · rw [if_neg hall, if_pos hnone, ite_self]
      exact ⟨by omega, rfl⟩
    · -- the size for as many as fit
      have hfits := Nat.pos_of_ne_zero hnone
      rw [if_neg hall, if_neg hnone, if_pos]
      · exact ⟨by omega, rfl⟩
      · rw [u8_natCast hfitting]
        exact ⟨Int.natCast_pos.2 hfits, hcounted, hfits, le_rfl⟩

/-- **Peers.** Whatever the counts are, a peers message takes the bytes that the counts say. -/
theorem generatePeersResponse_bytes (c : NrpdConfig) (msgCount : ℕ)
    (htype : isPeersType type = true) (hmax : available ≤ 1232) :
    let answer := generatePeersResponse c type msgCount available
    (answer.buffer = none → peersBytes c type msgCount available = 0) ∧
      ∀ m, answer.buffer = some m →
        answer.outResponseSize = peersBytes c type msgCount available ∧
          hdrMsgType m 0 = type.code := by
  intro answer
  obtain ⟨size, n, hsized⟩ : ∃ size n, calculateMessageSize available (recordSize type)
      (askedFor c type msgCount) = (size, n) := ⟨_, _, rfl⟩
  obtain ⟨hlt, hbytes⟩ := peersBytes_eq htype hmax hsized
  obtain ⟨hnone, hsome⟩ := generatePeersResponse_of_asked htype
    (show available < 65536 by omega) (Eq.refl (askedFor c type msgCount))
  by_cases hzero : askedFor c type msgCount = 0
  · have hbuffer : answer.buffer = none := hnone hzero
    refine ⟨fun _ => ?_, fun m hm => ?_⟩
    · simp only [peersBytes, hzero, le_refl, if_true]
    · rw [hbuffer] at hm
      cases hm
  obtain ⟨hempty, hfull⟩ := hsome hzero size n hsized hlt
  by_cases hsize : size = 0
  · have hbuffer : answer.buffer = none := hempty hsize
    refine ⟨fun _ => ?_, fun m hm => ?_⟩
    · rw [hbytes, hsize, ite_self]
    · rw [hbuffer] at hm
      cases hm
  obtain ⟨hout, hbuffer⟩ := hfull hsize
  change answer.outResponseSize = size at hout
  change answer.buffer = peersMessage c type n size at hbuffer
  rw [hbuffer, hout, hbytes]
  refine ⟨fun hm => ?_, fun m hm => ?_⟩
  · rw [hm]
    rfl
  · rw [hm]
    exact ⟨rfl, (of_peersMessage_eq_some htype hm).2.2.2.2⟩

end Peers

section Entropy

variable {c : NrpdConfig} {random : RandomDevice} {size : UInt8} {available : ℕ}

/-- **Entropy.** An entropy message takes its header and the bytes that the device delivers. -/
theorem generateEntropyResponse_bytes (c : NrpdConfig) (random : RandomDevice) (size : UInt8)
    (hmax : available ≤ 1232) :
    let answer := generateEntropyResponse c random size.toNat available
    (answer.buffer = none → entropyBytes c random size available = 0) ∧
      ∀ m, answer.buffer = some m →
        answer.outResponseSize = entropyBytes c random size available ∧
          hdrMsgType m 0 = NrpdMsgType.entropy.code := by
  intro answer
  have hspec : IsEntropyAnswer c random size available answer :=
    generateEntropyResponse_spec c random size hmax
  by_cases hroom : 5 ≤ available ∧
      random.delivered (fittingCount available 1 (requestedEntropy c size)) ≠ []
  · obtain ⟨hout, m, hbuffer, hanswer⟩ := hspec.some hroom
    rw [hbuffer]
    refine ⟨(fun hnone => nomatch hnone), fun m' hm => ?_⟩
    obtain rfl := Option.some.inj hm
    exact ⟨hout.trans (congrArg Nat.cast (if_pos hroom).symm), hanswer.msgType⟩
  · simp only [entropyBytes, if_neg hroom, hspec.none hroom]
    exact ⟨fun _ => trivial, fun m hm => by cases hm⟩

/-- Without room for a byte the device is not read. -/
theorem generateEntropyResponse_unread (c : NrpdConfig) (random : RandomDevice) (size : UInt8)
    (hroom : available < 5) :
    (generateEntropyResponse c random size.toNat available).state = random := by
  obtain ⟨hpos, hlt⟩ := requestedEntropy_mem c size
  have hsized := calculateMessageSize_eq (show available < 2147483648 by omega) Nat.one_pos hpos
    (by omega)
  simp only [Int.natCast_one, if_neg (show ¬ 4 + 1 ≤ available by omega)] at hsized
  simp only [generateEntropyResponse, requestedEntropy_eq,
    u32_natCast (show available < 4294967296 by omega), hsized]
  rfl

end Entropy

section AnswerBytes

variable {c c' : NrpdConfig} {random : RandomDevice} {available : ℕ} {msgType count : UInt8}

theorem peersBytes_le (c : NrpdConfig) (type : NrpdMsgType) (msgCount available : ℕ) :
    peersBytes c type msgCount available ≤ available := by
  have hmul := Nat.mul_div_le (available - 4) (recordSize type)
  simp only [peersBytes]
  split_ifs with hpos hall hfits hnone
  · exact Nat.zero_le _
  · exact hall
  · exact Nat.zero_le _
  · exact Nat.zero_le _
  · have hroom : available - 4 ≠ 0 := fun hzero => hnone (by rw [hzero, Nat.zero_div])
    omega

theorem entropyBytes_le (c : NrpdConfig) (random : RandomDevice) (size : UInt8) (available : ℕ) :
    entropyBytes c random size available ≤ available := by
  simp only [entropyBytes]
  split_ifs with hroom
  · have hread := random.length_delivered_le (fittingCount available 1 (requestedEntropy c size))
    have hsize := size_fittingCount_le 1 (requestedEntropy c size) (show 4 ≤ available by omega)
    omega
  · exact Nat.zero_le _

theorem answerBytes_le : answerBytes c random available msgType count ≤ available := by
  rw [answerBytes]
  split
  · exact peersBytes_le _ _ _ _
  · exact peersBytes_le _ _ _ _
  · exact entropyBytes_le _ _ _ _
  · exact Nat.zero_le _

theorem answerBytes_congr (h : c.SameAnswers c') :
    answerBytes c' random available msgType count =
      answerBytes c random available msgType count := by
  have hpeers (type : NrpdMsgType) (msgCount : ℕ) :
      peersBytes c' type msgCount available = peersBytes c type msgCount available := by
    have hasked : askedFor c' type msgCount = askedFor c type msgCount := by
      rw [askedFor, h.count, askedFor]
    rw [peersBytes, hasked, peersBytes]
  have hentropy : entropyBytes c' random count available =
      entropyBytes c random count available := by
    have hsize : requestedEntropy c' count = requestedEntropy c count := by
      rw [requestedEntropy, h.entropySize, requestedEntropy]
    rw [entropyBytes, hsize, entropyBytes]
  simp only [answerBytes, hpeers, hentropy]

end AnswerBytes

/-! ### One turn -/

theorem sameAnswers_generatePeersResponse (c : NrpdConfig) (type : NrpdMsgType)
    (msgCount available : ℤ) :
    c.SameAnswers (generatePeersResponse c type msgCount available).state := by
  have hcounted := c.sameAnswers_activeServerCount type
  have hlisted (count : ℤ) := hcounted.trans
    (NrpdConfig.sameAnswers_getServerList (c.activeServerCount type).2 type count)
  simp only [generatePeersResponse]
  split_ifs <;> first | exact hcounted | exact hlisted _

namespace ParseState

variable {s s' : ParseState} {msgType count : UInt8} {a bytes : ℕ}

/-- A turn that rejects nothing, and takes some bytes. -/
structure Spends (s s' : ParseState) (msgType : UInt8) (bytes : ℕ) : Prop where
  config : s.config.SameAnswers s'.config
  rejections : s'.rejections = s.rejections
  remaining : s'.bytesRemaining = s.bytesRemaining - bytes
  msgs : ∀ m ∈ s'.msgs, m ∈ s.msgs ∨ hdrMsgType m 0 = msgType

/-- An answer takes its size. -/
private theorem spends_push {buffer : Option Mem} {size : ℤ}
    (hsame : s.config.SameAnswers s'.config) (hremaining : s'.bytesRemaining = s.bytesRemaining)
    (hrejections : s'.rejections = s.rejections) (hmsgs : s'.msgs = s.msgs)
    (hnone : buffer = none → bytes = 0)
    (hsome : ∀ m, buffer = some m → size = bytes ∧ hdrMsgType m 0 = msgType) :
    Spends s (s'.push buffer size) msgType bytes := by
  cases buffer with
  | none =>
    refine ⟨hsame, hrejections, ?_, fun m hm => .inl (hmsgs ▸ hm)⟩
    simp only [push, hnone rfl, hremaining]
    omega
  | some m =>
    obtain ⟨hsize, htype⟩ := hsome m rfl
    refine ⟨hsame, hrejections, ?_, fun m' hm' => ?_⟩
    · simp only [push, hremaining, hsize]
    · rw [push, hmsgs] at hm'
      rcases List.mem_append.1 hm' with hm' | hm'
      · exact .inl hm'
      · exact .inr (List.mem_singleton.1 hm' ▸ htype)

/-- The branch for a peers type that is enabled. -/
private theorem spends_answerPeers (count : UInt8) {t : NrpdMsgType} (ht : isPeersType t = true)
    (ha : s.available = a) (hmax : a ≤ 1232) (henabled : s.config.enablePeersResponse t = true) :
    Spends s (s.answerPeers t count) t.code (peersBytes s.config t count.toNat a) ∧
      (s.answerPeers t count).random = s.random := by
  obtain ⟨answer, hgen⟩ : ∃ answer, generatePeersResponse s.config t count.toNat a = answer :=
    ⟨_, rfl⟩
  have hsame := sameAnswers_generatePeersResponse s.config t count.toNat a
  have hbytes := generatePeersResponse_bytes s.config count.toNat ht hmax
  rw [hgen] at hsame hbytes
  rw [answerPeers_eq henabled (by rw [ha, hgen])]
  exact ⟨spends_push hsame rfl rfl rfl hbytes.1 hbytes.2, random_push _ _ _⟩

/-- The branch for entropy. -/
private theorem spends_answerEntropy (count : UInt8) (ha : s.available = a) (hmax : a ≤ 1232) :
    Spends s (s.answerEntropy count) NrpdMsgType.entropy.code
        (entropyBytes s.config s.random count a) ∧
      (s.answerEntropy count).random = if 5 ≤ a then s.random.skip 1 else s.random := by
  have hspec := generateEntropyResponse_spec s.config s.random count hmax
  have hunread (hroom : a < 5) := generateEntropyResponse_unread s.config s.random count hroom
  have hbytes := generateEntropyResponse_bytes s.config s.random count hmax
  obtain ⟨answer, hgen⟩ : ∃ answer,
      generateEntropyResponse s.config s.random count.toNat a = answer := ⟨_, rfl⟩
  rw [hgen] at hspec hunread hbytes
  rw [answerEntropy_eq (by rw [ha, hgen])]
  refine ⟨spends_push (.refl s.config) rfl rfl rfl hbytes.1 hbytes.2, ?_⟩
  rw [random_push]
  split_ifs with hroom
  · exact hspec.state hroom
  · exact hunread (by omega)

/-- **Spending.** A turn that rejects nothing takes the bytes of its answer, and reads the device
when it is for entropy and a byte of it fits. -/
theorem spends_answer (count : UInt8) (ha : s.available = a) (hmax : a ≤ 1232)
    (hkeep : rejectsType s.config msgType = false) :
    Spends s (s.answer msgType count) msgType (answerBytes s.config s.random a msgType count) ∧
      (s.answer msgType count).random =
        if 5 ≤ a then deviceBehind s.random msgType else s.random := by
  rcases answer_cases s count hkeep with ⟨rfl, heq⟩ | ⟨t, ht, henabled, rfl, heq⟩
  · rw [heq, deviceBehind, if_pos rfl, answerBytes, NrpdMsgType.ofCode_code]
    exact spends_answerEntropy count ha hmax
  · have hne : t.code ≠ NrpdMsgType.entropy.code := fun hcode => by
      obtain rfl := NrpdMsgType.code_injective hcode
      cases ht
    obtain ⟨hspends, hrandom⟩ := spends_answerPeers count ht ha hmax henabled
    rw [heq, deviceBehind, if_neg hne, ite_self, answerBytes, NrpdMsgType.ofCode_code]
    refine ⟨?_, hrandom⟩
    cases t with
    | ip4peers | ip6peers => exact hspends
    | _ => cases ht

end ParseState

/-! ### The reserved room -/

/-- The reject message with all rejections fits behind the messages. -/
def ParseState.Reserved (s : ParseState) : Prop :=
  s.rejections = [] ∨ 4 + 2 * (s.rejections.length : ℤ) ≤ s.bytesRemaining

/-- The bytes of `room` beside a reject message with `rejected` entries. -/
def roomBeside (room rejected : ℕ) : ℕ := if rejected = 0 then room else room - (4 + 2 * rejected)

/-- The bytes that one more rejection takes, with the header of the reject message when it is the
first one. -/
def rejectionRoom (rejected : ℕ) : ℕ := if rejected = 0 then 6 else 2

/-- Each message of a request that is rejected is met with the bytes that its rejection takes, when
the messages are answered one after the other from `room` bytes and `rejected` rejections on, until
no byte is left. -/
def rejectionsFit (c : NrpdConfig) (pkt : Mem) : List ℕ → RandomDevice → ℕ → ℕ → Bool
  | [], _, _, _ => true
  | o :: os, random, room, rejected =>
    let available := roomBeside room rejected
    if available = 0 then true
    else if rejectsType c (hdrMsgType pkt o) then
      rejectionRoom rejected ≤ available && rejectionsFit c pkt os random room (rejected + 1)
    else
      rejectionsFit c pkt os
        (if 5 ≤ available then deviceBehind random (hdrMsgType pkt o) else random)
        (room - answerBytes c random available (hdrMsgType pkt o) (hdrCountOrSize pkt o)) rejected

/-- What holds of `ParseMessages` behind the messages that start at `pre`, with `room` bytes left,
whatever the counts of servers are. -/
structure Spending (pkt : Mem) (c : NrpdConfig) (pre : List ℕ) (random : RandomDevice) (room : ℕ)
    (s : ParseState) : Prop where
  config : c.SameAnswers s.config
  device : s.random = random
  remaining : s.bytesRemaining = room
  max : room ≤ 1232
  rejections : s.rejections = rejectionsOf c pkt pre
  answers : ∀ m ∈ s.msgs, hdrMsgType m 0 ≠ NrpdMsgType.reject.code

section Loop

variable {pkt : Mem} {c : NrpdConfig} {random : RandomDevice} {mtu : ℤ} {pre os : List ℕ}
  {s : ParseState} {o room : ℕ}

namespace Spending

theorem start (hmin : 4 ≤ mtu) (hmax : mtu ≤ 1236) :
    Spending pkt c [] random (mtu - 4).toNat (.start mtu c random) where
  config := .refl c
  device := rfl
  remaining := by simp [ParseState.start]; omega
  max := by omega
  rejections := rfl
  answers := by simp [ParseState.start]

theorem length_rejections_le (h : Spending pkt c pre random room s) :
    s.rejections.length ≤ pre.length := by
  rw [h.rejections, rejectionsOf, List.length_map, ← List.length_map (hdrMsgType pkt)]
  exact List.length_filter_le _ _

/-- The bytes that are available. -/
theorem available_eq (h : Spending pkt c pre random room s) (hlt : pre.length < 256) :
    s.available.toNat = roomBeside room s.rejections.length := by
  have hle := h.length_rejections_le
  have hroom := h.remaining
  have hmax := h.max
  rw [ParseState.available_eq (by omega) (by omega) (by omega), roomBeside, hroom]
  simp only [List.length_eq_zero_iff]
  split_ifs <;> omega

/-- While bytes are available, the room is there. -/
theorem reserved (h : Spending pkt c pre random room s)
    (hpos : roomBeside room s.rejections.length ≠ 0) : s.Reserved := by
  have hroom := h.remaining
  by_cases hnil : s.rejections = []
  · exact .inl hnil
  · rw [roomBeside, if_neg (by simpa using hnil)] at hpos
    exact .inr (by omega)

/-- **Rejections.** A turn that rejects a message keeps the room if it has the bytes for it. -/
theorem reject (h : Spending pkt c pre random room s)
    (hreject : rejectsType c (hdrMsgType pkt o) = true) :
    Spending pkt c (pre ++ [o]) random room
        (s.answer (hdrMsgType pkt o) (hdrCountOrSize pkt o)) ∧
      (s.answer (hdrMsgType pkt o) (hdrCountOrSize pkt o)).rejections.length =
        s.rejections.length + 1 ∧
      ((s.answer (hdrMsgType pkt o) (hdrCountOrSize pkt o)).Reserved ↔
        rejectionRoom s.rejections.length ≤ roomBeside room s.rejections.length) := by
  have hroom := h.remaining
  rw [ParseState.answer_of_rejectsType ((rejectsType_congr h.config).trans hreject)]
  refine ⟨⟨h.config, h.device, hroom, h.max, ?_, h.answers⟩, ?_, ?_⟩
  · simp [ParseState.reject, h.rejections, rejectionsOf, hreject]
  · simp [ParseState.reject]
  · simp only [ParseState.Reserved, ParseState.reject, List.append_eq_nil_iff, List.cons_ne_nil,
      and_false, false_or, List.length_append, List.length_singleton, rejectionRoom, roomBeside]
    split_ifs <;> omega

/-- **Answers.** A turn that rejects nothing keeps the room. -/
theorem answer (h : Spending pkt c pre random room s) (hlt : pre.length < 256)
    (hpos : roomBeside room s.rejections.length ≠ 0)
    (hkeep : rejectsType c (hdrMsgType pkt o) = false) :
    let available := roomBeside room s.rejections.length
    Spending pkt c (pre ++ [o])
        (if 5 ≤ available then deviceBehind random (hdrMsgType pkt o) else random)
        (room - answerBytes c random available (hdrMsgType pkt o) (hdrCountOrSize pkt o))
        (s.answer (hdrMsgType pkt o) (hdrCountOrSize pkt o)) ∧
      (s.answer (hdrMsgType pkt o) (hdrCountOrSize pkt o)).rejections = s.rejections ∧
      (s.answer (hdrMsgType pkt o) (hdrCountOrSize pkt o)).Reserved := by
  intro available
  have hroom := h.remaining
  have hmax := h.max
  have heq := h.available_eq hlt
  have ha : s.available = available := by omega
  have hle : available ≤ room := by
    simp only [available, roomBeside]
    split_ifs <;> omega
  obtain ⟨hspends, hrandom⟩ := ParseState.spends_answer (hdrCountOrSize pkt o) ha (by omega)
    ((rejectsType_congr h.config).trans hkeep)
  have hremaining := hspends.remaining
  rw [h.device] at hrandom hremaining
  rw [answerBytes_congr h.config] at hremaining
  have hbytes : answerBytes c random available (hdrMsgType pkt o) (hdrCountOrSize pkt o) ≤
      available := answerBytes_le
  refine ⟨⟨h.config.trans hspends.config, hrandom, by omega, by omega, ?_, fun m hm => ?_⟩,
    hspends.rejections, ?_⟩
  · rw [hspends.rejections, h.rejections]
    simp [rejectionsOf, hkeep]
  · rcases hspends.msgs m hm with hm | htype
    · exact h.answers m hm
    · rintro hrejection
      rw [← htype, hrejection] at hkeep
      exact absurd hkeep (by simp [rejectsType])
  · rw [ParseState.Reserved, hspends.rejections]
    by_cases hnil : s.rejections = []
    · exact .inl hnil
    · have hbeside : available = room - (4 + 2 * s.rejections.length) :=
        if_neg (by simpa using hnil)
      exact .inr (by omega)

end Spending

/-- **The loop.** The room is there behind the loop exactly when it was there before it and every
rejection had its bytes. -/
theorem reserved_visitAll (hos : ∀ o ∈ os, o < endOfPacket pkt)
    (hlt : pre.length + os.length < 256) (h : Spending pkt c pre random room s) :
    ∃ pre' random' room', pre' <+: pre ++ os ∧
      Spending pkt c pre' random' room' ((parseWalk pkt).visitAll os s) ∧
      (((parseWalk pkt).visitAll os s).Reserved ↔
        s.Reserved ∧ rejectionsFit c pkt os random room s.rejections.length = true) := by
  induction os generalizing pre random room s with
  | nil =>
    refine ⟨pre, random, room, List.prefix_append _ _, h, ?_⟩
    simp [rejectionsFit]
  | cons o os ih =>
    have hinside : o < endOfPacket pkt := hos o List.mem_cons_self
    have htail : ∀ o ∈ os, o < endOfPacket pkt := fun o ho => hos o (List.mem_cons_of_mem _ ho)
    rw [List.length_cons] at hlt
    have hshort : (pre ++ [o]).length + os.length < 256 := by
      simp only [List.length_append, List.length_singleton]
      omega
    have heq := h.available_eq (by omega)
    rw [rejectionsFit]
    by_cases hzero : roomBeside room s.rejections.length = 0
    · have hguard : (parseWalk pkt).guard o s = false := by
        simp [parseWalk]
        omega
      rw [(parseWalk pkt).visitAll_cons_of_not_guard hguard, if_pos hzero]
      exact ⟨pre, random, room, List.prefix_append _ _, h, (and_iff_left rfl).symm⟩
    have hguard : (parseWalk pkt).guard o s = true := by
      simp [parseWalk, hinside]
      omega
    have hreserved := h.reserved hzero
    rw [(parseWalk pkt).visitAll_cons_of_guard hguard, if_neg hzero, and_iff_right hreserved]
    cases hreject : rejectsType c (hdrMsgType pkt o) with
    | true =>
      obtain ⟨hnext, hlength, hroom⟩ := h.reject hreject
      obtain ⟨pre', random', room', hpre, hend, hiff⟩ := ih htail hshort hnext
      refine ⟨pre', random', room', by simpa using hpre, hend, hiff.trans ?_⟩
      rw [hlength, hroom, if_pos rfl, Bool.and_eq_true, decide_eq_true_iff]
    | false =>
      obtain ⟨hnext, hsame, hroom⟩ := h.answer (by omega) hzero hreject
      obtain ⟨pre', random', room', hpre, hend, hiff⟩ := ih htail hshort hnext
      refine ⟨pre', random', room', by simpa using hpre, hend, hiff.trans ?_⟩
      rw [hsame, and_iff_right hroom, if_neg Bool.false_ne_true]

/-! ### The reject message -/

/-- Every rejection has its entry, in the reject message that comes first. -/
def KeepsRejections (s : ParseState) : Prop :=
  s.rejections ≠ [] → ∃ m msgs, s.msgs = m :: msgs ∧ IsRejection m s.rejections

/-- The reject message has all of the rejections when the room for it is there. -/
theorem Spending.keepsRejections_iff (h : Spending pkt c pre random room s)
    (hlt : pre.length < 256) :
    KeepsRejections s.pushRejections ↔ s.Reserved := by
  rw [KeepsRejections, rejections_pushRejections]
  by_cases hnil : s.rejections = []
  · exact iff_of_true (fun hne => absurd hnil hne) (.inl hnil)
  have hn := h.remaining
  have hmax := h.max
  have hle := h.length_rejections_le
  have hpos : 0 < s.rejections.length := List.length_pos_iff.2 hnil
  rw [ParseState.Reserved, or_iff_right hnil, imp_iff_right hnil, hn]
  by_cases hroom : 6 ≤ room
  · obtain ⟨m, k, hk, -, hkle, hkfit, hmessage, hpush⟩ :=
      pushRejections_of_fits h.rejections hn (by omega) hnil (by omega) hroom
    rw [hpush]
    constructor
    · rintro ⟨m', msgs, hmsgs, hall⟩
      obtain ⟨rfl, -⟩ := List.cons.inj hmsgs
      have hcount := hmessage.length.symm.trans hall.length
      rw [List.length_take, Nat.min_eq_left hkle] at hcount
      omega
    · intro hfit
      have hall : k = s.rejections.length := hk.trans (Nat.min_eq_left (by omega))
      rw [hall, List.take_length] at hmessage
      exact ⟨m, s.msgs, rfl, hmessage⟩
  · have hpush := pushRejections_eq hn (by omega) hnil (by omega)
    rw [if_neg hroom] at hpush
    rw [hpush]
    refine iff_of_false ?_ (by omega)
    rintro ⟨m, msgs, hmsgs, hall⟩
    exact h.answers m (by rw [hmsgs]; exact List.mem_cons_self) hall.msgType

/-- **No rejection is dropped** exactly when each message that is rejected is met with the bytes
that its rejection takes, six for the first one and two for another one, beside what the answers
before it take of the packet and what is reserved for the rejections before it. -/
theorem parseMessages_keepsRejections_iff (random : RandomDevice)
    (hvalid : validateRequestPacket pkt = some true)
    (hmtu : mtu = maxIp4PacketSize ∨ mtu = maxIp6PacketSize) :
    ∃ os s, IsRequestPacket pkt os ∧ parseMessages pkt mtu c random = some (true, s) ∧
      (∃ pre, pre <+: os ∧ s.rejections = rejectionsOf c pkt pre) ∧
      (KeepsRejections s ↔ rejectionsFit c pkt os random (mtu - 4).toNat 0 = true) := by
  obtain ⟨os, hos⟩ := validateRequestPacket_iff.1 hvalid
  have hrange : 263 ≤ mtu ∧ mtu ≤ 1236 := by
    rcases hmtu with rfl | rfl <;> simp
  have hlt := hos.length_lt
  have hinside : ∀ o ∈ os, o < endOfPacket pkt := fun o ho => by
    have := hos.tiles.bounds o ho
    rw [endOfPacket]
    omega
  have hstart : Spending pkt c [] random (mtu - 4).toNat (.start mtu c random) :=
    .start (by omega) hrange.2
  obtain ⟨pre, random', room, hpre, hend, hiff⟩ :=
    reserved_visitAll hinside (by simpa using hlt) hstart
  have hprele := hpre.length_le
  rw [List.nil_append] at hpre hprele
  refine ⟨os, _, hos, parseMessages_eq random hos hrange.1, ⟨pre, hpre, ?_⟩, ?_⟩
  · rw [rejections_pushRejections, hend.rejections]
  · rw [hend.keepsRejections_iff (by omega), hiff]
    exact and_iff_right (.inl rfl)

end Loop

/-- A request for 255 bytes of entropy twice, for a certificate chain, and for something unknown. -/
def roomyRequest : Mem := Mem.zero.write 0
  [0, 20, 1, 4, 0, 4, 5, 255, 0, 4, 5, 255, 0, 4, 7, 0, 0, 4, 99, 0]

set_option maxRecDepth 20000 in
/-- The answers leave `528 - 259 - 259 = 10` bytes, of which the two rejections take `6 + 2`. -/
theorem parseMessages_keepsRejections_example :
    ∃ s, parseMessages roomyRequest maxIp4PacketSize (NrpdConfig.new true false ⟨fun _ => 0, 0⟩).1
        steadyDevice = some (true, s) ∧
      s.rejections = [⟨NrpdMsgType.certchain.code, NrpdRejectReason.unsupported.code⟩,
        ⟨99, NrpdRejectReason.unsupported.code⟩] ∧
      KeepsRejections s := by
  obtain ⟨os, s, hos, hparse, -, hiff⟩ := parseMessages_keepsRejections_iff
    (c := (NrpdConfig.new true false ⟨fun _ => 0, 0⟩).1) steadyDevice
    (show validateRequestPacket roomyRequest = some true by decide) (.inl rfl)
  have htiles : Tiles (hdrLength roomyRequest) 4 [4, 8, 12, 16] 20 :=
    .cons (by decide) (.cons (by decide) (.cons (by decide) (.cons (by decide) (.nil 20))))
  obtain rfl := hos.tiles.unique htiles
  have hrejections : (parseMessages roomyRequest maxIp4PacketSize
      (NrpdConfig.new true false ⟨fun _ => 0, 0⟩).1 steadyDevice).map (·.2.rejections) =
      some [⟨NrpdMsgType.certchain.code, NrpdRejectReason.unsupported.code⟩,
        ⟨99, NrpdRejectReason.unsupported.code⟩] := rfl
  rw [hparse] at hrejections
  exact ⟨s, hparse, Option.some.inj hrejections, hiff.2 (by decide)⟩

/-- A request for 255, 255 and 5 bytes of entropy, and for a certificate chain. -/
def crowdedRequest : Mem := Mem.zero.write 0
  [0, 20, 1, 4, 0, 4, 5, 255, 0, 4, 5, 255, 0, 4, 5, 5, 0, 4, 7, 0]

set_option maxRecDepth 20000 in
/-- The answers leave `528 - 259 - 259 - 9 = 1` byte, which is enough for the loop to go on to the
last message, but not for its rejection. -/
theorem crowdedRequest_drops : ∃ c s, validateRequestPacket crowdedRequest = some true ∧
    parseMessages crowdedRequest maxIp4PacketSize c steadyDevice = some (true, s) ∧
    s.rejections = [⟨NrpdMsgType.certchain.code, NrpdRejectReason.unsupported.code⟩] ∧
    ¬ KeepsRejections s := by
  have hparse : ∃ s, parseMessages crowdedRequest maxIp4PacketSize
        (NrpdConfig.new true false ⟨fun _ => 0, 0⟩).1 steadyDevice = some (true, s) ∧
      s.rejections = [⟨NrpdMsgType.certchain.code, NrpdRejectReason.unsupported.code⟩] ∧
      s.msgs.map (hdrMsgType · 0) = List.replicate 3 NrpdMsgType.entropy.code :=
    ⟨_, rfl, rfl, rfl⟩
  obtain ⟨s, hs, hrejections, htypes⟩ := hparse
  refine ⟨_, s, by decide, hs, hrejections, fun h => ?_⟩
  obtain ⟨m, msgs, hmsgs, hrejection⟩ := h (by simp [hrejections])
  rw [hmsgs, List.map_cons, hrejection.msgType] at htypes
  exact absurd (List.cons.inj htypes).1 (by decide)

end Nrpd
