import Nrpd.Lib.FixedWidth
import Nrpd.Lib.Segments
import Nrpd.Protocol.MessageFormat

/-!
# Packet validation

The validators of `protocol.cpp`. `ValidatePacket` walks the messages of a packet by their own
length fields; its loop is a `FuelLoop`, because nothing in it bounds the number of turns, and
`validatePacketRun` plays it with a given amount of fuel.

A response header that is accepted has a length of at least `4`. A request header of type
`certchain` or above is accepted whatever its length, so the loop of a request packet stands still
on such a header when its length field is `0`, and this is the only way in which the loop fails
to end.

## Main definitions

* `validateMessageSize`, `validateRejectMessage`, `validateMessageHeader`: the header checks.
* `validatePacketTurn`, `validatePacketRun`, `validatePacket`: the packet loop.
* `validateRequestPacket`, `validateResponsePacket`: its two instances.
* `HeaderReached`: the offsets at which the loop looks at a header.
* `MessageLoopEnds`, `Stalls`: when the loop ends, and when it stands still.

## Main results

* `validateMessageHeader_request_iff`: the request headers that are accepted.
* `messageLoop_ends_iff`: the loop ends, after at most as many turns as the packet has bytes, if
  and only if it does not stand still.
* `validatePacket_eq_true_iff`: the packets that are accepted.
-/

namespace Nrpd

open FixedWidth FuelLoop Segments

/-! ### Header checks -/

/-- `ValidateMessageSize`: the length without the header is the count times the size of one
record. Both sides have type `size_t`, where a length below `4` wraps round. -/
def validateMessageSize (m : Mem) (hdr : ℕ) (msgSize : ℕ) : Bool :=
  if u64 (hdrLength m hdr - 4) ≠ u64 ((hdrCountOrSize m hdr).toNat * msgSize) then false
  else true

/-- The loop of `ValidateRejectMessage` over the reject entries at `msg`. -/
def validateRejectEntries (m : Mem) : ℕ → ℕ → Bool
  | 0, _ => true
  | count + 1, msg =>
    let rej := rejectEntryAt m msg
    if rej.msgType ≥ nrpdMsgTypeMax || rej.msgType < requestMsgMin ||
        rej.msgType = NrpdMsgType.entropy.code then false
    else if rej.reason ≥ nrpdRejectReasonMax then false
    else validateRejectEntries m count (msg + sizeofReject)

/-- `ValidateRejectMessage`. -/
def validateRejectMessage (m : Mem) (hdr : ℕ) : Bool :=
  if hdrLength m hdr > maxRejectMessageSize then false
  else if hdrMsgType m hdr ≠ NrpdMsgType.reject.code then false
  else if hdrCountOrSize m hdr = 0 then false
  else if u64 (hdrLength m hdr - 4) % sizeofReject ≠ 0 then false
  else validateRejectEntries m (hdrCountOrSize m hdr).toNat (hdrContent hdr)

/-- The size check of the `ip4peers`, `entropy` and `ip6peers` branches of
`ValidateMessageHeader`: a request has no content, a response has records of `itemSize` bytes. -/
def validateContentSize (m : Mem) (hdr : ℕ) (isRequest : Bool) (itemSize : ℕ) : Bool :=
  if isRequest && !validateMessageSize m hdr 0 then false
  else if !isRequest && !validateMessageSize m hdr itemSize then false
  else true

/-- `ValidateMessageHeader`. -/
def validateMessageHeader (m : Mem) (hdr : ℕ) (isRequest : Bool) : Bool :=
  if hdrLength m hdr ≥ maxResponseMessageSize then false
  else if hdrMsgType m hdr < (if isRequest then requestMsgMin else responseMsgMin) then false
  else if hdrMsgType m hdr ≥ nrpdMsgTypeMax && !isRequest then false
  else
    match NrpdMsgType.ofCode (hdrMsgType m hdr) with
    | some .reject =>
      -- a request cannot reject
      if isRequest then false
      else if !validateMessageSize m hdr sizeofReject || !validateRejectMessage m hdr then false
      else true
    | some .ip4peers => validateContentSize m hdr isRequest sizeofIp4Peer
    | some .entropy => validateContentSize m hdr isRequest 1
    | some .ip6peers => validateContentSize m hdr isRequest sizeofIp6Peer
    -- servers are more permissive: a request of another type is accepted whatever its size
    | _ => if !isRequest then false else true

/-! ### The packet loop -/

/-- One turn of the loop of `ValidatePacket`, from a message pointer and a message count, with the
checks behind the loop as its way out. -/
def validatePacketTurn (pkt : Mem) (isRequest : Bool) : ℕ × ℕ → Turn (ℕ × ℕ) Bool
  | (msgPtr, msgCount) =>
    if msgPtr < endOfPacket pkt then
      if !validateMessageHeader pkt msgPtr isRequest then .done false
      else .next (nextMessage pkt msgPtr, msgCount + 1)
    else if (pktMsgCount pkt).toNat ≠ msgCount then .done false
    else if msgPtr > endOfPacket pkt then .done false
    else .done true

/-- `ValidatePacket` with fuel for the turns of its loop; `none` when the fuel runs out. -/
def validatePacketRun (fuel : ℕ) (pkt : Mem) (isRequest : Bool) : Option Bool :=
  if pktLength pkt > (if isRequest then maxRequestMessageSize else maxResponseMessageSize) then
    some false
  else if pktMsgType pkt ≠ (if isRequest then NrpdMsgType.request else .response).code then
    some false
  else if pktMsgCount pkt = 0 then some false
  else run (validatePacketTurn pkt isRequest) fuel (pktMessages, 0)

/-- `ValidatePacket`. The fuel is enough for every loop that ends (`messageLoop_ends_iff`), so
`none` is a call that never returns. -/
def validatePacket (pkt : Mem) (isRequest : Bool) : Option Bool :=
  validatePacketRun (pktLength pkt + 1) pkt isRequest

/-- `ValidateRequestPacket`. -/
def validateRequestPacket (pkt : Mem) : Option Bool := validatePacket pkt true

/-- `ValidateResponsePacket`. -/
def validateResponsePacket (pkt : Mem) : Option Bool := validatePacket pkt false

/-! ### Header checks, in arithmetic -/

section HeaderChecks

variable {m : Mem} {hdr : ℕ}

/-- No wrap-round makes the size check pass: the length is the header plus the records. -/
theorem validateMessageSize_iff {msgSize : ℕ} (h : msgSize ≤ 18) :
    validateMessageSize m hdr msgSize = true ↔
      hdrLength m hdr = 4 + (hdrCountOrSize m hdr).toNat * msgSize := by
  have hlen := hdrLength_lt m hdr
  have hcount : (hdrCountOrSize m hdr).toNat * msgSize ≤ 255 * 18 :=
    Nat.mul_le_mul (by have := (hdrCountOrSize m hdr).toNat_lt; omega) h
  have hr : u64 ((hdrCountOrSize m hdr).toNat * msgSize : ℕ) =
      (hdrCountOrSize m hdr).toNat * msgSize := by
    rw [u64_of_lt (by omega) (by omega)]
    rfl
  rw [Int.natCast_mul] at hr
  simp only [validateMessageSize, hr]
  by_cases h4 : 4 ≤ hdrLength m hdr
  · rw [u64_of_lt (by omega) (by omega)]
    split <;> simp <;> omega
  · have : u64 ((hdrLength m hdr : ℤ) - 4) > 255 * 18 := by rw [u64]; omega
    split <;> simp <;> omega

theorem validateContentSize_iff {isRequest : Bool} {itemSize : ℕ} (h : itemSize ≤ 18) :
    validateContentSize m hdr isRequest itemSize = true ↔
      hdrLength m hdr =
        4 + (hdrCountOrSize m hdr).toNat * (if isRequest then 0 else itemSize) := by
  cases isRequest
  · simp [validateContentSize, validateMessageSize_iff h]
  · simp [validateContentSize, validateMessageSize_iff (Nat.zero_le 18)]

/-- What `ValidateMessageHeader` asks of a header of a given type, beyond the length limit. -/
def typeRule (m : Mem) (hdr : ℕ) (isRequest : Bool) : NrpdMsgType → Bool
  | .request | .response => false
  | .reject => !isRequest && (validateMessageSize m hdr sizeofReject && validateRejectMessage m hdr)
  | .ip4peers => validateContentSize m hdr isRequest sizeofIp4Peer
  | .entropy => validateContentSize m hdr isRequest 1
  | .ip6peers => validateContentSize m hdr isRequest sizeofIp6Peer
  | .certchain | .signkey | .encryptionkey | .secureentropy => isRequest

/-- A header whose type byte is a message type. -/
theorem validateMessageHeader_of_code {t : NrpdMsgType} (ht : hdrMsgType m hdr = t.code)
    (isRequest : Bool) :
    validateMessageHeader m hdr isRequest =
      (decide (hdrLength m hdr < maxResponseMessageSize) && typeRule m hdr isRequest t) := by
  by_cases hlen : hdrLength m hdr < maxResponseMessageSize
  · simp only [validateMessageHeader, ht, NrpdMsgType.ofCode_code, ge_iff_le, hlen,
      Nat.not_le.2 hlen,
      if_false, decide_true, Bool.true_and]
    cases t <;> cases isRequest <;>
      simp [NrpdMsgType.code, requestMsgMin, responseMsgMin, nrpdMsgTypeMax, typeRule]
  · simp only [validateMessageHeader, ge_iff_le, Nat.not_lt.1 hlen, hlen, if_true, decide_false,
      Bool.false_and]

/-- A header whose type byte is no message type. -/
theorem validateMessageHeader_of_unknown (ht : NrpdMsgType.ofCode (hdrMsgType m hdr) = none)
    (isRequest : Bool) :
    validateMessageHeader m hdr isRequest =
      (decide (hdrLength m hdr < maxResponseMessageSize) && isRequest &&
        decide (nrpdMsgTypeMax ≤ hdrMsgType m hdr)) := by
  rcases NrpdMsgType.ofCode_eq_none ht with h | h
  · have h0 : hdrMsgType m hdr = 0 := UInt8.toNat_inj.1 h
    cases isRequest <;>
      simp [validateMessageHeader, h0, requestMsgMin, responseMsgMin, NrpdMsgType.code,
        nrpdMsgTypeMax]
  · have hmax : nrpdMsgTypeMax ≤ hdrMsgType m hdr := UInt8.le_iff_toNat_le.2 h
    have hmin : requestMsgMin ≤ hdrMsgType m hdr :=
      UInt8.le_iff_toNat_le.2 (Nat.le_trans (by decide) h)
    cases isRequest
    · simp [validateMessageHeader, hmax]
    · simp only [validateMessageHeader, ht]
      by_cases hlen : 65507 ≤ hdrLength m hdr
      · simp [hlen, Nat.not_lt.2 hlen]
      · simp [hmax, hmin, hlen, Nat.not_le.1 hlen]

/-- **Accepted request headers.** A request header is accepted when its type is a peers or entropy
type and its length is that of a bare header, or when its type is `certchain` or above, with no
condition on the length but the upper limit. -/
theorem validateMessageHeader_request_iff :
    validateMessageHeader m hdr true = true ↔
      hdrLength m hdr < maxResponseMessageSize ∧
        ((NrpdMsgType.ip4peers.code ≤ hdrMsgType m hdr ∧
            hdrMsgType m hdr ≤ NrpdMsgType.ip6peers.code ∧ hdrLength m hdr = 4) ∨
          NrpdMsgType.certchain.code ≤ hdrMsgType m hdr) := by
  cases ht : NrpdMsgType.ofCode (hdrMsgType m hdr) with
  | some t =>
    have hcode := NrpdMsgType.ofCode_eq_some.1 ht
    have hsize {n : ℕ} (hn : n ≤ 18) :
        validateContentSize m hdr true n = true ↔ hdrLength m hdr = 4 := by
      simp [validateContentSize_iff hn]
    rw [validateMessageHeader_of_code hcode, hcode]
    cases t <;> simp [NrpdMsgType.code, typeRule, hsize]
  | none =>
    rw [validateMessageHeader_of_unknown ht]
    have hmax : nrpdMsgTypeMax.toNat = 11 := rfl
    have h7 : NrpdMsgType.certchain.code.toNat = 7 := rfl
    have h4 : NrpdMsgType.ip4peers.code.toNat = 4 := rfl
    have h6 : NrpdMsgType.ip6peers.code.toNat = 6 := rfl
    have htype := NrpdMsgType.ofCode_eq_none ht
    simp only [Bool.and_true, Bool.and_eq_true, decide_eq_true_eq, UInt8.le_iff_toNat_le, hmax, h7,
      h4, h6]
    omega

/-- An accepted response header has at least the length of a bare header. -/
theorem hdrLength_ge_of_response (h : validateMessageHeader m hdr false = true) :
    4 ≤ hdrLength m hdr := by
  cases ht : NrpdMsgType.ofCode (hdrMsgType m hdr) with
  | some t =>
    rw [validateMessageHeader_of_code (NrpdMsgType.ofCode_eq_some.1 ht), Bool.and_eq_true] at h
    have hrule := h.2
    have hsize {n : ℕ} (hn : n ≤ 18) (hs : validateContentSize m hdr false n = true) :
        4 ≤ hdrLength m hdr := by
      have := (validateContentSize_iff hn).1 hs
      omega
    cases t <;> simp only [typeRule] at hrule
    case reject =>
      simp only [Bool.not_false, Bool.true_and, Bool.and_eq_true] at hrule
      have := (validateMessageSize_iff (by simp)).1 hrule.1
      omega
    case ip4peers => exact hsize (by simp) hrule
    case entropy => exact hsize (by simp) hrule
    case ip6peers => exact hsize (by simp) hrule
    all_goals exact absurd hrule Bool.false_ne_true
  | none =>
    rw [validateMessageHeader_of_unknown ht] at h
    simp at h

end HeaderChecks

/-! ### When the packet loop ends -/

section Termination

variable {pkt : Mem} {isRequest : Bool}

/-- The checks that `ValidatePacket` makes before its loop pass. -/
def EntersLoop (pkt : Mem) (isRequest : Bool) : Prop :=
  pktLength pkt ≤ (if isRequest then maxRequestMessageSize else maxResponseMessageSize) ∧
    pktMsgType pkt = (if isRequest then NrpdMsgType.request else .response).code ∧
    pktMsgCount pkt ≠ 0

theorem validatePacketRun_of_entersLoop (h : EntersLoop pkt isRequest) (fuel : ℕ) :
    validatePacketRun fuel pkt isRequest =
      run (validatePacketTurn pkt isRequest) fuel (pktMessages, 0) := by
  obtain ⟨hlen, htype, hcount⟩ := h
  simp only [validatePacketRun, gt_iff_lt, Nat.not_lt.2 hlen, htype, hcount, ne_eq,
    not_true_eq_false, if_false]

theorem validatePacketRun_of_not_entersLoop (h : ¬ EntersLoop pkt isRequest) (fuel : ℕ) :
    validatePacketRun fuel pkt isRequest = some false := by
  rw [validatePacketRun]
  cases isRequest
  all_goals
    simp only [Bool.false_eq_true, if_true, if_false]
    split_ifs with h1 h2 h3
    · rfl
    · rfl
    · rfl
    · exact absurd ⟨Nat.not_lt.1 h1, not_not.1 h2, h3⟩ h

/-- The loop goes round exactly when it stands before the end of the packet on a header that is
accepted. -/
theorem validatePacketTurn_eq_next {msgPtr msgCount : ℕ} {s : ℕ × ℕ} :
    validatePacketTurn pkt isRequest (msgPtr, msgCount) = .next s ↔
      msgPtr < endOfPacket pkt ∧ validateMessageHeader pkt msgPtr isRequest = true ∧
        s = (nextMessage pkt msgPtr, msgCount + 1) := by
  simp only [validatePacketTurn]
  split
  · rename_i hlt
    cases hok : validateMessageHeader pkt msgPtr isRequest with
    | false => simp
    | true =>
      simp only [hlt, Bool.not_true, Bool.false_eq_true, if_false, Turn.next.injEq, true_and]
      exact eq_comm
  · rename_i hlt
    split_ifs <;> simp [hlt]

/-- The offsets at which the loop of `ValidatePacket` looks at a header. -/
inductive HeaderReached (pkt : Mem) (isRequest : Bool) : ℕ → Prop
  | first : HeaderReached pkt isRequest pktMessages
  | behind {o : ℕ} (ho : HeaderReached pkt isRequest o) (hlt : o < endOfPacket pkt)
      (hok : validateMessageHeader pkt o isRequest = true) :
      HeaderReached pkt isRequest (nextMessage pkt o)

theorem HeaderReached.of_reaches {o k : ℕ}
    (h : Reaches (validatePacketTurn pkt isRequest) (pktMessages, 0) (o, k)) :
    HeaderReached pkt isRequest o := by
  refine h.invariant (fun s => HeaderReached pkt isRequest s.1) .first ?_
  rintro ⟨a, c⟩ b ha hturn
  obtain ⟨hlt, hok, rfl⟩ := validatePacketTurn_eq_next.1 hturn
  exact .behind ha hlt hok

theorem HeaderReached.exists_reaches {o : ℕ} (h : HeaderReached pkt isRequest o) :
    ∃ k, Reaches (validatePacketTurn pkt isRequest) (pktMessages, 0) (o, k) := by
  induction h with
  | first => exact ⟨0, .refl _⟩
  | behind _ hlt hok ih =>
    obtain ⟨k, hk⟩ := ih
    exact ⟨k + 1, hk.tail (validatePacketTurn_eq_next.2 ⟨hlt, hok, rfl⟩)⟩

/-- The message loop of `ValidatePacket` ends: every header it accepts moves the message pointer
strictly forward, and it returns after at most as many turns as the length field of the packet
says. -/
structure MessageLoopEnds (pkt : Mem) (isRequest : Bool) : Prop where
  forward : EntersLoop pkt isRequest → ∀ o, HeaderReached pkt isRequest o →
    o < endOfPacket pkt → validateMessageHeader pkt o isRequest = true → o < nextMessage pkt o
  returns : ∃ r, validatePacketRun (pktLength pkt + 1) pkt isRequest = some r

/-- The loop stands still: in a request that passes the checks before the loop, it reaches a header
inside the packet whose type is `certchain` or above and whose length field is `0`. -/
def Stalls (pkt : Mem) (isRequest : Bool) : Prop :=
  isRequest = true ∧ EntersLoop pkt isRequest ∧
    ∃ o, HeaderReached pkt isRequest o ∧ o < endOfPacket pkt ∧
      NrpdMsgType.certchain.code ≤ hdrMsgType pkt o ∧ hdrLength pkt o = 0

/-- An accepted header of length `0` stands in a request and has type `certchain` or above. -/
theorem of_validateMessageHeader_of_hdrLength_eq_zero {o : ℕ}
    (hok : validateMessageHeader pkt o isRequest = true) (h0 : hdrLength pkt o = 0) :
    isRequest = true ∧ NrpdMsgType.certchain.code ≤ hdrMsgType pkt o := by
  cases isRequest with
  | false => have := hdrLength_ge_of_response hok; omega
  | true =>
    obtain ⟨-, ⟨-, -, h4⟩ | h7⟩ := validateMessageHeader_request_iff.1 hok
    · omega
    · exact ⟨rfl, h7⟩

theorem messageLoopEnds_of_not_stalls (h : ¬ Stalls pkt isRequest) :
    MessageLoopEnds pkt isRequest := by
  have hforward : EntersLoop pkt isRequest → ∀ o, HeaderReached pkt isRequest o →
      o < endOfPacket pkt → validateMessageHeader pkt o isRequest = true →
        o < nextMessage pkt o := by
    intro henter o ho hlt hok
    by_contra hstay
    have h0 : hdrLength pkt o = 0 := by rw [nextMessage] at hstay; omega
    obtain ⟨hreq, h7⟩ := of_validateMessageHeader_of_hdrLength_eq_zero hok h0
    exact h ⟨hreq, henter, o, ho, hlt, h7, h0⟩
  refine ⟨hforward, ?_⟩
  by_cases henter : EntersLoop pkt isRequest
  · rw [validatePacketRun_of_entersLoop henter]
    -- the bytes left before the end of the packet fall with every turn
    have hfall : ∀ s s', Reaches (validatePacketTurn pkt isRequest) (pktMessages, 0) s →
        validatePacketTurn pkt isRequest s = .next s' →
        endOfPacket pkt - s'.1 < endOfPacket pkt - s.1 := by
      rintro ⟨a, c⟩ b ha hturn
      obtain ⟨hlt, hok, rfl⟩ := validatePacketTurn_eq_next.1 hturn
      have := hforward henter a (.of_reaches ha) hlt hok
      simp only
      omega
    obtain ⟨r, hr⟩ := run_isSome_of_measure (fun s => endOfPacket pkt - s.1) (pktMessages, 0) hfall
    exact ⟨r, run_mono (by simp [endOfPacket]) hr⟩
  · exact ⟨false, validatePacketRun_of_not_entersLoop henter _⟩

/-- An accepted header whose next header is the same one keeps the loop where it is. -/
theorem run_eq_none_of_nextMessage_eq {o : ℕ} (hlt : o < endOfPacket pkt)
    (hok : validateMessageHeader pkt o isRequest = true) (hstay : nextMessage pkt o = o)
    (n k : ℕ) : run (validatePacketTurn pkt isRequest) n (o, k) = none := by
  refine run_eq_none_of_stay (fun s => s.1 = o) ?_ rfl n
  rintro ⟨a, c⟩ (rfl : a = o)
  exact ⟨_, validatePacketTurn_eq_next.2 ⟨hlt, hok, rfl⟩, hstay⟩

theorem validatePacketRun_eq_none_of_stalls (h : Stalls pkt isRequest) (fuel : ℕ) :
    validatePacketRun fuel pkt isRequest = none := by
  obtain ⟨rfl, henter, o, ho, hlt, h7, h0⟩ := h
  have hok : validateMessageHeader pkt o true = true :=
    validateMessageHeader_request_iff.2 ⟨by simp [h0], .inr h7⟩
  have hnext : nextMessage pkt o = o := by simp [nextMessage, h0]
  obtain ⟨k, hk⟩ := ho.exists_reaches
  rw [validatePacketRun_of_entersLoop henter]
  exact run_eq_none_of_reaches hk
    (fun n => run_eq_none_of_nextMessage_eq hlt hok hnext n k) fuel

/-- **When the packet loop ends.** The message loop ends if and only if it does not stand still,
and a loop that stands still does so forever. -/
theorem messageLoop_ends_iff (pkt : Mem) (isRequest : Bool) :
    (MessageLoopEnds pkt isRequest ↔ ¬ Stalls pkt isRequest) ∧
      (Stalls pkt isRequest → ∀ fuel, validatePacketRun fuel pkt isRequest = none) := by
  refine ⟨⟨fun hends hstalls => ?_, messageLoopEnds_of_not_stalls⟩,
    validatePacketRun_eq_none_of_stalls⟩
  obtain ⟨r, hr⟩ := hends.returns
  rw [validatePacketRun_eq_none_of_stalls hstalls] at hr
  cases hr

/-- A request packet of eight bytes whose one message has type `certchain` and length `0`. -/
def stallingRequest : Mem := Mem.zero.write 0 [0, 8, 1, 1, 0, 0, 7, 0]

/-- `ValidateRequestPacket` never returns on `stallingRequest`. -/
theorem stallingRequest_never_validated :
    ¬ (∀ pkt isRequest, MessageLoopEnds pkt isRequest) ∧
      ∀ fuel, validatePacketRun fuel stallingRequest true = none := by
  have hstalls : Stalls stallingRequest true :=
    ⟨rfl, ⟨by decide, by decide, by decide⟩, 4, .first, by decide, by decide, by decide⟩
  refine ⟨fun h => ?_, validatePacketRun_eq_none_of_stalls hstalls⟩
  obtain ⟨r, hr⟩ := (h stallingRequest true).returns
  rw [validatePacketRun_eq_none_of_stalls hstalls] at hr
  cases hr

/-! ### What an accepted packet looks like -/

theorem run_eq_true_of_tiles {a k : ℕ} {os : List ℕ}
    (htiles : Tiles (hdrLength pkt) a os (endOfPacket pkt))
    (hok : ∀ o ∈ os, validateMessageHeader pkt o isRequest = true)
    (hcount : k + os.length = (pktMsgCount pkt).toNat) :
    run (validatePacketTurn pkt isRequest) (os.length + 1) (a, k) = some true := by
  induction os generalizing a k with
  | nil =>
    cases htiles
    exact run_of_done (by simp [validatePacketTurn, ← hcount]) _
  | cons o os ih =>
    have hlt := htiles.lt_of_ne_nil (List.cons_ne_nil _ _)
    cases htiles with
    | cons hpos htail =>
      have hturn : validatePacketTurn pkt isRequest (o, k) = .next (nextMessage pkt o, k + 1) :=
        validatePacketTurn_eq_next.2 ⟨hlt, hok o List.mem_cons_self, rfl⟩
      rw [List.length_cons, run_of_next hturn]
      exact ih htail (fun o ho => hok o (List.mem_cons_of_mem _ ho))
        (by simp only [List.length_cons] at hcount; omega)

theorem exists_tiles_of_run_eq_true {fuel a k : ℕ}
    (h : run (validatePacketTurn pkt isRequest) fuel (a, k) = some true) :
    ∃ os, Tiles (hdrLength pkt) a os (endOfPacket pkt) ∧
      (∀ o ∈ os, validateMessageHeader pkt o isRequest = true) ∧
      k + os.length = (pktMsgCount pkt).toNat := by
  induction fuel generalizing a k with
  | zero => cases h
  | succ fuel ih =>
    cases hturn : validatePacketTurn pkt isRequest (a, k) with
    | done r =>
      rw [run_of_done hturn] at h
      obtain rfl := Option.some.inj h
      simp only [validatePacketTurn] at hturn
      split_ifs at hturn with hlt _ hcount hgt
      · simp at hturn
      · simp at hturn
      · simp at hturn
      · have ha : a = endOfPacket pkt := by omega
        rw [ha]
        exact ⟨[], .nil _, by simp, by simp only [List.length_nil]; omega⟩
    | next s =>
      obtain ⟨hlt, hok, rfl⟩ := validatePacketTurn_eq_next.1 hturn
      rw [run_of_next hturn] at h
      have hpos : 0 < hdrLength pkt a := by
        by_contra h0
        have hstay : nextMessage pkt a = a := by rw [nextMessage]; omega
        rw [hstay, run_eq_none_of_nextMessage_eq hlt hok hstay] at h
        cases h
      obtain ⟨os, htiles, hall, hcount⟩ := ih h
      refine ⟨a :: os, .cons hpos htiles, ?_, by simp only [List.length_cons]; omega⟩
      rintro o ho
      rcases List.mem_cons.1 ho with rfl | ho
      · exact hok
      · exact hall o ho

/-- **Accepted packets.** A packet is accepted when it passes the checks before the loop and
messages with accepted headers, as many as its header says, fill it from behind the packet header
to its end. -/
theorem validatePacket_eq_true_iff :
    validatePacket pkt isRequest = some true ↔
      EntersLoop pkt isRequest ∧
        ∃ os, Tiles (hdrLength pkt) pktMessages os (endOfPacket pkt) ∧
          (∀ o ∈ os, validateMessageHeader pkt o isRequest = true) ∧
          os.length = (pktMsgCount pkt).toNat := by
  constructor
  · intro h
    by_cases henter : EntersLoop pkt isRequest
    · rw [validatePacket, validatePacketRun_of_entersLoop henter] at h
      obtain ⟨os, htiles, hall, hcount⟩ := exists_tiles_of_run_eq_true h
      exact ⟨henter, os, htiles, hall, by omega⟩
    · rw [validatePacket, validatePacketRun_of_not_entersLoop henter] at h
      cases h
  · rintro ⟨henter, os, htiles, hall, hcount⟩
    have hfuel : os.length + 1 ≤ pktLength pkt + 1 := by
      have := htiles.length_le
      rw [endOfPacket] at this
      omega
    rw [validatePacket, validatePacketRun_of_entersLoop henter]
    exact run_mono hfuel (run_eq_true_of_tiles htiles hall (by omega))

/-- The validator of responses always returns. -/
theorem validateResponsePacket_isSome (pkt : Mem) : ∃ r, validateResponsePacket pkt = some r :=
  (messageLoopEnds_of_not_stalls fun h => Bool.false_ne_true h.1).returns

end Termination

end Nrpd
