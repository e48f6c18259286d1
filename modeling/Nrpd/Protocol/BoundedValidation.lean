import Nrpd.Protocol.Validation

/-!
# The bytes that validation reads

The validators once more, over a buffer of a given size: a byte behind the buffer has no value, and
a validator that reads one has no result. They agree with those over an unbounded memory as long as
nothing behind the buffer is read. The loop over the messages asks only that a header starts before
the end of the packet, and the entries of a reject message are read before its end is compared with
that of the packet. So the last header of a packet may lie across the end of the buffer, and so may
the entries of the last reject message.

## Main definitions

* `validateMessageHeaderIn`, `validatePacketRunIn`: the validators.
* `EntriesInside`, `HeaderInside`: the entries and the headers that are judged without a read behind
  the buffer.

## Main results

* `validateMessageHeaderIn_of_inside`, `validateMessageHeaderIn_of_not_inside`: one header.
* `validatePacketRunIn_eq`: the loop agrees with the one over an unbounded memory.
* `readsInside_iff`: when nothing behind the buffer is read.
-/

namespace Nrpd

open FixedWidth FuelLoop Mem

/-! ### The validators -/

/-- `ValidateMessageSize`. -/
def validateMessageSizeIn (m : Mem) (size hdr msgSize : ℕ) : Option Bool :=
  (m.be16In size hdr).bind fun length =>
    (m.byteIn size (hdr + 3)).bind fun countOrSize =>
      if u64 (length - 4) ≠ u64 (countOrSize.toNat * msgSize) then some false else some true

/-- The message types that a reject entry may not have. -/
def isBadType (msgType : UInt8) : Bool :=
  msgType ≥ nrpdMsgTypeMax || msgType < requestMsgMin || msgType = NrpdMsgType.entropy.code

/-- The loop of `ValidateRejectMessage`. -/
def validateRejectEntriesIn (m : Mem) (size : ℕ) : ℕ → ℕ → Option Bool
  | 0, _ => some true
  | count + 1, msg =>
    (m.byteIn size msg).bind fun msgType =>
      if isBadType msgType then some false
      else
        (m.byteIn size (msg + 1)).bind fun reason =>
          if reason ≥ nrpdRejectReasonMax then some false
          else validateRejectEntriesIn m size count (msg + sizeofReject)

/-- `ValidateRejectMessage`. -/
def validateRejectMessageIn (m : Mem) (size hdr : ℕ) : Option Bool :=
  (m.be16In size hdr).bind fun length =>
    if length > maxRejectMessageSize then some false
    else
      (m.byteIn size (hdr + 2)).bind fun msgType =>
        if msgType ≠ NrpdMsgType.reject.code then some false
        else
          (m.byteIn size (hdr + 3)).bind fun countOrSize =>
            if countOrSize = 0 then some false
            else if u64 (length - 4) % sizeofReject ≠ 0 then some false
            else validateRejectEntriesIn m size countOrSize.toNat (hdrContent hdr)

/-- The size check of the branches for peers and entropy. -/
def validateContentSizeIn (m : Mem) (size hdr : ℕ) (isRequest : Bool) (itemSize : ℕ) :
    Option Bool :=
  validateMessageSizeIn m size hdr (if isRequest then 0 else itemSize)

/-- `ValidateMessageHeader`. -/
def validateMessageHeaderIn (m : Mem) (size hdr : ℕ) (isRequest : Bool) : Option Bool :=
  (m.be16In size hdr).bind fun length =>
    if length ≥ maxResponseMessageSize then some false
    else
      (m.byteIn size (hdr + 2)).bind fun msgType =>
        if msgType < (if isRequest then requestMsgMin else responseMsgMin) then some false
        else if msgType ≥ nrpdMsgTypeMax && !isRequest then some false
        else
          match NrpdMsgType.ofCode msgType with
          | some .reject =>
            if isRequest then some false
            else
              (validateMessageSizeIn m size hdr sizeofReject).bind fun sized =>
                if !sized then some false else validateRejectMessageIn m size hdr
          | some .ip4peers => validateContentSizeIn m size hdr isRequest sizeofIp4Peer
          | some .entropy => validateContentSizeIn m size hdr isRequest 1
          | some .ip6peers => validateContentSizeIn m size hdr isRequest sizeofIp6Peer
          | _ => if !isRequest then some false else some true

/-- One turn of the loop of `ValidatePacket`; it is done without a result when it reads behind the
buffer. -/
def validatePacketTurnIn (m : Mem) (size : ℕ) (isRequest : Bool) :
    ℕ × ℕ → Turn (ℕ × ℕ) (Option Bool)
  | (msgPtr, msgCount) =>
    match m.be16In size 0 with
    | none => .done none
    | some endOfPacket =>
      if msgPtr < endOfPacket then
        match validateMessageHeaderIn m size msgPtr isRequest, m.be16In size msgPtr with
        | some true, some length => .next (msgPtr + length, msgCount + 1)
        | some false, _ => .done (some false)
        | _, _ => .done none
      else
        match m.byteIn size 3 with
        | none => .done none
        | some packetCount =>
          if packetCount.toNat ≠ msgCount then .done (some false)
          else if msgPtr > endOfPacket then .done (some false)
          else .done (some true)

/-- `ValidatePacket` with fuel for the turns of its loop: `none` when the fuel runs out, `some none`
when a byte behind the buffer is read. -/
def validatePacketRunIn (fuel : ℕ) (m : Mem) (size : ℕ) (isRequest : Bool) : Option (Option Bool) :=
  match m.be16In size 0, m.byteIn size 2, m.byteIn size 3 with
  | some length, some msgType, some msgCount =>
    if length > (if isRequest then maxRequestMessageSize else maxResponseMessageSize) then
      some (some false)
    else if msgType ≠ (if isRequest then NrpdMsgType.request else .response).code then
      some (some false)
    else if msgCount = 0 then some (some false)
    else run (validatePacketTurnIn m size isRequest) fuel (pktMessages, 0)
  | _, _, _ => some none

/-! ### Reads -/

section Reads

variable {m : Mem} {size hdr msgSize : ℕ}

theorem lengthIn_of_le (h : hdr + 2 ≤ size) : m.be16In size hdr = some (hdrLength m hdr) :=
  be16In_of_le h

theorem msgTypeIn_of_le (h : hdr + 3 ≤ size) :
    m.byteIn size (hdr + 2) = some (hdrMsgType m hdr) :=
  byteIn_of_lt h

theorem countOrSizeIn_of_le (h : hdr + 4 ≤ size) :
    m.byteIn size (hdr + 3) = some (hdrCountOrSize m hdr) :=
  byteIn_of_lt h

theorem validateMessageSizeIn_of_le (h : hdr + 4 ≤ size) :
    validateMessageSizeIn m size hdr msgSize = some (validateMessageSize m hdr msgSize) := by
  rw [validateMessageSizeIn, lengthIn_of_le (by omega), countOrSizeIn_of_le h, validateMessageSize,
    apply_ite some]
  rfl

theorem validateMessageSizeIn_of_lt (h : size < hdr + 4) :
    validateMessageSizeIn m size hdr msgSize = none := by
  rw [validateMessageSizeIn, byteIn_of_le (show size ≤ hdr + 3 by omega)]
  cases m.be16In size hdr <;> rfl

end Reads

/-! ### Reject entries -/

/-- The entries of a reject message lie inside the buffer, or one of them is refused for a byte that
does. -/
def EntriesInside (m : Mem) (size count msg : ℕ) : Prop :=
  msg + 2 * count ≤ size ∨ ∃ i < count,
    msg + 2 * i < size ∧ isBadType (m (msg + 2 * i)) = true ∨
      msg + 2 * i + 1 < size ∧ nrpdRejectReasonMax ≤ m (msg + 2 * i + 1)

section Entries

variable {m : Mem} {size count msg hdr : ℕ}

theorem entriesInside_succ : EntriesInside m size (count + 1) msg ↔
    msg < size ∧ (isBadType (m msg) = true ∨ msg + 1 < size ∧
      (nrpdRejectReasonMax ≤ m (msg + 1) ∨ EntriesInside m size count (msg + 2))) := by
  have hnext (i : ℕ) : msg + 2 * (i + 1) = msg + 2 + 2 * i := by omega
  constructor
  · rintro (hfit | ⟨i, hi, hbad⟩)
    · exact ⟨by omega, .inr ⟨by omega, .inr (.inl (by omega))⟩⟩
    · cases i with
      | zero =>
        rcases hbad with ⟨hin, hbad⟩ | ⟨hin, hbad⟩
        · exact ⟨hin, .inl hbad⟩
        · exact ⟨by omega, .inr ⟨hin, .inl hbad⟩⟩
      | succ i =>
        rw [hnext] at hbad
        have hin : msg + 1 < size := by rcases hbad with ⟨hin, -⟩ | ⟨hin, -⟩ <;> omega
        exact ⟨by omega, .inr ⟨hin, .inr (.inr ⟨i, by omega, hbad⟩)⟩⟩
  · rintro ⟨hin, hbad | ⟨hin', hbad | hfit | ⟨i, hi, hbad⟩⟩⟩
    · exact .inr ⟨0, by omega, .inl ⟨hin, hbad⟩⟩
    · exact .inr ⟨0, by omega, .inr ⟨hin', hbad⟩⟩
    · exact .inl (by omega)
    · refine .inr ⟨i + 1, by omega, ?_⟩
      rw [hnext]
      exact hbad

theorem validateRejectEntries_succ : validateRejectEntries m (count + 1) msg =
    if isBadType (m msg) then false
    else if m (msg + 1) ≥ nrpdRejectReasonMax then false
    else validateRejectEntries m count (msg + 2) := rfl

/-- **Entries.** The loop over the entries agrees with the one over an unbounded memory exactly when
it reads nothing behind the buffer. -/
theorem validateRejectEntriesIn_spec (hmsg : msg ≤ size) :
    (EntriesInside m size count msg →
      validateRejectEntriesIn m size count msg = some (validateRejectEntries m count msg)) ∧
    (¬ EntriesInside m size count msg → validateRejectEntriesIn m size count msg = none) := by
  induction count generalizing msg with
  | zero => exact ⟨fun _ => rfl, fun h => absurd (.inl (by omega)) h⟩
  | succ count ih =>
    rw [entriesInside_succ, validateRejectEntriesIn, validateRejectEntries_succ]
    by_cases hin : msg < size
    · rw [byteIn_of_lt hin, Option.bind_some]
      by_cases hbad : isBadType (m msg) = true
      · rw [if_pos hbad, if_pos hbad]
        exact ⟨fun _ => rfl, fun h => absurd ⟨hin, .inl hbad⟩ h⟩
      · rw [if_neg hbad, if_neg hbad]
        by_cases hin' : msg + 1 < size
        · rw [byteIn_of_lt hin', Option.bind_some]
          by_cases hreason : m (msg + 1) ≥ nrpdRejectReasonMax
          · rw [if_pos hreason, if_pos hreason]
            exact ⟨fun _ => rfl, fun h => absurd ⟨hin, .inr ⟨hin', .inl hreason⟩⟩ h⟩
          · rw [if_neg hreason, if_neg hreason]
            obtain ⟨hsome, hnone⟩ := ih (show msg + 2 ≤ size by omega)
            refine ⟨fun h => hsome ?_, fun h => hnone fun hrest => h ?_⟩
            · exact ((h.2.resolve_left hbad).2.resolve_left hreason)
            · exact ⟨hin, .inr ⟨hin', .inr hrest⟩⟩
        · rw [byteIn_of_le (Nat.not_lt.1 hin')]
          exact ⟨fun h => absurd (h.2.resolve_left hbad).1 hin', fun _ => rfl⟩
    · rw [byteIn_of_le (Nat.not_lt.1 hin)]
      exact ⟨fun h => absurd h.1 hin, fun _ => rfl⟩

/-- A reject message whose length is that of its entries. -/
theorem validateRejectMessageIn_eq (h : hdr + 4 ≤ size)
    (htype : hdrMsgType m hdr = NrpdMsgType.reject.code)
    (hlen : hdrLength m hdr = 4 + 2 * (hdrCountOrSize m hdr).toNat) :
    validateRejectMessageIn m size hdr =
        (if hdrCountOrSize m hdr = 0 then some false
          else validateRejectEntriesIn m size (hdrCountOrSize m hdr).toNat (hdr + 4)) ∧
      validateRejectMessage m hdr =
        (if hdrCountOrSize m hdr = 0 then false
          else validateRejectEntries m (hdrCountOrSize m hdr).toNat (hdr + 4)) := by
  have hcount := (hdrCountOrSize m hdr).toNat_lt
  have hmax : ¬ hdrLength m hdr > maxRejectMessageSize := by simp; omega
  have heven : ¬ u64 ((hdrLength m hdr : ℤ) - 4) % sizeofReject ≠ 0 := by
    rw [u64_of_lt (by omega) (by omega)]
    simp
    omega
  constructor
  · rw [validateRejectMessageIn, lengthIn_of_le (by omega), msgTypeIn_of_le (by omega),
      countOrSizeIn_of_le h]
    simp only [Option.bind_some, if_neg hmax, if_neg (not_not.2 htype), if_neg heven]
  · rw [validateRejectMessage, if_neg hmax, if_neg (not_not.2 htype), if_neg heven]

end Entries

/-! ### Headers -/

/-- The validator gets as far as the count of a header: the length is in range, and the type is one
whose size is checked. -/
def ReadsCount (m : Mem) (hdr : ℕ) (isRequest : Bool) : Prop :=
  hdrLength m hdr < maxResponseMessageSize ∧
    (hdrMsgType m hdr = NrpdMsgType.ip4peers.code ∨ hdrMsgType m hdr = NrpdMsgType.entropy.code ∨
      hdrMsgType m hdr = NrpdMsgType.ip6peers.code ∨
      hdrMsgType m hdr = NrpdMsgType.reject.code ∧ isRequest = false)

/-- The validator gets as far as the entries of a reject message: it is one of a response, and its
length is that of its entries. -/
def ReadsEntries (m : Mem) (hdr : ℕ) (isRequest : Bool) : Prop :=
  isRequest = false ∧ hdrMsgType m hdr = NrpdMsgType.reject.code ∧
    hdrLength m hdr = 4 + 2 * (hdrCountOrSize m hdr).toNat

/-- A header is judged inside the buffer: it ends there, and so do the entries as far as they are
read; or just the count lies behind the buffer, and is not read; or the type lies there too, and the
length is too large. -/
inductive HeaderInside (m : Mem) (size hdr : ℕ) (isRequest : Bool) : Prop
  | whole (hend : hdr + 4 ≤ size) (hentries : ReadsEntries m hdr isRequest →
      EntriesInside m size (hdrCountOrSize m hdr).toNat (hdr + 4))
  | noCount (hend : hdr + 3 = size) (hcount : ¬ ReadsCount m hdr isRequest)
  | noType (hend : hdr + 2 = size) (hlen : maxResponseMessageSize ≤ hdrLength m hdr)

section Headers

variable {m : Mem} {size hdr : ℕ} {isRequest : Bool}

/-- What follows when the length and the type of a header have been read. -/
def typeRuleIn (m : Mem) (size hdr : ℕ) (isRequest : Bool) : NrpdMsgType → Option Bool
  | .request | .response => some false
  | .reject =>
    if isRequest then some false
    else
      (validateMessageSizeIn m size hdr sizeofReject).bind fun sized =>
        if !sized then some false else validateRejectMessageIn m size hdr
  | .ip4peers => validateContentSizeIn m size hdr isRequest sizeofIp4Peer
  | .entropy => validateContentSizeIn m size hdr isRequest 1
  | .ip6peers => validateContentSizeIn m size hdr isRequest sizeofIp6Peer
  | .certchain | .signkey | .encryptionkey | .secureentropy => some isRequest

theorem validateMessageHeaderIn_of_code (h : hdr + 3 ≤ size) {t : NrpdMsgType}
    (ht : hdrMsgType m hdr = t.code) :
    validateMessageHeaderIn m size hdr isRequest =
      if hdrLength m hdr < maxResponseMessageSize then typeRuleIn m size hdr isRequest t
      else some false := by
  rw [validateMessageHeaderIn, lengthIn_of_le (by omega), msgTypeIn_of_le h, Option.bind_some,
    Option.bind_some]
  by_cases hlen : hdrLength m hdr < maxResponseMessageSize
  · simp only [ht, NrpdMsgType.ofCode_code, ge_iff_le, hlen, Nat.not_le.2 hlen, if_false, if_true]
    cases t <;> cases isRequest <;>
      simp [NrpdMsgType.code, requestMsgMin, responseMsgMin, nrpdMsgTypeMax, typeRuleIn]
  · simp only [ge_iff_le, Nat.not_lt.1 hlen, hlen, if_true, if_false]

theorem validateMessageHeaderIn_of_unknown (h : hdr + 3 ≤ size)
    (ht : NrpdMsgType.ofCode (hdrMsgType m hdr) = none) :
    validateMessageHeaderIn m size hdr isRequest =
      some (validateMessageHeader m hdr isRequest) := by
  rw [validateMessageHeaderIn, lengthIn_of_le (by omega), msgTypeIn_of_le h, Option.bind_some,
    Option.bind_some, validateMessageHeader]
  simp only [ht, apply_ite some]

theorem validateContentSizeIn_of_le (h : hdr + 4 ≤ size) (itemSize : ℕ) :
    validateContentSizeIn m size hdr isRequest itemSize =
      some (validateContentSize m hdr isRequest itemSize) := by
  rw [validateContentSizeIn, validateMessageSizeIn_of_le h]
  cases isRequest <;> simp [validateContentSize]

/-- The reject message of a response, when the header is inside the buffer. -/
theorem typeRuleIn_reject (h : hdr + 4 ≤ size)
    (htype : hdrMsgType m hdr = NrpdMsgType.reject.code) :
    (EntriesInside m size (hdrCountOrSize m hdr).toNat (hdr + 4) ∨
        hdrLength m hdr ≠ 4 + 2 * (hdrCountOrSize m hdr).toNat →
      typeRuleIn m size hdr false .reject = some (typeRule m hdr false .reject)) ∧
    (¬ EntriesInside m size (hdrCountOrSize m hdr).toNat (hdr + 4) →
      hdrLength m hdr = 4 + 2 * (hdrCountOrSize m hdr).toNat →
      typeRuleIn m size hdr false .reject = none) := by
  have hsized : validateMessageSize m hdr sizeofReject = true ↔
      hdrLength m hdr = 4 + 2 * (hdrCountOrSize m hdr).toNat := by
    rw [validateMessageSize_iff (by simp), Nat.mul_comm]
  simp only [typeRuleIn, typeRule, Bool.false_eq_true, if_false, validateMessageSizeIn_of_le h,
    Option.bind_some, Bool.not_false, Bool.true_and]
  by_cases hlen : hdrLength m hdr = 4 + 2 * (hdrCountOrSize m hdr).toNat
  · obtain ⟨hin, htotal⟩ := validateRejectMessageIn_eq h htype hlen
    have hspec : (EntriesInside m size (hdrCountOrSize m hdr).toNat (hdr + 4) → _) ∧ (_ → _) :=
      validateRejectEntriesIn_spec h
    obtain ⟨hsome, hnone⟩ := hspec
    rw [hsized.2 hlen, hin, htotal]
    by_cases hzero : hdrCountOrSize m hdr = 0
    · rw [if_pos hzero, if_pos hzero]
      refine ⟨fun _ => rfl, fun hoff => absurd (.inl ?_) hoff⟩
      rw [hzero]
      exact h
    · rw [if_neg hzero, if_neg hzero]
      exact ⟨fun hinside => hsome (hinside.resolve_right (not_not.2 hlen)),
        fun hoff _ => hnone hoff⟩
  · have hnot : validateMessageSize m hdr sizeofReject = false :=
      Bool.eq_false_iff.2 fun hok => hlen (hsized.1 hok)
    rw [hnot]
    exact ⟨fun _ => rfl, fun _ heq => absurd heq hlen⟩

/-- A header whose type is read is judged like one of an unbounded memory when the rule of its type
is. -/
theorem validateMessageHeaderIn_of_rule (h : hdr + 3 ≤ size)
    (hrule : ∀ t, hdrMsgType m hdr = t.code → hdrLength m hdr < maxResponseMessageSize →
      typeRuleIn m size hdr isRequest t = some (typeRule m hdr isRequest t)) :
    validateMessageHeaderIn m size hdr isRequest =
      some (validateMessageHeader m hdr isRequest) := by
  cases ht : NrpdMsgType.ofCode (hdrMsgType m hdr) with
  | none => exact validateMessageHeaderIn_of_unknown h ht
  | some t =>
    have hcode := NrpdMsgType.ofCode_eq_some.1 ht
    rw [validateMessageHeaderIn_of_code h hcode, validateMessageHeader_of_code hcode]
    by_cases hlen : hdrLength m hdr < maxResponseMessageSize
    · rw [if_pos hlen, decide_eq_true hlen, Bool.true_and]
      exact hrule t hcode hlen
    · rw [if_neg hlen, decide_eq_false hlen, Bool.false_and]

/-- **Headers inside.** A header inside the buffer is judged like one of an unbounded memory. -/
theorem validateMessageHeaderIn_of_inside (h : HeaderInside m size hdr isRequest) :
    validateMessageHeaderIn m size hdr isRequest =
      some (validateMessageHeader m hdr isRequest) := by
  cases h with
  | whole hend hentries =>
    refine validateMessageHeaderIn_of_rule (by omega) fun t hcode hlen => ?_
    cases t
    case reject =>
      cases isRequest with
      | true => rfl
      | false =>
        refine (typeRuleIn_reject hend hcode).1 (or_iff_not_imp_right.2 fun hsized => ?_)
        exact hentries ⟨rfl, hcode, not_not.1 hsized⟩
    all_goals first | rfl | exact validateContentSizeIn_of_le hend _
  | noCount hend hcount =>
    refine validateMessageHeaderIn_of_rule (by omega) fun t hcode hlen => ?_
    have hno := fun hor => hcount ⟨hlen, hor⟩
    rw [hcode] at hno
    cases t <;> cases isRequest <;> first | rfl | exact absurd (by simp) hno
  | noType hend hlen =>
    rw [validateMessageHeaderIn, lengthIn_of_le (by omega), Option.bind_some, if_pos hlen,
      validateMessageHeader, if_pos hlen]

/-- **Headers across the end.** Another header is not judged without a read behind the buffer. -/
theorem validateMessageHeaderIn_of_not_inside (h : ¬ HeaderInside m size hdr isRequest) :
    validateMessageHeaderIn m size hdr isRequest = none := by
  by_cases h4 : hdr + 4 ≤ size
  · obtain ⟨⟨rfl, htype, hlen⟩, hoff⟩ := Classical.not_imp.1 fun hentries => h (.whole h4 hentries)
    have hcount := (hdrCountOrSize m hdr).toNat_lt
    rw [validateMessageHeaderIn_of_code (by omega) htype, if_pos (by simp; omega)]
    exact (typeRuleIn_reject h4 htype).2 hoff hlen
  by_cases h3 : hdr + 3 = size
  · obtain ⟨hlen, htype⟩ := not_not.1 fun hcount => h (.noCount h3 hcount)
    have hnone (msgSize : ℕ) : validateMessageSizeIn m size hdr msgSize = none :=
      validateMessageSizeIn_of_lt (by omega)
    rcases htype with htype | htype | htype | ⟨htype, rfl⟩ <;>
      rw [validateMessageHeaderIn_of_code (by omega) htype, if_pos hlen] <;>
      simp [typeRuleIn, validateContentSizeIn, hnone]
  by_cases h2 : hdr + 2 = size
  · have hlen : ¬ hdrLength m hdr ≥ maxResponseMessageSize := fun hlen => h (.noType h2 hlen)
    rw [validateMessageHeaderIn, lengthIn_of_le (by omega), Option.bind_some, if_neg hlen,
      byteIn_of_le (by omega)]
    rfl
  · rw [validateMessageHeaderIn, be16In_of_lt (by omega)]
    rfl

end Headers

/-! ### The loop -/

section Loop

variable {m : Mem} {size : ℕ} {isRequest : Bool}

/-- The headers that the loop meets lie inside the buffer. -/
def HeadersInside (m : Mem) (size : ℕ) (isRequest : Bool) : Prop :=
  ∀ o, HeaderReached m isRequest o → o < endOfPacket m → HeaderInside m size o isRequest

/-- Where no header lies across the end of the buffer, a turn agrees with the one over an unbounded
memory. -/
theorem validatePacketTurnIn_eq (h4 : 4 ≤ size) {s : ℕ × ℕ}
    (h : s.1 < endOfPacket m → HeaderInside m size s.1 isRequest) :
    validatePacketTurnIn m size isRequest s = (validatePacketTurn m isRequest s).map some := by
  obtain ⟨o, k⟩ := s
  have hend : m.be16In size 0 = some (endOfPacket m) := be16In_of_le (by omega)
  have hcount : m.byteIn size 3 = some (pktMsgCount m) := byteIn_of_lt (by omega)
  simp only [validatePacketTurnIn, validatePacketTurn, hend, hcount]
  by_cases hlt : o < endOfPacket m
  · have hinside := h hlt
    have hlength : m.be16In size o = some (hdrLength m o) :=
      lengthIn_of_le (by cases hinside <;> omega)
    rw [validateMessageHeaderIn_of_inside hinside, hlength, if_pos hlt, if_pos hlt]
    cases validateMessageHeader m o isRequest <;> rfl
  · rw [if_neg hlt, if_neg hlt]
    split_ifs <;> rfl

/-- A turn at a header across the end of the buffer has no result. -/
theorem validatePacketTurnIn_of_off (h4 : 4 ≤ size) {s : ℕ × ℕ} (hlt : s.1 < endOfPacket m)
    (h : ¬ HeaderInside m size s.1 isRequest) :
    validatePacketTurnIn m size isRequest s = .done none := by
  obtain ⟨o, k⟩ := s
  have hend : m.be16In size 0 = some (endOfPacket m) := be16In_of_le (by omega)
  have hlt' : o < endOfPacket m := hlt
  simp only [validatePacketTurnIn, hend, if_pos hlt', validateMessageHeaderIn_of_not_inside h]

theorem validatePacketRunIn_of_entersLoop (h4 : 4 ≤ size) (h : EntersLoop m isRequest) (fuel : ℕ) :
    validatePacketRunIn fuel m size isRequest =
      run (validatePacketTurnIn m size isRequest) fuel (pktMessages, 0) := by
  obtain ⟨hlen, htype, hcount⟩ := h
  have hlength : m.be16In size 0 = some (pktLength m) := be16In_of_le (by omega)
  have hmsgType : m.byteIn size 2 = some (pktMsgType m) := byteIn_of_lt (by omega)
  have hmsgCount : m.byteIn size 3 = some (pktMsgCount m) := byteIn_of_lt (by omega)
  simp only [validatePacketRunIn, hlength, hmsgType, hmsgCount, gt_iff_lt, Nat.not_lt.2 hlen, htype,
    hcount, ne_eq, not_true_eq_false, if_false]

theorem validatePacketRunIn_of_not_entersLoop (h4 : 4 ≤ size) (h : ¬ EntersLoop m isRequest)
    (fuel : ℕ) : validatePacketRunIn fuel m size isRequest = some (some false) := by
  have hlength : m.be16In size 0 = some (pktLength m) := be16In_of_le (by omega)
  have hmsgType : m.byteIn size 2 = some (pktMsgType m) := byteIn_of_lt (by omega)
  have hmsgCount : m.byteIn size 3 = some (pktMsgCount m) := byteIn_of_lt (by omega)
  simp only [validatePacketRunIn, hlength, hmsgType, hmsgCount]
  by_cases h1 : pktLength m > if isRequest then maxRequestMessageSize else maxResponseMessageSize
  · rw [if_pos h1]
  rw [if_neg h1]
  by_cases h2 : pktMsgType m ≠ (if isRequest then NrpdMsgType.request else .response).code
  · rw [if_pos h2]
  rw [if_neg h2]
  by_cases h3 : pktMsgCount m = 0
  · rw [if_pos h3]
  · exact absurd ⟨not_lt.1 h1, not_not.1 h2, h3⟩ h

/-- **The loop.** Where no header that the loop meets lies across the end of the buffer, validation
agrees with the one over an unbounded memory. -/
theorem validatePacketRunIn_eq (h4 : 4 ≤ size)
    (h : EntersLoop m isRequest → HeadersInside m size isRequest) (fuel : ℕ) :
    validatePacketRunIn fuel m size isRequest = (validatePacketRun fuel m isRequest).map some := by
  by_cases henter : EntersLoop m isRequest
  · rw [validatePacketRunIn_of_entersLoop h4 henter, validatePacketRun_of_entersLoop henter]
    refine run_eq_map (fun t ht => validatePacketTurnIn_eq h4 fun hlt => ?_) fuel
    exact h henter t.1 (.of_reaches ht) hlt
  · rw [validatePacketRunIn_of_not_entersLoop h4 henter,
      validatePacketRun_of_not_entersLoop henter, Option.map_some]

/-- No byte behind the buffer is read, however many turns the loop takes. -/
def ReadsInside (m : Mem) (size : ℕ) (isRequest : Bool) : Prop :=
  ∀ fuel, validatePacketRunIn fuel m size isRequest ≠ some none

/-- **Reads.** Nothing behind the receive buffer is read if and only if each header that the loop
meets lies inside the buffer, with the entries that are read, or is judged by the part that does. -/
theorem readsInside_iff (m : Mem) (isRequest : Bool) :
    ReadsInside m maxResponseMessageSize isRequest ↔
      (EntersLoop m isRequest → HeadersInside m maxResponseMessageSize isRequest) := by
  have h4 : 4 ≤ maxResponseMessageSize := by decide
  generalize maxResponseMessageSize = size at h4 ⊢
  constructor
  · intro hreads henter o hreached hlt
    by_contra hoff
    -- the loop gets to this header, or to an earlier one that lies across the end
    let Off (s : ℕ × ℕ) : Prop := s.1 < endOfPacket m ∧ ¬ HeaderInside m size s.1 isRequest
    have hagree (s : ℕ × ℕ) (hs : ¬ Off s) : validatePacketTurnIn m size isRequest s =
        (validatePacketTurn m isRequest s).map some :=
      validatePacketTurnIn_eq h4 fun hlt => not_not.1 fun hoff => hs ⟨hlt, hoff⟩
    obtain ⟨k, hk⟩ := hreached.exists_reaches
    obtain ⟨s, ⟨hlt, hoff⟩, hs⟩ : ∃ s, Off s ∧
        Reaches (validatePacketTurnIn m size isRequest) (pktMessages, 0) s := by
      rcases hk.or_off hagree with hs | hs
      · exact ⟨_, ⟨hlt, hoff⟩, hs⟩
      · exact hs
    obtain ⟨fuel, hfuel⟩ := exists_run_of_reaches hs (validatePacketTurnIn_of_off h4 hlt hoff)
    exact hreads fuel (by rw [validatePacketRunIn_of_entersLoop h4 henter, hfuel])
  · intro h fuel hnone
    rw [validatePacketRunIn_eq h4 h] at hnone
    cases hrun : validatePacketRun fuel m isRequest <;> simp [hrun] at hnone

end Loop

/-- A request of 65507 bytes, whose first message has type `certchain` and ends one byte before the
end of the packet. -/
def overrunningRequest : Mem := Mem.zero.write 0 [255, 227, 1, 2, 255, 222, 7, 0]

/-- The second header starts at the last byte of the buffer. -/
theorem overrunningRequest_reads_behind :
    HeaderReached overrunningRequest true 65506 ∧ endOfPacket overrunningRequest = 65507 ∧
      validatePacketRunIn 2 overrunningRequest maxResponseMessageSize true = some none ∧
      ¬ ReadsInside overrunningRequest maxResponseMessageSize true := by
  have hnone :
      validatePacketRunIn 2 overrunningRequest maxResponseMessageSize true = some none := by
    decide
  exact ⟨HeaderReached.first.behind (by decide) (by decide), by decide, hnone, fun h => h 2 hnone⟩

end Nrpd
