import Nrpd.Server.NrpdServer

/-!
# Answers to single messages

What `GeneratePeersResponse` and `GenerateEntropyResponse` return. Sizes are computed without
wrapping as long as a peers message with all counted servers has a size in the range of `int`.

## Main definitions

* `NrpdConfig.SameAnswers`: configurations that answer requests alike.
* `NrpdConfig.SizesFit`: peers messages with all counted servers have sizes in the range of `int`.
* `NrpdConfig.CountsFit`: bounds on the servers and the cached counts from which this follows.
* `IsAnswer`: a message of the grammar with a given type and size.
* `IsPeersAnswer`, `IsEntropyAnswer`: what the generators of answers return.

## Main results

* `calculateMessageSize_cases`, `calculateMessageSize_maximal`: the size that is computed.
* `generatePeersResponse_spec`, `generateEntropyResponse_spec`: the answers.
-/

namespace Nrpd

open FixedWidth

/-! ### Sizes -/

/-- The number of records that fit, of those that are asked for. -/
def fittingCount (availableBytes messageSize messageCount : ℕ) : ℕ :=
  min messageCount ((availableBytes - 4) / messageSize)

section Sizes

variable {availableBytes messageSize messageCount : ℕ}

theorem fittingCount_le_messageCount :
    fittingCount availableBytes messageSize messageCount ≤ messageCount :=
  Nat.min_le_left _ _

theorem size_fittingCount_le (messageSize messageCount : ℕ) (h4 : 4 ≤ availableBytes) :
    4 + messageSize * fittingCount availableBytes messageSize messageCount ≤ availableBytes := by
  have hdiv := Nat.mul_div_le (availableBytes - 4) messageSize
  have hmin : messageSize * fittingCount availableBytes messageSize messageCount ≤
      messageSize * ((availableBytes - 4) / messageSize) :=
    Nat.mul_le_mul_left _ (Nat.min_le_right _ _)
  omega

theorem fittingCount_pos (hpos : 0 < messageSize) (hcount : 0 < messageCount)
    (hfits : 4 + messageSize ≤ availableBytes) :
    0 < fittingCount availableBytes messageSize messageCount :=
  Nat.lt_min.2 ⟨hcount, Nat.div_pos (by omega) hpos⟩

/-- The ways of `CalculateMessageSize`: no room for a header, room for all records, for none, and
for some. -/
theorem calculateMessageSize_cases (messageCount : ℤ) (hmax : messageSize < 4294967296)
    (havailable : availableBytes < 2147483648) :
    calculateMessageSize availableBytes messageSize messageCount =
      if availableBytes < 4 then (0, messageCount)
      else if u32 (4 + messageSize * messageCount) ≤ availableBytes then
        (u32 (4 + messageSize * messageCount), messageCount)
      else if (availableBytes - 4) / messageSize = 0 then (0, messageCount)
      else (4 + messageSize * ((availableBytes - 4) / messageSize),
        (((availableBytes - 4) / messageSize : ℕ) : ℤ)) := by
  have hquot : (availableBytes - 4) / messageSize ≤ availableBytes - 4 := Nat.div_le_self _ _
  have hmul := Nat.mul_div_le (availableBytes - 4) messageSize
  have hcast : ((4 : ℕ) : ℤ) + messageSize * (((availableBytes - 4) / messageSize : ℕ) : ℤ) =
      ((4 + messageSize * ((availableBytes - 4) / messageSize) : ℕ) : ℤ) := by push_cast; rfl
  simp only [calculateMessageSize, nrpMessageHeaderSize, u32_natCast hmax]
  rw [i32_natCast (by omega)]
  simp only [hcast]
  rw [u32_natCast (by omega)]
  rfl

/-- **Sizes.** A message gets the records that fit, if there is room for one. -/
theorem calculateMessageSize_eq (havailable : availableBytes < 2147483648) (hpos : 0 < messageSize)
    (hcount : 0 < messageCount) (hrange : 4 + messageSize * messageCount < 2147483648) :
    calculateMessageSize availableBytes messageSize messageCount =
      if 4 + messageSize ≤ availableBytes then
        (4 + messageSize * fittingCount availableBytes messageSize messageCount,
          (fittingCount availableBytes messageSize messageCount : ℤ))
      else (0, (messageCount : ℤ)) := by
  have hle : messageSize ≤ messageSize * messageCount := Nat.le_mul_of_pos_right _ hcount
  have hcast : (4 : ℤ) + messageSize * messageCount =
      ((4 + messageSize * messageCount : ℕ) : ℤ) := by push_cast; rfl
  rw [calculateMessageSize_cases _ (by omega) havailable, hcast, u32_natCast (by omega)]
  by_cases h4 : availableBytes < 4
  · rw [if_pos h4, if_neg (by omega)]
  rw [if_neg h4]
  have hquot : messageCount ≤ (availableBytes - 4) / messageSize ↔
      4 + messageSize * messageCount ≤ availableBytes := by
    rw [Nat.le_div_iff_mul_le hpos, Nat.mul_comm messageCount]
    omega
  by_cases hall : 4 + messageSize * messageCount ≤ availableBytes
  · have hfit : fittingCount availableBytes messageSize messageCount = messageCount :=
      Nat.min_eq_left (hquot.2 hall)
    rw [if_pos hall, if_pos (by omega), hfit]
  · have hfit : fittingCount availableBytes messageSize messageCount =
        (availableBytes - 4) / messageSize :=
      Nat.min_eq_right (by omega)
    rw [if_neg hall, hfit]
    by_cases hone : 4 + messageSize ≤ availableBytes
    · have : 0 < (availableBytes - 4) / messageSize := Nat.div_pos (by omega) hpos
      rw [if_neg (by omega), if_pos hone]
    · rw [if_pos (Nat.div_eq_of_lt (by omega)), if_neg hone]

/-- The division is reached with a positive size of the records. -/
theorem calculateMessageSize?_eq {messageSize messageCount : ℤ}
    (h : u32 messageSize ≠ 0 ∨ u32 (4 + messageSize * messageCount) ≤ 4) :
    calculateMessageSize? availableBytes messageSize messageCount =
      some (calculateMessageSize availableBytes messageSize messageCount) := by
  rw [calculateMessageSize?, calculateMessageSize, nrpMessageHeaderSize]
  by_cases h4 : availableBytes < 4
  · rw [if_pos h4, if_pos h4]
  rw [if_neg h4, if_neg h4]
  by_cases hall : availableBytes ≥ u32 ((4 : ℕ) + messageSize * messageCount)
  · simp only [if_pos hall]
  have hne : u32 messageSize ≠ 0 := h.resolve_right fun hle => hall (by push_cast; omega)
  simp only [if_neg hall, if_neg hne]
  exact (apply_ite some _ _ _).symm

/-- The count that fits is the largest one. -/
theorem isGreatest_fittingCount (h4 : 4 ≤ availableBytes) (hpos : 0 < messageSize) :
    IsGreatest {k : ℤ | k ≤ messageCount ∧ 4 + messageSize * k ≤ availableBytes}
      (fittingCount availableBytes messageSize messageCount) := by
  refine ⟨⟨?_, ?_⟩, ?_⟩
  · exact_mod_cast fittingCount_le_messageCount
  · exact_mod_cast size_fittingCount_le messageSize messageCount h4
  · rintro k ⟨hcount, hsize⟩
    by_cases hneg : k < 0
    · omega
    lift k to ℕ using by omega
    have hquot : k ≤ (availableBytes - 4) / messageSize := by
      rw [Nat.le_div_iff_mul_le hpos, Nat.mul_comm]
      norm_cast at hsize
      omega
    exact_mod_cast Nat.le_min.2 ⟨Int.ofNat_le.1 hcount, hquot⟩

theorem u32_size_zero (messageCount : ℤ) : u32 (4 + ((0 : ℕ) : ℤ) * messageCount) = 4 := by
  rw [Int.natCast_zero, Int.zero_mul]
  rfl

/-- Records without bytes all fit. -/
theorem calculateMessageSize_zero (havailable : availableBytes < 2147483648)
    (h4 : 4 ≤ availableBytes) (messageCount : ℤ) :
    calculateMessageSize availableBytes ((0 : ℕ) : ℤ) messageCount = (4, messageCount) := by
  rw [calculateMessageSize_cases _ (by omega) havailable, if_neg (by omega), u32_size_zero,
    if_pos h4]

/-- A message that has no room for one record. -/
theorem calculateMessageSize_of_lt (havailable : availableBytes < 2147483648)
    (hcount : 0 < messageCount) (hrange : 4 + messageSize * messageCount < 2147483648)
    (hnone : availableBytes < 4 + messageSize) :
    calculateMessageSize availableBytes messageSize messageCount = (0, (messageCount : ℤ)) := by
  by_cases hzero : messageSize = 0
  · rw [calculateMessageSize_cases _ (by omega) havailable, if_pos (by omega)]
  · rw [calculateMessageSize_eq havailable (Nat.pos_of_ne_zero hzero) hcount hrange,
      if_neg (by omega)]

/-- A message that has room for one record. -/
theorem calculateMessageSize_of_le (havailable : availableBytes < 2147483648)
    (hcount : 0 < messageCount) (hrange : 4 + messageSize * messageCount < 2147483648)
    (hone : 4 + messageSize ≤ availableBytes) :
    ∃ k : ℕ,
      calculateMessageSize availableBytes messageSize messageCount = (4 + messageSize * k, ↑k) ∧
      IsGreatest {k : ℤ | k ≤ messageCount ∧ 4 + messageSize * k ≤ availableBytes} k := by
  by_cases hzero : messageSize = 0
  · subst hzero
    refine ⟨messageCount, ?_, ⟨le_refl _, by omega⟩, fun k hk => hk.1⟩
    rw [calculateMessageSize_zero havailable hone, Nat.zero_mul]
  · have hpos := Nat.pos_of_ne_zero hzero
    refine ⟨_, ?_, isGreatest_fittingCount (by omega) hpos⟩
    rw [calculateMessageSize_eq havailable hpos hcount hrange, if_pos hone]

/-- **Maximal sizes.** The division is never by zero. A message that has no room for one record has
size zero, and any other gets the most records that fit. -/
theorem calculateMessageSize_maximal {availableBytes : ℕ} {messageSize messageCount : ℤ}
    (havailable : availableBytes < 2147483648) (hsize : 0 ≤ messageSize) (hcount : 1 ≤ messageCount)
    (hrange : 4 + messageSize * messageCount < 2147483648) :
    ∃ size count,
      calculateMessageSize? availableBytes messageSize messageCount = some (size, count) ∧
      calculateMessageSize availableBytes messageSize messageCount = (size, count) ∧
      (availableBytes < 4 ∨ availableBytes < 4 + messageSize → size = 0 ∧ count = messageCount) ∧
      (4 ≤ availableBytes → 4 + messageSize ≤ availableBytes →
        IsGreatest {k : ℤ | k ≤ messageCount ∧ 4 + messageSize * k ≤ availableBytes} count ∧
          size = 4 + messageSize * count) := by
  lift messageSize to ℕ using hsize
  lift messageCount to ℕ using by omega
  have hcount : 0 < messageCount := by omega
  have hrange : 4 + messageSize * messageCount < 2147483648 := by exact_mod_cast hrange
  have hle : messageSize ≤ messageSize * messageCount := Nat.le_mul_of_pos_right _ hcount
  -- records without bytes fit wherever the header does, so that the division is not reached
  have hdivides : u32 messageSize ≠ 0 ∨ u32 (4 + messageSize * (messageCount : ℤ)) ≤ 4 := by
    by_cases hzero : messageSize = 0
    · exact .inr (hzero ▸ (u32_size_zero _).le)
    · exact .inl (by rwa [u32_natCast (by omega)])
  rw [calculateMessageSize?_eq hdivides]
  by_cases hone : 4 + messageSize ≤ availableBytes
  · obtain ⟨k, hsized, hgreatest⟩ := calculateMessageSize_of_le havailable hcount hrange hone
    rw [hsized]
    exact ⟨_, _, rfl, rfl, fun hnone => by omega, fun _ _ => ⟨hgreatest, by push_cast; rfl⟩⟩
  · rw [calculateMessageSize_of_lt havailable hcount hrange (by omega)]
    exact ⟨_, _, rfl, rfl, fun _ => ⟨rfl, rfl⟩, fun _ hone' => by omega⟩

/-- Room for one record of the two that are asked for. -/
theorem calculateMessageSize_maximal_example :
    calculateMessageSize? 7 2 2 = some (6, 1) ∧
      IsGreatest {k : ℤ | k ≤ 2 ∧ 4 + 2 * k ≤ (7 : ℕ)} 1 := by
  obtain ⟨size, count, hdivides, hsized, -, hfits⟩ :=
    calculateMessageSize_maximal (show 7 < 2147483648 by decide) (show (0 : ℤ) ≤ 2 by decide)
      (show (1 : ℤ) ≤ 2 by decide) (by decide)
  obtain ⟨rfl, rfl⟩ := Prod.mk.inj (show ((6, 1) : ℕ × ℤ) = (size, count) from hsized)
  exact ⟨hdivides, (hfits (by decide) (by decide)).1⟩

end Sizes

/-! ### Configurations that answer alike -/

namespace NrpdConfig

/-- Two configurations that answer requests alike. -/
structure SameAnswers (c c' : NrpdConfig) : Prop where
  enabled : ∀ t, c'.enablePeersResponse t = c.enablePeersResponse t
  entropySize : c'.defaultEntropySize = c.defaultEntropySize
  count : ∀ t, (c'.activeServerCount t).1 = (c.activeServerCount t).1

variable {c c' c'' : NrpdConfig}

theorem SameAnswers.refl (c : NrpdConfig) : SameAnswers c c := ⟨fun _ => rfl, rfl, fun _ => rfl⟩

theorem SameAnswers.trans (h : SameAnswers c c') (h' : SameAnswers c' c'') :
    SameAnswers c c'' where
  enabled t := (h'.enabled t).trans (h.enabled t)
  entropySize := h'.entropySize.trans h.entropySize
  count t := (h'.count t).trans (h.count t)

/-- Caching a count does not change the counts. -/
theorem sameAnswers_activeServerCount (c : NrpdConfig) (type : NrpdMsgType) :
    SameAnswers c (c.activeServerCount type).2 := by
  rcases c.activeServerCount_snd type with h | h
  · rw [h]
    exact .refl c
  · rw [h]
    refine ⟨fun t => ?_, ?_, fun t => ?_⟩
    · cases isIp6Peers type <;> rfl
    · cases isIp6Peers type <;> rfl
    · simp only [activeServerCount_fst, knownCount_setCachedCount]

theorem sameAnswers_getServerList (c : NrpdConfig) (type : NrpdMsgType) (count : ℤ) :
    SameAnswers c (c.getServerList type count).2 := by
  rw [getServerList]
  split
  · exact .refl c
  · simp only
    split <;> exact c.sameAnswers_activeServerCount type

/-- Peers messages with all counted servers have sizes in the range of `int`. -/
def SizesFit (c : NrpdConfig) : Prop :=
  ∀ t, isPeersType t = true →
    0 ≤ (c.activeServerCount t).1 ∧ 4 + recordSize t * (c.activeServerCount t).1 < 2147483648

theorem SizesFit.congr (h : c.SizesFit) (hsame : SameAnswers c c') : c'.SizesFit := by
  intro t ht
  rw [hsame.count]
  exact h t ht

theorem recordSize_eq_sizeofPeer {t : NrpdMsgType} (ht : isPeersType t = true) :
    recordSize t = sizeofPeer (isIp6Peers t) ∧ recordSize t ≤ 18 := by
  cases t <;> simp [isPeersType] at ht <;> simp [recordSize, sizeofPeer, isIp6Peers]

/-- The set of active servers is small, and peers messages with as many servers as are cached have
sizes in the range of `int`. -/
structure CountsFit (c : NrpdConfig) : Prop where
  activeServers : c.activeServers.elems.length < 67108864
  cachedCount : ∀ ipv6,
    c.cachedCount ipv6 < 0 ∨ 4 + sizeofPeer ipv6 * c.cachedCount ipv6 < 2147483648

theorem CountsFit.sizesFit (h : c.CountsFit) : c.SizesFit := by
  intro t ht
  have hsize := recordSize_eq_sizeofPeer ht
  have hle : (c.activeOf (isIp6Peers t)).length ≤ c.activeServers.elems.length :=
    List.length_filter_le _ _
  have hactive := h.activeServers
  rw [activeServerCount_fst, if_pos ht, knownCount, i32_natCast (by omega)]
  split_ifs with hcached
  · have := (h.cachedCount (isIp6Peers t)).resolve_left (by omega)
    rw [hsize.1]
    exact ⟨by omega, this⟩
  · have hmul : recordSize t * (c.activeOf (isIp6Peers t)).length ≤ 18 * 67108863 :=
      Nat.mul_le_mul hsize.2 (by omega)
    have hcast : ((recordSize t * (c.activeOf (isIp6Peers t)).length : ℕ) : ℤ) =
        recordSize t * (c.activeOf (isIp6Peers t)).length := by
      push_cast
      rfl
    omega

/-- A list is returned when some servers are counted and asked for. -/
theorem exists_getServerList {type : NrpdMsgType} {count : ℤ} (htype : isPeersType type = true)
    (hcount : 0 < count) (hactive : 0 < (c.activeServerCount type).1) :
    ∃ data, (c.getServerList type count).1 = some data := by
  have hnot : (!isPeersType type || decide (count ≤ 0)) = false := by
    simp [htype, hcount]
  simp only [getServerList, hnot, Bool.false_eq_true, if_false, if_neg (not_le.2 hactive)]
  exact ⟨_, rfl⟩

end NrpdConfig

/-! ### Peers -/

/-- A message of the grammar with a given type and size. -/
structure IsAnswer (m : Mem) (t : NrpdMsgType) (size : ℕ) : Prop where
  message : IsResponseMessage m 0
  msgType : hdrMsgType m 0 = t.code
  length : hdrLength m 0 = size

/-- A count byte of zero asks for everything. -/
theorem toNat_nonpos_iff (count : UInt8) : count = 0 ↔ (count.toNat : ℤ) ≤ 0 := by
  rw [← UInt8.toNat_inj, UInt8.toNat_zero]
  omega

/-- The number of peers that a request for `count` peers is about. -/
def requestedPeers (c : NrpdConfig) (type : NrpdMsgType) (count : UInt8) : ℕ :=
  if count = 0 then (c.activeServerCount type).1.toNat
  else min (c.activeServerCount type).1.toNat count.toNat

section Peers

variable {c : NrpdConfig} {type : NrpdMsgType} {count : UInt8} {available : ℕ}

theorem requestedPeers_eq (hfit : c.SizesFit) (htype : isPeersType type = true) :
    (if (count.toNat : ℤ) ≤ 0 then (c.activeServerCount type).1
      else min (c.activeServerCount type).1 count.toNat) = (requestedPeers c type count : ℤ) := by
  have hnonneg := (hfit type htype).1
  have hzero := toNat_nonpos_iff count
  rw [requestedPeers]
  split_ifs with h1 h2 h2
  · omega
  · exact absurd (hzero.2 h1) h2
  · exact absurd (hzero.1 h2) h1
  · omega

theorem requestedPeers_le (c : NrpdConfig) (type : NrpdMsgType) (count : UInt8) :
    requestedPeers c type count ≤ (c.activeServerCount type).1.toNat := by
  rw [requestedPeers]
  split_ifs
  · exact Nat.le_refl _
  · exact Nat.min_le_left _ _

theorem requestedPeers_pos (h : 0 < (c.activeServerCount type).1) :
    0 < requestedPeers c type count := by
  rw [requestedPeers]
  split_ifs with h0
  · omega
  · have : count.toNat ≠ 0 := fun hcount => h0 (UInt8.toNat_inj.1 hcount)
    omega

theorem size_requestedPeers_lt (hfit : c.SizesFit) (htype : isPeersType type = true) :
    4 + recordSize type * requestedPeers c type count < 2147483648 := by
  obtain ⟨hnonneg, hrange⟩ := hfit type htype
  have hle : recordSize type * requestedPeers c type count ≤
      recordSize type * (c.activeServerCount type).1.toNat :=
    Nat.mul_le_mul_left _ (requestedPeers_le c type count)
  have hcast : ((recordSize type * (c.activeServerCount type).1.toNat : ℕ) : ℤ) =
      recordSize type * (c.activeServerCount type).1 := by
    rw [Int.natCast_mul, Int.toNat_of_nonneg hnonneg]
  omega

theorem recordSize_of_isPeersType (htype : isPeersType type = true) :
    (if type = .ip6peers then (sizeofIp6Peer : ℤ) else sizeofIp4Peer) = (recordSize type : ℤ) ∧
      6 ≤ recordSize type ∧ recordSize type ≤ 18 := by
  cases type <;> simp [isPeersType] at htype <;> simp [recordSize]

/-- At most 204 records fit a packet. -/
theorem fittingCount_lt (havailable : available ≤ 1232) {messageSize n : ℕ}
    (hsize : 6 ≤ messageSize) : fittingCount available messageSize n < 256 := by
  have hdiv : (available - 4) / messageSize ≤ (1232 - 4) / 6 :=
    Nat.div_le_div (by omega) hsize (by omega)
  have := Nat.min_le_right n ((available - 4) / messageSize)
  rw [fittingCount]
  omega

/-- The message that `GeneratePeersResponse` builds for `k` peers that fit. -/
private theorem isAnswer_generateResponsePeersMessage {k : ℕ} (data : List UInt8)
    (htype : isPeersType type = true) (hpos : 0 < k) (hlt : k < 256) :
    ∃ p m, generateResponsePeersMessage type (.ofNat k) (some data) (4 + recordSize type * k)
        (some 0) Mem.zero = (some p, m) ∧
      IsAnswer m type (4 + recordSize type * k) := by
  have hpeers : type = .ip4peers ∨ type = .ip6peers := by
    cases type <;> simp [isPeersType] at htype <;> simp
  have hbyte : (UInt8.ofNat k).toNat = k := by rw [UInt8.toNat_ofNat', Nat.mod_eq_of_lt hlt]
  have hne : UInt8.ofNat k ≠ 0 := fun h => by
    rw [h] at hbyte
    exact hpos.ne hbyte
  have hcomm : 4 + (UInt8.ofNat k).toNat * recordSize type = 4 + recordSize type * k := by
    rw [hbyte, Nat.mul_comm]
  refine ⟨_, _, generateResponsePeersMessage_of_fits hpeers hne hcomm.le, ?_, ?_, ?_⟩
  · exact isResponseMessage_putMessage _ _ _ _ (hpeers.imp_right .inr)
  · exact hdrMsgType_putMessage
  · have hsize := (recordSize_of_isPeersType htype).2.2
    have : recordSize type * k ≤ 18 * 255 := Nat.mul_le_mul hsize (by omega)
    rw [hcomm, hdrLength_putMessage (by omega)]

/-- What `GeneratePeersResponse` returns: a message when servers are counted and one of them fits,
with as many of the requested peers as fit. -/
structure IsPeersAnswer (c : NrpdConfig) (type : NrpdMsgType) (count : UInt8) (available : ℕ)
    (answer : Answer NrpdConfig) : Prop where
  state : c.SameAnswers answer.state
  some : (c.activeServerCount type).1 ≠ 0 ∧ 4 + recordSize type ≤ available →
    let size := 4 + recordSize type *
      fittingCount available (recordSize type) (requestedPeers c type count)
    answer.outResponseSize = size ∧ ∃ m, answer.buffer = some m ∧ IsAnswer m type size
  none : ¬ ((c.activeServerCount type).1 ≠ 0 ∧ 4 + recordSize type ≤ available) →
    answer.buffer = none

/-- **Peers.** A peers message is returned when servers are counted and one of them fits. -/
theorem generatePeersResponse_spec (count : UInt8) (hfit : c.SizesFit)
    (htype : isPeersType type = true)
    (havailable : available ≤ 1232) :
    IsPeersAnswer c type count available
      (generatePeersResponse c type count.toNat available) := by
  obtain ⟨hsize, hmin, hmax⟩ := recordSize_of_isPeersType htype
  have hnonneg := (hfit type htype).1
  have hsame := c.sameAnswers_activeServerCount type
  simp only [generatePeersResponse, hsize, requestedPeers_eq hfit htype]
  by_cases hzero : (c.activeServerCount type).1 = 0
  · have hn : requestedPeers c type count = 0 := by
      have := requestedPeers_le c type count
      omega
    simp only [hn, Int.natCast_zero, if_true]
    exact ⟨hsame, fun h => absurd hzero h.1, fun _ => rfl⟩
  · have hpos : 0 < (c.activeServerCount type).1 := by omega
    have hn : 0 < requestedPeers c type count := requestedPeers_pos hpos
    rw [if_neg (by omega), u32_natCast (by omega), calculateMessageSize_eq (by omega) (by omega) hn
      (size_requestedPeers_lt hfit htype)]
    by_cases hroom : 4 + recordSize type ≤ available
    · set k := fittingCount available (recordSize type) (requestedPeers c type count) with hk
      have hkpos : 0 < k := fittingCount_pos (by omega) hn hroom
      have hklt : k < 256 := fittingCount_lt havailable hmin
      have hkfit : 4 + recordSize type * k ≤ available := size_fittingCount_le _ _ (by omega)
      obtain ⟨data, hdata⟩ := NrpdConfig.exists_getServerList (c := (c.activeServerCount type).2)
        htype (Int.natCast_pos.2 hkpos) (by rw [hsame.count]; exact hpos)
      obtain ⟨p, m, hgen, hanswer⟩ := isAnswer_generateResponsePeersMessage data htype hkpos hklt
      simp only [if_pos hroom, i32_natCast (show 4 + recordSize type * k < 2147483648 by omega),
        u32_natCast (show 4 + recordSize type * k < 4294967296 by omega), u8_natCast hklt, hdata,
        hgen]
      rw [if_neg (by omega)]
      exact ⟨hsame.trans (NrpdConfig.sameAnswers_getServerList _ _ _),
        fun _ => ⟨rfl, m, rfl, hanswer⟩, fun h => absurd ⟨hzero, hroom⟩ h⟩
    · simp only [hroom, if_false]
      exact ⟨hsame, fun h => absurd h.2 hroom, fun _ => rfl⟩

end Peers

/-! ### Entropy -/

/-- The number of bytes that a request for entropy is about. -/
def requestedEntropy (c : NrpdConfig) (size : UInt8) : ℕ :=
  if size = 0 then c.defaultEntropySize.val.toNat else size.toNat

section Entropy

variable {c : NrpdConfig} {random : RandomDevice} {size : UInt8} {available : ℕ}

theorem requestedEntropy_mem (c : NrpdConfig) (size : UInt8) :
    0 < requestedEntropy c size ∧ requestedEntropy c size < 256 := by
  have hdefault := c.defaultEntropySize.property
  have hlt := size.toNat_lt
  rw [requestedEntropy]
  split_ifs with h0
  · omega
  · have : size.toNat ≠ 0 := fun hsize => h0 (UInt8.toNat_inj.1 hsize)
    omega

theorem requestedEntropy_eq :
    (if (size.toNat : ℤ) ≤ 0 then c.defaultEntropySize.val else size.toNat) =
      (requestedEntropy c size : ℤ) := by
  have hdefault := c.defaultEntropySize.property
  have hzero := toNat_nonpos_iff size
  rw [requestedEntropy]
  split_ifs with h1 h2 h2
  · omega
  · exact absurd (hzero.2 h1) h2
  · exact absurd (hzero.1 h2) h1
  · rfl

/-- The message that `GenerateEntropyResponse` builds for the bytes that were read. -/
private theorem isAnswer_generateResponseEntropyMessage {data : List UInt8} (hpos : data ≠ [])
    (hlt : data.length < 256) :
    ∃ p m, generateResponseEntropyMessage (.ofNat data.length) (some data) (4 + data.length)
        (some 0) Mem.zero = (some p, m) ∧
      IsAnswer m .entropy (4 + data.length) := by
  have hbyte : (UInt8.ofNat data.length).toNat = data.length := by
    rw [UInt8.toNat_ofNat', Nat.mod_eq_of_lt hlt]
  have hne : UInt8.ofNat data.length ≠ 0 := fun h => by
    rw [h] at hbyte
    exact hpos (List.length_eq_zero_iff.1 hbyte.symm)
  refine ⟨_, _, generateResponseEntropyMessage_of_fits hne (by rw [hbyte]), ?_, ?_, ?_⟩
  · have := isResponseMessage_putMessage Mem.zero 0 (.ofNat data.length)
      (data.take (UInt8.ofNat data.length).toNat) (t := .entropy) (.inr (.inl rfl))
    simpa only [recordSize, Nat.mul_one] using this
  · exact hdrMsgType_putMessage
  · rw [hbyte, hdrLength_putMessage (by omega)]

/-- What `GenerateEntropyResponse` returns: a message when a byte fits and the device delivers one,
with the bytes that the device delivers, of the requested ones that fit. -/
structure IsEntropyAnswer (c : NrpdConfig) (random : RandomDevice) (size : UInt8) (available : ℕ)
    (answer : Answer RandomDevice) : Prop where
  state : 5 ≤ available → answer.state = random.skip 1
  some : 5 ≤ available ∧
      random.delivered (fittingCount available 1 (requestedEntropy c size)) ≠ [] →
    let data := random.delivered (fittingCount available 1 (requestedEntropy c size))
    answer.outResponseSize = (4 + data.length : ℕ) ∧
      ∃ m, answer.buffer = some m ∧ IsAnswer m .entropy (4 + data.length)
  none : ¬ (5 ≤ available ∧
      random.delivered (fittingCount available 1 (requestedEntropy c size)) ≠ []) →
    answer.buffer = none

/-- **Entropy.** An entropy message is returned when a byte fits and the device delivers one. -/
theorem generateEntropyResponse_spec (c : NrpdConfig) (random : RandomDevice) (size : UInt8)
    (havailable : available ≤ 1232) :
    IsEntropyAnswer c random size available
      (generateEntropyResponse c random size.toNat available) := by
  obtain ⟨hpos, hlt⟩ := requestedEntropy_mem c size
  have hsized := calculateMessageSize_eq (by omega : available < 2147483648) Nat.one_pos hpos
    (by omega)
  simp only [Int.natCast_one, Nat.one_mul, Nat.reduceAdd] at hsized
  simp only [generateEntropyResponse, requestedEntropy_eq,
    u32_natCast (show available < 4294967296 by omega), hsized]
  by_cases hroom : 5 ≤ available
  · set k := fittingCount available 1 (requestedEntropy c size) with hk
    have hkpos : 0 < k := fittingCount_pos Nat.one_pos hpos hroom
    have hklt : k < 256 := fittingCount_le_messageCount.trans_lt hlt
    have hdataSize : ((4 + k : ℕ) : ℤ) - ((4 : ℕ) : ℤ) = k := by omega
    simp only [hroom, if_true]
    rw [i32_natCast (by omega), if_neg (by omega), hdataSize, Int.toNat_natCast]
    have hdelivered : random.delivered k = (random.read k).1.getD [] := rfl
    have hskip : (random.read k).2 = random.skip 1 := random.read_snd k
    cases hread : (random.read k).1 with
    | none =>
      rw [hread, Option.getD_none] at hdelivered
      exact ⟨fun _ => hskip, fun h => absurd hdelivered h.2, fun _ => rfl⟩
    | some data =>
      have hlen := RandomDevice.length_le_of_read hread
      rw [hread, Option.getD_some] at hdelivered
      simp only
      by_cases hnil : data = []
      · simp only [hnil, List.length_nil, Int.natCast_zero, if_true]
        exact ⟨fun _ => hskip, fun h => absurd (hdelivered.trans hnil) h.2, fun _ => rfl⟩
      · have hdata : 0 < data.length := List.length_pos_iff.2 hnil
        obtain ⟨p, m, hgen, hanswer⟩ :=
          isAnswer_generateResponseEntropyMessage hnil (by omega)
        have hactual : (if (data.length : ℤ) < k then ((4 : ℕ) : ℤ) + data.length
            else ((4 + k : ℕ) : ℤ)) = ((4 + data.length : ℕ) : ℤ) := by
          split_ifs <;> omega
        simp only [hactual, u8_natCast (show data.length < 256 by omega),
          u32_natCast (show 4 + data.length < 4294967296 by omega), hgen]
        rw [if_neg (by omega)]
        refine ⟨fun _ => hskip, fun _ => ?_, fun h => absurd ⟨hroom, hdelivered ▸ hnil⟩ h⟩
        rw [← hk, hdelivered]
        exact ⟨rfl, m, rfl, hanswer⟩
  · simp only [hroom, if_false]
    exact ⟨fun h => absurd h hroom, fun h => absurd h.1 hroom, fun _ => rfl⟩

end Entropy

end Nrpd
