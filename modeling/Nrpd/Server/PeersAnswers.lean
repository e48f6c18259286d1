import Mathlib.Data.Nat.GCD.Basic
import Nrpd.Config.PeersOnTheWire
import Nrpd.Server.Answers

/-!
# How many peers an answer carries

`GeneratePeersResponse` computes the size of its message for as many active servers as are asked for
and fit, and passes their number on as an `unsigned char`. An answer carries the peers it should
exactly when this number fits the byte, and the arithmetic on counts and sizes does not wrap round
on the way to it.

## Main definitions

* `peersToCarry`: the number of peers that an answer should carry.
* `CarriesAsPromised`: what the answer should be.
* `PeersFit`: the condition on counts and sizes.

## Main results

* `peersFit_iff_of_range`: with sizes in the range of `int`, the number of peers is at most 255.
* `generatePeersResponse_carries_iff`: when an answer is what it should be.
-/

namespace Nrpd

open FixedWidth NrpdConfig

/-! ### What an answer should be -/

/-- The number of peers that an answer should carry: all active servers of the family, or as many as
are asked for, as far as there is room for them. -/
def peersToCarry (c : NrpdConfig) (type : NrpdMsgType) (msgCount available : ℕ) : ℕ :=
  let servers := (c.activeOf (isIp6Peers type)).length
  min (if msgCount = 0 then servers else min servers msgCount) ((available - 4) / recordSize type)

/-- An answer with `k` peers: its message has the size that is returned with it, which is available;
it is accepted in a response, and its entries are the first `k` servers of the family. There is a
message when there is a peer to carry. -/
structure CarriesAsPromised (c : NrpdConfig) (type : NrpdMsgType) (available k : ℕ)
    (answer : Answer NrpdConfig) : Prop where
  size : ∀ m, answer.buffer = some m →
    hdrLength m 0 = answer.outResponseSize ∧ answer.outResponseSize ≤ available
  peers : ∀ m, answer.buffer = some m → (hdrCountOrSize m 0).toNat = k ∧
    CarriesPeers m 0 type (c.listedServers type k)
  returned : 1 ≤ k → answer.buffer ≠ none

/-- The number of servers that is asked for, as `GeneratePeersResponse` computes it. -/
def askedFor (c : NrpdConfig) (type : NrpdMsgType) (msgCount : ℕ) : ℤ :=
  let counted := (c.activeServerCount type).1
  if (msgCount : ℤ) ≤ 0 then counted else min counted msgCount

/-- There is nothing to carry, or the number of peers to carry fits a byte, is reached from the
count of type `int`, and the size for all servers that are asked for does not wrap round to one that
is available. -/
def PeersFit (c : NrpdConfig) (type : NrpdMsgType) (msgCount available : ℕ) : Prop :=
  let k := peersToCarry c type msgCount available
  let asked := askedFor c type msgCount
  k = 0 ∨ k ≤ 255 ∧ 0 < asked ∧ min asked.toNat ((available - 4) / recordSize type) = k ∧
    (4 + recordSize type * asked ≤ available ∨ available < u32 (4 + recordSize type * asked))

/-! ### The message -/

/-- The end of `GeneratePeersResponse`: the list, and the message of `size` bytes with `n` peers. -/
def peersMessage (c : NrpdConfig) (type : NrpdMsgType) (n : ℤ) (size : ℕ) : Option Mem :=
  let data := ((c.activeServerCount type).2.getServerList type n).1
  let generated := generateResponsePeersMessage type (.ofNat (u8 n)) data size (some 0) Mem.zero
  generated.1.map fun _ => generated.2

section Message

variable {c : NrpdConfig} {type : NrpdMsgType} {msgCount available n size : ℕ} {asked : ℤ} {m : Mem}

theorem generatePeersResponse_of_asked (htype : isPeersType type = true)
    (havailable : available < 65536)
    (hasked : askedFor c type msgCount = asked) :
    (asked = 0 → (generatePeersResponse c type msgCount available).buffer = none) ∧
    (asked ≠ 0 → ∀ size n, calculateMessageSize available (recordSize type) asked = (size, n) →
      size < 65536 → (size = 0 → (generatePeersResponse c type msgCount available).buffer = none) ∧
        (size ≠ 0 → (generatePeersResponse c type msgCount available).outResponseSize = size ∧
          (generatePeersResponse c type msgCount available).buffer =
            peersMessage c type n size)) := by
  have hsize := (recordSize_of_isPeersType htype).1
  have hdef := hasked
  rw [askedFor] at hdef
  simp only [generatePeersResponse, hsize, hdef, u32_natCast (show available < 4294967296 by omega)]
  refine ⟨fun hzero => by rw [if_pos hzero], fun hne size n hsized hlt => ?_⟩
  rw [if_neg hne, hsized, i32_natCast (by omega)]
  refine ⟨fun hzero => by rw [if_pos (by omega)], fun hpos => ?_⟩
  rw [if_neg (by omega), u32_natCast (by omega)]
  exact ⟨rfl, rfl⟩

/-- No servers that are counted, or none that are asked for, no message. -/
theorem peersMessage_eq_none {n : ℤ} (h : n ≤ 0 ∨ (c.activeServerCount type).1 ≤ 0) :
    peersMessage c type n size = none := by
  have hsame := (c.sameAnswers_activeServerCount type).count type
  have hdata : ((c.activeServerCount type).2.getServerList type n).1 = none := by
    simp only [getServerList, hsame]
    split_ifs with h1 h2
    · rfl
    · rfl
    · simp only [Bool.or_eq_true, decide_eq_true_eq, not_or] at h1
      omega
  rw [peersMessage, hdata]
  rfl

/-- The message has the type that is asked for, and the count of its peers, as a byte. -/
theorem of_peersMessage_eq_some (htype : isPeersType type = true) {n : ℤ}
    (h : peersMessage c type n size = some m) :
    0 < u8 n ∧ 4 + recordSize type * u8 n ≤ size ∧ (hdrCountOrSize m 0).toNat = u8 n ∧
      hdrLength m 0 = 4 + recordSize type * u8 n ∧ hdrMsgType m 0 = type.code := by
  have hcases : type = .ip4peers ∨ type = .ip6peers := by
    cases type <;> simp [isPeersType] at htype <;> simp
  have hsmall := (recordSize_of_isPeersType htype).2.2
  have hlt : u8 n < 256 := by rw [u8]; omega
  have hbyte : (UInt8.ofNat (u8 n)).toNat = u8 n := by
    rw [UInt8.toNat_ofNat', Nat.mod_eq_of_lt hlt]
  have hmul : u8 n * recordSize type ≤ 255 * 18 := Nat.mul_le_mul (by omega) hsmall
  cases hdata : ((c.activeServerCount type).2.getServerList type n).1 with
  | none => simp [peersMessage, hdata, generateResponsePeersMessage] at h
  | some data =>
    rw [peersMessage, hdata] at h
    by_cases hzero : UInt8.ofNat (u8 n) = 0
    · rcases hcases with rfl | rfl <;> simp [generateResponsePeersMessage, hzero] at h
    · by_cases hroom : 4 + u8 n * recordSize type ≤ size
      · have hfit : 4 + (UInt8.ofNat (u8 n)).toNat * recordSize type ≤ size := by rwa [hbyte]
        simp only [generateResponsePeersMessage_of_fits hcases hzero hfit, hbyte] at h
        obtain rfl := Option.some.inj h
        rw [hdrCountOrSize_putMessage, hdrLength_putMessage (by omega), hdrMsgType_putMessage,
          hbyte,
          Nat.mul_comm (recordSize type)]
        refine ⟨?_, hroom, rfl, rfl, rfl⟩
        by_contra hnone
        exact hzero (by rw [Nat.eq_zero_of_not_pos hnone]; rfl)
      · have hshort : size < 4 + u8 n * recordSize type := not_le.1 hroom
        rcases hcases with rfl | rfl <;>
          simp only [recordSize] at hshort <;>
          simp [generateResponsePeersMessage, hzero, hbyte, hshort] at h

/-- The message for `n` servers that are there and counted. -/
theorem exists_peersMessage (htype : isPeersType type = true) (hpos : 1 ≤ n) (hmax : n ≤ 255)
    (hcounted : (n : ℤ) ≤ (c.activeServerCount type).1)
    (hthere : n ≤ (c.activeOf (isIp6Peers type)).length) :
    ∃ m, peersMessage c type n (4 + recordSize type * n) = some m ∧
      (hdrCountOrSize m 0).toNat = n ∧ CarriesPeers m 0 type (c.listedServers type n) := by
  have hsame := (c.sameAnswers_activeServerCount type).count type
  have hlength : (c.listedServers type n).length = n := by
    rw [listedServers, List.length_take, Nat.min_eq_left hthere]
  have hfamily : ∀ r ∈ c.listedServers type n, r.ipv6 = isIp6Peers type := fun r hr =>
    ipv6_of_mem_activeOf (List.mem_of_mem_take hr)
  have hmin : min (c.activeServerCount type).1.toNat n = n := by omega
  have hdata := getServerList_eq (c := (c.activeServerCount type).2) htype
    (n := (c.activeServerCount type).1.toNat) (k := n) (by rw [hsame]; omega) (by omega) hpos
    (by rw [activeOf_activeServerCount, hmin]; exact hthere) (by omega)
  rw [activeOf_activeServerCount, hmin] at hdata
  have hroom : 4 + (c.listedServers type n).length * recordSize type ≤ 4 + recordSize type * n := by
    rw [hlength, Nat.mul_comm]
  obtain ⟨next, m, hgenerated, hcarries⟩ := peersOf_generateResponsePeersMessage htype hfamily
    (by omega) (by omega) hroom 0 Mem.zero
  rw [hlength] at hgenerated
  have hmessage : peersMessage c type n (4 + recordSize type * n) = some m := by
    rw [peersMessage, hdata, u8_natCast (by omega)]
    exact congrArg (fun g : Option ℕ × Mem => g.1.map fun _ => g.2) hgenerated
  refine ⟨m, hmessage, ?_, hcarries⟩
  rw [(of_peersMessage_eq_some htype hmessage).2.2.1, u8_natCast (by omega)]

end Message

/-! ### Counts and sizes -/

section Counts

variable {c : NrpdConfig} {type : NrpdMsgType} {msgCount available : ℕ}

theorem recordSize_eq_of_isPeersType (htype : isPeersType type = true) :
    recordSize type = 6 ∨ recordSize type = 18 := by
  cases type <;> simp [isPeersType] at htype <;> simp [recordSize]

/-- The number that is asked for is no larger than the count, and is positive when the count is. -/
theorem askedFor_mem (msgCount : ℕ) (htype : isPeersType type = true)
    (h : c.CountTrue (isIp6Peers type)) :
    askedFor c type msgCount < 2147483648 ∧
      askedFor c type msgCount ≤ (c.activeServerCount type).1 ∧
      (0 < askedFor c type msgCount ↔ 0 < (c.activeServerCount type).1) ∧
      ((c.activeOf (isIp6Peers type)).length = 0 → askedFor c type msgCount = 0) := by
  have hcount : (c.activeServerCount type).1 = i32 (c.activeOf (isIp6Peers type)).length := by
    rw [activeServerCount_fst, if_pos htype, h.knownCount_eq]
  have hmem := i32_mem (c.activeOf (isIp6Peers type)).length
  have hzero : (c.activeOf (isIp6Peers type)).length = 0 → (c.activeServerCount type).1 = 0 :=
    fun hnone => by rw [hcount, hnone]; rfl
  rw [← hcount] at hmem
  simp only [askedFor]
  split_ifs <;> omega

/-- Nothing is to be carried when there is no room or there are no servers. -/
theorem peersToCarry_eq_zero_iff : peersToCarry c type msgCount available = 0 ↔
    (available - 4) / recordSize type = 0 ∨ (c.activeOf (isIp6Peers type)).length = 0 := by
  simp only [peersToCarry]
  generalize (available - 4) / recordSize type = fitting
  split_ifs <;> omega

theorem peersToCarry_le (c : NrpdConfig) (type : NrpdMsgType) (msgCount available : ℕ) :
    peersToCarry c type msgCount available ≤ (available - 4) / recordSize type ∧
    peersToCarry c type msgCount available ≤ (c.activeOf (isIp6Peers type)).length := by
  simp only [peersToCarry]
  generalize (available - 4) / recordSize type = fitting
  split_ifs <;> omega

/-- A size that wraps round to that of a number of peers is not that of another `int`. -/
theorem eq_of_wrapped {size n k : ℕ} (hsize : size = 6 ∨ size = 18) (hn : n < 2147483648)
    (h : u32 (4 + size * n) = 4 + size * k) : n = k := by
  obtain ⟨odd, rfl, hpos, hodd⟩ : ∃ odd, size = 2 * odd ∧ 0 < odd ∧ Nat.Coprime 2147483648 odd := by
    rcases hsize with rfl | rfl
    · exact ⟨3, rfl, by decide, by decide⟩
    · exact ⟨9, rfl, by decide, by decide⟩
  have hcast : ((4 : ℤ) + (2 * odd : ℕ) * n) = ((4 + 2 * odd * n : ℕ) : ℤ) := by push_cast; rfl
  have hmod : (4 + 2 * odd * n) % 4294967296 = 4 + 2 * odd * k := by
    rw [u32, hcast] at h
    exact_mod_cast h
  have hle : k ≤ n := by
    have hsmaller := Nat.mod_le (4 + 2 * odd * n) 4294967296
    rw [hmod] at hsmaller
    exact Nat.le_of_mul_le_mul_left (show 2 * odd * k ≤ 2 * odd * n by omega) (by omega)
  -- the difference is a multiple of the numbers of `int`, of which half the size has no factor
  have hdvd : 2147483648 ∣ odd * (n - k) := by
    have hdiv := Nat.div_add_mod (4 + 2 * odd * n) 4294967296
    have hsplit : odd * n = odd * k + odd * (n - k) := by
      rw [← Nat.mul_add, Nat.add_sub_cancel' hle]
    rw [hmod] at hdiv
    generalize (4 + 2 * odd * n) / 4294967296 = wraps at hdiv
    rw [Nat.mul_assoc, Nat.mul_assoc] at hdiv
    exact ⟨wraps, by omega⟩
  have hzero := Nat.eq_zero_of_dvd_of_lt (hodd.dvd_of_dvd_mul_left hdvd) (by omega)
  omega

end Counts

/-! ### When an answer is what it should be -/

section Answers

variable {c : NrpdConfig} {type : NrpdMsgType} {msgCount available : ℕ}

/-- With room for a peer, the message is that for all peers that are asked for when their size is
available, and for as many as fit otherwise. -/
theorem generatePeersResponse_of_room (htype : isPeersType type = true) (hmax : available ≤ 65507)
    (hroom : 4 + recordSize type ≤ available) (hne : askedFor c type msgCount ≠ 0) :
    let asked := askedFor c type msgCount
    let fitting := (available - 4) / recordSize type
    (u32 (4 + recordSize type * asked) ≤ available →
      (u32 (4 + recordSize type * asked) = 0 →
        (generatePeersResponse c type msgCount available).buffer = none) ∧
      (u32 (4 + recordSize type * asked) ≠ 0 →
        (generatePeersResponse c type msgCount available).outResponseSize =
          u32 (4 + recordSize type * asked) ∧
        (generatePeersResponse c type msgCount available).buffer =
          peersMessage c type asked (u32 (4 + recordSize type * asked)))) ∧
    (available < u32 (4 + recordSize type * asked) →
      (generatePeersResponse c type msgCount available).outResponseSize =
        (4 + recordSize type * fitting : ℕ) ∧
      (generatePeersResponse c type msgCount available).buffer =
        peersMessage c type fitting (4 + recordSize type * fitting)) := by
  intro asked fitting
  have hsmall := (recordSize_of_isPeersType htype).2
  have hfitting : 0 < fitting := Nat.div_pos (by omega) (by omega)
  have hfit : recordSize type * ((available - 4) / recordSize type) ≤ available - 4 :=
    Nat.mul_div_le _ _
  have hcases := calculateMessageSize_cases asked
    (show recordSize type < 4294967296 by omega) (show available < 2147483648 by omega)
  have hanswer := (generatePeersResponse_of_asked htype
    (show available < 65536 by omega) (Eq.refl (askedFor c type msgCount))).2 hne
  rw [if_neg (by omega)] at hcases
  refine ⟨fun hle => ?_, fun hlt => ?_⟩
  · rw [if_pos hle] at hcases
    exact hanswer _ _ hcases (by omega)
  · rw [if_neg (by omega), if_neg (by omega)] at hcases
    exact (hanswer _ _ hcases (by omega)).2 (by omega)

/-- Without room for a peer there is no message. -/
theorem buffer_eq_none_of_no_room (htype : isPeersType type = true) (hmax : available ≤ 65507)
    (hroom : available < 4 + recordSize type) :
    (generatePeersResponse c type msgCount available).buffer = none := by
  have hsmall := (recordSize_of_isPeersType htype).2
  obtain ⟨hzero, hanswer⟩ := generatePeersResponse_of_asked htype
    (show available < 65536 by omega) (Eq.refl (askedFor c type msgCount))
  by_cases hasked : askedFor c type msgCount = 0
  · exact hzero hasked
  · have hcases := calculateMessageSize_cases (askedFor c type msgCount)
      (show recordSize type < 4294967296 by omega) (show available < 2147483648 by omega)
    by_cases h4 : available < 4
    · rw [if_pos h4] at hcases
      exact (hanswer hasked _ _ hcases (by omega)).1 rfl
    · rw [if_neg h4] at hcases
      by_cases hle : u32 (4 + recordSize type * askedFor c type msgCount) ≤ available
      · rw [if_pos hle] at hcases
        obtain ⟨hnone, hsome⟩ := hanswer hasked _ _ hcases (by omega)
        by_cases hw : u32 (4 + recordSize type * askedFor c type msgCount) = 0
        · exact hnone hw
        · rw [(hsome hw).2]
          cases hmessage : peersMessage c type (askedFor c type msgCount)
              (u32 (4 + recordSize type * askedFor c type msgCount)) with
          | none => rfl
          | some m =>
            -- a message has at least one peer
            obtain ⟨hpos, hfit, -⟩ := of_peersMessage_eq_some htype hmessage
            have := Nat.le_mul_of_pos_right (recordSize type) hpos
            omega
      · have hquot : (available - 4) / recordSize type = 0 := Nat.div_eq_of_lt (by omega)
        rw [if_neg hle, if_pos hquot] at hcases
        exact (hanswer hasked _ _ hcases (by omega)).1 rfl

/-- A size that does not fit is one for more peers than fit. -/
theorem fitting_le_of_lt {size a : ℕ} (hsize : 0 < size) (h : available < u32 (4 + size * a)) :
    (available - 4) / size ≤ a := by
  have hcast : ((4 : ℤ) + size * a) = ((4 + size * a : ℕ) : ℤ) := by push_cast; rfl
  have hle : u32 (4 + size * a) ≤ 4 + size * a := by
    rw [hcast, u32]
    exact_mod_cast Nat.mod_le (4 + size * a) 4294967296
  exact Nat.le_of_lt_succ
    ((Nat.div_lt_iff_lt_mul hsize).2 (by rw [Nat.succ_mul, Nat.mul_comm]; omega))

/-- A message is one for a positive number of peers. -/
theorem askedFor_pos_of_buffer (htype : isPeersType type = true)
    (hcount : c.CountTrue (isIp6Peers type)) (hmax : available ≤ 65507)
    (hroom : 4 + recordSize type ≤ available) {m : Mem}
    (hm : (generatePeersResponse c type msgCount available).buffer = some m) :
    0 < askedFor c type msgCount := by
  obtain ⟨-, -, hpos, -⟩ := askedFor_mem msgCount htype hcount
  have hne : askedFor c type msgCount ≠ 0 := fun hzero => by
    rw [(generatePeersResponse_of_asked htype (by omega) rfl).1 hzero] at hm
    cases hm
  obtain ⟨hfull, hcut⟩ := generatePeersResponse_of_room htype hmax hroom hne
  have hnone : ∀ (n : ℤ) size, n ≤ 0 ∨ (c.activeServerCount type).1 ≤ 0 →
      peersMessage c type n size = none := fun n size => peersMessage_eq_none
  by_contra hno
  by_cases hle : u32 (4 + recordSize type * askedFor c type msgCount) ≤ available
  · by_cases hzero : u32 (4 + recordSize type * askedFor c type msgCount) = 0
    · rw [(hfull hle).1 hzero] at hm
      cases hm
    · rw [((hfull hle).2 hzero).2, hnone _ _ (.inl (by omega))] at hm
      cases hm
  · rw [(hcut (by omega)).2, hnone _ _ (.inr (by omega))] at hm
    cases hm

/-- An answer that is what it should be has counts and sizes that do not wrap round. -/
theorem peersFit_of_carries (htype : isPeersType type = true)
    (hcount : c.CountTrue (isIp6Peers type))
    (hmax : available ≤ 65507) (hroom : 4 + recordSize type ≤ available)
    (hsome : peersToCarry c type msgCount available ≠ 0)
    (h : CarriesAsPromised c type available (peersToCarry c type msgCount available)
      (generatePeersResponse c type msgCount available)) : PeersFit c type msgCount available := by
  obtain ⟨hlt, -, -, -⟩ := askedFor_mem msgCount htype hcount
  obtain ⟨hsize, hmin, -⟩ := recordSize_of_isPeersType htype
  have hsizes := recordSize_eq_of_isPeersType htype
  have hfits := (peersToCarry_le c type msgCount available).1
  obtain ⟨m, hm⟩ := Option.ne_none_iff_exists'.1 (h.returned (by omega))
  obtain ⟨hlength, -⟩ := h.size m hm
  obtain ⟨hbyte, -⟩ := h.peers m hm
  have hasked := askedFor_pos_of_buffer htype hcount hmax hroom hm
  obtain ⟨hfull, hcut⟩ := generatePeersResponse_of_room htype hmax hroom hasked.ne'
  obtain ⟨a, ha⟩ : ∃ a : ℕ, askedFor c type msgCount = a :=
    ⟨_, (Int.toNat_of_nonneg hasked.le).symm⟩
  have hbytes (n : ℤ) : u8 n ≤ 255 := by rw [u8]; omega
  have hfit : recordSize type * ((available - 4) / recordSize type) ≤ available - 4 :=
    Nat.mul_div_le _ _
  rw [ha] at hlt hasked hfull hcut
  simp only [PeersFit, ha, Int.toNat_natCast]
  set k := peersToCarry c type msgCount available with hk
  by_cases hle : u32 (4 + recordSize type * a) ≤ available
  · -- the size for all that are asked for is the size for `k`
    have hzero : u32 (4 + recordSize type * a) ≠ 0 := fun hzero => by
      rw [(hfull hle).1 hzero] at hm
      cases hm
    obtain ⟨hout, hbuffer⟩ := (hfull hle).2 hzero
    obtain ⟨-, -, hcount, hhdr, -⟩ := of_peersMessage_eq_some htype (hbuffer.symm.trans hm)
    have hak : a = k := eq_of_wrapped hsizes (by omega) (by
      rw [hhdr, hout, ← hcount, hbyte] at hlength
      exact_mod_cast hlength.symm)
    have hkfit : recordSize type * k ≤ recordSize type * ((available - 4) / recordSize type) :=
      Nat.mul_le_mul_left _ hfits
    refine .inr ⟨by rw [← hbyte, hcount]; exact hbytes a, by omega, by omega, .inl ?_⟩
    rw [hak]
    exact_mod_cast (by omega : 4 + recordSize type * k ≤ available)
  · have hlt : available < u32 (4 + recordSize type * a) := by omega
    obtain ⟨hout, hbuffer⟩ := hcut hlt
    obtain ⟨-, -, hcount, hhdr, -⟩ := of_peersMessage_eq_some htype (hbuffer.symm.trans hm)
    have hmany := fitting_le_of_lt (by omega) hlt
    have hkq : (available - 4) / recordSize type = k := by
      rw [hhdr, hout, ← hcount, hbyte] at hlength
      have : recordSize type * k = recordSize type * ((available - 4) / recordSize type) := by omega
      exact (Nat.eq_of_mul_eq_mul_left (by omega) this).symm
    refine .inr ⟨by rw [← hbyte, hcount]; exact hbytes _, by omega, by omega, .inr hlt⟩

/-- Where counts and sizes do not wrap round, the message is that for the peers to carry. -/
theorem generatePeersResponse_of_peersFit (htype : isPeersType type = true)
    (hmax : available ≤ 65507)
    (hroom : 4 + recordSize type ≤ available) (hsome : peersToCarry c type msgCount available ≠ 0)
    (h : PeersFit c type msgCount available) :
    let k := peersToCarry c type msgCount available
    (generatePeersResponse c type msgCount available).outResponseSize =
        (4 + recordSize type * k : ℕ) ∧
      (generatePeersResponse c type msgCount available).buffer =
        peersMessage c type k (4 + recordSize type * k) := by
  intro k
  obtain ⟨hsize, hmin, -⟩ := recordSize_of_isPeersType htype
  obtain ⟨-, hasked, hcarry, hnowrap⟩ := h.resolve_left hsome
  obtain ⟨hfull, hcut⟩ := generatePeersResponse_of_room htype hmax hroom hasked.ne'
  obtain ⟨a, ha⟩ : ∃ a : ℕ, askedFor c type msgCount = a :=
    ⟨_, (Int.toNat_of_nonneg hasked.le).symm⟩
  have hfit : recordSize type * ((available - 4) / recordSize type) ≤ available - 4 :=
    Nat.mul_div_le _ _
  have hcast : ((4 : ℤ) + recordSize type * a) = ((4 + recordSize type * a : ℕ) : ℤ) := by
    push_cast; rfl
  rw [ha] at hcarry hnowrap hfull hcut
  rw [Int.toNat_natCast] at hcarry
  by_cases hall : 4 + recordSize type * a ≤ available
  · have hak : a = k := by
      have := (Nat.le_div_iff_mul_le (by omega)).2
        (show a * recordSize type ≤ available - 4 by rw [Nat.mul_comm]; omega)
      omega
    rw [hcast, hak, u32_natCast (by rw [← hak]; omega)] at hfull
    exact (hfull (by rw [← hak]; exact hall)).2 (by omega)
  · have hlt : available < u32 (4 + recordSize type * a) := by
      refine hnowrap.resolve_left fun hno => hall ?_
      exact_mod_cast hno
    have hkq : (available - 4) / recordSize type = k := by
      have := fitting_le_of_lt (by omega) hlt
      omega
    rw [← hkq]
    exact hcut hlt

/-- Counts and sizes that do not wrap round make an answer what it should be. -/
theorem carries_of_peersFit (htype : isPeersType type = true)
    (hcount : c.CountTrue (isIp6Peers type))
    (hmax : available ≤ 65507) (hroom : 4 + recordSize type ≤ available)
    (hsome : peersToCarry c type msgCount available ≠ 0) (h : PeersFit c type msgCount available) :
    CarriesAsPromised c type available (peersToCarry c type msgCount available)
      (generatePeersResponse c type msgCount available) := by
  obtain ⟨-, hle, -, -⟩ := askedFor_mem msgCount htype hcount
  obtain ⟨hsize, hmin, -⟩ := recordSize_of_isPeersType htype
  obtain ⟨hfits, hthere⟩ := peersToCarry_le c type msgCount available
  obtain ⟨h255, hasked, hcarry, -⟩ := h.resolve_left hsome
  obtain ⟨hout, hbuffer⟩ := generatePeersResponse_of_peersFit htype hmax hroom hsome h
  have hfit : recordSize type * ((available - 4) / recordSize type) ≤ available - 4 :=
    Nat.mul_div_le _ _
  set k := peersToCarry c type msgCount available with hk
  obtain ⟨m, hm, hbyte, hcarries⟩ := exists_peersMessage htype (by omega) h255 (by omega) hthere
  have hlength : hdrLength m 0 = 4 + recordSize type * k := by
    rw [hcarries.length, listedServers, List.length_take, Nat.min_eq_left hthere]
  have hkfit : recordSize type * k ≤ recordSize type * ((available - 4) / recordSize type) :=
    Nat.mul_le_mul_left _ hfits
  have hsame : ∀ m', (generatePeersResponse c type msgCount available).buffer = some m' → m' = m :=
    fun m' hm' => Option.some.inj (hm'.symm.trans (hbuffer.trans hm))
  refine ⟨fun m' hm' => ?_, fun m' hm' => ?_, fun _ hnone => ?_⟩
  · rw [hsame m' hm', hlength, hout]
    exact ⟨rfl, by omega⟩
  · rw [hsame m' hm']
    exact ⟨hbyte, hcarries⟩
  · rw [hbuffer.trans hm] at hnone
    cases hnone

/-- **Peers.** An answer carries the peers it should exactly when their number fits a byte, and
counts and sizes do not wrap round. -/
theorem generatePeersResponse_carries_iff (htype : isPeersType type = true)
    (hcount : c.CountTrue (isIp6Peers type)) (hmax : available ≤ 65507) :
    CarriesAsPromised c type available (peersToCarry c type msgCount available)
        (generatePeersResponse c type msgCount available) ↔
      PeersFit c type msgCount available := by
  obtain ⟨-, -, -, hnone⟩ := askedFor_mem msgCount htype hcount
  have hsmall := (recordSize_of_isPeersType htype).2
  by_cases hzero : peersToCarry c type msgCount available = 0
  · -- nothing is to be carried, and there is no message
    have hbuffer : (generatePeersResponse c type msgCount available).buffer = none := by
      rcases peersToCarry_eq_zero_iff.1 hzero with hroom | hservers
      · refine buffer_eq_none_of_no_room htype hmax ?_
        have := (Nat.div_eq_zero_iff_lt (by omega)).1 hroom
        omega
      · exact (generatePeersResponse_of_asked htype (by omega) rfl).1 (hnone hservers)
    refine iff_of_true ⟨fun m hm => ?_, fun m hm => ?_, fun h => by omega⟩ (.inl hzero)
    · rw [hbuffer] at hm; cases hm
    · rw [hbuffer] at hm; cases hm
  · have hroom : 4 + recordSize type ≤ available := by
      by_contra hno
      exact hzero (peersToCarry_eq_zero_iff.2 (.inl (Nat.div_eq_of_lt (by omega))))
    exact ⟨peersFit_of_carries htype hcount hmax hroom hzero,
      carries_of_peersFit htype hcount hmax hroom hzero⟩

/-- With sizes in the range of `int`, counts and sizes do not wrap round when the number of peers
fits a byte. -/
theorem peersFit_iff_of_range (htype : isPeersType type = true)
    (hcount : c.CountTrue (isIp6Peers type))
    (hrange : 4 + recordSize type * (c.activeOf (isIp6Peers type)).length < 2147483648) :
    PeersFit c type msgCount available ↔ peersToCarry c type msgCount available ≤ 255 := by
  obtain ⟨-, hmin, hmax⟩ := recordSize_of_isPeersType htype
  have hservers : (c.activeOf (isIp6Peers type)).length ≤
      recordSize type * (c.activeOf (isIp6Peers type)).length := Nat.le_mul_of_pos_left _ (by omega)
  have hcounted : (c.activeServerCount type).1 = (c.activeOf (isIp6Peers type)).length := by
    rw [activeServerCount_fst, if_pos htype, hcount.knownCount_eq, i32_natCast (by omega)]
  obtain ⟨a, ha, hcarry, hle⟩ : ∃ a : ℕ, askedFor c type msgCount = a ∧
      peersToCarry c type msgCount available = min a ((available - 4) / recordSize type) ∧
      a ≤ (c.activeOf (isIp6Peers type)).length := by
    simp only [askedFor, peersToCarry, hcounted]
    by_cases hall : msgCount = 0
    · exact ⟨_, by rw [if_pos (by omega)], by rw [if_pos hall], Nat.le_refl _⟩
    · exact ⟨min (c.activeOf (isIp6Peers type)).length msgCount, by rw [if_neg (by omega)]; omega,
        by rw [if_neg hall], Nat.min_le_left _ _⟩
  have hmul : recordSize type * a ≤ recordSize type * (c.activeOf (isIp6Peers type)).length :=
    Nat.mul_le_mul_left _ hle
  have hsize : u32 (4 + recordSize type * (a : ℤ)) = 4 + recordSize type * a := by
    have hcast : ((4 : ℤ) + recordSize type * a) = ((4 + recordSize type * a : ℕ) : ℤ) := by
      push_cast; rfl
    rw [hcast, u32_natCast (by omega)]
  have hfits : (4 : ℤ) + recordSize type * a ≤ available ∨ available < 4 + recordSize type * a := by
    have hcast : ((4 : ℤ) + recordSize type * a) = ((4 + recordSize type * a : ℕ) : ℤ) := by
      push_cast; rfl
    omega
  have hpos : min a ((available - 4) / recordSize type) ≠ 0 → 0 < (a : ℤ) := by omega
  simp only [PeersFit, ha, hcarry, Int.toNat_natCast, hsize]
  exact ⟨fun h => h.elim (by omega) And.left, fun h => or_iff_not_imp_left.2 fun hne =>
    ⟨h, hpos hne, trivial, hfits⟩⟩

/-- Of two servers, one fits the room that is left. -/
theorem generatePeersResponse_carries_example :
    let c := withServers [sampleServer 10 0 0 1, sampleServer 10 0 0 2] [] (by decide)
    peersToCarry c .ip4peers 0 15 = 1 ∧
      CarriesAsPromised c .ip4peers 15 (peersToCarry c .ip4peers 0 15)
        (generatePeersResponse c .ip4peers (0 : ℕ) (15 : ℕ)) := by
  intro c
  exact ⟨by decide, (generatePeersResponse_carries_iff rfl ⟨by decide, by decide⟩
    (by decide)).2 (.inr (by decide))⟩

/-- With 256 servers and room for all of them the byte is zero, and there is no message. -/
theorem generatePeersResponse_returns_nothing :
    ∃ c : NrpdConfig, c.CountTrue false ∧ peersToCarry c .ip4peers 0 65507 = 256 ∧
      (generatePeersResponse c .ip4peers (0 : ℕ) (65507 : ℕ)).buffer = none ∧
      ¬ CarriesAsPromised c .ip4peers 65507 (peersToCarry c .ip4peers 0 65507)
        (generatePeersResponse c .ip4peers (0 : ℕ) (65507 : ℕ)) := by
  have hn : 256 ≤ 4294967296 := by decide
  have hlength := activeOf_nthServers hn
  refine ⟨withServers ((List.range 256).map nthServer) [] (pairwise_nthServers hn), ?_⟩
  generalize hc : withServers ((List.range 256).map nthServer) [] (pairwise_nthServers hn) = c
    at hlength ⊢
  have hunset : c.cachedCount false = -1 := by rw [← hc]; rfl
  have htrue : c.CountTrue false := ⟨by omega, .inl (by omega)⟩
  have hpeers : isPeersType .ip4peers = true := rfl
  have hfamily : isIp6Peers .ip4peers = false := rfl
  have hasked : askedFor c .ip4peers 0 = 256 := by
    simp only [askedFor, activeServerCount_fst, if_pos hpeers, hfamily, htrue.knownCount_eq,
      hlength]
    decide
  have hbuffer : (generatePeersResponse c .ip4peers (0 : ℕ) (65507 : ℕ)).buffer = none := by
    have hsized : calculateMessageSize 65507 (recordSize .ip4peers) 256 = (1540, 256) := by decide
    have hanswer := ((generatePeersResponse_of_asked hpeers (by decide) hasked).2 (by decide) _ _
      hsized (by decide)).2 (by decide)
    rw [hanswer.2]
    cases hmessage : peersMessage c .ip4peers 256 1540 with
    | none => rfl
    | some m => exact absurd (of_peersMessage_eq_some hpeers hmessage).1 (by decide)
  have hcarry : peersToCarry c .ip4peers 0 65507 = 256 := by
    simp only [peersToCarry, hfamily, hlength]
    rfl
  refine ⟨htrue, hcarry, hbuffer, fun h => h.returned (by rw [hcarry]; decide) hbuffer⟩

end Answers

end Nrpd
