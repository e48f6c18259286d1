import Nrpd.Client.ServerCalls
import Nrpd.Server.Answers

/-!
# Answers beside the client's thread

The server's thread and the client's share the configuration. `GeneratePeersResponse` reads the
count of active servers twice: `ActiveServerCount` sizes the message, and `GetServerList` counts
once more for the list that is copied into it. Between the two the client may remove servers; the
copy then reads behind the end of the list. It stays in the list exactly when at least as many
servers are counted the second time as the message is for.

## Main definitions

* `sizePeers`, `copyPeers`: `GeneratePeersResponse` before and behind its call of `GetServerList`.
* `SharedRun`, `SharedCall`: the steps of the two threads.
* `PeersStage.CopiesListed`: the copy reads no further than the list.
* `SharedCall.FindsCounted`: the condition on the two counts.

## Main results

* `generatePeersResponse_eq`: the steps make up `GeneratePeersResponse`.
* `SharedRun.getServerList_copiesListed_iff`: when the list is long enough.
* `SharedRun.copies_listed`: what every interleaving keeps.
-/

namespace Nrpd

open FixedWidth SteadyClock NrpdConfig Runs

/-! ### The steps of `GeneratePeersResponse` -/

/-- `GeneratePeersResponse` before its call of `GetServerList`: the count of records and the size of
the message, if there is one. -/
def sizePeers (c : NrpdConfig) (type : NrpdMsgType) (msgCount availableBytes : ℤ) :
    Option (ℤ × ℤ) × NrpdConfig :=
  let size : ℤ := if type = .ip6peers then sizeofIp6Peer else sizeofIp4Peer
  let counted := c.activeServerCount type
  let msgCount := if msgCount ≤ 0 then counted.1 else min counted.1 msgCount
  if msgCount = 0 then (none, counted.2)
  else
    let sized := calculateMessageSize (u32 availableBytes) size msgCount
    let outResponseSize := i32 sized.1
    if outResponseSize = 0 then (none, counted.2) else (some (sized.2, outResponseSize), counted.2)

/-- `GeneratePeersResponse` behind its call of `GetServerList`. -/
def copyPeers (type : NrpdMsgType) (msgCount outResponseSize : ℤ) (data : Option (List UInt8)) :
    Option Mem :=
  let generated := generateResponsePeersMessage type (.ofNat (u8 msgCount)) data
    (u32 outResponseSize) (some 0) Mem.zero
  generated.1.map fun _ => generated.2

/-- **Steps.** Nothing else happens in `GeneratePeersResponse`. -/
theorem generatePeersResponse_eq (c : NrpdConfig) (type : NrpdMsgType)
    (msgCount availableBytes : ℤ) :
    generatePeersResponse c type msgCount availableBytes =
      match sizePeers c type msgCount availableBytes with
      | (none, sized) => ⟨none, 0, sized⟩
      | (some (count, outResponseSize), sized) =>
        ⟨copyPeers type count outResponseSize (sized.getServerList type count).1, outResponseSize,
          (sized.getServerList type count).2⟩ := by
  simp only [generatePeersResponse, sizePeers]
  generalize (if msgCount ≤ 0 then (c.activeServerCount type).1
    else min (c.activeServerCount type).1 msgCount) = n
  by_cases hzero : n = 0
  · rw [if_pos hzero, if_pos hzero]
  · rw [if_neg hzero, if_neg hzero]
    by_cases hroom : i32 (calculateMessageSize (u32 availableBytes)
        (if type = .ip6peers then (sizeofIp6Peer : ℤ) else sizeofIp4Peer) n).1 = 0
    · rw [if_pos hroom, if_pos hroom, hroom]
    · rw [if_neg hroom, if_neg hroom]
      rfl

/-- The number of bytes that `GenerateResponsePeersMessage` copies. -/
def bytesCopied (type : NrpdMsgType) (countOfPeers : UInt8) (listOfPeers : Option (List UInt8))
    (bufferSize : ℕ) : ℕ :=
  if (generateResponsePeersMessage type countOfPeers listOfPeers bufferSize
    (some 0) Mem.zero).1.isSome
    then countOfPeers.toNat * (if type = .ip4peers then sizeofIp4Peer else sizeofIp6Peer)
  else 0

/-! ### Two threads -/

/-- How far the server's thread is in `GeneratePeersResponse`. -/
inductive PeersStage where
  | idle
  | sized (type : NrpdMsgType) (msgCount outResponseSize : ℤ)
  | listed (type : NrpdMsgType) (msgCount outResponseSize : ℤ) (data : Option (List UInt8))
  | generated (data : Option (List UInt8)) (copied : ℕ) (tempMsgBuffer : Option Mem)

/-- The state that the two threads share, and how far the server's is. -/
structure SharedRun where
  client : ClientRun
  stage : PeersStage

/-- A call of the client, or a step of the server. -/
inductive SharedCall where
  | client (call : ClientCall)
  | sizePeers (type : NrpdMsgType) (msgCount availableBytes : ℤ)
  | getServerList
  | copyPeers

/-- The server's step with the configuration and the stage that it leaves. -/
def SharedRun.serve (s : SharedRun) (c : NrpdConfig) (stage : PeersStage) : SharedRun :=
  ⟨{ s.client with config := c }, stage⟩

/-- What a call does. -/
def SharedCall.run (s : SharedRun) : SharedCall → Option SharedRun
  | client call => (call.run s.client).map fun client => { s with client := client }
  | sizePeers type msgCount availableBytes =>
    match s.stage with
    | .idle | .generated _ _ _ =>
      match Nrpd.sizePeers s.client.config type msgCount availableBytes with
      | (none, c) => some (s.serve c .idle)
      | (some (msgCount, outResponseSize), c) =>
        some (s.serve c (.sized type msgCount outResponseSize))
    | _ => none
  | getServerList =>
    match s.stage with
    | .sized type msgCount outResponseSize =>
      let data := s.client.config.getServerList type msgCount
      some (s.serve data.2 (.listed type msgCount outResponseSize data.1))
    | _ => none
  | copyPeers =>
    match s.stage with
    | .listed type msgCount outResponseSize data =>
      some { s with
        stage := .generated data
          (bytesCopied type (.ofNat (u8 msgCount)) data (u32 outResponseSize))
          (Nrpd.copyPeers type msgCount outResponseSize data) }
    | _ => none

/-- The copy into the message reads no further than the list. -/
def PeersStage.CopiesListed : PeersStage → Prop
  | listed type msgCount outResponseSize data =>
    bytesCopied type (.ofNat (u8 msgCount)) data (u32 outResponseSize) ≤ (data.getD []).length
  | generated data copied _ => copied ≤ (data.getD []).length
  | _ => True

/-! ### Sizes -/

section Sizes

variable {c : NrpdConfig} {type : NrpdMsgType}

/-- A list of records of one size has room for all that are copied, and no more. -/
theorem length_copyServers {records : List ServerRecord} {size : ℕ}
    (hsize : ∀ r ∈ records, (peerBytes r).length = size) (n : ℕ) :
    (copyServers records n (n * size)).length = n * size := by
  have hcopied : ((records.take n).flatMap peerBytes).length ≤ n * size := by
    rw [List.length_flatMap, List.map_congr_left fun r hr => hsize r (List.mem_of_mem_take hr),
      List.map_const', List.sum_replicate_nat, List.length_take]
    exact Nat.mul_le_mul_right _ (Nat.min_le_left _ _)
  rw [copyServers, List.length_append, List.length_replicate]
  omega

/-- **The list.** It is as long as the records that are counted, of those that are asked for. -/
theorem length_getServerList (htype : isPeersType type = true) {k : ℕ} (hpos : 0 < k)
    (hrange : k * recordSize type < 2147483648) :
    ((c.getServerList type k).1.getD []).length =
      min (c.activeServerCount type).1.toNat k * recordSize type := by
  obtain ⟨hsize, -⟩ := recordSize_eq_sizeofPeer htype
  have hnot : (!isPeersType type || decide ((k : ℤ) ≤ 0)) = false := by
    simp [htype, hpos.ne']
  simp only [getServerList, hnot, Bool.false_eq_true, if_false]
  by_cases hnone : (c.activeServerCount type).1 ≤ 0
  · rw [if_pos hnone, Int.toNat_of_nonpos hnone, Nat.zero_min, Nat.zero_mul]
    rfl
  · rw [if_neg hnone, Option.getD_some]
    have hmin : min (c.activeServerCount type).1 (k : ℤ) =
        (min (c.activeServerCount type).1.toNat k : ℕ) := by omega
    have hle : min (c.activeServerCount type).1.toNat k * recordSize type ≤ k * recordSize type :=
      Nat.mul_le_mul_right _ (Nat.min_le_right _ _)
    rw [hmin, ← hsize, ← Int.natCast_mul, i32_natCast (by omega), Int.toNat_natCast,
      Int.toNat_natCast]
    refine length_copyServers (fun r hr => ?_) _
    rw [length_peerBytes, hsize]
    congr 1
    simpa using (List.mem_filter.1 hr).2

/-- **The copy.** A message with room for the records takes as many bytes as its count tells. -/
theorem bytesCopied_eq (htype : isPeersType type = true) (data : Option (List UInt8)) {k : ℕ}
    (hrange : 4 + recordSize type * k < 2147483648) :
    bytesCopied type (.ofNat (u8 k)) data (u32 (4 + recordSize type * k : ℕ)) =
      if data.isSome then u8 k * recordSize type else 0 := by
  have hpeers : type = .ip4peers ∨ type = .ip6peers := by
    cases type <;> simp [isPeersType] at htype <;> simp
  have hcount : u8 k = k % 256 := by rw [u8]; omega
  have hbyte : (UInt8.ofNat (u8 k)).toNat = u8 k := by
    rw [UInt8.toNat_ofNat', Nat.mod_eq_of_lt (by omega)]
  have hsize : (if type = .ip4peers then sizeofIp4Peer else sizeofIp6Peer) = recordSize type := by
    rcases hpeers with rfl | rfl <;> rfl
  rw [u32_natCast (by omega), bytesCopied, hsize, hbyte]
  cases data with
  | none => rfl
  | some data =>
    rw [Option.isSome_some, if_pos rfl]
    by_cases hzero : UInt8.ofNat (u8 k) = 0
    · rw [← hbyte, hzero, UInt8.toNat_zero, Nat.zero_mul, ite_self]
    · have hfit : u8 k * recordSize type ≤ recordSize type * k := by
        rw [Nat.mul_comm (recordSize type)]
        exact Nat.mul_le_mul_right _ (by omega)
      rw [generateResponsePeersMessage_of_fits hpeers hzero (by rw [hbyte]; omega)]
      rfl

/-- A message that is sized has room for the records that are counted for it. -/
theorem calculateMessageSize_of_ne_zero {availableBytes messageSize messageCount : ℕ}
    (hcount : 0 < messageCount) (hrange : 4 + messageSize * messageCount < 2147483648)
    (h : (calculateMessageSize availableBytes messageSize messageCount).1 ≠ 0) :
    ∃ k, 0 < k ∧ k ≤ messageCount ∧ calculateMessageSize availableBytes messageSize messageCount =
      (4 + messageSize * k, (k : ℤ)) := by
  by_cases havailable : availableBytes < 2147483648
  · by_cases hone : 4 + messageSize ≤ availableBytes
    · obtain ⟨k, hsized, hgreatest⟩ := calculateMessageSize_of_le havailable hcount hrange hone
      have hk : (1 : ℤ) ≤ k := hgreatest.2 ⟨by omega, by omega⟩
      exact ⟨k, by omega, by exact_mod_cast hgreatest.1.1, hsized⟩
    · rw [calculateMessageSize_of_lt havailable hcount hrange (by omega)] at h
      exact absurd rfl h
  · -- more bytes than any message in the range of `int` takes
    have hsize : u32 ((4 : ℕ) + messageSize * messageCount) = 4 + messageSize * messageCount :=
      u32_natCast (by omega)
    refine ⟨messageCount, hcount, Nat.le_refl _, ?_⟩
    rw [calculateMessageSize, nrpMessageHeaderSize, if_neg (by omega), if_pos (by omega), hsize]

/-- The count of active servers is so small that sizes are computed without wrapping. -/
def SizeFits (c : NrpdConfig) (type : NrpdMsgType) : Prop :=
  0 ≤ (c.activeServerCount type).1 ∧
    4 + recordSize type * (c.activeServerCount type).1 < 2147483648

/-- No more peers are asked for than there are servers. -/
theorem exists_requested {counted : ℤ} (hnonneg : 0 ≤ counted) (msgCount : ℤ) :
    ∃ requested : ℕ, (if msgCount ≤ 0 then counted else min counted msgCount) = requested ∧
      (requested : ℤ) ≤ counted := by
  by_cases hall : msgCount ≤ 0
  · exact ⟨counted.toNat, by rw [if_pos hall]; omega, by omega⟩
  · exact ⟨(min counted msgCount).toNat, by rw [if_neg hall]; omega, by omega⟩

/-- **The size.** A message is sized for some peers, and has room for them. -/
theorem sizePeers_eq_some {msgCount availableBytes n outResponseSize : ℤ} {c' : NrpdConfig}
    (hfits : isPeersType type = true → SizeFits c type)
    (h : sizePeers c type msgCount availableBytes = (some (n, outResponseSize), c')) :
    isPeersType type = true ∧ ∃ k : ℕ, 0 < k ∧ n = k ∧
      outResponseSize = (4 + recordSize type * k : ℕ) ∧ 4 + recordSize type * k < 2147483648 := by
  simp only [sizePeers] at h
  by_cases htype : isPeersType type = true
  · obtain ⟨hnonneg, hrange⟩ := hfits htype
    obtain ⟨hsize, hmin, -⟩ := recordSize_of_isPeersType htype
    rw [hsize] at h
    obtain ⟨requested, hrequested, hle⟩ := exists_requested hnonneg msgCount
    rw [hrequested] at h
    have hmul : (recordSize type * requested : ℤ) ≤
        recordSize type * (c.activeServerCount type).1 :=
      Int.mul_le_mul_of_nonneg_left hle (by omega)
    have hlt : 4 + recordSize type * requested < 2147483648 := by
      have : ((recordSize type * requested : ℕ) : ℤ) =
          recordSize type * requested := by push_cast; rfl
      omega
    by_cases hzero : (requested : ℤ) = 0
    · rw [if_pos hzero] at h
      cases h
    · rw [if_neg hzero] at h
      by_cases hroom : i32 (calculateMessageSize (u32 availableBytes) (recordSize type)
          requested).1 = 0
      · rw [if_pos hroom] at h
        cases h
      · rw [if_neg hroom] at h
        have hsome :
            (calculateMessageSize (u32 availableBytes) (recordSize type) requested).1 ≠ 0 :=
          fun hno => hroom (by rw [hno]; rfl)
        obtain ⟨k, hk, hkle, hsized⟩ :=
          calculateMessageSize_of_ne_zero (by omega) hlt hsome
        have hkmul : recordSize type * k ≤ recordSize type * requested :=
          Nat.mul_le_mul_left _ hkle
        rw [hsized, i32_natCast (by omega)] at h
        simp only [Prod.mk.injEq, Option.some.injEq] at h
        exact ⟨htype, k, hk, h.1.1.symm, h.1.2.symm, by omega⟩
  · -- other types have no active servers
    have hnone : (c.activeServerCount type).1 = 0 := by
      rw [activeServerCount_fst, if_neg htype]
    rw [hnone, if_pos (by split_ifs <;> omega)] at h
    cases h

end Sizes

/-! ### Interleavings -/

/-- A message is sized without wrapping, and `GetServerList` counts no servers at all or at least as
many as the message tells of. -/
def SharedCall.FindsCounted (s : SharedRun) : SharedCall → Prop
  | sizePeers type _ _ => isPeersType type = true → SizeFits s.client.config type
  | getServerList =>
    ∀ type msgCount outResponseSize, s.stage = .sized type msgCount outResponseSize →
    (s.client.config.activeServerCount type).1 ≤ 0 ∨
      u8 msgCount ≤ (s.client.config.activeServerCount type).1
  | _ => True

/-- A message that is sized has room for its records. -/
def PeersStage.HasRoom : PeersStage → Prop
  | sized type msgCount outResponseSize => isPeersType type = true ∧ ∃ k : ℕ, 0 < k ∧ msgCount = k ∧
    outResponseSize = (4 + recordSize type * k : ℕ) ∧ 4 + recordSize type * k < 2147483648
  | _ => True

namespace SharedRun

variable {s s' : SharedRun} {call : SharedCall}

/-- **The list.** It is long enough for the copy exactly when the second count is. -/
theorem getServerList_copiesListed_iff (hroom : s.stage.HasRoom)
    (hrun : SharedCall.run s .getServerList = some s') :
    s'.stage.CopiesListed ↔ SharedCall.getServerList.FindsCounted s := by
  rw [SharedCall.run] at hrun
  cases hstage : s.stage with
  | sized type msgCount outResponseSize =>
    rw [hstage] at hroom hrun
    obtain ⟨htype, k, hpos, rfl, rfl, hrange⟩ := hroom
    obtain rfl := Option.some.inj hrun
    have hmul : k * recordSize type = recordSize type * k := Nat.mul_comm _ _
    have hlength := length_getServerList (c := s.client.config) htype hpos (by omega)
    have hfinds : SharedCall.getServerList.FindsCounted s ↔
        (s.client.config.activeServerCount type).1 ≤ 0 ∨
          u8 k ≤ (s.client.config.activeServerCount type).1 := by
      simp only [SharedCall.FindsCounted, hstage, PeersStage.sized.injEq]
      exact ⟨fun h => h _ _ _ ⟨rfl, rfl, rfl⟩, by rintro h _ _ _ ⟨rfl, rfl, rfl⟩; exact h⟩
    simp only [serve, PeersStage.CopiesListed, hfinds, bytesCopied_eq htype _ hrange, hlength]
    by_cases hnone : (s.client.config.activeServerCount type).1 ≤ 0
    · have hdata : (s.client.config.getServerList type k).1 = none := by
        simp only [getServerList, if_pos hnone]
        split <;> rfl
      rw [hdata]
      exact iff_of_true (Nat.zero_le _) (.inl hnone)
    · obtain ⟨data, hdata⟩ := exists_getServerList (c := s.client.config) htype
        (Int.natCast_pos.2 hpos) (not_le.1 hnone)
      have hsize := (recordSize_of_isPeersType htype).2.1
      have hbyte : u8 k ≤ k := by rw [u8]; omega
      rw [hdata, Option.isSome_some, if_pos rfl, Nat.mul_le_mul_right_iff (by omega)]
      omega
  | _ =>
    rw [hstage] at hrun
    cases hrun

/-- **One step.** The steps that meet the condition keep the copy in the list. -/
theorem copiesListed_of_run (hroom : s.stage.HasRoom) (hcopies : s.stage.CopiesListed)
    (hmeets : call.FindsCounted s) (hrun : SharedCall.run s call = some s') :
    s'.stage.HasRoom ∧ s'.stage.CopiesListed := by
  cases call with
  | client call =>
    obtain ⟨client, -, rfl⟩ := Option.map_eq_some_iff.1 hrun
    exact ⟨hroom, hcopies⟩
  | sizePeers type msgCount availableBytes =>
    rw [SharedCall.run] at hrun
    split at hrun <;> try cases hrun
    all_goals
      split at hrun <;> obtain rfl := Option.some.inj hrun
      · exact ⟨trivial, trivial⟩
      · rename_i heq
        exact ⟨sizePeers_eq_some hmeets heq, trivial⟩
  | getServerList =>
    refine ⟨?_, (getServerList_copiesListed_iff hroom hrun).2 hmeets⟩
    rw [SharedCall.run] at hrun
    split at hrun
    · obtain rfl := Option.some.inj hrun
      exact trivial
    · cases hrun
  | copyPeers =>
    rw [SharedCall.run] at hrun
    split at hrun
    · rename_i hstage
      obtain rfl := Option.some.inj hrun
      rw [hstage] at hcopies
      exact ⟨trivial, hcopies⟩
    · cases hrun

/-! ### Runs -/

/-- The server's thread is not in `GeneratePeersResponse`. -/
def IsIdle (s : SharedRun) : Prop := s.stage = .idle

/-- **Every interleaving.** Whatever the configuration is at the start, and whatever the client does
between the steps of the server: while messages are sized without wrapping, and `GetServerList`
counts no servers or at least as many as the message tells of, no more bytes are copied than the
list has; and the next call of `GetServerList` returns a list that is long enough exactly when it
counts so. -/
theorem copies_listed (h : Reachable IsIdle SharedCall.run (fun s call => call.FindsCounted s) s) :
    s.stage.CopiesListed ∧ ∀ s', SharedCall.run s .getServerList = some s' →
      (s'.stage.CopiesListed ↔ SharedCall.getServerList.FindsCounted s) := by
  obtain ⟨hroom, hcopies⟩ : s.stage.HasRoom ∧ s.stage.CopiesListed := by
    refine h.invariant (fun s hs => ?_) fun s call s' hs => copiesListed_of_run hs.1 hs.2
    rw [show s.stage = .idle from hs]
    exact ⟨trivial, trivial⟩
  exact ⟨hcopies, fun s' => getServerList_copiesListed_iff hroom⟩

/-- A new configuration, with the count of IPv4 servers cached and two of them promoted. -/
def promotions : List SharedCall :=
  [.sizePeers .ip4peers 0 1232, .client (.addServersFromMessage twoPeers 0), .client .getNextServer,
    .client .markServerSuccessful, .client .getNextServer, .client .getNextServer,
    .client .markServerSuccessful]

/-- The client's thread promotes a server between two steps of the server's. -/
theorem copies_listed_example :
    ∃ s, after SharedCall.run [.sizePeers .ip4peers 0 1232,
        .client (.addServersFromMessage twoPeers 0), .client .getNextServer,
        .client .markServerSuccessful, .sizePeers .ip4peers 0 1232, .client .getNextServer,
        .client .getNextServer, .client .markServerSuccessful, .getServerList, .copyPeers]
      ⟨ClientRun.sampleRun, .idle⟩ = some s ∧ s.stage.CopiesListed := by
  refine ⟨_, rfl, (copies_listed ?_).1⟩
  refine .call (.call (.call (.call (.call (.call (.call (.call (.call (.call
    (.first (show IsIdle ⟨ClientRun.sampleRun, .idle⟩ from rfl))
    (a := .sizePeers .ip4peers 0 1232) ?_ rfl)
    (a := .client (.addServersFromMessage twoPeers 0)) trivial rfl)
    (a := .client .getNextServer) trivial rfl)
    (a := .client .markServerSuccessful) trivial rfl)
    (a := .sizePeers .ip4peers 0 1232) ?_ rfl)
    (a := .client .getNextServer) trivial rfl)
    (a := .client .getNextServer) trivial rfl)
    (a := .client .markServerSuccessful) trivial rfl)
    (a := .getServerList) ?_ rfl)
    (a := .copyPeers) trivial rfl
  · exact fun _ => ⟨by decide, by decide⟩
  · exact fun _ => ⟨by decide, by decide⟩
  · rintro _ _ _ ⟨rfl, rfl, rfl⟩
    exact .inr (by decide)

/-- The message is sized for two servers. One of them fails out before the list is made, which then
holds six bytes of the twelve that are copied. -/
theorem copies_behind_list :
    ∃ s data buffer, Reachable IsIdle SharedCall.run (fun _ _ => True) s ∧
      s.stage = .generated (some data) 12 (some buffer) ∧ data.length = 6 ∧
      ¬ s.stage.CopiesListed := by
  have hfirst : Reachable IsIdle SharedCall.run (fun _ _ => True) ⟨ClientRun.sampleRun, .idle⟩ :=
    .first rfl
  refine ⟨_, _, _,
    hfirst.after (promotions ++ [.sizePeers .ip4peers 0 1232, .client .getNextServer] ++
    List.replicate 4 (.client .incrementServerFailCount) ++ [.getServerList, .copyPeers]) rfl, rfl,
    by decide, ?_⟩
  show ¬ 12 ≤ 6
  decide

end SharedRun

end Nrpd
