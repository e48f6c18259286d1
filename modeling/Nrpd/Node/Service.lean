import Mathlib.Algebra.Order.BigOperators.Group.List
import Mathlib.Algebra.Order.Ring.Nat
import Nrpd.Lib.PeriodicTask
import Nrpd.Node

/-!
# What a node sends

The server of a node over whole runs, in which its client and the cleanings are interleaved in any
order: it is not stopped by its assertion, it sends the answers of the responder, no entropy is sent
twice, and nobody is sent more than what one answer a minute amounts to. Each turn of the server is
one step.

## Main definitions

* `replies`: the packets of the server among what was sent.
* `Node.Supplied`, `Node.Limited`: the invariants.

## Main results

* `Node.Ran.serves`: the turns of the server.
* `Node.Ran.counts_below`: the counts that the server reads.
* `Node.Ran.fresh_entropy`: the entropy that is sent.
* `Node.Ran.replies_bounded`: the packets that are sent to one address.
-/

namespace Nrpd

open SteadyClock NrpdConfig

/-- The packets that a server sent. -/
def replies (log : List Sent) : List Reply :=
  log.filterMap fun
    | .request _ _ => none
    | .reply reply => some reply

@[simp] theorem replies_append (log log' : List Sent) :
    replies (log ++ log') = replies log ++ replies log' :=
  List.filterMap_append

theorem mem_replies_toList {sent : Option Sent} {reply : Reply}
    (h : reply ∈ replies sent.toList) : sent = some (.reply reply) := by
  cases sent with
  | none => cases h
  | some sent =>
    cases sent with
    | request request bytes => cases h
    | reply reply' =>
      obtain rfl := List.mem_singleton.1 h
      rfl

/-- A request for sixteen bytes of entropy. -/
def entropyRequestBytes : List UInt8 := [0, 8, 1, 1, 0, 4, 5, 16]

/-- A request for entropy and peers. -/
def peersRequestBytes : List UInt8 := [0, 16, 1, 3, 0, 4, 5, 8, 0, 4, 4, 0, 0, 4, 6, 0]

namespace Node

variable {n n' : Node} {calls : List NodeCall} {log : List Sent} {call : NodeCall}
  {sent : Option Sent} {k : ℕ}

/-- **The turns of the server.** In every state that a node reaches, the turn of the server for a
datagram ends when the validator does, and the assertion holds. A datagram that is not accepted
changes nothing; a client that is seen too soon gets nothing; every other one gets the answer of the
responder, which lists servers that are active, each at most once and in their order, or the first
bytes of its request when this answer is empty. -/
theorem Ran.serves (h : n.Ran calls n' log) (bytes : List UInt8) (srcAddr : SockaddrStorage) :
    ((NodeCall.run n' (.serve bytes srcAddr)).isSome ↔
      (validateRequestPacket (requestBuffer bytes)).isSome) ∧
    (∀ left, NodeCall.run n' (.serve bytes srcAddr) = some left → n'.Serves bytes srcAddr left) ∧
    ∀ ipv6, n'.config.responder.servers ipv6 <+: (n'.config.activeOf ipv6).map endpoint := by
  have hsound := h.sound
  have hfew : n'.config.activeServers.elems.length < 67108864 := hsound.few.trans_lt h.few
  refine ⟨⟨fun hrun => ?_, fun hvalid => ?_⟩,
    fun left hrun => serves_of_run hsound.counts hfew hrun,
    fun ipv6 => (List.take_prefix _ _).map endpoint⟩
  · obtain ⟨left, hrun⟩ := Option.isSome_iff_exists.1 hrun
    obtain ⟨turn, hturn, -⟩ := Option.bind_eq_some_iff.1 hrun
    obtain ⟨valid, hvalid, -⟩ := Option.bind_eq_some_iff.1 hturn
    exact Option.isSome_iff_exists.2 ⟨valid, hvalid⟩
  · obtain ⟨valid, hvalid⟩ := Option.isSome_iff_exists.1 hvalid
    obtain ⟨left, hrun, -⟩ :
        ∃ left, NodeCall.run n' (.serve bytes srcAddr) = some left ∧ n'.Serves bytes srcAddr left :=
      exists_serves hsound.counts hfew hvalid
    exact Option.isSome_iff_exists.2 ⟨left, hrun⟩

/-- **Counts.** In every state that a node reaches, whatever its threads have done to the lists: the
number of active servers that the server goes by is at most the number of those that there are, and
`GetServerList` fills its array with the entries of active servers only. -/
theorem Ran.counts_below (h : n.Ran calls n' log) {type : NrpdMsgType}
    (htype : isPeersType type = true) {count : ℕ} (hpos : 1 ≤ count) :
    let known := (n'.config.activeServerCount type).1
    known ≤ (n'.config.activeOf (isIp6Peers type)).length ∧
      (n'.config.getServerList type count).1 =
        if known ≤ 0 then none
        else some (((n'.config.activeOf (isIp6Peers type)).take
          (min known.toNat count)).flatMap peerBytes) := by
  intro known
  have hsound := h.sound
  have hknown : known = n'.config.knownCount (isIp6Peers type) :=
    (activeServerCount_fst n'.config type).trans (if_pos htype)
  have hbelow : known ≤ (n'.config.activeOf (isIp6Peers type)).length :=
    hknown ▸ hsound.counts.knownCount_le (isIp6Peers type)
  refine ⟨hbelow, ?_⟩
  by_cases hnone : known ≤ 0
  · have hcount : ¬ (count : ℤ) ≤ 0 := by omega
    rw [if_pos hnone, getServerList, htype, if_neg (by simpa using hcount), if_pos hnone]
  · have hfew : n'.config.activeServers.elems.length < 67108864 := hsound.few.trans_lt h.few
    have hactive : (n'.config.activeOf (isIp6Peers type)).length ≤
        n'.config.activeServers.elems.length := List.length_filter_le _ _
    rw [if_neg hnone]
    exact getServerList_eq htype (Int.toNat_of_nonneg (by omega)).symm (by omega) hpos
      (by omega) (by omega)

/-- A node that has counted its servers, and whose server has answered then, has one to list. -/
theorem Ran.counts_below_example :
    let calls := [NodeCall.serve peersRequestBytes (.inet (.ofFn fun _ => 10) 4000),
      .sendRequest true true,
      .receiveResponse (requestCalls (.datagram [0, 9, 2, 1, 0, 5, 5, 1, 7]))]
    ∃ n' log, sampleNode.Ran calls n' log ∧ (n'.config.activeServerCount .ip4peers).1 = 1 ∧
      (n'.config.getServerList .ip4peers 3).1 =
        some (((n'.config.activeOf false).take 1).flatMap peerBytes) := by
  intro calls
  obtain ⟨n', log, hran, hcount⟩ := exists_ran_sampleNode calls
    (fun s => (s.1.config.activeServerCount .ip4peers).1) 1 (by decide) (by decide)
  have hcount : (n'.config.activeServerCount .ip4peers).1 = 1 := hcount
  obtain ⟨-, hlist⟩ :=
    hran.counts_below (show isPeersType .ip4peers = true from rfl) (show 1 ≤ 3 by decide)
  refine ⟨n', log, hran, hcount, hlist.trans ?_⟩
  rw [hcount]
  rfl

/-- A client that comes back is served. -/
theorem Ran.serves_example : ∃ n' log, ∃ left : Node × Option Sent,
    sampleNode.Ran [.serve entropyRequestBytes (.inet #v[10, 0, 0, 9] 4000)] n' log ∧
      NodeCall.run n' (.serve entropyRequestBytes (.inet #v[10, 0, 0, 9] 4000)) = some left ∧
      n'.Serves entropyRequestBytes (.inet #v[10, 0, 0, 9] 4000) left := by
  obtain ⟨n', log, hran, -⟩ := exists_ran_sampleNode
    [.serve entropyRequestBytes (.inet #v[10, 0, 0, 9] 4000)] (·.2.length) 1 (by decide) (by decide)
  obtain ⟨hends, hserves, -⟩ := hran.serves entropyRequestBytes (.inet #v[10, 0, 0, 9] 4000)
  obtain ⟨left, hrun⟩ := Option.isSome_iff_exists.1 (hends.2 (by decide))
  exact ⟨n', log, left, hran, hrun, hserves left hrun⟩

/-! ### Other calls -/

/-- A call that is not one of the server. -/
structure Apart (n n' : Node) (sent : Option Sent) : Prop where
  random : n'.random = n.random
  silent : replies sent.toList = []
  lifetime : n'.recentClients.lifetimeSeconds = n.recentClients.lifetimeSeconds
  tracks : ∀ attempts, Tracks attempts n.recentClients n.clock →
    Tracks attempts n'.recentClients n'.clock

theorem laterThan_receiveResponse {s : ClientState} {ref : ServerRef} {calls : SystemCalls}
    {received : ClientState × (ServerRef → List ServerRef)}
    (h : s.receiveResponse ref calls = some received) : s.clock.LaterThan received.1.clock := by
  cases reported_of_receiveResponse h with
  | nothing => exact .refl _
  | stamped hclock hlater => exact hclock.trans hlater

theorem apart_of_run (hrun : call.run n = some (n', sent))
    (hcall : ∀ bytes srcAddr, call ≠ .serve bytes srcAddr) : Apart n n' sent := by
  cases call with
  | serve bytes srcAddr => exact absurd rfl (hcall bytes srcAddr)
  | sendRequest connected sent' =>
    obtain ⟨-, asked, hsend, rfl, rfl⟩ := NodeCall.of_sendRequest hrun
    obtain ⟨_, _, -, -, -, hlater, -⟩ := ClientState.of_sendRequest hsend
    refine ⟨rfl, ?_, rfl, fun attempts htracks => htracks.later hlater⟩
    cases asked.2 <;> rfl
  | receiveResponse calls =>
    obtain ⟨ref, received, -, hreceived, rfl, rfl⟩ := NodeCall.of_receiveResponse hrun
    exact ⟨rfl, rfl, rfl, fun attempts htracks =>
      htracks.later (laterThan_receiveResponse hreceived)⟩
  | cleanRecentClients =>
    obtain ⟨rfl, rfl⟩ := Prod.mk.inj (Option.some.inj hrun)
    exact ⟨rfl, rfl, rfl, fun attempts htracks => htracks.clean⟩
  | cleanBannedServers =>
    obtain ⟨rfl, rfl⟩ := Prod.mk.inj (Option.some.inj hrun)
    exact ⟨rfl, rfl, rfl, fun attempts htracks =>
      htracks.later (n.config.bannedServers.laterThan_clean n.clock)⟩

/-! ### Entropy -/

/-- A packet with the messages of an answer to a request. -/
def Carries (reply : Reply) (msgs : List ResponseMessage) : Prop :=
  ∃ buffer, pktMsgType buffer = NrpdMsgType.request.code ∧ reply.bytes = replyBytes buffer msgs

/-- The packets that were sent have the entropy that was read. -/
def Supplied (first : RandomDevice) (s : Node × List Sent) : Prop :=
  ∃ answers, List.Forall₂ Carries (replies s.2) answers ∧
    first.Supplies (answers.flatMap fun msgs => msgs.filterMap ResponseMessage.entropy?) s.1.random

/-- **One call.** -/
theorem Supplied.run {first : RandomDevice} (h : Supplied first (n, log)) (hsound : n.Sound k)
    (hk : k + call.receives < 67108864) (hrun : call.run n = some (n', sent)) :
    Supplied first (n', log ++ sent.toList) := by
  obtain ⟨answers, hcarries, hsupplies⟩ := h
  by_cases hserve : ∃ bytes srcAddr, call = .serve bytes srcAddr
  · obtain ⟨bytes, srcAddr, rfl⟩ := hserve
    have hserves := serves_of_run hsound.counts (hsound.few.trans_lt (by omega)) hrun
    cases hserves with
    | malformed => exact ⟨answers, by simpa [replies] using hcarries, hsupplies⟩
    | tooSoon => exact ⟨answers, by simpa [replies] using hcarries, hsupplies⟩
    | @answered os config hos =>
      refine ⟨answers ++ [(n.answer (requestBuffer bytes) srcAddr os).1], ?_, ?_⟩
      · rw [replies_append]
        refine List.rel_append hcarries (.cons ?_ .nil)
        exact ⟨_, hos.type_eq, rfl⟩
      · rw [List.flatMap_append, List.flatMap_singleton]
        exact hsupplies.trans (Responder.supplies_respond _ _ _ _)
  · have hapart := apart_of_run hrun fun bytes srcAddr heq => hserve ⟨bytes, srcAddr, heq⟩
    refine ⟨answers, ?_, ?_⟩
    · rw [replies_append, hapart.silent, List.append_nil]
      exact hcarries
    · rw [hapart.random]
      exact hsupplies

/-- **Entropy.** In every run, the entropy messages of the packets that were sent, in their order,
are distinct reads of the random device, each one later than the ones before: no entropy is sent
twice. -/
theorem Ran.fresh_entropy (h : n.Ran calls n' log) :
    ∃ answers, List.Forall₂ Carries (replies log) answers ∧
      ∃ reads : List ℕ, reads.Pairwise (· < ·) ∧ List.Forall₂
        (fun read entropy => ∃ size, entropy = (n.random.skip read).delivered size) reads
        (answers.flatMap fun msgs => msgs.filterMap ResponseMessage.entropy?) := by
  have hsupplied : Supplied n.random (n', log) := h.invariant ⟨[], .nil, .nil⟩
    fun k call n n' log sent hsound hk hs hrun => hs.run hsound hk hrun
  obtain ⟨answers, hcarries, hsupplies⟩ := hsupplied
  obtain ⟨reads, hlater, -, hreads⟩ := hsupplies.exists_reads
  exact ⟨answers, hcarries, reads, hlater, hreads⟩

/-- A node that sent two packets with entropy. -/
theorem Ran.fresh_entropy_example : ∃ n' log answers,
    sampleNode.Ran [.serve entropyRequestBytes (.inet #v[10, 0, 0, 9] 4000),
      .serve entropyRequestBytes (.inet #v[10, 0, 0, 9] 4000)] n' log ∧ log.length = 2 ∧
    List.Forall₂ Carries (replies log) answers := by
  obtain ⟨n', log, hran, hlength⟩ := exists_ran_sampleNode
    [.serve entropyRequestBytes (.inet #v[10, 0, 0, 9] 4000),
      .serve entropyRequestBytes (.inet #v[10, 0, 0, 9] 4000)]
    (·.2.length) 2 (by decide) (by decide)
  obtain ⟨answers, hcarries, -⟩ := hran.fresh_entropy
  exact ⟨n', log, answers, hran, hlength, hcarries⟩

/-! ### The rate -/

/-- The calls of `IsPresentAdd` that were made, and the packets that were sent for those that
returned `false`: packets to one address are a minute apart, and each fits the MTU of its client. -/
structure Limited (attempts : List (AddAttempt SockaddrStorage)) (s : Node × List Sent) :
    Prop where
  tracks : Tracks attempts s.1.recentClients s.1.clock
  lifetime : s.1.recentClients.lifetimeSeconds = clientMinRetrySeconds
  missed : ∀ reply ∈ replies s.2, ∃ d ∈ attempts, d.key = reply.dest ∧ d.response = false ∧
    d.recordedAt = reply.time
  apart : (replies s.2).Pairwise fun earlier later =>
    (earlier.dest == later.dest) = true →
      earlier.time + seconds clientMinRetrySeconds ≤ later.time
  fits : ∀ reply ∈ replies s.2, reply.bytes.length ≤ (mtuFor reply.dest).toNat

theorem AtStart.limited (h : n.AtStart) (hsteady : n.clock.Steady) : Limited [] (n, []) where
  tracks := by
    refine ⟨hsteady, fun srcAddr t ht => ?_, fun _ _ hd => ?_, fun _ hd => ?_, fun _ hd => ?_⟩
    · rw [h.recentClients srcAddr] at ht
      cases ht
    · cases hd
    · cases hd
    · cases hd
  lifetime := h.lifetimeSeconds
  missed _ hreply := nomatch hreply
  apart := .nil
  fits _ hreply := nomatch hreply

/-- The attempt for a packet is a minute later than the ones for earlier packets to its address. -/
theorem Limited.le_recordedTime {attempts : List (AddAttempt SockaddrStorage)}
    (h : Limited attempts (n, log)) {srcAddr : SockaddrStorage}
    (hnew : (n.recentClients.isPresentAdd srcAddr n.clock).response = false) {reply : Reply}
    (hreply : reply ∈ replies log) (hdest : (reply.dest == srcAddr) = true) :
    reply.time + seconds clientMinRetrySeconds ≤
      n.recentClients.recordedTime srcAddr n.clock := by
  obtain ⟨d, hd, hkey, hmiss, htime⟩ := h.missed reply hreply
  obtain ⟨d', hlatest, hle⟩ := h.tracks.latest d hd hmiss srcAddr (hkey.symm ▸ hdest)
  obtain ⟨hresponse, horder, -⟩ := h.tracks.isPresentAdd srcAddr
  have hlate : ¬ (n.recentClients.attempt srcAddr n.clock).decidedAt <
      n.recentClients.expiry d'.recordedAt := fun hlt => by
    have hhit : (n.recentClients.isPresentAdd srcAddr n.clock).response = true :=
      hresponse.2 ⟨d', hlatest, hlt⟩
    rw [hnew] at hhit
    cases hhit
  have hdecided : (n.recentClients.attempt srcAddr n.clock).decidedAt ≤
      n.recentClients.recordedTime srcAddr n.clock := horder hnew
  have hexpiry : n.recentClients.expiry d'.recordedAt =
      d'.recordedAt + seconds clientMinRetrySeconds := by
    rw [MruCache.expiry, h.lifetime]
  omega

/-- **One call.** -/
theorem Limited.run {attempts : List (AddAttempt SockaddrStorage)}
    (h : Limited attempts (n, log)) (hsound : n.Sound k)
    (hk : k + call.receives < 67108864)
    (hrun : call.run n = some (n', sent)) :
    ∃ attempts', Limited attempts' (n', log ++ sent.toList) := by
  by_cases hserve : ∃ bytes srcAddr, call = .serve bytes srcAddr
  · obtain ⟨bytes, srcAddr, rfl⟩ := hserve
    have hserves := serves_of_run hsound.counts (hsound.few.trans_lt (by omega)) hrun
    have hnext := (h.tracks.isPresentAdd srcAddr).tracks
    have hmore (reply : Reply) (hreply : reply ∈ replies log) :
        ∃ d ∈ attempts ++ [n.recentClients.attempt srcAddr n.clock], d.key = reply.dest ∧
          d.response = false ∧ d.recordedAt = reply.time := by
      obtain ⟨d, hd, hattempt⟩ := h.missed reply hreply
      exact ⟨d, List.mem_append_left _ hd, hattempt⟩
    cases hserves with
    | malformed =>
      rw [Option.toList_none, List.append_nil]
      exact ⟨attempts, h⟩
    | tooSoon =>
      rw [Option.toList_none, List.append_nil]
      exact ⟨_, hnext, MruCache.isPresentAdd_lifetimeSeconds.trans h.lifetime, hmore, h.apart,
        h.fits⟩
    | @answered os config hos hnew hread hfits =>
      refine ⟨_, hnext, MruCache.isPresentAdd_lifetimeSeconds.trans h.lifetime, ?_, ?_, ?_⟩ <;>
        rw [replies_append]
      · intro reply hreply
        rcases List.mem_append.1 hreply with hreply | hreply
        · exact hmore reply hreply
        · rw [List.mem_singleton.1 hreply]
          exact ⟨_, List.mem_append_right _ List.mem_cons_self, rfl, hnew, rfl⟩
      · refine List.pairwise_append.2 ⟨h.apart, List.pairwise_singleton _ _, ?_⟩
        intro earlier hearlier later hlater hdest
        rw [List.mem_singleton.1 hlater] at hdest ⊢
        exact h.le_recordedTime hnew hearlier hdest
      · intro reply hreply
        rcases List.mem_append.1 hreply with hreply | hreply
        · exact h.fits reply hreply
        · rw [List.mem_singleton.1 hreply]
          exact (length_replyBytes _ _).trans_le hfits
  · have hapart := apart_of_run hrun fun bytes srcAddr heq => hserve ⟨bytes, srcAddr, heq⟩
    have hsame : replies (log ++ sent.toList) = replies log := by
      rw [replies_append, hapart.silent, List.append_nil]
    refine ⟨attempts, hapart.tracks attempts h.tracks, hapart.lifetime.trans h.lifetime, ?_, ?_,
      ?_⟩ <;> rw [hsame]
    · exact h.missed
    · exact h.apart
    · exact h.fits

theorem Ran.limited (h : n.Ran calls n' log) (hsteady : n.clock.Steady) :
    ∃ attempts, Limited attempts (n', log) :=
  h.invariant (P := fun s => ∃ attempts, Limited attempts s)
    ⟨[], h.start.limited hsteady⟩ fun k call n n' log sent hsound hk hs hrun => by
      obtain ⟨attempts, hlimited⟩ := hs
      exact hlimited.run hsound hk hrun

theorem mtuFor_congr {srcAddr srcAddr' : SockaddrStorage} (h : (srcAddr == srcAddr') = true) :
    mtuFor srcAddr = mtuFor srcAddr' := by
  have hhost (s : SockaddrStorage) : isAddressIp4 s = match s.host? with
      | some (.ip4 _) => true
      | some (.ip6 addr) => addr.toList.take 12 == List.replicate 12 0
      | none => false := by
    cases s <;> rfl
  obtain ⟨host, hs, hs'⟩ := SockaddrStorage.beq_iff.1 h
  rw [mtuFor, mtuFor, hhost, hhost, hs, hs']

/-- **The rate.** Whatever datagrams come from whatever addresses: of the packets that a node sends
to one address, those with a time in a window, as the cache holds it for the address, are at most
one more than the minutes that fit in the window, each of them with at most as many bytes as the MTU
of the address. -/
theorem Ran.replies_bounded (h : n.Ran calls n' log) (hsteady : n.clock.Steady)
    (dest : SockaddrStorage) {first last : ℤ} (hwindow : first ≤ last) :
    let toDest := (replies log).filter fun reply =>
      reply.dest == dest && decide (first ≤ reply.time ∧ reply.time ≤ last)
    let most := (last - first) / seconds clientMinRetrySeconds + 1
    (toDest.length : ℤ) ≤ most ∧
      ((toDest.flatMap (·.bytes)).length : ℤ) ≤ most * mtuFor dest := by
  intro toDest most
  obtain ⟨attempts, hlimited⟩ := h.limited hsteady
  have hmem (reply : Reply) (hreply : reply ∈ toDest) : reply ∈ replies log ∧
      (reply.dest == dest) = true ∧ first ≤ reply.time ∧ reply.time ≤ last := by
    simpa [toDest] using hreply
  have hspaced : (toDest.map (·.time)).Pairwise fun earlier later =>
      earlier + seconds clientMinRetrySeconds ≤ later := by
    refine List.pairwise_map.2 ?_
    refine (hlimited.apart.filter _).imp_of_mem fun {earlier later} hearlier hlater happly => ?_
    exact happly (BEq.trans (hmem earlier hearlier).2.1 (BEq.symm (hmem later hlater).2.1))
  have hcount := length_le_of_spaced (by decide) hspaced hwindow
    (fun t ht => by
      obtain ⟨reply, hreply, rfl⟩ := List.mem_map.1 ht
      exact (hmem reply hreply).2.2.1)
    (fun t ht => by
      obtain ⟨reply, hreply, rfl⟩ := List.mem_map.1 ht
      exact (hmem reply hreply).2.2.2)
  rw [List.length_map] at hcount
  have hmtu := (mtuFor_mem dest).1
  have hbytes : (toDest.flatMap (·.bytes)).length ≤ toDest.length * (mtuFor dest).toNat := by
    have hsum := List.sum_le_card_nsmul (toDest.map (·.bytes.length)) (mtuFor dest).toNat
      fun size hsize => by
        obtain ⟨reply, hreply, rfl⟩ := List.mem_map.1 hsize
        obtain ⟨hsent, hdest, -⟩ := hmem reply hreply
        exact mtuFor_congr hdest ▸ hlimited.fits reply hsent
    rwa [List.length_map, nsmul_eq_mul, ← List.length_flatMap] at hsum
  refine ⟨hcount, ?_⟩
  have hcast : (((mtuFor dest).toNat : ℕ) : ℤ) = mtuFor dest := Int.toNat_of_nonneg (by omega)
  calc ((toDest.flatMap (·.bytes)).length : ℤ)
      ≤ (toDest.length * (mtuFor dest).toNat : ℕ) := Int.ofNat_le.2 hbytes
    _ = toDest.length * mtuFor dest := by rw [Int.natCast_mul, hcast]
    _ ≤ most * mtuFor dest := Int.mul_le_mul_of_nonneg_right hcount (by omega)

/-- Two packets to one address. -/
theorem Ran.replies_bounded_example : ∃ n' log,
    sampleNode.Ran [.serve entropyRequestBytes (.inet #v[10, 0, 0, 9] 4000),
      .serve entropyRequestBytes (.inet #v[10, 0, 0, 9] 4000)] n' log ∧ log.length = 2 ∧
    (((replies log).filter fun reply => reply.dest == .inet #v[10, 0, 0, 9] 0 &&
      decide (0 ≤ reply.time ∧ reply.time ≤ seconds 1000)).length : ℤ) ≤ 17 := by
  obtain ⟨n', log, hran, hlength⟩ := exists_ran_sampleNode
    [.serve entropyRequestBytes (.inet #v[10, 0, 0, 9] 4000),
      .serve entropyRequestBytes (.inet #v[10, 0, 0, 9] 4000)]
    (·.2.length) 2 (by decide) (by decide)
  have hsteady : sampleNode.clock.Steady := steady_oneServerClient (by decide)
  exact ⟨n', log, hran, hlength,
    (hran.replies_bounded hsteady (.inet #v[10, 0, 0, 9] 0) (by decide)).1⟩

end Node

end Nrpd
