import Nrpd.Client.Datagrams

/-!
# Truncated responses

A datagram that is the beginning of a longer response shows what the receive buffer held before. A
byte behind the datagram decides whether the packet is accepted, or which peers are added, or which
bytes of entropy are consumed.

## Main definitions

* `TakesAll`: a client that adds all peers and consumes entropy as it is.

## Main results

* `parseResponse_last`: what such a client does with the last message of a response.
* `onlyDatagramMatters_iff`: what the client does depends on the datagram alone if and only if it is
  not truncated.
-/

namespace Nrpd

open FuelLoop Segments

/-! ### Altered packets -/

section Altered

variable {m : Mem} {pre os : List ℕ} {o a : ℕ} {v : UInt8}

/-- A packet with a byte altered behind the length of its last message, if it is still a response,
still has the same messages. -/
theorem isResponsePacket_of_altered (hpkt : IsResponsePacket m (pre ++ [o])) (ha : o + 2 ≤ a)
    (haltered : IsResponsePacket (m.write a [v]) os) :
    IsResponsePacket (m.write a [v]) (pre ++ [o]) := by
  have hagree : m.AgreeOn (m.write a [v]) 0 (o + 2) :=
    fun i _ hi => (Mem.write_of_notMem (.inl (by omega))).symm
  obtain ⟨hpre, -, -⟩ := hpkt.tiles.of_append_singleton
  have h4 := (hpkt.bounds o (by simp)).1
  have hlength : pktLength m = pktLength (m.write a [v]) :=
    hagree.be16 (Nat.le_refl 0) (by omega)
  have htiles : Tiles (hdrLength (m.write a [v])) pktMessages (pre ++ [o]) (pktLength m) := by
    refine hpkt.tiles.congr fun o' ho' => hdrLength_congr hagree (Nat.zero_le o') ?_
    rcases List.mem_append.1 ho' with ho' | ho'
    · have := hpre.bounds o' ho'
      have := (hpkt.messages o' (by simp [ho'])).hdrLength_ge
      omega
    · rw [List.mem_singleton.1 ho']
  rw [hlength] at htiles
  rwa [haltered.tiles.unique htiles] at haltered

/-- A message cannot have the type `0`. -/
theorem not_isResponseMessage_of_type (ha : a = o + 2) :
    ¬ IsResponseMessage (m.write a [0]) o := by
  intro h
  obtain ⟨t, -, ht, -⟩ := h.hasRecords
  have hzero : hdrMsgType (m.write a [0]) o = 0 := by
    rw [hdrMsgType, ← ha]
    exact Mem.write_of_lt (i := 0) (by simp)
  rw [hzero] at ht
  cases t <;> exact absurd ht (by decide)

/-- A message cannot have another count with the same length. -/
theorem not_isResponseMessage_of_count (hmsg : IsResponseMessage m o) (ha : a = o + 3)
    (hv : v ≠ m a) : ¬ IsResponseMessage (m.write a [v]) o := by
  intro h
  have hagree : m.AgreeOn (m.write a [v]) 0 (o + 3) :=
    fun i _ hi => (Mem.write_of_notMem (.inl (by omega))).symm
  obtain ⟨t, hpos, ht, hlen⟩ := hmsg.hasRecords
  obtain ⟨t', -, ht', hlen'⟩ := h.hasRecords
  rw [← hdrMsgType_congr hagree (Nat.zero_le o) (Nat.le_refl _), ht] at ht'
  obtain rfl := NrpdMsgType.code_injective ht'
  rw [← hdrLength_congr hagree (Nat.zero_le o) (by omega), hlen] at hlen'
  have hcount := UInt8.toNat_inj.1 (Nat.eq_of_mul_eq_mul_left hpos (Nat.add_left_cancel hlen'))
  have hwritten : hdrCountOrSize (m.write a [v]) o = v := by
    rw [hdrCountOrSize, ← ha]
    exact Mem.write_of_lt (i := 0) (by simp)
  rw [hwritten, hdrCountOrSize, ← ha] at hcount
  exact hv hcount.symm

/-- A reject message cannot have a type or a reason of `255`. -/
theorem not_isResponseMessage_of_entry (hmsg : IsResponseMessage m o)
    (htype : hdrMsgType m o = NrpdMsgType.reject.code) (ha : o + 4 ≤ a)
    (hlt : a < o + hdrLength m o) : ¬ IsResponseMessage (m.write a [255]) o := by
  intro h
  have hagree : m.AgreeOn (m.write a [255]) 0 (o + 4) :=
    fun i _ hi => (Mem.write_of_notMem (.inl (by omega))).symm
  have htype' := hdrMsgType_congr hagree (Nat.zero_le o) (by omega)
  have hcount := hdrCountOrSize_congr hagree (Nat.zero_le o) (by omega)
  obtain ⟨t, -, ht, hlen⟩ := hmsg.hasRecords
  obtain rfl := NrpdMsgType.code_injective (htype.symm.trans ht)
  simp only [recordSize, sizeofReject] at hlen
  rw [htype] at htype'
  have hbyte : m.write a [255] a = 255 := Mem.write_of_lt (i := 0) (by simp)
  have hentry :
      IsRejectEntry (rejectEntryAt (m.write a [255]) (o + 4 + 2 * ((a - o - 4) / 2))) := by
    cases h with
    | reject _ _ _ hentries => exact hentries _ (by rw [← hcount]; omega)
    | ip4peers h => exact absurd (htype'.trans h) (by decide)
    | entropy h => exact absurd (htype'.trans h) (by decide)
    | ip6peers h => exact absurd (htype'.trans h) (by decide)
  obtain ⟨⟨t, -, hentryType⟩, hreason⟩ := hentry
  simp only [rejectEntryAt] at hentryType hreason
  rcases Nat.mod_two_eq_zero_or_one (a - o - 4) with heven | hodd
  · rw [show o + 4 + 2 * ((a - o - 4) / 2) = a by omega, hbyte] at hentryType
    cases t <;> exact absurd hentryType (by decide)
  · rw [show o + 4 + 2 * ((a - o - 4) / 2) + 1 = a by omega, hbyte] at hreason
    exact absurd hreason (by decide)

end Altered

/-! ### A client that takes everything -/

/-- A client with the buffer `m` that adds all peers of a response and consumes entropy as it is: it
has no active and no banned servers, and its random device cannot be read. -/
structure TakesAll (m : Mem) (s : ClientState) : Prop where
  buffer : s.buffer = m
  random : ∀ k n, s.random.result k n = none
  enabled : s.config.clientEnableIp4 = true ∧ s.config.clientEnableIp6 = true
  banned : ∀ r, s.config.bannedServers.recentClients.get? r = none
  active : ∀ r, s.config.activeServers.contains r = false

/-- What the last message of a response has brought: its entropy was consumed last, and its peers
are the last ones of the probationary servers. -/
structure Brought (m : Mem) (o : ℕ) (s : ClientState) : Prop where
  entropy : hdrMsgType m o = NrpdMsgType.entropy.code →
    ∃ before, s.sink.written = before ++ [m.read (o + 4) (hdrCountOrSize m o).toNat]
  peers : ∀ t, isPeersType t = true → hdrMsgType m o = t.code →
    ∃ before, s.config.probationaryServers.map endpoint = before ++ (peersOf m o).map endpoint

section TakesAll

variable {m : Mem} {s : ClientState} {o : ℕ}

/-- A peer is added when no server is banned and none is active. -/
private theorem addServer_of_unknown {c : NrpdConfig}
    (hbanned : ∀ r, c.bannedServers.recentClients.get? r = none)
    (hactive : ∀ r, c.activeServers.contains r = false) (serv : ServerRecord)
    (clock : SteadyClock) :
    ∃ record clock', c.addServer serv clock =
        ({ c with probationaryServers := c.probationaryServers ++ [record] }, clock') ∧
      endpoint record = endpoint serv := by
  set record := { serv with retryTime := c.clientRequestIntervalSeconds } with hrecord
  have hresponse : (c.bannedServers.isPresent record clock).response = false := by
    simp [MruCache.isPresent, MruCache.isPresentLocked, hbanned record]
  refine ⟨record, (c.bannedServers.isPresent record clock).clock, ?_, rfl⟩
  simp only [NrpdConfig.addServer, ← hrecord, hresponse, hactive record, Bool.false_eq_true,
    if_false]
  rfl

/-- All peers are added when no server is banned and none is active. -/
private theorem addServers_of_unknown {c : NrpdConfig}
    (hbanned : ∀ r, c.bannedServers.recentClients.get? r = none)
    (hactive : ∀ r, c.activeServers.contains r = false) (servs : List ServerRecord)
    (clock : SteadyClock) :
    ∃ added clock', NrpdConfig.addServers servs c clock =
        ({ c with probationaryServers := c.probationaryServers ++ added }, clock') ∧
      added.map endpoint = servs.map endpoint := by
  induction servs generalizing c clock with
  | nil => exact ⟨[], clock, by simp [NrpdConfig.addServers], rfl⟩
  | cons serv servs ih =>
    obtain ⟨record, clock₁, hadd, hrecord⟩ := addServer_of_unknown hbanned hactive serv clock
    obtain ⟨added, clock', hadds, hadded⟩ := ih (c :=
      { c with probationaryServers := c.probationaryServers ++ [record] }) hbanned hactive clock₁
    refine ⟨record :: added, clock', ?_, by rw [List.map_cons, List.map_cons, hrecord, hadded]⟩
    rw [NrpdConfig.addServers, hadd]
    simp only
    rw [hadds]
    simp only [List.append_assoc, List.singleton_append]

private theorem TakesAll.takePeers (h : TakesAll m s) {t : NrpdMsgType}
    (ht : isPeersType t = true) (hcode : hdrMsgType m o = t.code) :
    TakesAll m (s.takePeers true o) ∧ Brought m o (s.takePeers true o) := by
  have hvalid : ¬ (hdrMsgType m o ≠ NrpdMsgType.ip4peers.code ∧
      hdrMsgType m o ≠ NrpdMsgType.ip6peers.code) := by
    rw [hcode]
    cases t <;> simp_all [isPeersType]
  obtain ⟨added, clock', hadds, hadded⟩ :=
    addServers_of_unknown h.banned h.active (peersOf m o) s.clock
  have htaken : s.takePeers true o =
      { s with
        config := { s.config with
          probationaryServers := s.config.probationaryServers ++ added }
        clock := clock' } := by
    simp only [ClientState.takePeers, if_true, NrpdConfig.addServersFromMessage, h.buffer,
      if_neg hvalid, hadds]
  rw [htaken]
  refine ⟨⟨h.buffer, h.random, h.enabled, h.banned, h.active⟩, ⟨fun hentropy => ?_, ?_⟩⟩
  · obtain rfl := NrpdMsgType.code_injective (hcode.symm.trans hentropy)
    exact absurd ht (by decide)
  · intro _ _ _
    exact ⟨s.config.probationaryServers.map endpoint, by rw [List.map_append, hadded]⟩

/-- Entropy stays as it is when the device cannot be read. -/
private theorem scrambleEntropy_of_error {random : RandomDevice}
    (h : ∀ k n, random.result k n = none) (bufSize entropy : ℕ) (secret m : Mem) :
    ∃ random', scrambleEntropy bufSize entropy random secret m = (false, random', m) ∧
      ∀ k n, random'.result k n = none := by
  rw [scrambleEntropy]
  split
  · exact ⟨random, rfl, h⟩
  · simp only [RandomDevice.read, h, Option.map_none]
    exact ⟨_, rfl, h⟩

private theorem TakesAll.takeEntropy (h : TakesAll m s)
    (hcode : hdrMsgType m o = NrpdMsgType.entropy.code) :
    TakesAll m (s.takeEntropy o) ∧ Brought m o (s.takeEntropy o) := by
  obtain ⟨random', hmasked, hrandom⟩ := scrambleEntropy_of_error h.random
    (hdrCountOrSize m o).toNat (hdrContent o) (s.secrets s.random.taken) m
  have hsize : ¬ (hdrCountOrSize m o).toNat > maxEntropySize := by
    have := (hdrCountOrSize m o).toNat_lt
    simp only [maxEntropySize]
    omega
  have htaken : s.takeEntropy o =
      { s with
        random := random'
        buffer := m
        sink := (s.sink.write (m.read (o + 4) (hdrCountOrSize m o).toNat)).2 } := by
    simp only [ClientState.takeEntropy, h.buffer, hmasked, consumeEntropy, if_neg hsize]
  rw [htaken]
  refine ⟨⟨rfl, hrandom, h.enabled, h.banned, h.active⟩, ⟨fun _ => ⟨s.sink.written, rfl⟩, ?_⟩⟩
  intro t ht hpeers
  obtain rfl := NrpdMsgType.code_injective (hcode.symm.trans hpeers)
  exact absurd ht (by decide)

/-- **One message.** It keeps such a client, and brings what it holds. -/
theorem TakesAll.takeMessage (h : TakesAll m s) (o : ℕ) :
    TakesAll m (s.takeMessage (.configured 0) o) ∧
      Brought m o (s.takeMessage (.configured 0) o) := by
  have hnothing (htype : ∀ t, t = .entropy ∨ isPeersType t = true → hdrMsgType m o ≠ t.code)
      {s' : ClientState} : Brought m o s' :=
    ⟨fun h => absurd h (htype _ (.inl rfl)), fun t ht h => absurd h (htype t (.inr ht))⟩
  cases ht : NrpdMsgType.ofCode (hdrMsgType m o) with
  | none =>
    have htaken : s.takeMessage (.configured 0) o = s := by
      simp only [ClientState.takeMessage, h.buffer, ht]
    rw [htaken]
    refine ⟨h, hnothing fun t _ hcode => ?_⟩
    rw [hcode, NrpdMsgType.ofCode_code] at ht
    cases ht
  | some t =>
    have hcode := NrpdMsgType.ofCode_eq_some.1 ht
    have hother (hno : ∀ t', t' = .entropy ∨ isPeersType t' = true → t ≠ t') {s' : ClientState} :
        Brought m o s' :=
      hnothing fun t' ht' hcode' =>
        hno t' ht' (NrpdMsgType.code_injective (hcode.symm.trans hcode'))
    simp only [ClientState.takeMessage, h.buffer, ht]
    cases t
    case entropy => exact h.takeEntropy hcode
    case ip4peers =>
      rw [h.enabled.1]
      exact h.takePeers rfl hcode
    case ip6peers =>
      rw [h.enabled.2]
      exact h.takePeers rfl hcode
    case reject =>
      refine ⟨⟨h.buffer, h.random, h.enabled, h.banned, h.active⟩, hother ?_⟩
      rintro t' ht' rfl
      simp [isPeersType] at ht'
    all_goals
      refine ⟨h, hother ?_⟩
      rintro t' ht' rfl
      simp [isPeersType] at ht'

/-- **The last message.** When such a client has parsed a response, it has what the last message
brings. -/
theorem parseResponse_last {pre : List ℕ} (hpkt : IsResponsePacket m (pre ++ [o]))
    (h : TakesAll m s) :
    ∃ r, parseResponse (.configured 0) maxResponseMessageSize s = some r ∧ Brought m o r := by
  have hbuffer := h.buffer
  have hpkt' : IsResponsePacket s.buffer (pre ++ [o]) := by rwa [hbuffer]
  have hheaders {s' : ClientState} (h' : TakesAll m s') :
      SameHeaders m s'.buffer (pre ++ [o]) := by
    rw [h'.buffer]
    exact .refl m _
  refine ⟨_, parseResponse_eq hpkt' _, ?_⟩
  refine ((responseWalk (.configured 0) maxResponseMessageSize).visitAll_invariant
    (fun passed s' => TakesAll m s' ∧ s'.msgCount = passed.length ∧
      ∀ o' ∈ passed.getLast?, Brought m o' s') ?_ ?_ ?_).2.2 o (by simp)
  · rintro passed o₁ - s' ⟨htakes, hcount, -⟩ -
    obtain ⟨htakes', hbrought⟩ := htakes.takeMessage o₁
    refine ⟨⟨htakes'.buffer, htakes'.random, htakes'.enabled, htakes'.banned, htakes'.active⟩, ?_,
      ?_⟩
    · simp [responseWalk, hcount]
    · intro o' ho'
      rw [List.getLast?_append, List.getLast?_singleton, Option.some_or, Option.mem_some_iff] at ho'
      rw [← ho']
      exact ⟨hbrought.entropy, hbrought.peers⟩
  · rintro passed o₁ ⟨post, hos⟩ s' ⟨htakes, hcount, -⟩ hguard
    rw [guard_responseWalk hpkt (hheaders htakes) hos hcount] at hguard
    cases hguard
  · exact ⟨⟨hbuffer, h.random, h.enabled, h.banned, h.active⟩, rfl, by simp⟩

end TakesAll

/-! ### Peers and their bytes -/

section Peers

variable {m m' : Mem} {o : ℕ}

private theorem ofFn_injective {k : ℕ} {f g : Fin k → UInt8} (h : Vector.ofFn f = Vector.ofFn g)
    (i : Fin k) : f i = g i := by
  have := congrArg (fun v : Vector UInt8 k => v[i]) h
  simpa using this

private theorem be16_of_port {a : ℕ} (h : UInt16.ofNat (m.be16 a) = UInt16.ofNat (m'.be16 a)) :
    m a = m' a ∧ m (a + 1) = m' (a + 1) := by
  have hnat := congrArg UInt16.toNat h
  rw [UInt16.toNat_ofNat', UInt16.toNat_ofNat', Nat.mod_eq_of_lt (m.be16_lt a),
    Nat.mod_eq_of_lt (m'.be16_lt a)] at hnat
  exact Mem.be16_inj.1 hnat

/-- The address and the port of an IPv4 peer are its bytes. -/
theorem byte_of_endpoint_ofIp4Peer {a : ℕ}
    (h : endpoint (.ofIp4Peer m a) = endpoint (.ofIp4Peer m' a)) {j : ℕ} (hj : j < 6) :
    m (a + j) = m' (a + j) := by
  simp only [endpoint, ServerRecord.ofIp4Peer, ServerRecord.new, Prod.mk.injEq,
    Host.ip4.injEq] at h
  obtain ⟨hport0, hport1⟩ := be16_of_port h.2
  by_cases hhost : j < 4
  · exact ofFn_injective h.1 ⟨j, hhost⟩
  · obtain rfl | rfl : j = 4 ∨ j = 5 := by omega
    · exact hport0
    · exact hport1

/-- The address and the port of an IPv6 peer are its bytes. -/
theorem byte_of_endpoint_ofIp6Peer {a : ℕ}
    (h : endpoint (.ofIp6Peer m a) = endpoint (.ofIp6Peer m' a)) {j : ℕ} (hj : j < 18) :
    m (a + j) = m' (a + j) := by
  simp only [endpoint, ServerRecord.ofIp6Peer, ServerRecord.new, Prod.mk.injEq,
    Host.ip6.injEq] at h
  obtain ⟨hport0, hport1⟩ := be16_of_port h.2
  by_cases hhost : j < 16
  · exact ofFn_injective h.1 ⟨j, hhost⟩
  · obtain rfl | rfl : j = 16 ∨ j = 17 := by omega
    · exact hport0
    · exact hport1

/-- Two peers messages with the same header and the same peers have the same content. -/
theorem byte_of_endpoints {t : NrpdMsgType} (ht : isPeersType t = true)
    (hcode : hdrMsgType m o = t.code) (hcode' : hdrMsgType m' o = t.code)
    (hcount : hdrCountOrSize m o = hdrCountOrSize m' o)
    (h : (peersOf m o).map endpoint = (peersOf m' o).map endpoint) {k : ℕ}
    (hk : k < recordSize t * (hdrCountOrSize m o).toNat) : m (o + 4 + k) = m' (o + 4 + k) := by
  have hi : k / recordSize t < (hdrCountOrSize m o).toNat := Nat.div_lt_of_lt_mul hk
  have hsplit : o + 4 + k = o + 4 + k / recordSize t * recordSize t + k % recordSize t := by
    have := Nat.div_add_mod' k (recordSize t)
    omega
  simp only [peersOf, ← hcount, hcode, hcode', List.map_map] at h
  have hpeer := List.map_inj_left.1 h _ (List.mem_range.2 hi)
  rw [hsplit]
  cases t <;> simp only [isPeersType] at ht
  case ip4peers => exact byte_of_endpoint_ofIp4Peer hpeer (Nat.mod_lt _ (by decide))
  case ip6peers => exact byte_of_endpoint_ofIp6Peer hpeer (Nat.mod_lt _ (by decide))
  all_goals exact absurd ht (by decide)

end Peers

/-! ### What a truncated response shows -/

theorem takesAll_newClient (m : Mem) : TakesAll m (newClient m) :=
  ⟨rfl, fun _ _ => rfl, ⟨rfl, rfl⟩, fun _ => rfl, fun _ => rfl⟩

section Truncated

variable {m datagram : Mem} {pre : List ℕ} {o n a : ℕ} {v : UInt8}

/-- A client that takes everything tells contents of the last message apart. -/
theorem not_sameEffects_of_content (hpkt : IsResponsePacket m (pre ++ [o]))
    (hpkt' : IsResponsePacket (m.write a [v]) (pre ++ [o]))
    (htype : hdrMsgType m o ≠ NrpdMsgType.reject.code) (ha : o + 4 ≤ a)
    (hlt : a < o + hdrLength m o) (hv : v ≠ m a) :
    ∃ r r', parseResponse (.configured 0) maxResponseMessageSize (newClient m) = some r ∧
      parseResponse (.configured 0) maxResponseMessageSize (newClient (m.write a [v])) = some r' ∧
      ¬ r.SameEffects r' := by
  obtain ⟨r, hr, hbrought⟩ := parseResponse_last hpkt (takesAll_newClient m)
  obtain ⟨r', hr', hbrought'⟩ := parseResponse_last hpkt' (takesAll_newClient (m.write a [v]))
  refine ⟨r, r', hr, hr', fun hsame => ?_⟩
  have hagree : m.AgreeOn (m.write a [v]) 0 (o + 4) :=
    fun i _ hi => (Mem.write_of_notMem (.inl (by omega))).symm
  have hcount := hdrCountOrSize_congr hagree (Nat.zero_le o) (Nat.le_refl _)
  have htypes := hdrMsgType_congr hagree (Nat.zero_le o) (by omega)
  have hdiffers : m a ≠ m.write a [v] a := by
    have hbyte : m.write a [v] a = v := Mem.write_of_lt (i := 0) (by simp)
    rw [hbyte]
    exact hv.symm
  obtain ⟨t, -, ht, hlen⟩ := (hpkt.messages o (by simp)).hasRecords
  have hcontent (h : ∀ k < recordSize t * (hdrCountOrSize m o).toNat,
      m (o + 4 + k) = m.write a [v] (o + 4 + k)) : False := by
    have := h (a - (o + 4)) (by omega)
    rw [show o + 4 + (a - (o + 4)) = a by omega] at this
    exact hdiffers this
  have hpeers (hpeers : isPeersType t = true) : False := by
    obtain ⟨before, hbefore⟩ := hbrought.peers t hpeers ht
    obtain ⟨before', hbefore'⟩ := hbrought'.peers t hpeers (by rw [← htypes, ht])
    rw [hsame.config, hbefore'] at hbefore
    have hlength : ((peersOf (m.write a [v]) o).map endpoint).length =
        ((peersOf m o).map endpoint).length := by
      simp [peersOf, hcount]
    have hsamePeers := (List.append_inj' hbefore hlength).2
    exact hcontent fun k hk =>
      byte_of_endpoints hpeers ht (by rw [← htypes, ht]) hcount hsamePeers.symm hk
  cases t
  case reject => exact htype ht
  case ip4peers => exact hpeers rfl
  case ip6peers => exact hpeers rfl
  case entropy =>
    obtain ⟨before, hbefore⟩ := hbrought.entropy ht
    obtain ⟨before', hbefore'⟩ := hbrought'.entropy (by rw [← htypes, ht])
    rw [hsame.sink, hbefore', ← hcount] at hbefore
    have hsameBytes := List.singleton_injective (List.append_inj' hbefore rfl).2
    refine hcontent fun k hk => (Mem.read_eq_iff.1 hsameBytes k ?_).symm
    rwa [recordSize, Nat.one_mul] at hk
  all_goals
    have := hpkt.messages o (by simp)
    rcases this with ⟨h, -, -, -⟩ | ⟨h, -⟩ | ⟨h, -⟩ | ⟨h, -⟩ <;>
      exact absurd (ht.symm.trans h) (by decide)

/-- What the client does with a truncated response depends on what the buffer held before. -/
theorem not_onlyDatagramMatters_of_truncated (h : IsTruncatedResponse datagram n) :
    ¬ OnlyDatagramMatters datagram n := by
  obtain ⟨m, os, hm, hpkt, hlong⟩ := h
  intro honly
  have hvalid : validateResponsePacket m = some true := validateResponsePacket_iff.2 ⟨os, hpkt⟩
  have hagree {a : ℕ} {v : UInt8} (ha : n ≤ a) : datagram.AgreeOn (m.write a [v]) 0 n :=
    fun i h0 hi => (hm i h0 hi).trans (Mem.write_of_notMem (.inl (by omega))).symm
  have haltered {a : ℕ} {v : UInt8} (ha : n ≤ a) : ∃ os', IsResponsePacket (m.write a [v]) os' := by
    refine validateResponsePacket_iff.1 ?_
    rw [← (honly m _ hm (hagree ha)).1, hvalid]
  by_cases hshort : n ≤ 3
  · obtain ⟨os', hpkt'⟩ := haltered (a := 3) (v := 0) hshort
    have hzero : pktMsgCount (m.write 3 [0]) = 0 := Mem.write_of_lt (i := 0) (by simp)
    have hpos := hpkt'.count_pos
    rw [hzero] at hpos
    exact absurd hpos (by decide)
  obtain ⟨pre, o, rfl⟩ : ∃ pre o, os = pre ++ [o] := by
    rcases List.eq_nil_or_concat os with rfl | ⟨pre, o, rfl⟩
    · have hpos := hpkt.count_pos
      rw [← hpkt.count_eq] at hpos
      exact absurd hpos (by simp)
    · exact ⟨pre, o, by simp⟩
  have hmsg := hpkt.messages o (by simp)
  have hend : o + hdrLength m o = pktLength m := hpkt.tiles.of_append_singleton.2.2
  have h4 := hmsg.hdrLength_ge
  -- the first byte behind the datagram that is not in the length of the last message
  set a := max n (o + 2) with ha
  have hsame {v : UInt8} : IsResponsePacket (m.write a [v]) (pre ++ [o]) := by
    obtain ⟨os', hpkt'⟩ := haltered (a := a) (v := v) (by omega)
    exact isResponsePacket_of_altered hpkt (by omega) hpkt'
  have hlast {v : UInt8} : IsResponseMessage (m.write a [v]) o := hsame.messages o (by simp)
  obtain ⟨v, hv⟩ : ∃ v, v ≠ m a := ⟨m a + 1, by simp⟩
  rcases (by omega : a = o + 2 ∨ a = o + 3 ∨ o + 4 ≤ a) with htype | hcount | hcontent
  · exact not_isResponseMessage_of_type htype hlast
  · exact not_isResponseMessage_of_count hmsg hcount hv hlast
  · by_cases hreject : hdrMsgType m o = NrpdMsgType.reject.code
    · exact not_isResponseMessage_of_entry hmsg hreject hcontent (by omega) hlast
    · obtain ⟨r, r', hr, hr', hdiffer⟩ :=
        not_sameEffects_of_content hpkt hsame hreject hcontent (by omega) hv
      obtain ⟨t, t', ht, ht', heffects⟩ := (honly m (m.write a [v]) hm (hagree (by omega))).2 hvalid
        (.configured 0) (newClient m)
      obtain rfl := Option.some.inj (hr.symm.trans ht)
      obtain rfl := Option.some.inj (hr'.symm.trans ht')
      exact hdiffer heffects

/-- **Only the datagram matters.** What the client does depends on the datagram alone if and only if
the datagram is not the beginning of a response packet that is longer. -/
theorem onlyDatagramMatters_iff (datagram : Mem) (n : ℕ) :
    OnlyDatagramMatters datagram n ↔ ¬ IsTruncatedResponse datagram n :=
  ⟨fun honly htruncated => not_onlyDatagramMatters_of_truncated htruncated honly,
    onlyDatagramMatters_of_not_truncated⟩

/-- When the last byte of the response is missing, the client consumes the one that the buffer held
before. -/
theorem parseResponse_consumes_stale_byte :
    (entropyResponse 1).AgreeOn (entropyResponse 2) 0 8 ∧
      validateResponsePacket (entropyResponse 1) = some true ∧
      validateResponsePacket (entropyResponse 2) = some true ∧
      ∃ r r', parseResponse (.configured 0) maxResponseMessageSize
          (newClient (entropyResponse 1)) = some r ∧
        parseResponse (.configured 0) maxResponseMessageSize
          (newClient (entropyResponse 2)) = some r' ∧
        r.sink.written = [[1]] ∧ r'.sink.written = [[2]] := by
  have hagree : ∀ i < 8, entropyResponse 1 i = entropyResponse 2 i := by decide
  exact ⟨fun i _ hi => hagree i hi, by decide, by decide, _, _, rfl, rfl, by decide, by decide⟩

end Truncated

end Nrpd
