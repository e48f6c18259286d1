import Nrpd.Config.RecordMoves
import Nrpd.Config.Rotation
import Nrpd.Protocol.ResponseRoundTrip

/-!
# Peers survive the wire

A server lists its active servers with `GetServerList` and puts the list into a message with
`GenerateResponsePeersMessage`; a client takes the servers out of the message with
`AddServersFromMessage`. The client appends a record for each server of the list, in the order of
the set, unless it has the address in its own set or has banned the server. The counts are of type
`int`, so all of this is about sets whose number of servers has that type.

## Main definitions

* `NrpdConfig.CountTrue`: the cached count of a family is unset or right.
* `NrpdConfig.lookups`: the entries of a message, with the clock when each is looked up.
* `NrpdConfig.IsBanned`, `NrpdConfig.Accepts`: the entries that are appended.

## Main results

* `getServerList_eq`: the list.
* `peersOf_generateResponsePeersMessage`: the entries of the message.
* `addServers_eq`: what the client appends.
* `peers_survive`: from the one set to the other list.
-/

namespace Nrpd

open FixedWidth SteadyClock

/-! ### The list of the server -/

namespace NrpdConfig

/-- The cached count of a family is in the range of its type, and is unset or right. -/
structure CountTrue (c : NrpdConfig) (ipv6 : Bool) : Prop where
  range : -2147483648 ≤ c.cachedCount ipv6 ∧ c.cachedCount ipv6 < 2147483648
  exact : c.cachedCount ipv6 < 0 ∨ c.cachedCount ipv6 = (c.activeOf ipv6).length

variable {c : NrpdConfig} {ipv6 : Bool} {type : NrpdMsgType}

/-- A count that is unset or right is the number of servers, as an `int`. -/
theorem CountTrue.knownCount_eq (h : c.CountTrue ipv6) :
    c.knownCount ipv6 = i32 (c.activeOf ipv6).length := by
  have hrange := h.range
  rw [knownCount]
  split_ifs with hcached
  · have hexact := h.exact.resolve_left (by omega)
    rw [hexact, i32_natCast (by omega)]
  · rfl

theorem activeOf_activeServerCount (c : NrpdConfig) (type : NrpdMsgType) (ipv6 : Bool) :
    (c.activeServerCount type).2.activeOf ipv6 = c.activeOf ipv6 := by
  rcases c.activeServerCount_snd type with h | h
  · rw [h]
  · rw [h, activeOf_setCachedCount]

theorem ipv6_of_mem_activeOf {r : ServerRecord} (h : r ∈ c.activeOf ipv6) : r.ipv6 = ipv6 := by
  simpa using (List.mem_filter.1 h).2

/-- The servers that are listed. -/
theorem flatMap_peerBytes_length {records : List ServerRecord} (h : ∀ r ∈ records, r.ipv6 = ipv6) :
    (records.flatMap peerBytes).length = records.length * sizeofPeer ipv6 :=
  Mem.length_flatMap_of_length fun r hr => by rw [length_peerBytes, h r hr]

/-- **The list.** It has the first servers of the family, in the order of the set: as many as are
asked for, of those that are counted. -/
theorem getServerList_eq (htype : isPeersType type = true) {n k : ℕ}
    (hcount : (c.activeServerCount type).1 = n) (hsome : 1 ≤ n) (hpos : 1 ≤ k)
    (hlength : min n k ≤ (c.activeOf (isIp6Peers type)).length) (hmax : min n k ≤ 67108863) :
    (c.getServerList type k).1 =
      some (((c.activeOf (isIp6Peers type)).take (min n k)).flatMap peerBytes) := by
  have hnot : (!isPeersType type || decide ((k : ℤ) ≤ 0)) = false := by
    simp [htype]
    omega
  have hmin : min (n : ℤ) (k : ℤ) = (min n k : ℕ) := by omega
  have hpeers : ∀ r ∈ (c.activeOf (isIp6Peers type)).take (min n k), r.ipv6 = isIp6Peers type :=
    fun r hr => ipv6_of_mem_activeOf (List.mem_of_mem_take hr)
  have hsize : sizeofPeer (isIp6Peers type) ≤ 18 := by cases isIp6Peers type <;> simp [sizeofPeer]
  have hmul : min n k * sizeofPeer (isIp6Peers type) ≤ 67108863 * 18 := Nat.mul_le_mul hmax hsize
  have hcopied := flatMap_peerBytes_length hpeers
  rw [List.length_take, Nat.min_eq_left hlength] at hcopied
  simp only [getServerList, hnot, Bool.false_eq_true, if_false, hcount, hmin,
    activeOf_activeServerCount, ← Int.natCast_mul, Int.toNat_natCast]
  rw [if_neg (by omega), i32_natCast (by omega), Int.toNat_natCast, copyServers, hcopied,
    Nat.sub_self,
    List.replicate_zero, List.append_nil]

end NrpdConfig

/-! ### The entries of the message -/

/-- The record that a client makes of a listed server. -/
def ServerRecord.listed (r : ServerRecord) : ServerRecord := .new r.host r.port

/-- A peers message that is accepted in a response, has the length of its records, and whose entries
are given servers in their order. -/
structure CarriesPeers (m : Mem) (hdr : ℕ) (type : NrpdMsgType) (servers : List ServerRecord) :
    Prop where
  accepted : validateMessageHeader m hdr false = true
  msgType : hdrMsgType m hdr = type.code
  length : hdrLength m hdr = 4 + recordSize type * servers.length
  entries : peersOf m hdr = servers.map ServerRecord.listed

section Message

open NrpdConfig

variable {m : Mem} {o : ℕ} {r : ServerRecord}

/-- An entry for an IPv4 server reads back. -/
theorem ofIp4Peer_of_read (hfamily : r.ipv6 = false) (h : m.read o sizeofIp4Peer = peerBytes r) :
    ServerRecord.ofIp4Peer m o = r.listed := by
  cases hhost : r.host with
  | ip4 b =>
    have hbytes : peerBytes r = b.toList ++ be16Bytes r.port.toNat := by rw [peerBytes, hhost]; rfl
    have hlength : (b.toList ++ be16Bytes r.port.toNat).length = sizeofIp4Peer := by simp
    rw [hbytes, ← hlength] at h
    obtain ⟨haddress, hport⟩ := Mem.read_eq_append h
    rw [b.length_toList] at haddress hport
    rw [ServerRecord.ofIp4Peer, Mem.ofFn_of_read haddress, Mem.be16_of_read r.port.toNat_lt hport,
      ServerRecord.listed, hhost, UInt16.ofNat_toNat]
  | ip6 b => rw [ServerRecord.ipv6, hhost] at hfamily; cases hfamily

/-- An entry for an IPv6 server reads back. -/
theorem ofIp6Peer_of_read (hfamily : r.ipv6 = true) (h : m.read o sizeofIp6Peer = peerBytes r) :
    ServerRecord.ofIp6Peer m o = r.listed := by
  cases hhost : r.host with
  | ip4 b => rw [ServerRecord.ipv6, hhost] at hfamily; cases hfamily
  | ip6 b =>
    have hbytes : peerBytes r = b.toList ++ be16Bytes r.port.toNat := by rw [peerBytes, hhost]; rfl
    have hlength : (b.toList ++ be16Bytes r.port.toNat).length = sizeofIp6Peer := by simp
    rw [hbytes, ← hlength] at h
    obtain ⟨haddress, hport⟩ := Mem.read_eq_append h
    rw [b.length_toList] at haddress hport
    rw [ServerRecord.ofIp6Peer, Mem.ofFn_of_read haddress, Mem.be16_of_read r.port.toNat_lt hport,
      ServerRecord.listed, hhost, UInt16.ofNat_toNat]

/-- **The message.** A list of servers of one family goes into a message of the grammar, and its
entries are the servers, in their order. -/
theorem peersOf_generateResponsePeersMessage {type : NrpdMsgType} {servers : List ServerRecord}
    {bufferSize : ℕ} (htype : isPeersType type = true)
    (hpeers : ∀ r ∈ servers, r.ipv6 = isIp6Peers type)
    (hpos : 1 ≤ servers.length) (hmax : servers.length ≤ 255)
    (hroom : 4 + servers.length * recordSize type ≤ bufferSize) (buffer : ℕ) (m : Mem) :
    ∃ next m', generateResponsePeersMessage type (.ofNat servers.length)
        (some (servers.flatMap peerBytes)) bufferSize (some buffer) m = (some next, m') ∧
      CarriesPeers m' buffer type servers := by
  have hcases : type = .ip4peers ∨ type = .ip6peers := by
    cases type <;> simp [isPeersType] at htype <;> simp
  have hsize : recordSize type = sizeofPeer (isIp6Peers type) := by
    rcases hcases with rfl | rfl <;> rfl
  have hsmall : recordSize type ≤ 18 := by rcases hcases with rfl | rfl <;> simp [recordSize]
  have hmul : servers.length * recordSize type ≤ 255 * 18 := Nat.mul_le_mul hmax hsmall
  have hcount : (UInt8.ofNat servers.length).toNat = servers.length := by
    rw [UInt8.toNat_ofNat', Nat.mod_eq_of_lt (by omega)]
  have hne : UInt8.ofNat servers.length ≠ 0 := fun hzero => by
    rw [hzero, UInt8.toNat_zero] at hcount
    omega
  have hlength : (servers.flatMap peerBytes).length = servers.length * recordSize type :=
    hsize ▸ flatMap_peerBytes_length hpeers
  set m' := putMessage m buffer (4 + (servers.flatMap peerBytes).length) type.code
    (.ofNat servers.length) (servers.flatMap peerBytes) with hm'
  have hgenerated : generateResponsePeersMessage type (.ofNat servers.length)
      (some (servers.flatMap peerBytes)) bufferSize (some buffer) m =
      (some (nextMessageBy (buffer + 4) (servers.flatMap peerBytes).length), m') := by
    rw [generateResponsePeersMessage_of_length hcases hcount hne hlength
      (by rw [hlength]; exact hroom),
      List.take_length]
  refine ⟨_, m', hgenerated, ?_, hdrMsgType_putMessage, ?_, ?_⟩
  · have hmessage := isResponseMessage_putMessage m buffer (.ofNat servers.length)
      (servers.flatMap peerBytes) (hcases.imp_right .inr)
    rw [hcount, ← hlength] at hmessage
    exact validateMessageHeader_response_iff.2 hmessage
  · rw [hdrLength_putMessage (by omega), hlength, Nat.mul_comm]
  · have hcontent : m'.read (hdrContent buffer) (servers.flatMap peerBytes).length =
        servers.flatMap peerBytes := Mem.read_write _ _ _
    have hback : ∀ r ∈ servers, ∀ o, m'.read o (recordSize type) = peerBytes r →
        (if type.code = NrpdMsgType.ip4peers.code then ServerRecord.ofIp4Peer m' o
          else ServerRecord.ofIp6Peer m' o) = r.listed := by
      intro r hr o hread
      rcases hcases with rfl | rfl
      · exact ofIp4Peer_of_read (hpeers r hr) hread
      · exact ofIp6Peer_of_read (hpeers r hr) hread
    have hmap := Mem.map_range_of_read_flatMap
      (fun r hr => by rw [length_peerBytes, hpeers r hr, hsize]) hback hcontent
    rw [← hmap, peersOf, hdrCountOrSize_putMessage, hdrMsgType_putMessage, hcount]
    refine List.map_congr_left fun i _ => ?_
    rcases hcases with rfl | rfl
    · rw [if_pos rfl, if_pos rfl, recordSize]
    · rw [if_neg (by decide), if_neg (by decide), recordSize]

end Message

/-! ### What the client appends -/

namespace NrpdConfig

variable {c : NrpdConfig} {serv : ServerRecord} {clock : SteadyClock}

/-- The cache has a ban of the server that is not over at the time `now`. -/
def IsBanned (c : NrpdConfig) (serv : ServerRecord) (now : ℤ) : Prop :=
  ∃ t ∈ c.bannedServers.recentClients.get? serv, now < c.bannedServers.expiry t

instance (c : NrpdConfig) (serv : ServerRecord) (now : ℤ) : Decidable (c.IsBanned serv now) :=
  inferInstanceAs (Decidable (∃ t ∈ c.bannedServers.recentClients.get? serv,
    now < c.bannedServers.expiry t))

/-- The address of the server is in the set of active servers. -/
def HasActiveAddress (c : NrpdConfig) (serv : ServerRecord) : Prop :=
  ∃ r ∈ c.activeServers.elems, r.host = serv.host

instance (c : NrpdConfig) (serv : ServerRecord) : Decidable (c.HasActiveAddress serv) :=
  inferInstanceAs (Decidable (∃ r ∈ c.activeServers.elems, r.host = serv.host))

/-- The entries of a message, with the clock when each is looked up in the cache of bans. -/
def lookups (c : NrpdConfig) : List ServerRecord → SteadyClock → List (ServerRecord × SteadyClock)
  | [], _ => []
  | serv :: servs, clock =>
    (serv, clock) :: lookups c servs (c.bannedServers.isPresent (c.recordFor serv) clock).clock

/-- An entry is appended: its server is not banned when it is looked up, and its address is not in
the set of active servers. -/
def Accepts (c : NrpdConfig) (looked : ServerRecord × SteadyClock) : Prop :=
  ¬ c.IsBanned (c.recordFor looked.1) looked.2.now ∧ ¬ c.HasActiveAddress looked.1

instance (c : NrpdConfig) (looked : ServerRecord × SteadyClock) : Decidable (c.Accepts looked) :=
  inferInstanceAs (Decidable (¬ _ ∧ ¬ _))

theorem isPresent_eq_true_iff :
    (c.bannedServers.isPresent serv clock).response = true ↔ c.IsBanned serv clock.now := by
  rw [MruCache.isPresent, MruCache.isPresentLocked, IsBanned]
  cases c.bannedServers.recentClients.get? serv with
  | none => simp
  | some t => simp

theorem contains_eq_true_iff :
    c.activeServers.contains (c.recordFor serv) = true ↔ c.HasActiveAddress serv := by
  rw [OrderedSet.contains, List.any_eq_true]
  exact exists_congr fun r => and_congr_right fun _ => ServerRecord.equiv_lt_iff

/-- The entries that are passed over. -/
theorem accepts_iff : c.Accepts (serv, clock) ↔ c.refuses serv clock = false := by
  rw [Accepts, refuses, Bool.or_eq_false_iff, ← isPresent_eq_true_iff, ← contains_eq_true_iff,
    Bool.not_eq_true, Bool.not_eq_true]

/-- **The client.** The entries that are accepted are appended, in their order; nothing else is
changed. -/
theorem addServers_eq (servs : List ServerRecord) (c : NrpdConfig) (clock : SteadyClock) :
    (addServers servs c clock).1 = { c with
      probationaryServers := c.probationaryServers ++
        ((c.lookups servs clock).filter (c.Accepts ·)).map fun looked =>
          c.recordFor looked.1 } := by
  suffices H : ∀ records, (addServers servs { c with probationaryServers := records } clock).1 =
      { c with probationaryServers := records ++
        ((c.lookups servs clock).filter (c.Accepts ·)).map fun looked => c.recordFor looked.1 } from
    H c.probationaryServers
  induction servs generalizing clock with
  | nil => intro records; simp [addServers, lookups]
  | cons serv servs ih =>
    intro records
    have hrefuses : refuses { c with probationaryServers := records } serv clock =
      c.refuses serv clock := rfl
    have hrecord : recordFor { c with probationaryServers := records } serv = c.recordFor serv :=
      rfl
    rw [addServers, addServer_eq, hrefuses, hrecord, lookups, List.filter_cons]
    by_cases haccepts : c.Accepts (serv, clock)
    · rw [accepts_iff.1 haccepts, if_neg Bool.false_ne_true, if_pos (decide_eq_true haccepts)]
      refine (ih _ (records ++ [c.recordFor serv])).trans ?_
      rw [List.append_assoc]
      rfl
    · have hrefused : c.refuses serv clock = true := by
        rwa [accepts_iff, Bool.not_eq_false] at haccepts
      rw [hrefused, if_pos rfl, if_neg (by simpa using haccepts)]
      exact ih _ records

end NrpdConfig

/-! ### From the set to the list -/

/-- The servers of a family that a server lists when it is asked for `k`. -/
def NrpdConfig.listedServers (server : NrpdConfig) (type : NrpdMsgType) (k : ℕ) :
    List ServerRecord :=
  (server.activeOf (isIp6Peers type)).take k

/-- What becomes of servers that were put into the message at `hdr`: the client appends records of
the ones it accepts, in their order, and changes nothing else. -/
structure SurvivesWire (m : Mem) (hdr : ℕ) (servers : List ServerRecord) (client : NrpdConfig)
    (clock : SteadyClock) : Prop where
  added : (client.addServersFromMessage m hdr clock).1 = true
  appended : (client.addServersFromMessage m hdr clock).2.1.probationaryServers =
    client.probationaryServers ++
      ((client.lookups (servers.map ServerRecord.listed) clock).filter (client.Accepts ·)).map
        fun looked => client.recordFor looked.1
  active : (client.addServersFromMessage m hdr clock).2.1.activeServers = client.activeServers

theorem CarriesPeers.survivesWire {m : Mem} {hdr : ℕ} {type : NrpdMsgType}
    {servers : List ServerRecord} (h : CarriesPeers m hdr type servers)
    (htype : isPeersType type = true) (client : NrpdConfig) (clock : SteadyClock) :
    SurvivesWire m hdr servers client clock := by
  have hpeers : ¬ (hdrMsgType m hdr ≠ NrpdMsgType.ip4peers.code ∧
      hdrMsgType m hdr ≠ NrpdMsgType.ip6peers.code) := by
    rw [h.msgType]
    cases type <;> simp [isPeersType] at htype <;> decide
  have hadded : client.addServersFromMessage m hdr clock =
      (true, NrpdConfig.addServers (servers.map ServerRecord.listed) client clock) := by
    rw [NrpdConfig.addServersFromMessage, if_neg hpeers, h.entries]
  refine ⟨by rw [hadded], ?_, ?_⟩
  · rw [hadded, NrpdConfig.addServers_eq]
  · rw [hadded, NrpdConfig.addServers_eq]

/-- **Peers survive the wire.** The list of a server for `k` servers of a family goes into a message
for `min k N` of them, which is accepted in a response; every client appends the servers of the
message that it has not banned and whose address is not in its set of active servers. -/
theorem peers_survive (server : NrpdConfig) {type : NrpdMsgType} (htype : isPeersType type = true)
    (hcount : server.CountTrue (isIp6Peers type))
    (hrange : (server.activeOf (isIp6Peers type)).length < 2147483648)
    (hsome : 1 ≤ (server.activeOf (isIp6Peers type)).length) {k : ℕ} (hpos : 1 ≤ k) (hmax : k ≤ 255)
    {bufferSize : ℕ}
    (hroom : 4 + min k (server.activeOf (isIp6Peers type)).length * recordSize type ≤ bufferSize)
    (buffer : ℕ) (m : Mem) :
    ∃ data next m', (server.getServerList type k).1 = some data ∧
      generateResponsePeersMessage type
        (.ofNat (min k (server.activeOf (isIp6Peers type)).length)) (some data) bufferSize
        (some buffer) m = (some next, m') ∧
      validateMessageHeader m' buffer false = true ∧
      ∀ client clock, SurvivesWire m' buffer (server.listedServers type k) client clock := by
  set n := (server.activeOf (isIp6Peers type)).length with hn
  have hcounted : (server.activeServerCount type).1 = n := by
    rw [NrpdConfig.activeServerCount_fst, if_pos htype, hcount.knownCount_eq, i32_natCast hrange]
  have hlist := NrpdConfig.getServerList_eq htype hcounted hsome hpos (by omega) (by omega)
  have htake :
      (server.activeOf (isIp6Peers type)).take (min n k) = server.listedServers type k := by
    rw [Nat.min_comm, ← List.take_take, hn, List.take_length]
    rfl
  rw [htake] at hlist
  have hlength : (server.listedServers type k).length = min k n := List.length_take
  have hfamily : ∀ r ∈ server.listedServers type k, r.ipv6 = isIp6Peers type := fun r hr =>
    NrpdConfig.ipv6_of_mem_activeOf (List.mem_of_mem_take hr)
  rw [← hlength] at hroom ⊢
  obtain ⟨next, m', hgenerated, hcarries⟩ := peersOf_generateResponsePeersMessage htype hfamily
    (by omega) (by omega) hroom buffer m
  exact ⟨_, next, m', hlist, hgenerated, hcarries.accepted,
    fun client clock => hcarries.survivesWire htype client clock⟩

/-- A server lists one of its two active servers, and a new client appends it. -/
theorem peers_survive_example :
    ∃ data next m', ((NrpdConfig.withServers
        [NrpdConfig.sampleServer 10 0 0 1, NrpdConfig.sampleServer 10 0 0 2] []
          (by decide)).getServerList .ip4peers 1).1 = some data ∧
      generateResponsePeersMessage .ip4peers 1 (some data) 10 (some 0) Mem.zero = (some next, m') ∧
      validateMessageHeader m' 0 false = true ∧
      ∀ client clock, SurvivesWire m' 0 [NrpdConfig.sampleServer 10 0 0 1] client clock :=
  peers_survive (NrpdConfig.withServers
    [NrpdConfig.sampleServer 10 0 0 1, NrpdConfig.sampleServer 10 0 0 2] [] (by decide)) rfl
    ⟨by decide, by decide⟩ (by decide) (by decide) (by decide : 1 ≤ 1) (by decide) (by decide) 0
    Mem.zero

/-! ### More servers than `int` counts -/

/-- The server with the `n`th IPv4 address. -/
def nthServer (n : ℕ) : ServerRecord :=
  .new (.ip4 (.ofFn fun i => .ofNat (n / 256 ^ (3 - i.val)))) 8080

theorem map_bytes_nthServer (n : ℕ) : (nthServer n).host.bytes.map UInt8.toNat =
    [n / 256 / 256 / 256 % 256, n / 256 / 256 % 256, n / 256 % 256, n % 256] := by
  have hbytes : (nthServer n).host.bytes =
      List.ofFn fun i : Fin 4 => UInt8.ofNat (n / 256 ^ (3 - i.val)) := Vector.toList_ofFn
  rw [hbytes]
  simp [List.ofFn_succ, Nat.div_div_eq_div_mul]

theorem nthServer_lt {i j : ℕ} (hij : i < j) (hj : j < 4294967296) :
    (nthServer i).lt (nthServer j) = true := by
  have hsame : ((nthServer i).ipv6 != (nthServer j).ipv6) = false := rfl
  rw [ServerRecord.lt, hsame, if_neg Bool.false_ne_true, memcmpLt, map_bytes_nthServer,
    map_bytes_nthServer, decide_eq_true_eq]
  simp only [List.cons_lt_cons_iff]
  omega

theorem pairwise_nthServers {n : ℕ} (hn : n ≤ 4294967296) :
    ((List.range n).map nthServer).Pairwise fun a b => a.lt b = true := by
  rw [List.pairwise_map]
  refine List.pairwise_lt_range.imp_of_mem fun _ hj hij => ?_
  exact nthServer_lt hij (by rw [List.mem_range] at hj; omega)

/-- A server whose active servers have the first `n` IPv4 addresses. -/
theorem activeOf_nthServers {n : ℕ} (hn : n ≤ 4294967296) :
    ((NrpdConfig.withServers ((List.range n).map nthServer) []
      (pairwise_nthServers hn)).activeOf false).length = n := by
  have hall : ∀ r ∈ (List.range n).map nthServer, (r.ipv6 == false) = true := by
    intro r hr
    obtain ⟨i, -, rfl⟩ := List.mem_map.1 hr
    rfl
  rw [NrpdConfig.activeOf, NrpdConfig.withServers, List.filter_eq_self.2 hall, List.length_map,
    List.length_range]

/-- With half of all IPv4 addresses in the set, the count of type `int` is negative, and there is
neither a list nor a message. -/
theorem peers_uncounted :
    ∃ server : NrpdConfig, server.CountTrue false ∧ 1 ≤ (server.activeOf false).length ∧
      (server.getServerList .ip4peers 1).1 = none ∧
      ∀ count bufferSize buffer m, (generateResponsePeersMessage .ip4peers count
        (server.getServerList .ip4peers 1).1 bufferSize (some buffer) m).1 = none := by
  have hn : 2147483648 ≤ 4294967296 := by decide
  have hlength := activeOf_nthServers hn
  refine ⟨NrpdConfig.withServers ((List.range 2147483648).map nthServer) []
    (pairwise_nthServers hn), ?_⟩
  generalize hserver : NrpdConfig.withServers ((List.range 2147483648).map nthServer) []
    (pairwise_nthServers hn) = server at hlength ⊢
  have hunset : server.cachedCount false = -1 := by rw [← hserver]; rfl
  have htrue : server.CountTrue false := ⟨by omega, .inl (by omega)⟩
  have hlist : (server.getServerList .ip4peers 1).1 = none := by
    have hcount : (server.activeServerCount .ip4peers).1 = -2147483648 := by
      have hpeers : isPeersType .ip4peers = true := rfl
      rw [NrpdConfig.activeServerCount_fst, if_pos hpeers]
      refine (NrpdConfig.CountTrue.knownCount_eq htrue).trans ?_
      rw [hlength]
      decide
    simp only [NrpdConfig.getServerList, hcount]
    rfl
  rw [hlist]
  exact ⟨htrue, by omega, rfl, fun _ _ _ _ => rfl⟩

end Nrpd
