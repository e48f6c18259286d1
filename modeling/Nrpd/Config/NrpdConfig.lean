import Nrpd.Cache.MruCache
import Nrpd.Config.ServerRecord
import Nrpd.Lib.FixedWidth
import Nrpd.Lib.ListIterator

/-!
# The configuration

`NrpdConfig` of `config.cpp`: the servers that a node knows, and the settings that the client and
the server read. A record is referred to by its container and its position there. A function whose
source would read through an iterator that has no element, or take the first element of an empty
list, has no result.

## Main definitions

* `NrpdConfig`, `NrpdConfig.new`: the state and its constructor.
* `NrpdConfig.activeServerCount`, `NrpdConfig.getServerList`: what the server reads.
* `NrpdConfig.getNextServer`, `NrpdConfig.incrementServerFailCount`,
  `NrpdConfig.markServerSuccessful`, `NrpdConfig.addServersFromMessage`: what the client calls.
-/

namespace Nrpd

open SteadyClock FixedWidth

/-- A reference to a record: its container and its position in it. -/
inductive ServerRef where
  | configured (i : ℕ)
  | active (i : ℕ)
  | probationary (i : ℕ)
  deriving DecidableEq, Repr

/-- The sizes of entropy that a client may ask for by default. -/
abbrev EntropySize := { n : ℤ // 1 ≤ n ∧ n ≤ 255 }

/-- The fields of `NrpdConfig` that the functions below read. -/
structure NrpdConfig where
  bannedServers : MruCache ServerRecord
  configuredServers : List ServerRecord
  activeServers : OrderedSet ServerRecord ServerRecord.lt
  probationaryServers : List ServerRecord
  activeIterator : ListIter
  probationaryIterator : ListIter
  countIp6Servers : ℤ
  countIp4Servers : ℤ
  prevReturnedProbationary : Bool
  enableIp4Peers : Bool
  enableIp6Peers : Bool
  clientEnableIp4 : Bool
  clientEnableIp6 : Bool
  clientRequestIntervalSeconds : ℤ
  defaultEntropySize : EntropySize

/-- Whether a type is `ip4peers` or `ip6peers`. -/
def isPeersType (type : NrpdMsgType) : Bool := type == .ip4peers || type == .ip6peers

/-- Whether a peers type is the one for IPv6. -/
def isIp6Peers (type : NrpdMsgType) : Bool := type == .ip6peers

/-- The size of one record in a peers message. -/
def sizeofPeer (ipv6 : Bool) : ℕ := if ipv6 then sizeofIp6Peer else sizeofIp4Peer

namespace NrpdConfig

/-- The constructor. It leaves the two flags for peers responses as they are in memory. -/
def new (enableIp4Peers enableIp6Peers : Bool) (clock : SteadyClock) : NrpdConfig × SteadyClock :=
  let banned := MruCache.new (60 * 60 * 24) clock
  ({ bannedServers := banned.1
     configuredServers := []
     activeServers := .empty
     probationaryServers := []
     activeIterator := .atEnd
     probationaryIterator := .atEnd
     countIp6Servers := -1
     countIp4Servers := -1
     prevReturnedProbationary := true
     enableIp4Peers := enableIp4Peers
     enableIp6Peers := enableIp6Peers
     clientEnableIp4 := true
     clientEnableIp6 := true
     clientRequestIntervalSeconds := clientMinRetrySeconds
     defaultEntropySize := ⟨Nrpd.defaultEntropySize, by decide⟩ },
    banned.2)

/-- `enablePeersResponse`. -/
def enablePeersResponse (c : NrpdConfig) (type : NrpdMsgType) : Bool :=
  if type = .ip4peers then c.enableIp4Peers
  else if type = .ip6peers then c.enableIp6Peers
  else false

/-! ### Counts -/

/-- The cached count of a family: `m_countIp6Servers` or `m_countIp4Servers`. -/
def cachedCount (c : NrpdConfig) (ipv6 : Bool) : ℤ :=
  if ipv6 then c.countIp6Servers else c.countIp4Servers

/-- Store the cached count of a family. -/
def setCachedCount (c : NrpdConfig) (ipv6 : Bool) (n : ℤ) : NrpdConfig :=
  if ipv6 then { c with countIp6Servers := n } else { c with countIp4Servers := n }

/-- The active servers of a family, in the order of the set. -/
def activeOf (c : NrpdConfig) (ipv6 : Bool) : List ServerRecord :=
  c.activeServers.elems.filter fun record => record.ipv6 == ipv6

theorem cachedCount_setCachedCount (c : NrpdConfig) (ipv6 ipv6' : Bool) (n : ℤ) :
    (c.setCachedCount ipv6 n).cachedCount ipv6' =
      if ipv6' = ipv6 then n else c.cachedCount ipv6' := by
  cases ipv6 <;> cases ipv6' <;> rfl

theorem activeServers_setCachedCount (c : NrpdConfig) (ipv6 : Bool) (n : ℤ) :
    (c.setCachedCount ipv6 n).activeServers = c.activeServers := by
  cases ipv6 <;> rfl

theorem activeOf_setCachedCount (c : NrpdConfig) (ipv6 ipv6' : Bool) (n : ℤ) :
    (c.setCachedCount ipv6 n).activeOf ipv6' = c.activeOf ipv6' := by
  rw [activeOf, activeServers_setCachedCount, activeOf]

/-- `ActiveServerCount`. -/
def activeServerCount (c : NrpdConfig) (type : NrpdMsgType) : ℤ × NrpdConfig :=
  if !isPeersType type then (0, c)
  else
    let ipv6 := isIp6Peers type
    if c.cachedCount ipv6 > -1 then (c.cachedCount ipv6, c)
    else
      let count := i32 (c.activeOf ipv6).length
      (count, c.setCachedCount ipv6 count)

/-- The count of active servers of a family that `ActiveServerCount` answers with. -/
def knownCount (c : NrpdConfig) (ipv6 : Bool) : ℤ :=
  if c.cachedCount ipv6 > -1 then c.cachedCount ipv6 else i32 (c.activeOf ipv6).length

theorem activeServerCount_fst (c : NrpdConfig) (type : NrpdMsgType) :
    (c.activeServerCount type).1 =
      if isPeersType type then c.knownCount (isIp6Peers type) else 0 := by
  rw [activeServerCount, knownCount]
  cases isPeersType type with
  | false => rfl
  | true =>
    simp only [Bool.not_true, Bool.false_eq_true, if_false, if_true]
    split <;> rfl

/-- Caching the count that is answered does not change the answers. -/
theorem knownCount_setCachedCount (c : NrpdConfig) (ipv6 ipv6' : Bool) :
    (c.setCachedCount ipv6 (c.knownCount ipv6)).knownCount ipv6' = c.knownCount ipv6' := by
  unfold knownCount
  rw [cachedCount_setCachedCount, activeOf_setCachedCount]
  by_cases h : ipv6' = ipv6
  · rw [if_pos h, h]
    split_ifs <;> rfl
  · rw [if_neg h]

theorem activeServerCount_snd (c : NrpdConfig) (type : NrpdMsgType) :
    (c.activeServerCount type).2 = c ∨ (c.activeServerCount type).2 =
      c.setCachedCount (isIp6Peers type) (c.knownCount (isIp6Peers type)) := by
  rw [activeServerCount, knownCount]
  split
  · exact .inl rfl
  · simp only
    split_ifs
    · exact .inl rfl
    · exact .inr rfl

/-- The bytes that one record takes in a peers message. -/
def peerBytes (record : ServerRecord) : List UInt8 :=
  record.host.bytes ++ be16Bytes record.port.toNat

theorem length_peerBytes (record : ServerRecord) :
    (peerBytes record).length = sizeofPeer record.ipv6 := by
  rw [peerBytes, List.length_append]
  cases hhost : record.host <;>
    simp [ServerRecord.ipv6, hhost, Host.bytes, Host.ipv6, sizeofPeer, be16Bytes]

/-- The loop of `GetServerList`: `actualCount` records, written over a zeroed list of `size`
bytes. -/
def copyServers (records : List ServerRecord) (actualCount size : ℕ) : List UInt8 :=
  let copied := (records.take actualCount).flatMap peerBytes
  copied ++ List.replicate (size - copied.length) 0

/-- `GetServerList`: the list, if there is one; its size is `outSize`. -/
def getServerList (c : NrpdConfig) (type : NrpdMsgType) (count : ℤ) :
    Option (List UInt8) × NrpdConfig :=
  if !isPeersType type || count ≤ 0 then (none, c)
  else
    let ipv6 := isIp6Peers type
    let counted := c.activeServerCount type
    if counted.1 ≤ 0 then (none, counted.2)
    else
      let actualCount := min counted.1 count
      let size := i32 (actualCount * sizeofPeer ipv6)
      (some (copyServers (counted.2.activeOf ipv6) actualCount.toNat size.toNat), counted.2)

/-! ### The next server -/

/-- The record behind a reference. -/
def server? (c : NrpdConfig) : ServerRef → Option ServerRecord
  | .configured i => c.configuredServers[i]?
  | .active i => c.activeServers.elems[i]?
  | .probationary i => c.probationaryServers[i]?

/-- The reference to the element of an iterator, if it has one. -/
def refOf (ref : ℕ → ServerRef) : ListIter → Option ServerRef
  | .index i => some (ref i)
  | _ => none

/-- `m_configuredServers.front()`. -/
def frontConfigured (c : NrpdConfig) : Option ServerRef :=
  if c.configuredServers.isEmpty then none else some (.configured 0)

/-- `GetNextServer`, behind the steps of the two iterators. The flag is turned when the list whose
turn it is has a server. -/
def chooseServer (c : NrpdConfig) : Option (ServerRef × NrpdConfig) :=
  let active := refOf .active c.activeIterator
  let probationary := refOf .probationary c.probationaryIterator
  let turned := { c with prevReturnedProbationary := !c.prevReturnedProbationary }
  if c.prevReturnedProbationary then
    match active, probationary with
    | some ref, _ => some (ref, turned)
    | none, some ref => some (ref, c)
    | none, none => c.frontConfigured.map (·, c)
  else
    match probationary, active with
    | some ref, _ => some (ref, turned)
    | none, some ref => some (ref, c)
    | none, none => c.frontConfigured.map (·, c)

theorem chooseServer_eq_some {c c' : NrpdConfig} {ref : ServerRef}
    (h : c.chooseServer = some (ref, c')) :
    c' = c ∨ c' = { c with prevReturnedProbationary := !c.prevReturnedProbationary } := by
  unfold chooseServer at h
  simp only at h
  split at h <;> split at h <;>
    simp only [Option.some.injEq, Prod.mk.injEq, Option.map_eq_some_iff] at h
  all_goals grind

/-- `GetNextServer`. -/
def getNextServer (c : NrpdConfig) : Option (ServerRef × NrpdConfig) := do
  let activeIterator ← c.activeIterator.advance c.activeServers.elems.length
  let probationaryIterator ← c.probationaryIterator.advance c.probationaryServers.length
  chooseServer { c with
    activeIterator := activeIterator
    probationaryIterator := probationaryIterator }

/-! ### Successes and failures -/

/-- Change the record behind a reference in place. The address stays: the set of active servers is
ordered by it. -/
def updateServer (c : NrpdConfig) (ref : ServerRef) (f : ServerRecord → ServerRecord)
    (hf : ∀ r, (f r).host = r.host) : NrpdConfig :=
  match ref with
  | .configured i => { c with configuredServers := c.configuredServers.modify i f }
  | .active i =>
    { c with activeServers := c.activeServers.modify i f (ServerRecord.lt_update hf) }
  | .probationary i => { c with probationaryServers := c.probationaryServers.modify i f }

/-- Step the cached count of a family. -/
def addToCachedCount (c : NrpdConfig) (ipv6 : Bool) (step : ℤ) : NrpdConfig :=
  c.setCachedCount ipv6 (i32 (c.cachedCount ipv6 + step))

/-- Remove the element of the probationary iterator and step the iterator back. -/
def eraseAtProbationaryIterator (c : NrpdConfig) : NrpdConfig :=
  { c with
    probationaryServers := c.probationaryIterator.eraseFrom c.probationaryServers
    probationaryIterator := c.probationaryIterator.prev }

/-- `m_probationaryServers.remove(serv)`. -/
def removeProbationary (c : NrpdConfig) (serv : ServerRecord) : NrpdConfig :=
  let keep (r : ServerRecord) : Bool := !(r == serv)
  { c with
    probationaryServers := c.probationaryServers.filter keep
    probationaryIterator := c.probationaryIterator.afterFilter c.probationaryServers keep }

/-- Remove the element of the active iterator and step the iterator back. `prev(begin())` is a place
that is stepped on like the end. In a tree whose root is its first node, `prev` may lead to that
node itself, which is removed then; this is no part of the model. -/
def eraseAtActiveIterator (c : NrpdConfig) : NrpdConfig :=
  { c with
    activeServers := c.activeServers.eraseAt c.activeIterator
    activeIterator := c.activeIterator.prev }

/-- `m_activeServers.erase(serv)`. -/
def eraseActive (c : NrpdConfig) (serv : ServerRecord) : NrpdConfig :=
  let keep (r : ServerRecord) : Bool := !OrderedSet.equiv ServerRecord.lt r serv
  { c with
    activeServers := c.activeServers.erase serv
    activeIterator := c.activeIterator.afterFilter c.activeServers.elems keep }

/-- The removal of a server that has failed too often. -/
def removeFailed (c : NrpdConfig) (serv : ServerRecord) : Option NrpdConfig :=
  if serv.probationary then do
    let pointed ← c.probationaryIterator.deref c.probationaryServers
    if serv == pointed then
      some (c.addToCachedCount serv.ipv6 (-1)).eraseAtProbationaryIterator
    else some (c.removeProbationary serv)
  else do
    let pointed ← c.activeIterator.deref c.activeServers.elems
    if serv == pointed then
      some (c.addToCachedCount serv.ipv6 (-1)).eraseAtActiveIterator
    else some (c.eraseActive serv)

/-- What `IncrementServerFailCount` writes into the record. The factor `1.25` of the retry time is
converted to the integral type of the duration, which makes it `1`. -/
def failed (now : ℤ) (serv : ServerRecord) : ServerRecord :=
  { serv with
    failureCount := serv.failureCount + 1
    lastaccessTime := now
    retryTime := serv.retryTime * 1 }

theorem host_failed (now : ℤ) (serv : ServerRecord) : (failed now serv).host = serv.host := rfl

/-- Whether a failure count is the last one before a server is removed. -/
def tooManyFailures (serv : ServerRecord) : Bool :=
  serv.failureCount + 1 ≥ clientMaxServerTimeoutCount

/-- `IncrementServerFailCount`. -/
def incrementServerFailCount (c : NrpdConfig) (ref : ServerRef) (clock : SteadyClock) :
    Option (NrpdConfig × SteadyClock) := do
  let serv := failed clock.now (← c.server? ref)
  let updated := c.updateServer ref (failed clock.now) (host_failed clock.now)
  if tooManyFailures serv then
    let banned := updated.bannedServers.add serv clock.tick
    let removed ← { updated with bannedServers := banned.1 }.removeFailed serv
    some (removed, banned.2)
  else some (updated, clock.tick)

/-- What `MarkServerSuccessful` writes into the record. -/
def succeeded (now : ℤ) (serv : ServerRecord) : ServerRecord :=
  { serv with failureCount := 0, lastaccessTime := now, probationary := false }

theorem host_succeeded (now : ℤ) (serv : ServerRecord) :
    (succeeded now serv).host = serv.host := rfl

/-- Add a server to the active set, and count it if it was not there. -/
def activate (c : NrpdConfig) (serv : ServerRecord) : NrpdConfig :=
  let result := c.activeServers.emplace serv
  if result.2 then
    { c with
      activeServers := result.1
      activeIterator := c.activeIterator.afterInsert (c.activeServers.lowerBound serv)
      }.addToCachedCount serv.ipv6 1
  else c

/-- `MarkServerSuccessful`. -/
def markServerSuccessful (c : NrpdConfig) (ref : ServerRef) (clock : SteadyClock) :
    Option (NrpdConfig × SteadyClock) := do
  let before ← c.server? ref
  let serv := succeeded clock.now before
  let updated := c.updateServer ref (succeeded clock.now) (host_succeeded clock.now)
  if before.probationary then
    let activated := updated.activate serv
    let pointed ← activated.probationaryIterator.deref activated.probationaryServers
    if serv == pointed then some (activated.eraseAtProbationaryIterator, clock.tick)
    else some (activated.removeProbationary serv, clock.tick)
  else some (updated, clock.tick)

/-! ### Servers from peers messages -/

/-- The loop body of `AddServersFromMessage`. -/
def addServer (c : NrpdConfig) (serv : ServerRecord) (clock : SteadyClock) :
    NrpdConfig × SteadyClock :=
  let record := { serv with retryTime := c.clientRequestIntervalSeconds }
  let banned := c.bannedServers.isPresent record clock
  let checked := { c with bannedServers := banned.cache }
  if banned.response then (checked, banned.clock)
  else if checked.activeServers.contains record then (checked, banned.clock)
  else
    ({ checked with probationaryServers := checked.probationaryServers ++ [record] }, banned.clock)

/-- The loop of `AddServersFromMessage`. -/
def addServers : List ServerRecord → NrpdConfig → SteadyClock → NrpdConfig × SteadyClock
  | [], c, clock => (c, clock)
  | serv :: servs, c, clock =>
    let added := c.addServer serv clock
    addServers servs added.1 added.2

end NrpdConfig

/-- The records of the entries of a peers message. -/
def peersOf (m : Mem) (msg : ℕ) : List ServerRecord :=
  (List.range (hdrCountOrSize m msg).toNat).map fun i =>
    if hdrMsgType m msg = NrpdMsgType.ip4peers.code then
      ServerRecord.ofIp4Peer m (hdrContent msg + i * sizeofIp4Peer)
    else ServerRecord.ofIp6Peer m (hdrContent msg + i * sizeofIp6Peer)

/-- An `ip4peers` message with two peers. -/
def twoPeers : Mem := fun a => [0, 16, 4, 2, 10, 0, 0, 1, 31, 144, 10, 0, 0, 2, 31, 144].getD a 0

example : (peersOf twoPeers 0).map (·.port) = [8080, 8080] := by decide

/-- `AddServersFromMessage`, for a message that is not null. -/
def NrpdConfig.addServersFromMessage (c : NrpdConfig) (m : Mem) (msg : ℕ) (clock : SteadyClock) :
    Bool × NrpdConfig × SteadyClock :=
  if hdrMsgType m msg ≠ NrpdMsgType.ip4peers.code ∧
      hdrMsgType m msg ≠ NrpdMsgType.ip6peers.code then
    (false, c, clock)
  else (true, addServers (peersOf m msg) c clock)

end Nrpd
