import Mathlib.Data.List.Nodup
import Nrpd.Client.ServerCalls
import Nrpd.Protocol.Validation

/-!
# The servers that the client knows

A server is known by the records with its address and port in the two lists. The number of these
records, its copies, goes up by one when a record is appended, is kept by a promotion that takes
effect, and goes down by one otherwise. A record is appended although the probationary list has one
for the server already, and a promotion has no effect when an active server has the same address,
whatever its port; without these two the client knows every server at most once and loses none.

## Main definitions

* `NrpdConfig.copies`: the number of records of a server.
* `ClientCall.AddsUnknown`, `ClientCall.PromotesFreely`: the conditions on peers messages and on
  promotions.
* `ClientCall.Removes`: the calls that remove a server for its failures.

## Main results

* `ClientRun.known_once`: no server has two records.
* `ClientRun.known_stays`: no server is lost.
-/

namespace Nrpd

open SteadyClock NrpdConfig ServerRecord Runs

variable {c : NrpdConfig} {serv : ServerRecord} {e : Host × UInt16}

/-- Whether a record is one of a server. -/
def isOf (e : Host × UInt16) (r : ServerRecord) : Bool := decide (endpoint r = e)

@[simp] theorem isOf_eq_true_iff {r : ServerRecord} : isOf e r = true ↔ endpoint r = e :=
  decide_eq_true_iff

namespace NrpdConfig

/-- The number of records of a server in the two lists. -/
def copies (c : NrpdConfig) (e : Host × UInt16) : ℕ :=
  c.probationaryServers.countP (isOf e) + c.activeServers.elems.countP (isOf e)

theorem copies_pos_iff : 0 < c.copies e ↔
    (∃ r ∈ c.probationaryServers, endpoint r = e) ∨
      ∃ r ∈ c.activeServers.elems, endpoint r = e := by
  simp only [copies, Nat.add_pos_iff_pos_or_pos, List.countP_pos_iff, isOf_eq_true_iff]

theorem copies_updateServer (c : NrpdConfig) (ref : ServerRef) {f : ServerRecord → ServerRecord}
    (hf : KeepsServer f) (e : Host × UInt16) :
      (c.updateServer ref f hf.host).copies e = c.copies e := by
  have hof (r : ServerRecord) : isOf e (f r) = isOf e r := by
    rw [isOf, endpoint, hf.host, hf.port]
    rfl
  cases ref with
  | configured i => rfl
  | active i =>
    simp only [copies, updateServer, OrderedSet.countP_modify (lt_update hf.host) hof]
  | probationary i => simp only [copies, updateServer, List.countP_modify hof]

/-! ### New records -/

/-- The entries of a message that are for a server and are not passed over find no record of it in
the probationary list. -/
def AddsUnknown (e : Host × UInt16) : List ServerRecord → NrpdConfig → SteadyClock → Prop
  | [], _, _ => True
  | serv :: servs, c, clock =>
    (endpoint serv = e → c.refuses serv clock = false →
        ∀ r ∈ c.probationaryServers, endpoint r ≠ e) ∧
      AddsUnknown e servs (c.addServer serv clock).1 (c.addServer serv clock).2

/-- A server whose entry is not passed over is not active. -/
theorem endpoint_ne_of_not_refuses {clock : SteadyClock} (h : c.refuses serv clock = false) :
    ∀ r ∈ c.activeServers.elems, endpoint r ≠ endpoint serv := by
  intro r hr heq
  have hactive : c.activeServers.contains (c.recordFor serv) = true := by
    refine List.any_eq_true.2 ⟨r, hr, equiv_lt_iff.2 ?_⟩
    exact (Prod.mk.inj heq).1
  rw [refuses, hactive, Bool.or_true] at h
  cases h

/-- The copies after one entry. -/
theorem copies_addServer (c : NrpdConfig) (serv : ServerRecord) (clock : SteadyClock)
    (e : Host × UInt16) : (c.addServer serv clock).1.copies e = c.copies e +
      if c.refuses serv clock = false ∧ endpoint serv = e then 1 else 0 := by
  have hrecord : endpoint (c.recordFor serv) = endpoint serv := rfl
  rw [addServer_eq]
  by_cases hrefuses : c.refuses serv clock = true
  · simp [hrefuses]
  · by_cases he : endpoint serv = e <;>
      simp [hrefuses, copies, List.countP_append, isOf, hrecord, he]
    omega

theorem copies_le_addServers (servs : List ServerRecord) (e : Host × UInt16) :
    ∀ (c : NrpdConfig) (clock : SteadyClock),
      c.copies e ≤ (addServers servs c clock).1.copies e := by
  induction servs with
  | nil => exact fun _ _ => Nat.le_refl _
  | cons serv servs ih =>
    intro c clock
    refine Nat.le_trans ?_ (ih _ _)
    rw [copies_addServer]
    exact Nat.le_add_right _ _

/-- **New records.** A server that is known at most once stays so exactly when the entries find no
record of it in the probationary list. -/
theorem copies_addServers_le_one_iff (servs : List ServerRecord) :
    ∀ {c : NrpdConfig} {clock : SteadyClock}, c.copies e ≤ 1 →
      ((addServers servs c clock).1.copies e ≤ 1 ↔ AddsUnknown e servs c clock) := by
  induction servs with
  | nil => exact fun h => iff_of_true h trivial
  | cons serv servs ih =>
    intro c clock h
    have hentry : (c.addServer serv clock).1.copies e ≤ 1 ↔
        (endpoint serv = e → c.refuses serv clock = false →
          ∀ r ∈ c.probationaryServers, endpoint r ≠ e) := by
      rw [copies_addServer]
      by_cases hnew : c.refuses serv clock = false ∧ endpoint serv = e
      · obtain ⟨hrefuses, rfl⟩ := hnew
        have hactive : c.activeServers.elems.countP (isOf (endpoint serv)) = 0 := by
          rw [List.countP_eq_zero]
          exact fun r hr => by simpa using endpoint_ne_of_not_refuses hrefuses r hr
        have hzero : c.probationaryServers.countP (isOf (endpoint serv)) = 0 ↔
            ∀ r ∈ c.probationaryServers, endpoint r ≠ endpoint serv := by
          rw [List.countP_eq_zero]
          simp
        rw [if_pos ⟨hrefuses, rfl⟩, copies, hactive]
        simp only [hrefuses, forall_const, ← hzero]
        omega
      · rw [if_neg hnew]
        exact iff_of_true h fun he hrefuses => absurd ⟨hrefuses, he⟩ hnew
    rw [addServers, AddsUnknown, ← hentry]
    constructor
    · intro hall
      have hfirst := (copies_le_addServers servs e _ _).trans hall
      exact ⟨hfirst, (ih hfirst).1 hall⟩
    · rintro ⟨hfirst, hrest⟩
      exact (ih hfirst).2 hrest

/-- No server has two records. -/
def KnownOnce (c : NrpdConfig) : Prop :=
  (c.probationaryServers.map endpoint).Nodup ∧
    ∀ r ∈ c.probationaryServers, ∀ a ∈ c.activeServers.elems, endpoint a ≠ endpoint r

instance (c : NrpdConfig) : Decidable c.KnownOnce := inferInstanceAs (Decidable (_ ∧ _))

theorem countP_active_le_one (c : NrpdConfig) (e : Host × UInt16) :
    c.activeServers.elems.countP (isOf e) ≤ 1 :=
  OrderedSet.countP_le_one fun a b ha hb => by
    rw [isOf_eq_true_iff] at ha hb
    exact equiv_lt_iff.2 (Prod.mk.inj (ha.trans hb.symm)).1

theorem knownOnce_iff : c.KnownOnce ↔ ∀ e, c.copies e ≤ 1 := by
  have hcount (e : Host × UInt16) : (c.probationaryServers.map endpoint).count e =
      c.probationaryServers.countP (isOf e) := by
    rw [List.count, List.countP_map]
    exact List.countP_congr fun r _ => by simp
  rw [KnownOnce, List.nodup_iff_count_le_one]
  constructor
  · rintro ⟨honce, hdisjoint⟩ e
    have hprobationary := honce e
    have hactive := c.countP_active_le_one e
    rw [hcount] at hprobationary
    by_contra hmany
    rw [copies] at hmany
    obtain ⟨r, hr, hre⟩ :=
      List.countP_pos_iff.1 (by omega : 0 < c.probationaryServers.countP (isOf e))
    obtain ⟨a, ha, hae⟩ := List.countP_pos_iff.1
      (by omega : 0 < c.activeServers.elems.countP (isOf e))
    rw [isOf_eq_true_iff] at hre hae
    exact hdisjoint r hr a ha (hae.trans hre.symm)
  · intro h
    refine ⟨fun e => ?_, fun r hr a ha heq => ?_⟩
    · rw [hcount]
      exact Nat.le_trans (Nat.le_add_right _ _) (h e)
    · have hprobationary : 0 < c.probationaryServers.countP (isOf (endpoint r)) :=
        List.countP_pos_iff.2 ⟨r, hr, by simp⟩
      have hactive : 0 < c.activeServers.elems.countP (isOf (endpoint r)) :=
        List.countP_pos_iff.2 ⟨a, ha, by simpa using heq⟩
      have := h (endpoint r)
      rw [copies] at this
      omega

end NrpdConfig

/-! ### Calls -/

namespace ClientCall

/-- A message appends no second record of a server. -/
def AddsUnknown (e : Host × UInt16) (s : ClientRun) : ClientCall → Prop
  | addServersFromMessage m msg => NrpdConfig.AddsUnknown e (entriesOf m msg) s.config s.clock
  | _ => True

/-- A call removes a server for its failures. -/
def Removes (e : Host × UInt16) (s : ClientRun) : ClientCall → Prop
  | incrementServerFailCount =>
    ∃ serv, s.server = some serv ∧ failsOut serv = true ∧ endpoint serv = e
  | _ => False

/-- A call promotes a server, and there is an active server with its address already. -/
def Blocked (e : Host × UInt16) (s : ClientRun) : ClientCall → Prop
  | markServerSuccessful =>
    ∃ serv, s.server = some serv ∧ serv.probationary = true ∧ endpoint serv = e ∧
      ∃ r ∈ s.config.activeServers.elems, r.host = serv.host
  | _ => False

/-- A promotion of the only record of a server finds no active server with its address. -/
def PromotesFreely (e : Host × UInt16) (s : ClientRun) (call : ClientCall) : Prop :=
  s.config.copies e = 1 → ¬ call.Blocked e s

end ClientCall

namespace ClientRun

variable {s s' : ClientRun} {call : ClientCall}

/-- A server that has failed too often loses a record, and no other server does. -/
theorem Effect.copies_of_failsOut {serv : ServerRecord} (h : Effect s .incrementServerFailCount s')
    (hserver : s.server = some serv) (hmany : failsOut serv = true) (e : Host × UInt16) :
    s'.config.copies e + (if isOf e serv = true then 1 else 0) = s.config.copies e := by
  cases h with
  | @changed _ _ serv' _ _ hcurrent hserv hstays =>
    obtain rfl : serv = serv' := eq_of_server hcurrent hserv hserver
    rw [show failsOut serv = false from hstays] at hmany
    cases hmany
  | @droppedProbationary i serv' _ _ hcurrent hserv =>
    obtain rfl : serv = serv' := eq_of_server hcurrent hserv hserver
    have herase := List.countP_eraseIdx_add hserv (isOf e)
    simp only [NrpdConfig.copies]
    omega
  | @droppedActive i serv' _ _ hcurrent hserv =>
    obtain rfl : serv = serv' := eq_of_server hcurrent hserv hserver
    have herase := OrderedSet.countP_eraseIdx hserv (isOf e)
    simp only [NrpdConfig.copies]
    omega

theorem Effect.copies_of_dropped {serv : ServerRecord} (h : Effect s .incrementServerFailCount s')
    (hserver : s.server = some serv) (hmany : failsOut serv = true) (e : Host × UInt16) :
    s'.config.copies e = s.config.copies e ∨
      s'.config.copies e + 1 = s.config.copies e ∧
        (ClientCall.incrementServerFailCount.Removes e s ∨
          ClientCall.incrementServerFailCount.Blocked e s) := by
  have hcopies := h.copies_of_failsOut hserver hmany e
  by_cases he : endpoint serv = e
  · rw [if_pos (by simpa using he)] at hcopies
    exact .inr ⟨hcopies, .inl ⟨serv, hserver, hmany, he⟩⟩
  · rw [if_neg (by simpa using he)] at hcopies
    exact .inl hcopies

/-- **One call.** A call that is not for a peers message keeps the number of copies of a server, or
takes one away: it removes the server, or promotes it without effect. -/
theorem Effect.copies (h : Effect s call s') (hstep : s.InStep)
    (hcall : ∀ m msg, call ≠ .addServersFromMessage m msg) (e : Host × UInt16) :
    s'.config.copies e = s.config.copies e ∨
      s'.config.copies e + 1 = s.config.copies e ∧ (call.Removes e s ∨ call.Blocked e s) := by
  cases h with
  | added m msg => exact absurd rfl (hcall m msg)
  | changed _ _ _ hf => exact .inl (copies_updateServer _ _ hf e)
  | returned => exact .inl rfl
  | @promoted i serv _ _ hcurrent hserv =>
    have hserver : s.server = some serv := server_of_current hcurrent hserv
    have hprob := hstep.probationary serv (List.mem_of_getElem? hserv)
    have herase := List.countP_eraseIdx_add hserv (isOf e)
    have hpromoted : isOf e (succeeded s.clock.now serv) = isOf e serv := rfl
    by_cases hnew : s.config.activeServers.contains (succeeded s.clock.now serv) = false
    · refine .inl ?_
      simp only [NrpdConfig.copies, OrderedSet.emplace_of_not_contains hnew,
        OrderedSet.countP_insertNew, hpromoted]
      omega
    · have hcontains : s.config.activeServers.contains (succeeded s.clock.now serv) = true := by
        simpa using hnew
      simp only [NrpdConfig.copies, OrderedSet.emplace_of_contains hcontains]
      obtain ⟨r, hr, hequiv⟩ := List.any_eq_true.1 hcontains
      by_cases he : endpoint serv = e
      · rw [if_pos (by simpa using he)] at herase
        exact .inr ⟨by omega, .inr ⟨serv, hserver, hprob, he, r, hr, equiv_lt_iff.1 hequiv⟩⟩
      · rw [if_neg (by simpa using he)] at herase
        exact .inl (by omega)
  | droppedProbationary hcurrent hserv hmany =>
    exact Effect.copies_of_dropped (.droppedProbationary hcurrent hserv hmany)
      (server_of_current hcurrent hserv) hmany e
  | droppedActive hcurrent hserv hmany =>
    exact Effect.copies_of_dropped (.droppedActive hcurrent hserv hmany)
      (server_of_current hcurrent hserv) hmany e
  | cleaned => exact .inl rfl

/-- A promotion without effect takes a record away. -/
theorem Effect.copies_of_blocked (h : Effect s call s') (hblocked : call.Blocked e s) :
    s'.config.copies e + 1 = s.config.copies e := by
  cases call with
  | markServerSuccessful =>
    obtain ⟨serv, hserver, hprob, he, r, hr, hhost⟩ := hblocked
    cases h with
    | @changed _ _ serv' _ _ hcurrent hserv hstays =>
      obtain rfl : serv = serv' := eq_of_server hcurrent hserv hserver
      rw [show serv.probationary = false from hstays] at hprob
      cases hprob
    | @promoted i serv' _ _ hcurrent hserv =>
      obtain rfl : serv = serv' := eq_of_server hcurrent hserv hserver
      have hcontains : s.config.activeServers.contains (succeeded s.clock.now serv) = true :=
        List.any_eq_true.2 ⟨r, hr, equiv_lt_iff.2 hhost⟩
      have herase := List.countP_eraseIdx_add hserv (isOf e)
      rw [if_pos (by simpa using he)] at herase
      simp only [NrpdConfig.copies, OrderedSet.emplace_of_contains hcontains]
      omega
  | _ => cases hblocked

/-- A removal takes a record away. -/
theorem Effect.copies_of_removes (h : Effect s call s') (hremoves : call.Removes e s) :
    s'.config.copies e + 1 = s.config.copies e := by
  cases call with
  | incrementServerFailCount =>
    obtain ⟨serv, hserver, hmany, he⟩ := hremoves
    have hcopies := h.copies_of_failsOut hserver hmany e
    rwa [if_pos (by simpa using he)] at hcopies
  | _ => cases hremoves

theorem Effect.config_of_add {m : Mem} {msg : ℕ}
    (h : Effect s (.addServersFromMessage m msg) s') :
    s'.config = (addServers (entriesOf m msg) s.config s.clock).1 := by
  cases h with
  | added => rfl
  | changed _ _ hstays => cases hstays

/-- A server that is known at most once stays so exactly when no second record is appended. -/
theorem Effect.copies_le_one_iff (h : Effect s call s') (hstep : s.InStep)
    (honce : s.config.copies e ≤ 1) : s'.config.copies e ≤ 1 ↔ call.AddsUnknown e s := by
  cases call with
  | addServersFromMessage m msg =>
    rw [h.config_of_add]
    exact copies_addServers_le_one_iff _ honce
  | _ =>
    have := h.copies hstep (by simp) e
    exact iff_of_true (by omega) trivial

theorem copies_of_isNew (h : s.IsNew) (e : Host × UInt16) : s.config.copies e = 0 := by
  obtain ⟨_, _, _, rfl⟩ := h
  rfl

/-- A server to whose records no second one is appended is known at most once. -/
theorem copies_le_one (h : Reachable IsNew ClientCall.run (fun s call => call.AddsUnknown e s) s) :
    s.InStep ∧ s.config.copies e ≤ 1 :=
  invariant_of_effect (P := fun s => s.config.copies e ≤ 1)
    (fun s hs => ⟨hs.atStart.inStep, by simp [copies_of_isNew hs]⟩)
    (fun _ _ _ hstep honce hmeets heffect => (heffect.copies_le_one_iff hstep honce).2 hmeets) h

/-- **Known at most once.** In every run from a new configuration in which no message appends a
record of a server that the probationary list has one of, no server has two records; and the next
call keeps this exactly when it does not append such a record. -/
theorem known_once
    (h : Reachable IsNew ClientCall.run (fun s call => ∀ e, call.AddsUnknown e s) s) :
    s.config.KnownOnce ∧ ∀ call s', ClientCall.run s call = some s' →
      (s'.config.KnownOnce ↔ ∀ e, call.AddsUnknown e s) := by
  have honce (e : Host × UInt16) := copies_le_one (h.mono fun s call hmeets => hmeets e)
  refine ⟨knownOnce_iff.2 fun e => (honce e).2, fun call s' hrun => ?_⟩
  rw [knownOnce_iff]
  refine forall_congr' fun e => ?_
  exact (ClientCall.effect (honce e).1 hrun).copies_le_one_iff (honce e).1 (honce e).2

/-- A response with an `ip4peers` message, behind the four bytes of its header. -/
def ip4PeersResponse (peers : List UInt8) : Mem :=
  let length := UInt8.ofNat peers.length
  fun a => ([0, 8 + length, 2, 1, 0, 4 + length, 4, length / 6] ++ peers).getD a 0

/-- Two servers are added, and the first one is promoted. -/
theorem known_once_example :
    ∃ s, after ClientCall.run [.addServersFromMessage twoPeers 0, .getNextServer,
      .markServerSuccessful] sampleRun = some s ∧ s.config.KnownOnce := by
  have hunknown (e : Host × UInt16) :
      NrpdConfig.AddsUnknown e (entriesOf twoPeers 0) sampleRun.config sampleRun.clock := by
    refine (copies_addServers_le_one_iff _ ?_).1 (knownOnce_iff.1 (by decide) e)
    rw [copies_of_isNew isNew_sampleRun]
    exact Nat.zero_le 1
  refine ⟨_, rfl, (known_once ?_).1⟩
  exact .call (.call (.call (.first isNew_sampleRun) (a := .addServersFromMessage twoPeers 0)
    hunknown rfl) (a := .getNextServer) (fun _ => trivial) rfl)
    (a := .markServerSuccessful) (fun _ => trivial) rfl

/-- A message with the same entry twice gives its server two records. -/
theorem repeated_entry_known_twice :
    validateResponsePacket (ip4PeersResponse [10, 0, 0, 1, 31, 144, 10, 0, 0, 1, 31, 144]) =
        some true ∧
      ∃ s, Reachable IsNew ClientCall.run (fun _ _ => True) s ∧ ¬ s.config.KnownOnce := by
  have hnew : Reachable IsNew ClientCall.run (fun _ _ => True) sampleRun := .first isNew_sampleRun
  exact ⟨by decide, _, hnew.after [.addServersFromMessage
    (ip4PeersResponse [10, 0, 0, 1, 31, 144, 10, 0, 0, 1, 31, 144]) 4] rfl, by decide⟩

/-! ### No server is lost -/

/-- A record of a server is in one of the lists. -/
def Knows (s : ClientRun) (serv : ServerRecord) : Prop :=
  (∃ r ∈ s.config.probationaryServers, (r == serv) = true) ∨
    ∃ r ∈ s.config.activeServers.elems, (r == serv) = true

theorem knows_iff {serv : ServerRecord} : s.Knows serv ↔ 0 < s.config.copies (endpoint serv) := by
  simp only [Knows, copies_pos_iff, beq_iff_endpoint]

/-- **One call.** A call that does not remove a server keeps a record of it exactly when it does not
promote its only record without effect. -/
theorem Effect.copies_pos_iff (h : Effect s call s') (hstep : s.InStep)
    (hkept : ¬ call.Removes e s) (hpos : 0 < s.config.copies e) :
    0 < s'.config.copies e ↔ call.PromotesFreely e s := by
  by_cases hblocked : call.Blocked e s
  · have hless := h.copies_of_blocked hblocked
    have hfree : call.PromotesFreely e s ↔ s.config.copies e ≠ 1 :=
      ⟨fun hfree hone => hfree hone hblocked, fun hne hone => absurd hone hne⟩
    rw [hfree]
    omega
  · refine iff_of_true ?_ fun _ => hblocked
    cases call with
    | addServersFromMessage m msg =>
      rw [h.config_of_add]
      exact hpos.trans_le (copies_le_addServers _ _ _ _)
    | _ =>
      rcases h.copies hstep (by simp) e with hsame | ⟨-, hremoves | hb⟩
      · omega
      · exact absurd hremoves hkept
      · exact absurd hb hblocked

/-- **No server is lost.** A server that a peers message appended to the probationary list, in any
run from a new configuration, stays in one of the two lists in every run after it in which no
failure removes the server and no promotion of its only record finds an active server with its
address; and the next call that does not remove the server keeps this exactly when it is no such
promotion. -/
theorem known_stays (h : Reachable IsNew ClientCall.run (fun _ _ => True) s) {m : Mem} {msg : ℕ}
    {s₁ s₂ : ClientRun} (hadd : ClientCall.run s (.addServersFromMessage m msg) = some s₁)
    {serv : ServerRecord}
    (hserv : serv ∈ s₁.config.probationaryServers.drop s.config.probationaryServers.length)
    (hrun : Reachable (· = s₁) ClientCall.run (fun s call =>
      ¬ call.Removes (endpoint serv) s ∧ call.PromotesFreely (endpoint serv) s) s₂) :
    s₂.Knows serv ∧ ∀ call s₃, ClientCall.run s₂ call = some s₃ →
      ¬ call.Removes (endpoint serv) s₂ →
        (s₃.Knows serv ↔ call.PromotesFreely (endpoint serv) s₂) := by
  have hstep := inStep_of_reachable (fun _ hs => (IsNew.atStart hs).inStep) h
  have hstep₁ := (ClientCall.effect hstep hadd).inStep hstep
  have hfirst : 0 < s₁.config.copies (endpoint serv) :=
    copies_pos_iff.2 (.inl ⟨serv, List.mem_of_mem_drop hserv, rfl⟩)
  obtain ⟨hstep₂, hpos⟩ := invariant_of_effect
    (P := fun s => 0 < s.config.copies (endpoint serv))
    (by rintro _ rfl; exact ⟨hstep₁, hfirst⟩)
    (fun _ _ _ hstep hpos hmeets heffect =>
      (heffect.copies_pos_iff hstep hmeets.1 hpos).2 hmeets.2) hrun
  refine ⟨knows_iff.2 hpos, fun call s₃ hcall hkept => ?_⟩
  rw [knows_iff]
  exact (ClientCall.effect hstep₂ hcall).copies_pos_iff hstep₂ hkept hpos

/-- The first of two servers is added and promoted. -/
theorem known_stays_example :
    ∃ s serv, after ClientCall.run [.addServersFromMessage twoPeers 0, .getNextServer,
      .markServerSuccessful] sampleRun = some s ∧
      serv = ServerRecord.new (.ip4 #v[10, 0, 0, 1]) 8080 ∧ s.Knows serv := by
  have hadd : ClientCall.run sampleRun (.addServersFromMessage twoPeers 0) = some _ := rfl
  refine ⟨_, _, rfl, rfl, (known_stays (.first isNew_sampleRun) hadd ?_
    (.call (.call (.first rfl) (a := .getNextServer) ?_ rfl)
      (a := .markServerSuccessful) ?_ rfl)).1⟩
  · exact List.mem_iff_getElem?.2 ⟨0, by decide⟩
  · exact ⟨id, fun _ => id⟩
  · refine ⟨id, fun _ => ?_⟩
    rintro ⟨_, _, _, _, r, hr, _⟩
    exact absurd hr List.not_mem_nil

/-- A response with two servers at one address. -/
def oneAddressResponse : Mem := ip4PeersResponse [10, 0, 0, 1, 31, 144, 10, 0, 0, 1, 31, 145]

/-- Two servers at one address are promoted, and the second one is in no list any more. -/
theorem second_port_lost :
    validateResponsePacket oneAddressResponse = some true ∧
      ∃ s₁ s₂ serv,
        ClientCall.run sampleRun (.addServersFromMessage oneAddressResponse 4) = some s₁ ∧
        serv ∈ s₁.config.probationaryServers.drop sampleRun.config.probationaryServers.length ∧
        Reachable (· = s₁) ClientCall.run (fun s call => ¬ call.Removes (endpoint serv) s) s₂ ∧
        ¬ s₂.Knows serv := by
  refine ⟨by decide, _, _, ServerRecord.new (.ip4 #v[10, 0, 0, 1]) 8081, rfl, ?_,
    .call (.call (.call (.call (.call (.first rfl) (a := .getNextServer) id rfl)
      (a := .markServerSuccessful) id rfl) (a := .getNextServer) id rfl)
      (a := .getNextServer) id rfl) (a := .markServerSuccessful) id rfl, ?_⟩
  · exact List.mem_iff_getElem?.2 ⟨1, by decide⟩
  · rw [knows_iff]
    decide

end ClientRun

end Nrpd
