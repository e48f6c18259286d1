import Mathlib.Data.List.Induction
import Nrpd.Protocol.RequestGrammar
import Nrpd.Server.RequestLoop

/-!
# The accounts of an answer

What the loop of `ParseMessages` leaves when it has gone through a request. Every message of the
request brings at most one message of the answer or one rejection; the messages fit the packet
together, and are in the order of the request.

## Main definitions

* `bringsAnswer`, `productive`: whether messages of a request bring a message of the answer.
* `Accounts`: the invariant of the loop.

## Main results

* `Accounts.step`: every turn keeps the invariant.
* `accounts_visitAll`: the invariant behind the loop.
-/

namespace Nrpd

open FixedWidth FuelLoop Segments

/-! ### Messages that bring an answer -/

/-- Whether a message of a request brings a message of the answer or a rejection, when nothing has
been answered before it. -/
def bringsAnswer (c : NrpdConfig) (random : RandomDevice) (msgType count : UInt8) : Bool :=
  match NrpdMsgType.ofCode msgType with
  | some .ip4peers => !c.enablePeersResponse .ip4peers || (c.activeServerCount .ip4peers).1 ≠ 0
  | some .ip6peers => !c.enablePeersResponse .ip6peers || (c.activeServerCount .ip6peers).1 ≠ 0
  | some .entropy => random.delivered (requestedEntropy c count) ≠ []
  | _ => true

/-- The device behind a message of a request that brings no answer. -/
def deviceBehind (random : RandomDevice) (msgType : UInt8) : RandomDevice :=
  if msgType = NrpdMsgType.entropy.code then random.skip 1 else random

/-- Whether one of the messages of a request brings an answer. -/
def productive (c : NrpdConfig) (pkt : Mem) : List ℕ → RandomDevice → Bool
  | [], _ => false
  | o :: os, random =>
    bringsAnswer c random (hdrMsgType pkt o) (hdrCountOrSize pkt o) ||
      productive c pkt os (deviceBehind random (hdrMsgType pkt o))

/-- The device behind messages of a request that bring no answer. -/
def deviceAfter (pkt : Mem) (os : List ℕ) (random : RandomDevice) : RandomDevice :=
  os.foldl (fun random o => deviceBehind random (hdrMsgType pkt o)) random

section Productive

variable {c c' : NrpdConfig} {pkt : Mem} {random : RandomDevice} {msgType count : UInt8}

theorem productive_append_singleton {os : List ℕ} {o : ℕ} :
    productive c pkt (os ++ [o]) random =
      (productive c pkt os random ||
        bringsAnswer c (deviceAfter pkt os random) (hdrMsgType pkt o) (hdrCountOrSize pkt o)) := by
  induction os generalizing random with
  | nil => simp [productive, deviceAfter]
  | cons x os ih => simp [productive, deviceAfter, ih, Bool.or_assoc]

theorem deviceAfter_append_singleton {os : List ℕ} {o : ℕ} :
    deviceAfter pkt (os ++ [o]) random =
      deviceBehind (deviceAfter pkt os random) (hdrMsgType pkt o) := by
  simp [deviceAfter]

theorem rejectsType_congr (h : c.SameAnswers c') :
    rejectsType c' msgType = rejectsType c msgType := by
  simp only [rejectsType, h.enabled]

theorem bringsAnswer_congr (h : c.SameAnswers c') :
    bringsAnswer c' random msgType count = bringsAnswer c random msgType count := by
  have hsize : requestedEntropy c' count = requestedEntropy c count := by
    simp only [requestedEntropy, h.entropySize]
  cases ht : NrpdMsgType.ofCode msgType with
  | none => simp only [bringsAnswer, ht]
  | some t => cases t <;> simp [bringsAnswer, ht, hsize, h.enabled, h.count]

/-- With room for any single answer, the messages that bring an answer are rejected or yield a
message. -/
theorem bringsAnswer_eq {available : ℕ} (hroom : 259 ≤ available) :
    bringsAnswer c random msgType count =
      (rejectsType c msgType || yields c random available msgType count) := by
  have hmem := requestedEntropy_mem c count
  have hfits : fittingCount available 1 (requestedEntropy c count) = requestedEntropy c count := by
    simp only [fittingCount, Nat.div_one]
    omega
  have h4 : 4 + recordSize .ip4peers ≤ available := by simp [recordSize]; omega
  have h6 : 4 + recordSize .ip6peers ≤ available := by simp [recordSize]; omega
  have h5 : 5 ≤ available := by omega
  cases ht : NrpdMsgType.ofCode msgType with
  | none => simp [bringsAnswer, rejectsType, ht]
  | some t => cases t <;> simp [bringsAnswer, rejectsType, yields, ht, hfits, h4, h6, h5]

end Productive

/-! ### The invariant -/

/-- The rejections for the messages of a request. -/
def rejectionsOf (c : NrpdConfig) (pkt : Mem) (os : List ℕ) : List NrpMessageReject :=
  ((os.map (hdrMsgType pkt)).filter (rejectsType c)).map
    (⟨·, NrpdRejectReason.unsupported.code⟩)

/-- What `ParseMessages` has done behind the messages of the request that start at `pre`. -/
structure Accounts (pkt : Mem) (c : NrpdConfig) (random : RandomDevice) (mtu : ℤ) (pre : List ℕ)
    (s : ParseState) : Prop where
  config : c.SameAnswers s.config
  remaining : s.bytesRemaining = mtu - 4 - s.outMessageLength
  length : s.outMessageLength = ((s.msgs.map (hdrLength · 0)).sum : ℕ)
  room : 0 ≤ s.bytesRemaining
  messages : ∀ m ∈ s.msgs, IsResponseMessage m 0
  inOrder : (s.msgs.map (hdrMsgType · 0)).Sublist
    ((pre.map (hdrMsgType pkt)).filter (!rejectsType c ·))
  rejections : s.rejections = rejectionsOf c pkt pre
  fresh : productive c pkt pre random = false →
    s.msgs = [] ∧ s.rejections = [] ∧ s.random = deviceAfter pkt pre random
  answered : productive c pkt pre random = true → s.msgs ≠ [] ∨ s.rejections ≠ []

namespace Accounts

variable {pkt : Mem} {c : NrpdConfig} {random : RandomDevice} {mtu : ℤ} {pre : List ℕ}
  {s s' : ParseState} {o : ℕ}

theorem start (hmtu : 4 ≤ mtu) : Accounts pkt c random mtu [] (.start mtu c random) where
  config := .refl c
  remaining := by simp [ParseState.start]
  length := rfl
  room := by simp [ParseState.start]; omega
  messages := by simp [ParseState.start]
  inOrder := List.Sublist.refl _
  rejections := rfl
  fresh _ := ⟨rfl, rfl, rfl⟩
  answered h := by simp [productive] at h

/-- The messages and the rejections answer different messages of the request. -/
theorem length_add_length_le (h : Accounts pkt c random mtu pre s) :
    s.msgs.length + s.rejections.length ≤ pre.length := by
  have hmsgs := h.inOrder.length_le
  have hsplit := List.length_eq_countP_add_countP (rejectsType c) (l := pre.map (hdrMsgType pkt))
  rw [List.length_map, ← List.countP_eq_length_filter] at hmsgs
  rw [h.rejections, rejectionsOf, List.length_map, ← List.countP_eq_length_filter]
  simp only [List.length_map, Bool.not_eq_true, Bool.decide_eq_false] at hsplit
  omega

/-- The bytes that are available, when there are some. -/
theorem available_eq (h : Accounts pkt c random mtu pre s) (hmtu : mtu ≤ 1236)
    (hlt : pre.length < 256) (hpos : 0 < s.available) :
    ∃ a : ℕ, s.available = a ∧ (a : ℤ) ≤ s.bytesRemaining ∧ a ≤ 1232 ∧
      (s.msgs = [] → s.rejections = [] → (a : ℤ) = mtu - 4) := by
  have hout : 0 ≤ s.outMessageLength := by rw [h.length]; exact Int.natCast_nonneg _
  have hrej := h.length_add_length_le
  have hremaining := h.remaining
  have hroom := h.room
  have hle := ParseState.available_le_bytesRemaining hroom (by omega) (by omega)
  refine ⟨s.available.toNat, by omega, by omega, by omega, fun hmsgs hrejections => ?_⟩
  have hzero : s.outMessageLength = 0 := by rw [h.length, hmsgs]; rfl
  have heq := ParseState.available_eq hroom (by omega) (by omega)
  rw [if_pos hrejections] at heq
  omega

variable (h : Accounts pkt c random mtu pre s)
include h

/-- A turn that rejects. -/
theorem step_reject (hreject : rejectsType c (hdrMsgType pkt o) = true) :
    Accounts pkt c random mtu (pre ++ [o]) (s.reject (hdrMsgType pkt o)) where
  config := h.config
  remaining := h.remaining
  length := h.length
  room := h.room
  messages := h.messages
  inOrder := h.inOrder.trans (by
    rw [List.map_append, List.filter_append]
    exact List.sublist_append_left _ _)
  rejections := by simp [ParseState.reject, h.rejections, rejectionsOf, hreject]
  fresh hfresh := by
    rw [productive_append_singleton, Bool.or_eq_false_iff] at hfresh
    have hbrings : bringsAnswer c (deviceAfter pkt pre random) (hdrMsgType pkt o)
        (hdrCountOrSize pkt o) = true := by
      rw [bringsAnswer_eq (Nat.le_refl 259), hreject, Bool.true_or]
    exact absurd hbrings (by simp [hfresh.2])
  answered _ := .inr (by simp [ParseState.reject])

/-- A turn that appends a message. -/
theorem step_answered (hkeep : rejectsType c (hdrMsgType pkt o) = false) {m : Mem} {size : ℕ}
    (hanswered : s.Answered s' (hdrMsgType pkt o) m size) (hroom : (size : ℤ) ≤ s.bytesRemaining)
    (hbrings : productive c pkt (pre ++ [o]) random = true) :
    Accounts pkt c random mtu (pre ++ [o]) s' := by
  obtain ⟨t, ht, hanswer⟩ := hanswered.isAnswer
  refine ⟨h.config.trans hanswered.config, ?_, ?_, ?_, ?_, ?_, ?_, ?_, ?_⟩
  · rw [hanswered.remaining, hanswered.length, h.remaining]
    omega
  · rw [hanswered.length, hanswered.msgs, h.length, List.map_append, List.sum_append,
      List.map_singleton, List.sum_singleton, hanswer.length, Int.natCast_add]
  · rw [hanswered.remaining]
    omega
  · intro m' hm'
    rw [hanswered.msgs, List.mem_append, List.mem_singleton] at hm'
    rcases hm' with hm' | rfl
    · exact h.messages m' hm'
    · exact hanswer.message
  · rw [hanswered.msgs, List.map_append, List.map_singleton, List.map_append, List.map_singleton,
      List.filter_append, hanswer.msgType, ← ht]
    exact h.inOrder.append (by simp [hkeep])
  · rw [hanswered.rejections, h.rejections]
    simp [rejectionsOf, hkeep]
  · intro hfresh
    simp [hbrings] at hfresh
  · intro _
    left
    simp [hanswered.msgs]

/-- A turn that appends nothing. -/
theorem step_unanswered (hkeep : rejectsType c (hdrMsgType pkt o) = false)
    (hunanswered : s.Unanswered s')
    (hfresh : productive c pkt (pre ++ [o]) random = productive c pkt pre random)
    (hrandom : productive c pkt pre random = false →
      s'.random = deviceBehind s.random (hdrMsgType pkt o)) :
    Accounts pkt c random mtu (pre ++ [o]) s' := by
  refine ⟨h.config.trans hunanswered.config, ?_, ?_, ?_, ?_, ?_, ?_, ?_, ?_⟩
  · rw [hunanswered.remaining, hunanswered.length, h.remaining]
  · rw [hunanswered.length, hunanswered.msgs, h.length]
  · rw [hunanswered.remaining]
    exact h.room
  · rw [hunanswered.msgs]
    exact h.messages
  · rw [hunanswered.msgs]
    rw [List.map_append, List.filter_append]
    exact h.inOrder.trans (List.sublist_append_left _ _)
  · rw [hunanswered.rejections, h.rejections]
    simp [rejectionsOf, hkeep]
  · intro hno
    rw [hfresh] at hno
    obtain ⟨hmsgs, hrejections, hdevice⟩ := h.fresh hno
    rw [hunanswered.msgs, hunanswered.rejections, hrandom hno, hdevice,
      deviceAfter_append_singleton]
    exact ⟨hmsgs, hrejections, rfl⟩
  · intro hyes
    rw [hunanswered.msgs, hunanswered.rejections]
    exact h.answered (hfresh ▸ hyes)

/-- **Turns.** Every turn of the loop keeps the invariant. -/
theorem step (hfit : c.SizesFit) (hmin : 263 ≤ mtu) (hmax : mtu ≤ 1236) (hlt : pre.length < 256)
    (hpos : 0 < s.available) :
    Accounts pkt c random mtu (pre ++ [o])
      (s.answer (hdrMsgType pkt o) (hdrCountOrSize pkt o)) := by
  obtain ⟨a, ha, hle, hamax, hroomy⟩ := h.available_eq hmax hlt hpos
  have hsame := h.config
  have hfit' := hfit.congr hsame
  cases hreject : rejectsType c (hdrMsgType pkt o) with
  | true =>
    rw [ParseState.answer_of_rejectsType (by rw [rejectsType_congr hsame, hreject])]
    exact h.step_reject hreject
  | false =>
    have hkeep : rejectsType s.config (hdrMsgType pkt o) = false := by
      rw [rejectsType_congr hsame, hreject]
    -- as long as nothing was answered, the message yields one if it brings an answer on its own
    have hfirst : productive c pkt pre random = false →
        productive c pkt (pre ++ [o]) random =
          yields s.config s.random a (hdrMsgType pkt o) (hdrCountOrSize pkt o) := by
      intro hno
      obtain ⟨hmsgs, hrejections, hdevice⟩ := h.fresh hno
      have hroom : 259 ≤ a := by
        have := hroomy hmsgs hrejections
        omega
      rw [productive_append_singleton, hno, Bool.false_or, ← hdevice, ← bringsAnswer_congr hsame,
        bringsAnswer_eq hroom, hkeep, Bool.false_or]
    have hmore : productive c pkt pre random = true →
        productive c pkt (pre ++ [o]) random = true := by
      intro hyes
      rw [productive_append_singleton, hyes, Bool.true_or]
    cases hyields : yields s.config s.random a (hdrMsgType pkt o) (hdrCountOrSize pkt o) with
    | true =>
      obtain ⟨m, size, hanswered⟩ := ParseState.answer_of_yields hfit' ha hamax hkeep hyields
      have hfits := hanswered.fits
      refine h.step_answered hreject hanswered (by omega) ?_
      cases hp : productive c pkt pre random with
      | true => exact hmore hp
      | false => rw [hfirst hp, hyields]
    | false =>
      have hunanswered := ParseState.answer_of_not_yields hfit' ha hamax hkeep hyields
      refine h.step_unanswered hreject hunanswered ?_ fun hno => ?_
      · cases hp : productive c pkt pre random with
        | true => exact hmore hp
        | false => rw [hfirst hp, hyields]
      · obtain ⟨hmsgs, hrejections, -⟩ := h.fresh hno
        have := hroomy hmsgs hrejections
        exact ParseState.random_answer hfit' ha hamax hkeep (by omega)

/-- A loop that stops before the end of the request has brought an answer. -/
theorem productive_of_full (hmin : 263 ≤ mtu) (hfull : s.available ≤ 0) :
    productive c pkt pre random = true := by
  by_contra hno
  obtain ⟨hmsgs, hrejections, -⟩ := h.fresh (Bool.eq_false_iff.2 hno)
  have hzero : s.outMessageLength = 0 := by rw [h.length, hmsgs]; rfl
  have hremaining := h.remaining
  have havailable : s.available = s.bytesRemaining := by
    rw [ParseState.available, hrejections]
    rfl
  omega

end Accounts

/-! ### The loop -/

section Loop

variable {pkt : Mem} {c : NrpdConfig} {random : RandomDevice} {mtu : ℤ} {os : List ℕ}

theorem productive_of_prefix {pre post : List ℕ} (h : productive c pkt pre random = true) :
    productive c pkt (pre ++ post) random = true := by
  induction post using List.reverseRecOn with
  | nil => rwa [List.append_nil]
  | append_singleton post o ih =>
    rw [← List.append_assoc, productive_append_singleton, ih, Bool.true_or]

/-- **The loop.** The invariant holds behind the loop, for the messages that were gone through;
the others could not have been the first to bring an answer. -/
theorem accounts_visitAll (random : RandomDevice) (hos : IsRequestPacket pkt os) (hfit : c.SizesFit)
    (hmin : 263 ≤ mtu) (hmax : mtu ≤ 1236) :
    ∃ pre, pre <+: os ∧
      Accounts pkt c random mtu pre ((parseWalk pkt).visitAll os (.start mtu c random)) ∧
      productive c pkt pre random = productive c pkt os random := by
  let Inv (pre : List ℕ) (s : ParseState) : Prop := ∃ pre', pre' <+: pre ∧
    Accounts pkt c random mtu pre' s ∧ (pre' = pre ∨ s.available ≤ 0)
  have hlt := hos.length_lt
  have hend : Inv os ((parseWalk pkt).visitAll os (.start mtu c random)) := by
    refine (parseWalk pkt).visitAll_invariant Inv ?_ ?_
      ⟨[], List.prefix_refl _, .start (by omega), .inl rfl⟩
    · rintro pre o ⟨post, rfl⟩ s ⟨pre', hpre, hs, hall⟩ hguard
      simp only [parseWalk, Bool.and_eq_true, decide_eq_true_eq] at hguard
      have hpos : 0 < s.available := hguard.2
      obtain rfl := hall.resolve_right (by omega)
      refine ⟨pre' ++ [o], List.prefix_refl _, hs.step hfit hmin hmax ?_ hpos, .inl rfl⟩
      simp only [List.length_append, List.length_cons] at hlt
      omega
    · rintro pre o ⟨post, rfl⟩ s ⟨pre', hpre, hs, -⟩ hguard
      have hbounds := hos.tiles.bounds o (by simp)
      have hinside : o < endOfPacket pkt := by
        rw [endOfPacket]
        omega
      simp only [parseWalk, hinside, decide_true, Bool.true_and, decide_eq_false_iff_not] at hguard
      exact ⟨pre', hpre.trans (List.prefix_append _ _), hs, .inr (not_lt.1 hguard)⟩
  obtain ⟨pre, hpre, hs, hall⟩ := hend
  refine ⟨pre, hpre, hs, ?_⟩
  rcases hall with rfl | hfull
  · rfl
  · obtain ⟨post, rfl⟩ := hpre
    have hyes := hs.productive_of_full hmin hfull
    rw [hyes, productive_of_prefix hyes]

/-- The loop leaves the messages that are already there. -/
theorem msgs_visitAll_parseWalk (os : List ℕ) (s : ParseState) :
    s.msgs <+: ((parseWalk pkt).visitAll os s).msgs := by
  refine (parseWalk pkt).visitAll_invariant (fun _ s' => s.msgs <+: s'.msgs) ?_
    (fun _ _ _ _ h _ => h)
    (List.prefix_refl _)
  intro _ o _ s' h _
  exact h.trans (s'.msgs_answer _ _)

/-- The loop is left after at most one turn for every message. -/
theorem run_parseWalk (hos : IsRequestPacket pkt os) (s : ParseState) :
    ∃ p, run (parseWalk pkt).turn (pktLength pkt + 1) (pktMessages, s) =
      some (p, (parseWalk pkt).visitAll os s) := by
  obtain ⟨p, hp⟩ := (parseWalk pkt).run_eq_visitAll (fun _ => True) hos.tiles
    (fun s _ => by simp [parseWalk, endOfPacket]) (fun _ _ _ _ _ => trivial) (fun _ _ _ _ => rfl)
    (s := s) trivial
  have hle := hos.tiles.length_le
  exact ⟨p, run_mono (by omega) hp⟩

end Loop

end Nrpd
