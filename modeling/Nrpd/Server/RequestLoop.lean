import Mathlib.Data.List.Perm.Subperm
import Nrpd.Protocol.RequestGrammar
import Nrpd.Server.Answers

/-!
# One message of a request

What one turn of the loop of `ParseMessages` does: the message of the request is rejected, or yields
a message of the answer that fits, or is passed over.

## Main definitions

* `rejectsType`: the message types that are answered by a rejection.
* `yields`: whether a message of the request yields a message of the answer.
* `ParseState.Answered`, `ParseState.Unanswered`: turns that append a message, and turns that append
  nothing.

## Main results

* `ParseState.answer_of_rejectsType`, `ParseState.answer_of_yields`,
  `ParseState.answer_of_not_yields`: the three things that one turn does.
-/

namespace Nrpd

open FixedWidth FuelLoop Segments

/-- The message types that are answered by a rejection. -/
def rejectsType (c : NrpdConfig) (msgType : UInt8) : Bool :=
  match NrpdMsgType.ofCode msgType with
  | some .ip4peers => !c.enablePeersResponse .ip4peers
  | some .ip6peers => !c.enablePeersResponse .ip6peers
  | some .entropy => false
  | _ => true

/-! ### Room -/

theorem calculateRemainingBytes_eq {availableBytes : ℤ} {rejCount : ℕ} (h0 : 0 ≤ availableBytes)
    (hmax : availableBytes ≤ 1232) (hrej : rejCount < 256) :
    calculateRemainingBytes availableBytes rejCount =
      if rejCount = 0 then availableBytes else availableBytes - (4 + 2 * rejCount) := by
  rw [calculateRemainingBytes]
  rw [i32_natCast (by omega)]
  split_ifs with h1 h2 h2
  · omega
  · rw [i32_of_lt (by simp; omega) (by simp; omega)]
    simp
    omega
  · rfl
  · omega

/-! ### One turn -/

/-- Whether a message that is not rejected yields a message of the answer, with as many bytes
available. -/
def yields (c : NrpdConfig) (random : RandomDevice) (available : ℕ) (msgType count : UInt8) :
    Bool :=
  match NrpdMsgType.ofCode msgType with
  | some .ip4peers =>
    (c.activeServerCount .ip4peers).1 ≠ 0 ∧ 4 + recordSize .ip4peers ≤ available
  | some .ip6peers =>
    (c.activeServerCount .ip6peers).1 ≠ 0 ∧ 4 + recordSize .ip6peers ≤ available
  | some .entropy =>
    5 ≤ available ∧ random.delivered (fittingCount available 1 (requestedEntropy c count)) ≠ []
  | _ => false

section Yields

variable {c : NrpdConfig} {random : RandomDevice} {available : ℕ} {count : UInt8}

theorem yields_peers {t : NrpdMsgType} (ht : isPeersType t = true) :
    yields c random available t.code count = true ↔
      (c.activeServerCount t).1 ≠ 0 ∧ 4 + recordSize t ≤ available := by
  rw [yields, NrpdMsgType.ofCode_code]
  cases t with
  | ip4peers | ip6peers => exact decide_eq_true_iff
  | _ => cases ht

theorem yields_entropy :
    yields c random available NrpdMsgType.entropy.code count = true ↔
      5 ≤ available ∧
        random.delivered (fittingCount available 1 (requestedEntropy c count)) ≠ [] := by
  rw [yields, NrpdMsgType.ofCode_code]
  exact decide_eq_true_iff

end Yields

namespace ParseState

variable {s s' : ParseState} {msgType count : UInt8} {a : ℕ}

/-- A turn that appends a message to the answer. -/
structure Answered (s s' : ParseState) (msgType : UInt8) (m : Mem) (size : ℕ) : Prop where
  isAnswer : ∃ t, msgType = t.code ∧ IsAnswer m t size
  fits : (size : ℤ) ≤ s.available
  config : s.config.SameAnswers s'.config
  msgs : s'.msgs = s.msgs ++ [m]
  remaining : s'.bytesRemaining = s.bytesRemaining - size
  length : s'.outMessageLength = s.outMessageLength + size
  rejections : s'.rejections = s.rejections

/-- A turn that appends nothing. -/
structure Unanswered (s s' : ParseState) : Prop where
  config : s.config.SameAnswers s'.config
  msgs : s'.msgs = s.msgs
  remaining : s'.bytesRemaining = s.bytesRemaining
  length : s'.outMessageLength = s.outMessageLength
  rejections : s'.rejections = s.rejections

/-- From the first rejection on, the room of the reject message is not available. -/
theorem available_eq (hroom : 0 ≤ s.bytesRemaining) (hmax : s.bytesRemaining ≤ 1232)
    (hlt : s.rejections.length < 256) :
    s.available = if s.rejections = [] then s.bytesRemaining
      else s.bytesRemaining - (4 + 2 * s.rejections.length) := by
  rw [available, calculateRemainingBytes_eq hroom hmax hlt]
  simp only [List.length_eq_zero_iff]

theorem available_le_bytesRemaining (hroom : 0 ≤ s.bytesRemaining)
    (hmax : s.bytesRemaining ≤ 1232) (hlt : s.rejections.length < 256) :
    s.available ≤ s.bytesRemaining := by
  rw [available_eq hroom hmax hlt]
  split_ifs <;> omega

theorem random_push (s : ParseState) (buffer : Option Mem) (responseSize : ℤ) :
    (s.push buffer responseSize).random = s.random := by
  cases buffer <;> rfl

/-- The messages that are already there stay. -/
theorem msgs_push (s : ParseState) (buffer : Option Mem) (responseSize : ℤ) :
    s.msgs <+: (s.push buffer responseSize).msgs := by
  cases buffer with
  | none => exact List.prefix_refl _
  | some m => exact List.prefix_append _ _

theorem answer_of_rejectsType (h : rejectsType s.config msgType = true) :
    s.answer msgType count = s.reject msgType := by
  cases ht : NrpdMsgType.ofCode msgType with
  | none => simp only [answer, ht]
  | some t =>
    have hcode := NrpdMsgType.ofCode_eq_some.1 ht
    simp only [rejectsType, ht] at h
    cases t <;> simp_all [answer, answerPeers]

theorem answerPeers_eq {t : NrpdMsgType} {answer : Answer NrpdConfig}
    (henabled : s.config.enablePeersResponse t = true)
    (h : generatePeersResponse s.config t count.toNat s.available = answer) :
    s.answerPeers t count =
      { s with config := answer.state }.push answer.buffer answer.outResponseSize := by
  subst h
  exact if_pos henabled

theorem answerEntropy_eq {answer : Answer RandomDevice}
    (h : generateEntropyResponse s.config s.random count.toNat s.available = answer) :
    s.answerEntropy count =
      { s with random := answer.state }.push answer.buffer answer.outResponseSize := by
  subst h
  rfl

/-- An answer leaves the messages that are already there. -/
theorem msgs_answer (s : ParseState) (msgType count : UInt8) :
    s.msgs <+: (s.answer msgType count).msgs := by
  have hpeers (t : NrpdMsgType) : s.msgs <+: (s.answerPeers t count).msgs := by
    by_cases henabled : s.config.enablePeersResponse t = true
    · obtain ⟨answer, hgen⟩ : ∃ answer,
          generatePeersResponse s.config t count.toNat s.available = answer := ⟨_, rfl⟩
      rw [answerPeers_eq henabled hgen]
      exact msgs_push { s with config := answer.state } _ _
    · rw [answerPeers, if_neg henabled]
      exact List.prefix_refl _
  have hentropy : s.msgs <+: (s.answerEntropy count).msgs := by
    obtain ⟨answer, hgen⟩ : ∃ answer,
        generateEntropyResponse s.config s.random count.toNat s.available = answer := ⟨_, rfl⟩
    rw [answerEntropy_eq hgen]
    exact msgs_push { s with random := answer.state } _ _
  rw [answer]
  split
  · exact hpeers _
  · exact hpeers _
  · exact hentropy
  · exact List.prefix_refl _

/-- The branch for a peers type that is enabled. -/
private theorem answerPeers_spec (count : UInt8) {t : NrpdMsgType} (ht : isPeersType t = true)
    (hfit : s.config.SizesFit) (ha : s.available = a) (hmax : a ≤ 1232)
    (henabled : s.config.enablePeersResponse t = true) :
    (s.answerPeers t count).random = s.random ∧
      ((s.config.activeServerCount t).1 ≠ 0 ∧ 4 + recordSize t ≤ a →
        ∃ m size, Answered s (s.answerPeers t count) t.code m size) ∧
      (¬ ((s.config.activeServerCount t).1 ≠ 0 ∧ 4 + recordSize t ≤ a) →
        Unanswered s (s.answerPeers t count)) := by
  have hspec := generatePeersResponse_spec count hfit ht hmax
  obtain ⟨answer, hgen⟩ : ∃ answer, generatePeersResponse s.config t count.toNat a = answer :=
    ⟨_, rfl⟩
  rw [hgen] at hspec
  rw [← ha] at hgen
  rw [answerPeers_eq henabled hgen]
  refine ⟨random_push _ _ _, fun h => ?_, fun h => ?_⟩
  · obtain ⟨hout, m, hbuffer, hanswer⟩ := hspec.some h
    have hsize := size_fittingCount_le (recordSize t) (requestedPeers s.config t count)
      (show 4 ≤ a by omega)
    have hfits : ((4 + recordSize t *
        fittingCount a (recordSize t) (requestedPeers s.config t count) : ℕ) : ℤ) ≤
        s.available := by
      omega
    rw [hbuffer, hout]
    exact ⟨m, _, ⟨t, rfl, hanswer⟩, hfits, hspec.state, rfl, rfl, rfl, rfl⟩
  · rw [hspec.none h]
    exact ⟨hspec.state, rfl, rfl, rfl, rfl⟩

/-- The branch for entropy. -/
private theorem answerEntropy_spec (count : UInt8) (ha : s.available = a) (hmax : a ≤ 1232) :
    (5 ≤ a → (s.answerEntropy count).random = s.random.skip 1) ∧
      (5 ≤ a ∧ s.random.delivered (fittingCount a 1 (requestedEntropy s.config count)) ≠ [] →
        ∃ m size, Answered s (s.answerEntropy count) NrpdMsgType.entropy.code m size) ∧
      (¬ (5 ≤ a ∧ s.random.delivered (fittingCount a 1 (requestedEntropy s.config count)) ≠ []) →
        Unanswered s (s.answerEntropy count)) := by
  have hspec := generateEntropyResponse_spec s.config s.random count hmax
  have hsame := NrpdConfig.SameAnswers.refl s.config
  obtain ⟨answer, hgen⟩ : ∃ answer,
      generateEntropyResponse s.config s.random count.toNat a = answer := ⟨_, rfl⟩
  rw [hgen] at hspec
  rw [← ha] at hgen
  rw [answerEntropy_eq hgen]
  refine ⟨fun hroom => ?_, fun h => ?_, fun h => ?_⟩
  · rw [random_push]
    exact hspec.state hroom
  · obtain ⟨hout, m, hbuffer, hanswer⟩ := hspec.some h
    have hread := s.random.length_delivered_le
      (fittingCount a 1 (requestedEntropy s.config count))
    have hsize := size_fittingCount_le 1 (requestedEntropy s.config count) (show 4 ≤ a by omega)
    have hfits : ((4 + (s.random.delivered
        (fittingCount a 1 (requestedEntropy s.config count))).length : ℕ) : ℤ) ≤ s.available := by
      omega
    rw [hbuffer, hout]
    exact ⟨m, _, ⟨.entropy, rfl, hanswer⟩, hfits, hsame, rfl, rfl, rfl, rfl⟩
  · rw [hspec.none h]
    exact ⟨hsame, rfl, rfl, rfl, rfl⟩

/-- The branches of the loop for a type that is not rejected. -/
theorem answer_cases (s : ParseState) (count : UInt8)
    (hkeep : rejectsType s.config msgType = false) :
    (msgType = NrpdMsgType.entropy.code ∧ s.answer msgType count = s.answerEntropy count) ∨
    ∃ t, isPeersType t = true ∧ s.config.enablePeersResponse t = true ∧ msgType = t.code ∧
      s.answer msgType count = s.answerPeers t count := by
  cases ht : NrpdMsgType.ofCode msgType with
  | none => simp [rejectsType, ht] at hkeep
  | some t =>
    obtain rfl := NrpdMsgType.ofCode_eq_some.1 ht
    cases t <;> simp only [answer, rejectsType, ht, Bool.not_eq_false', Bool.true_eq_false]
      at hkeep ⊢
    case entropy => exact .inl ⟨trivial, trivial⟩
    case ip4peers => exact .inr ⟨.ip4peers, rfl, hkeep, rfl, rfl⟩
    case ip6peers => exact .inr ⟨.ip6peers, rfl, hkeep, rfl, rfl⟩

section Answer

variable (hfit : s.config.SizesFit) (ha : s.available = a) (hmax : a ≤ 1232)
  (hkeep : rejectsType s.config msgType = false)
include hfit ha hmax hkeep

theorem answer_of_yields (h : yields s.config s.random a msgType count = true) :
    ∃ m size, Answered s (s.answer msgType count) msgType m size := by
  rcases answer_cases s count hkeep with ⟨rfl, heq⟩ | ⟨t, ht, henabled, rfl, heq⟩
  · rw [heq]
    exact (answerEntropy_spec count ha hmax).2.1 (yields_entropy.1 h)
  · rw [heq]
    exact (answerPeers_spec count ht hfit ha hmax henabled).2.1 ((yields_peers ht).1 h)

theorem answer_of_not_yields (h : yields s.config s.random a msgType count = false) :
    Unanswered s (s.answer msgType count) := by
  have hno := Bool.eq_false_iff.1 h
  rcases answer_cases s count hkeep with ⟨rfl, heq⟩ | ⟨t, ht, henabled, rfl, heq⟩
  · rw [heq]
    exact (answerEntropy_spec count ha hmax).2.2 (mt yields_entropy.2 hno)
  · rw [heq]
    exact (answerPeers_spec count ht hfit ha hmax henabled).2.2 (mt (yields_peers ht).2 hno)

theorem random_answer (hroom : 5 ≤ a) :
    (s.answer msgType count).random =
      if msgType = NrpdMsgType.entropy.code then s.random.skip 1 else s.random := by
  rcases answer_cases s count hkeep with ⟨rfl, heq⟩ | ⟨t, ht, henabled, rfl, heq⟩
  · rw [heq, if_pos rfl]
    exact (answerEntropy_spec count ha hmax).1 hroom
  · have hne : t.code ≠ NrpdMsgType.entropy.code := fun hcode => by
      obtain rfl := NrpdMsgType.code_injective hcode
      cases ht
    rw [heq, if_neg hne]
    exact (answerPeers_spec count ht hfit ha hmax henabled).1

end Answer

end ParseState

end Nrpd
