import Nrpd.Client.NrpdClient

/-!
# The mask of received entropy

`ScrambleEntropy` asks the random device for one bit for each byte of entropy, rounded up to whole
bytes, and uses a bit for each of them whatever the device delivered. A read that is short, but not
empty, leaves the rest of the array as it was on the stack, and its bits are used all the same.

## Main definitions

* `MaskedBy`: entropy that is masked by the delivered bytes.
* `ScrambledAsPromised`: what `ScrambleEntropy` promises.

## Main results

* `mul_shiftRight_and_one`: what one bit does to a byte.
* `scrambleEntropy_asPromised_iff`: when the promise is kept.
-/

namespace Nrpd

/-- The product with a bit of a byte. -/
theorem mul_shiftRight_and_one (byte secret : UInt8) {k : ℕ} (hk : k < 8) :
    byte * ((secret >>> .ofNat k) &&& 1) = if secret.toNat.testBit k then byte else 0 := by
  have hshift : (UInt8.ofNat k).toNat % 8 = k := by
    rw [UInt8.toNat_ofNat', Nat.mod_eq_of_lt (show k < 2 ^ 8 by omega), Nat.mod_eq_of_lt hk]
  have hbit : (secret >>> .ofNat k) &&& 1 = if secret.toNat.testBit k then 1 else 0 := by
    apply UInt8.toNat_inj.1
    rw [UInt8.toNat_and, UInt8.toNat_shiftRight, hshift, UInt8.toNat_one, Nat.and_one_is_mod,
      Nat.shiftRight_eq_div_pow, Nat.testBit_eq_decide_div_mod_eq]
    by_cases hone : secret.toNat / 2 ^ k % 2 = 1
    · simp [hone]
    · simp [Nat.mod_two_ne_one.1 hone]
  rw [hbit]
  by_cases hset : secret.toNat.testBit k = true
  · rw [if_pos hset, if_pos hset, UInt8.mul_one]
  · rw [if_neg hset, if_neg hset, UInt8.mul_zero]

/-- Each byte of the entropy is kept or zeroed by its bit of the delivered bytes, which lie in the
array, and no other byte of the memory is changed. -/
structure MaskedBy (data : List UInt8) (bufSize entropy : ℕ) (m m' : Mem) : Prop where
  inArray : ∀ i < bufSize, i / 8 < 64
  delivered : ∀ i < bufSize, i / 8 < data.length
  masked : ∀ i < bufSize, m' (entropy + i) =
    if (data.getD (i / 8) 0).toNat.testBit (i % 8) then m (entropy + i) else 0
  frame : ∀ a, (∀ i < bufSize, a ≠ entropy + i) → m' a = m a

/-- What `ScrambleEntropy` promises: it fails and leaves the entropy, or it masks it by bytes that
the device delivered. -/
def ScrambledAsPromised (bufSize entropy : ℕ) (random : RandomDevice) (secret m : Mem) : Prop :=
  let result := scrambleEntropy bufSize entropy random secret m
  result.1 = false ∧ result.2.2 = m ∨
    result.1 = true ∧
      MaskedBy (random.delivered ((bufSize + 7) / 8)) bufSize entropy m result.2.2

section Scramble

variable {bufSize entropy : ℕ} {random : RandomDevice} {secret m : Mem} {data : List UInt8}

theorem getD_maskEntropy {i : ℕ} (hi : i < bufSize) :
    (maskEntropy secret (m.read entropy bufSize)).getD i 0 =
      if (secret (i / 8)).toNat.testBit (i % 8) then m (entropy + i) else 0 := by
  have hlength : i < (maskEntropy secret (m.read entropy bufSize)).length := by
    simpa [maskEntropy, Mem.read] using hi
  rw [List.getD_eq_getElem _ _ hlength, ← mul_shiftRight_and_one _ _ (Nat.mod_lt i (by decide))]
  simp [maskEntropy, Mem.read]

/-- A read that fails or delivers nothing leaves the entropy. -/
theorem scrambleEntropy_of_nothing (hsize : bufSize ≤ maxEntropySize)
    (h : random.delivered ((bufSize + 7) / 8) = []) :
    (scrambleEntropy bufSize entropy random secret m).1 = false ∧
      (scrambleEntropy bufSize entropy random secret m).2.2 = m := by
  rw [scrambleEntropy, if_neg (Nat.not_lt.2 hsize)]
  cases hread : (random.read ((bufSize + 7) / 8)).1 with
  | none => simp only [hread, and_self]
  | some data =>
    rw [RandomDevice.delivered, hread, Option.getD_some] at h
    simp only [hread, h, and_self]

/-- A read that delivers something masks the entropy by what is in the array. -/
theorem scrambleEntropy_of_delivered (entropy : ℕ) (secret m : Mem)
    (hsize : bufSize ≤ maxEntropySize)
    (hdata : random.delivered ((bufSize + 7) / 8) = data) (hne : data ≠ []) :
    (scrambleEntropy bufSize entropy random secret m).1 = true ∧
      (scrambleEntropy bufSize entropy random secret m).2.2 =
        m.write entropy (maskEntropy (secret.write 0 data) (m.read entropy bufSize)) := by
  rw [scrambleEntropy, if_neg (Nat.not_lt.2 hsize)]
  cases hread : (random.read ((bufSize + 7) / 8)).1 with
  | none =>
    rw [RandomDevice.delivered, hread] at hdata
    exact absurd hdata.symm hne
  | some read =>
    rw [RandomDevice.delivered, hread, Option.getD_some] at hdata
    subst hdata
    cases read with
    | nil => exact absurd rfl hne
    | cons byte read => simp only [hread, and_self]

/-- A read that delivers all bytes masks the entropy by them. -/
theorem maskedBy_of_all (hsize : bufSize ≤ maxEntropySize)
    (hall : data.length = (bufSize + 7) / 8) :
    MaskedBy data bufSize entropy m
      (m.write entropy (maskEntropy (secret.write 0 data) (m.read entropy bufSize))) := by
  have hlength : (maskEntropy (secret.write 0 data) (m.read entropy bufSize)).length = bufSize := by
    simp [maskEntropy, Mem.read]
  have hmax : bufSize ≤ 512 := hsize
  refine ⟨fun i hi => by omega, fun i hi => by omega, fun i hi => ?_, fun a ha => ?_⟩
  · have hbyte : (secret.write 0 data) (i / 8) = data.getD (i / 8) 0 := by
      have hin : i / 8 < data.length := by omega
      have hwritten := Mem.write_of_lt (m := secret) (a := 0) hin
      rw [Nat.zero_add] at hwritten
      rw [hwritten, List.getD_eq_getElem _ _ hin]
    rw [Mem.write_of_lt (by omega), ← hbyte, ← getD_maskEntropy hi,
      List.getD_eq_getElem _ _ (by omega)]
  · refine Mem.write_of_notMem ?_
    rw [hlength]
    by_contra hin
    exact ha (a - entropy) (by omega) (by omega)

/-- **Scrambling.** The promise is kept if and only if the read delivers nothing, as one that fails
does, or all the bytes that are asked for; what the array held before does not matter. -/
theorem scrambleEntropy_asPromised_iff (hsize : bufSize ≤ maxEntropySize) :
    ScrambledAsPromised bufSize entropy random secret m ↔
      random.delivered ((bufSize + 7) / 8) = [] ∨
        (random.delivered ((bufSize + 7) / 8)).length = (bufSize + 7) / 8 := by
  obtain ⟨data, hdata⟩ : ∃ data, random.delivered ((bufSize + 7) / 8) = data := ⟨_, rfl⟩
  have hlength := random.length_delivered_le ((bufSize + 7) / 8)
  rw [hdata] at hlength
  rw [ScrambledAsPromised, hdata]
  by_cases hnil : data = []
  · subst hnil
    exact iff_of_true (.inl (scrambleEntropy_of_nothing hsize hdata)) (.inl rfl)
  · obtain ⟨htrue, hmem⟩ := scrambleEntropy_of_delivered entropy secret m hsize hdata hnil
    simp only [htrue, hmem]
    constructor
    · rintro (⟨hfalse, -⟩ | ⟨-, hmasked⟩)
      · cases hfalse
      · -- the last byte of the entropy uses the last byte that was asked for
        have hpos := List.length_pos_iff.2 hnil
        have hlast := hmasked.delivered (bufSize - 1) (by omega)
        exact .inr (by omega)
    · rintro (hempty | hall)
      · exact absurd hempty hnil
      · exact .inr ⟨trivial, maskedBy_of_all hsize hall⟩

end Scramble

/-- A device that delivers one byte, of which all bits are set. -/
def oneByteDevice : RandomDevice :=
  ⟨fun _ n => if h : 1 ≤ n then some ⟨[255], h⟩ else none, 0⟩

/-- Eight bytes of entropy need one byte of the secret. -/
theorem scrambleEntropy_asPromised_example :
    oneByteDevice.delivered 1 = [255] ∧
      ScrambledAsPromised 8 4 oneByteDevice Mem.zero (fun _ => 1) :=
  ⟨rfl, (scrambleEntropy_asPromised_iff (by decide)).2 (.inr rfl)⟩

/-- Sixteen bytes of entropy need two: what the array held before decides about the last ones. -/
theorem scrambleEntropy_uses_stack :
    oneByteDevice.delivered 2 = [255] ∧
      (∀ secret m, ¬ ScrambledAsPromised 16 4 oneByteDevice secret m) ∧
      (scrambleEntropy 16 4 oneByteDevice Mem.zero (fun _ => 1)).2.2 19 = 0 ∧
      (scrambleEntropy 16 4 oneByteDevice (fun _ => 255) (fun _ => 1)).2.2 19 = 1 := by
  refine ⟨rfl, fun secret m hpromise => ?_, rfl, rfl⟩
  rcases hpromise with ⟨hfalse, -⟩ | ⟨-, hmasked⟩
  · exact Bool.noConfusion hfalse
  · exact absurd (hmasked.delivered 15 (by decide)) (by decide)

end Nrpd
