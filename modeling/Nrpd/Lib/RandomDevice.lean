import Mathlib.Data.List.Forall2
import Mathlib.Data.Nat.Basic

/-!
# Random devices

A device that is read from: a read asks for a number of bytes and gets an error or at most as many
bytes. What each read gets is given beforehand, by the number of the read and of the bytes asked
for, so a device is a source of arbitrary results.

## Main definitions

* `RandomDevice`: the results of all reads, and the number of reads made.
* `RandomDevice.read`, `RandomDevice.delivered`: one read, and the bytes it delivers.
* `RandomDevice.Delivers`: every read delivers something.
* `RandomDevice.Supplies`: blocks of bytes that are read from a device one after the other.
* `RandomSink`, `RandomSink.write`: a device that is written to.

## Main results

* `RandomDevice.Supplies.exists_reads`: every block is a read of its own.
-/

/-- A device with the results of all reads. -/
structure RandomDevice where
  result : ℕ → (n : ℕ) → Option { bytes : List UInt8 // bytes.length ≤ n }
  taken : ℕ

namespace RandomDevice

/-- Read at most `n` bytes; `none` is an error. -/
def read (d : RandomDevice) (n : ℕ) : Option (List UInt8) × RandomDevice :=
  ((d.result d.taken n).map Subtype.val, { d with taken := d.taken + 1 })

/-- The device after some more reads. -/
def skip (d : RandomDevice) (k : ℕ) : RandomDevice := { d with taken := d.taken + k }

theorem skip_skip (d : RandomDevice) (k l : ℕ) : (d.skip k).skip l = d.skip (k + l) := by
  simp only [skip, Nat.add_assoc]

theorem read_snd (d : RandomDevice) (n : ℕ) : (d.read n).2 = d.skip 1 := rfl

theorem length_le_of_read {d : RandomDevice} {n : ℕ} {bytes : List UInt8}
    (h : (d.read n).1 = some bytes) : bytes.length ≤ n := by
  obtain ⟨r, -, rfl⟩ := Option.map_eq_some_iff.1 h
  exact r.2

/-- The bytes that a read delivers, none for an error. -/
def delivered (d : RandomDevice) (n : ℕ) : List UInt8 := (d.read n).1.getD []

theorem length_delivered_le (d : RandomDevice) (n : ℕ) : (d.delivered n).length ≤ n := by
  unfold delivered
  cases h : (d.read n).1 with
  | none => exact Nat.zero_le n
  | some bytes => exact length_le_of_read h

/-- Every read for some bytes gets at least one. -/
def Delivers (d : RandomDevice) : Prop :=
  ∀ k n, 0 < n → ∃ bytes, d.result k n = some bytes ∧ bytes.val ≠ []

theorem Delivers.delivered_ne_nil {d : RandomDevice} (h : d.Delivers) {n : ℕ} (hpos : 0 < n) :
    d.delivered n ≠ [] := by
  obtain ⟨bytes, hresult, hne⟩ := h d.taken n hpos
  simpa only [delivered, read, hresult, Option.map_some, Option.getD_some] using hne

/-! ### Blocks -/

/-- Blocks of bytes that are read from a device one after the other, with reads in between whose
bytes are not used. -/
inductive Supplies (d : RandomDevice) : List (List UInt8) → RandomDevice → Prop
  | nil : Supplies d [] d
  | unused {blocks : List (List UInt8)} {d' : RandomDevice} (h : Supplies d blocks d') :
    Supplies d blocks (d'.skip 1)
  | block {blocks : List (List UInt8)} {d' : RandomDevice} (h : Supplies d blocks d') (n : ℕ) :
    Supplies d (blocks ++ [d'.delivered n]) (d'.skip 1)

namespace Supplies

variable {d d' d'' : RandomDevice} {blocks blocks' : List (List UInt8)}

theorem trans (h : d.Supplies blocks d') (h' : d'.Supplies blocks' d'') :
    d.Supplies (blocks ++ blocks') d'' := by
  induction h' with
  | nil => rwa [List.append_nil]
  | unused _ ih => exact .unused ih
  | block _ n ih =>
    rw [← List.append_assoc]
    exact .block ih n

/-- The device is the same one, some reads later. -/
theorem exists_skip (h : d.Supplies blocks d') : ∃ k, d' = d.skip k := by
  induction h with
  | nil => exact ⟨0, rfl⟩
  | unused _ ih =>
    obtain ⟨k, rfl⟩ := ih
    exact ⟨k + 1, rfl⟩
  | block _ n ih =>
    obtain ⟨k, rfl⟩ := ih
    exact ⟨k + 1, rfl⟩

/-- A block is some read of the device. -/
theorem exists_read_of_mem (h : d.Supplies blocks d') {block : List UInt8}
    (hblock : block ∈ blocks) : ∃ k n, block = (d.skip k).delivered n := by
  induction h with
  | nil => cases hblock
  | unused _ ih => exact ih hblock
  | block h n ih =>
    rcases List.mem_append.1 hblock with hblock | hblock
    · exact ih hblock
    · obtain ⟨k, rfl⟩ := h.exists_skip
      exact ⟨k, n, List.mem_singleton.1 hblock⟩

/-- **Blocks.** Every block is a read of its own, and the reads are made in the order of the
blocks. -/
theorem exists_reads (h : d.Supplies blocks d') : ∃ reads : List ℕ, reads.Pairwise (· < ·) ∧
    (∀ k ∈ reads, d'.taken > d.taken + k) ∧
    List.Forall₂ (fun k block => ∃ n, block = (d.skip k).delivered n) reads blocks := by
  induction h with
  | nil => exact ⟨[], .nil, fun _ hk => absurd hk List.not_mem_nil, .nil⟩
  | unused _ ih =>
    obtain ⟨reads, hreads, hlt, hblocks⟩ := ih
    exact ⟨reads, hreads, fun k hk => Nat.lt_succ_of_lt (hlt k hk), hblocks⟩
  | block h n ih =>
    obtain ⟨reads, hreads, hlt, hblocks⟩ := ih
    obtain ⟨k, rfl⟩ := h.exists_skip
    refine ⟨reads ++ [k], ?_, ?_, ?_⟩
    · refine List.pairwise_append.2 ⟨hreads, List.pairwise_singleton _ _, ?_⟩
      intro i hi j hj
      obtain rfl := List.mem_singleton.1 hj
      have := hlt i hi
      simp only [skip] at this
      omega
    · intro i hi
      rcases List.mem_append.1 hi with hi | hi
      · exact Nat.lt_succ_of_lt (hlt i hi)
      · obtain rfl := List.mem_singleton.1 hi
        exact Nat.lt_succ_self _
    · exact List.rel_append hblocks (.cons ⟨n, rfl⟩ .nil)

end Supplies

end RandomDevice

/-- A device that is written to: what each write returns, by the number of the write and of the
bytes, and the blocks that were handed to it. -/
structure RandomSink where
  result : ℕ → ℕ → ℤ
  written : List (List UInt8)

/-- Write a block of bytes. -/
def RandomSink.write (d : RandomSink) (bytes : List UInt8) : ℤ × RandomSink :=
  (d.result d.written.length bytes.length, { d with written := d.written ++ [bytes] })
