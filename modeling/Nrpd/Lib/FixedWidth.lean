import Mathlib.Algebra.Group.Int.Defs
import Mathlib.Data.Int.Basic

/-!
# Conversions to machine integers

Integers are written as `ℤ`, and a conversion to a machine type is the explicit reduction to that
type's range: `u8`, `u16`, `u32` and `u64` for the unsigned types, `i32` for `int` in two's
complement. Each conversion is the identity on the values its type holds.
-/

namespace FixedWidth

/-- Conversion to an unsigned 8-bit integer. -/
def u8 (x : ℤ) : ℕ := (x % 2 ^ 8).toNat

/-- Conversion to an unsigned 16-bit integer. -/
def u16 (x : ℤ) : ℕ := (x % 2 ^ 16).toNat

/-- Conversion to an unsigned 32-bit integer. -/
def u32 (x : ℤ) : ℕ := (x % 2 ^ 32).toNat

/-- Conversion to an unsigned 64-bit integer. -/
def u64 (x : ℤ) : ℕ := (x % 2 ^ 64).toNat

/-- Conversion to a signed 32-bit integer. -/
def i32 (x : ℤ) : ℤ := (x + 2 ^ 31) % 2 ^ 32 - 2 ^ 31

theorem u8_of_lt {x : ℤ} (h0 : 0 ≤ x) (h : x < 256) : u8 x = x.toNat := by
  rw [u8, Int.emod_eq_of_lt h0 (by omega)]

theorem u16_of_lt {x : ℤ} (h0 : 0 ≤ x) (h : x < 65536) : u16 x = x.toNat := by
  rw [u16, Int.emod_eq_of_lt h0 (by omega)]

theorem u32_of_lt {x : ℤ} (h0 : 0 ≤ x) (h : x < 4294967296) : u32 x = x.toNat := by
  rw [u32, Int.emod_eq_of_lt h0 (by omega)]

theorem u64_of_lt {x : ℤ} (h0 : 0 ≤ x) (h : x < 18446744073709551616) : u64 x = x.toNat := by
  rw [u64, Int.emod_eq_of_lt h0 (by omega)]

theorem i32_of_lt {x : ℤ} (h0 : -2147483648 ≤ x) (h : x < 2147483648) : i32 x = x := by
  unfold i32
  omega

theorem u8_natCast {n : ℕ} (h : n < 256) : u8 n = n := by
  rw [u8_of_lt (by omega) (by omega), Int.toNat_natCast]

theorem u32_natCast {n : ℕ} (h : n < 4294967296) : u32 n = n := by
  rw [u32_of_lt (by omega) (by omega), Int.toNat_natCast]

theorem i32_natCast {n : ℕ} (h : n < 2147483648) : i32 n = n :=
  i32_of_lt (by omega) (by omega)

theorem i32_mem (x : ℤ) : -2147483648 ≤ i32 x ∧ i32 x < 2147483648 := by
  unfold i32
  omega

end FixedWidth
