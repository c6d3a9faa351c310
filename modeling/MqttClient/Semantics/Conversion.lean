/-
# Integer conversions of the target

The C types of the target (x86-64, gcc) as ranges of unbounded integers:
`unsigned char` and a signed `char` of 8 bits, `int` of 32, a `long` and a `size_t`
of 64.
A conversion reduces modulo the width and, for a signed type, takes the
representative around zero.  Arithmetic between two conversions is exact.
-/

import Mathlib.Tactic.Ring

namespace MqttClient.Semantics

/-- Conversion to `unsigned char`. -/
def toUnsignedChar (i : Int) : UInt8 := UInt8.ofNat (i % 256).toNat

/-- Conversion to a signed `char`. -/
def toChar (b : UInt8) : Int := if b.toNat < 128 then b.toNat else b.toNat - 256

/-- Conversion to a 32-bit `int`. -/
def toInt (i : Int) : Int := Int.bmod i (2 ^ 32)

/-- Conversion to a 32-bit `unsigned int`. -/
def toUnsignedInt (i : Int) : Nat := (i % 2 ^ 32).toNat

/-- Conversion to a 64-bit `long`. -/
def toLong (i : Int) : Int := Int.bmod i (2 ^ 64)

/-- Conversion to a 64-bit `size_t`. -/
def toSizeT (i : Int) : Nat := (i % 2 ^ 64).toNat

theorem toUnsignedChar_natCast_toNat {n : Nat} (h : n < 256) :
    (toUnsignedChar n).toNat = n := by
  have hmod : ((n : Int) % 256).toNat = n := by omega
  rw [toUnsignedChar, hmod, UInt8.toNat_ofNat']
  omega

/-- The detour of a byte through a signed `char` loses nothing. -/
theorem toUnsignedChar_toChar (b : UInt8) : toUnsignedChar (toChar b) = b := by
  have hlt := b.toNat_lt
  apply UInt8.toNat_inj.mp
  rw [toUnsignedChar, UInt8.toNat_ofNat', toChar]
  split
  · omega
  · omega

/-- A `char` with a small value is the byte of that value. -/
theorem toChar_eq_iff {b : UInt8} {n : Nat} (h : n < 128) : toChar b = n ↔ b = UInt8.ofNat n := by
  have hlt := b.toNat_lt
  rw [← UInt8.toNat_inj, UInt8.toNat_ofNat', toChar]
  split <;> omega

/-- A small number survives the detour through a byte. -/
theorem toChar_toUnsignedChar {n : Nat} (h : n < 128) : toChar (toUnsignedChar n) = n := by
  rw [toChar, toUnsignedChar_natCast_toNat (by omega), if_pos h]

/-- A byte with its top bit set is negative as a `char`, so the comparison with the
byte's own value fails. -/
theorem toUnsignedInt_toChar_ne (b : UInt8) : toUnsignedInt (toChar b) ≠ 0x80 := by
  have hlt := b.toNat_lt
  unfold toUnsignedInt toChar
  split
  · omega
  · omega

/-- A value in range is unchanged by the conversion to `int`. -/
theorem toInt_of_mem {i : Int} (hlo : -2 ^ 31 ≤ i) (hhi : i < 2 ^ 31) : toInt i = i := by
  unfold toInt
  rw [Int.bmod_def]
  split <;> omega

theorem toInt_of_lt {n : Nat} (h : n < 2 ^ 31) : toInt n = n :=
  toInt_of_mem (by omega) (by omega)

/-- What the conversion to `int` can give. -/
theorem toInt_mem_range (i : Int) : -2 ^ 31 ≤ toInt i ∧ toInt i < 2 ^ 31 := by
  unfold toInt
  rw [Int.bmod_def]
  split <;> omega

/-- A natural number that the conversion to `int` makes of another is its remainder. -/
theorem eq_mod_of_toInt_eq {n k : Nat} (h : toInt n = k) : k = n % 2 ^ 32 ∧ k < 2 ^ 31 := by
  unfold toInt at h
  rw [Int.bmod_def] at h
  split at h <;> omega

/-- A value in range is unchanged by the conversion to `long`. -/
theorem toLong_of_mem {i : Int} (hlo : -2 ^ 63 ≤ i) (hhi : i < 2 ^ 63) : toLong i = i := by
  unfold toLong
  rw [Int.bmod_def]
  split <;> omega

theorem toSizeT_of_lt {n : Nat} (h : n < 2 ^ 64) : toSizeT n = n := by
  unfold toSizeT
  omega

/-- The conversion to `size_t` only makes a number smaller that is not negative. -/
theorem toSizeT_le {i : Int} (h : 0 ≤ i) : (toSizeT i : Int) ≤ i := by
  unfold toSizeT
  omega

/-- As a `size_t` an `int` is itself exactly when it is not negative. -/
theorem toSizeT_eq_iff {i : Int} (hlo : -2 ^ 31 ≤ i) (hhi : i < 2 ^ 31) :
    (toSizeT i : Int) = i ↔ 0 ≤ i := by
  unfold toSizeT
  omega

/-- The low seven bits of a byte. -/
theorem toNat_and_127 (b : UInt8) : (b &&& 127).toNat = b.toNat % 128 := by
  rw [UInt8.toNat_and]
  exact Nat.and_two_pow_sub_one_eq_mod b.toNat 7

/-- The top bit of a byte is set exactly from 128 on. -/
theorem and_128_ne_zero_iff (b : UInt8) : b &&& 128 ≠ 0 ↔ 128 ≤ b.toNat := by
  have hbit : ∀ i : Fin 256, i.val &&& 128 = i.val / 128 * 128 := by decide +kernel
  have hlt := b.toNat_lt
  have hand : (b &&& 128).toNat = b.toNat / 128 * 128 := by
    rw [UInt8.toNat_and]
    exact hbit ⟨b.toNat, hlt⟩
  rw [Ne, ← UInt8.toNat_inj, hand, UInt8.toNat_zero]
  omega

/-- Setting the top bit of a byte that lacks it adds 128. -/
theorem toNat_or_128 {b : UInt8} (h : b.toNat < 128) : (b ||| 128).toNat = b.toNat + 128 := by
  have hbit : ∀ i : Fin 128, i.val ||| 128 = i.val + 128 := by decide +kernel
  rw [UInt8.toNat_or]
  exact hbit ⟨b.toNat, h⟩

end MqttClient.Semantics
