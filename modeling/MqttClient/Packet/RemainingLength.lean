/-
# The remaining-length code

What the bytes of a length field mean, independently of either loop that reads
them: a field ends at its first byte below 128, and its value is the number
whose base-128 digits are the low seven bits, least significant first.  The
encoder writes a field of that kind for every value the format allows, and the
decoder over a buffer stops exactly at its end.
-/

import Mathlib.Tactic.Ring
import MqttClient.Packet.Format

namespace MqttClient

open Semantics

/-- The number whose base-128 digits are the low seven bits of the bytes. -/
def lengthValue : List UInt8 → Nat
  | [] => 0
  | b :: rest => b.toNat % 128 + 128 * lengthValue rest

/-- The bytes end with their first byte that has no continuation bit. -/
def Terminates : List UInt8 → Prop
  | [] => False
  | b :: rest => if b.toNat < 128 then rest = [] else Terminates rest

instance decidableTerminates : (ls : List UInt8) → Decidable (Terminates ls)
  | [] => .isFalse id
  | b :: rest =>
      if h : b.toNat < 128 then
        decidable_of_iff (rest = []) (by simp [Terminates, h])
      else
        letI := decidableTerminates rest
        decidable_of_iff (Terminates rest) (by simp [Terminates, h])

theorem terminates_cons_of_lt {b : UInt8} {rest : List UInt8} (h : b.toNat < 128) :
    Terminates (b :: rest) ↔ rest = [] := by
  simp [Terminates, h]

theorem terminates_cons_of_ge {b : UInt8} {rest : List UInt8} (h : 128 ≤ b.toNat) :
    Terminates (b :: rest) ↔ Terminates rest := by
  simp [Terminates, Nat.not_lt.mpr h]

theorem Terminates.length_pos {ls : List UInt8} (h : Terminates ls) : 0 < ls.length := by
  cases ls with
  | nil => exact h.elim
  | cons b rest => simp

/-- A length field ends in one place. -/
theorem Terminates.append_inj : ∀ {field field' rest rest' : List UInt8}, Terminates field →
    Terminates field' → field ++ rest = field' ++ rest' → field = field' ∧ rest = rest'
  | b :: field, b' :: field', rest, rest', h, h', heq => by
      obtain ⟨rfl, htail⟩ := List.cons.inj heq
      by_cases hb : b.toNat < 128
      · obtain rfl := (terminates_cons_of_lt hb).mp h
        obtain rfl := (terminates_cons_of_lt hb).mp h'
        exact ⟨rfl, htail⟩
      · rw [terminates_cons_of_ge (Nat.not_lt.mp hb)] at h h'
        obtain ⟨rfl, rfl⟩ := h.append_inj h' htail
        exact ⟨rfl, rfl⟩

/-- Every digit is below 128, so the digits bound the value. -/
theorem lengthValue_lt : ∀ ls : List UInt8, lengthValue ls < 128 ^ ls.length
  | [] => by simp [lengthValue]
  | b :: rest => by
      have ih := lengthValue_lt rest
      simp only [lengthValue, List.length_cons, Nat.pow_succ]
      omega

theorem lengthValue_lt_of_length_le {ls : List UInt8} (h : ls.length ≤ 4) :
    lengthValue ls < 268435456 := by
  calc
    lengthValue ls < 128 ^ ls.length := lengthValue_lt ls
    _ ≤ 128 ^ 4 := Nat.pow_le_pow_right (by decide) h
    _ = 268435456 := by decide

/-! ## The encoder -/

/-- One step of the encoder on a length in the range of the format. -/
theorem mqttPacketEncodeLoop_succ (steps n : Nat) :
    mqttPacketEncodeLoop (steps + 1) n =
      if 0 < n / 128 then
        UInt8.ofNat (n % 128 + 128) :: mqttPacketEncodeLoop steps (n / 128 : Nat)
      else [UInt8.ofNat (n % 128)] := by
  have hrem : Int.tmod (n : Int) 128 = ((n % 128 : Nat) : Int) := by
    rw [Int.tmod_eq_emod_of_nonneg (by omega)]
    omega
  have hquot : Int.tdiv (n : Int) 128 = ((n / 128 : Nat) : Int) := by
    rw [Int.tdiv_eq_ediv_of_nonneg (by omega)]
    omega
  have hdigit : (toUnsignedChar ((n % 128 : Nat) : Int)).toNat = n % 128 :=
    toUnsignedChar_natCast_toNat (by omega)
  have hplain : toUnsignedChar ((n % 128 : Nat) : Int) = UInt8.ofNat (n % 128) := by
    apply UInt8.toNat_inj.mp
    rw [hdigit, UInt8.toNat_ofNat']
    omega
  have hcont : toUnsignedChar ((n % 128 : Nat) : Int) ||| 0x80 = UInt8.ofNat (n % 128 + 128) := by
    apply UInt8.toNat_inj.mp
    have hor := toNat_or_128 (b := toUnsignedChar ((n % 128 : Nat) : Int)) (by omega)
    rw [UInt8.toNat_ofNat']
    omega
  have hpos : 0 < ((n / 128 : Nat) : Int) ↔ 0 < n / 128 := by omega
  rw [mqttPacketEncodeLoop, hrem, hquot]
  by_cases h : 0 < n / 128
  · rw [if_pos (hpos.mpr h), if_pos h, hcont]
  · rw [if_neg (fun hp => h (hpos.mp hp)), if_neg h, hplain]

/-- With `digits` base-128 digits and enough steps, the encoder writes a
terminated field of at most that many bytes whose value is its argument. -/
theorem mqttPacketEncodeLoop_spec (digits : Nat) :
    ∀ (steps n : Nat), digits ≤ steps → 0 < digits → n < 128 ^ digits →
      Terminates (mqttPacketEncodeLoop steps n) ∧
        (mqttPacketEncodeLoop steps n).length ≤ digits ∧
        lengthValue (mqttPacketEncodeLoop steps n) = n := by
  induction digits with
  | zero => intro steps n _ hpos; exact absurd hpos (by decide)
  | succ digits ih =>
      intro steps n hsteps _ hn
      obtain ⟨steps, rfl⟩ : ∃ k, steps = k + 1 := ⟨steps - 1, by omega⟩
      rw [mqttPacketEncodeLoop_succ]
      by_cases hmore : 0 < n / 128
      · rw [if_pos hmore]
        have hbyte : (UInt8.ofNat (n % 128 + 128)).toNat = n % 128 + 128 := by
          rw [UInt8.toNat_ofNat']
          omega
        have hrange : n / 128 < 128 ^ digits := by
          rw [Nat.div_lt_iff_lt_mul (by decide), ← Nat.pow_succ]
          exact hn
        have hdigits : 0 < digits := by
          rcases Nat.eq_zero_or_pos digits with rfl | hpos
          · simp only [Nat.pow_zero] at hrange
            omega
          · exact hpos
        obtain ⟨hterm, hlen, hval⟩ := ih steps (n / 128) (by omega) hdigits hrange
        refine ⟨(terminates_cons_of_ge (by omega)).mpr hterm, ?_, ?_⟩
        · simp only [List.length_cons]
          omega
        · simp only [lengthValue, hval, hbyte]
          omega
      · rw [if_neg hmore]
        have hbyte : (UInt8.ofNat (n % 128)).toNat = n % 128 := by
          rw [UInt8.toNat_ofNat']
          omega
        refine ⟨(terminates_cons_of_lt (by omega)).mpr rfl, by simp, ?_⟩
        simp only [lengthValue, hbyte]
        omega

section Encode

variable {n : Nat} (h : n < 268435456)

include h

theorem terminates_mqttPacketEncode : Terminates (mqttPacketEncode n) :=
  (mqttPacketEncodeLoop_spec 4 5 n (by decide) (by decide) h).1

theorem mqttPacketEncode_length_le : (mqttPacketEncode n).length ≤ 4 :=
  (mqttPacketEncodeLoop_spec 4 5 n (by decide) (by decide) h).2.1

theorem lengthValue_mqttPacketEncode : lengthValue (mqttPacketEncode n) = n :=
  (mqttPacketEncodeLoop_spec 4 5 n (by decide) (by decide) h).2.2

end Encode

/-- Below 128 the field is a single byte. -/
theorem mqttPacketEncode_of_lt {n : Nat} (h : n < 128) :
    mqttPacketEncode n = [UInt8.ofNat n] := by
  rw [mqttPacketEncode, mqttPacketEncodeLoop_succ, if_neg (by omega), Nat.mod_eq_of_lt h]

/-- From 128 on the field has at least two bytes. -/
theorem mqttPacketEncode_length_of_ge {n : Nat} (h : 128 ≤ n) (hn : n < 268435456) :
    2 ≤ (mqttPacketEncode n).length := by
  have hmore : 0 < n / 128 := by omega
  have hrest := (mqttPacketEncodeLoop_spec 4 4 (n / 128) (by decide) (by decide)
    (by have : n / 128 < 268435456 := by omega
        exact this)).1.length_pos
  rw [mqttPacketEncode, mqttPacketEncodeLoop_succ, if_pos hmore, List.length_cons]
  omega

/-! ## The decoder over a buffer -/

/-- One step of the loop over a buffer: `bufchar` always supplies its byte. -/
theorem decodeLoop_bufchar_succ (buf : Memory) (left len value multiplier ptr : Nat) :
    (decodeLoop (bufchar buf) (left + 1) len value multiplier).run ptr =
      if buf ptr &&& 128 ≠ 0 then
        (decodeLoop (bufchar buf) left (len + 1) (value + (buf ptr &&& 127).toNat * multiplier)
          (multiplier * 128)).run (ptr + 1)
      else ((len + 1, value + (buf ptr &&& 127).toNat * multiplier), ptr + 1) := by
  by_cases hcont : buf ptr &&& 128 ≠ 0
  · rw [if_pos hcont, decodeLoop, StateT.run_bind]
    show StateT.run (if (1 : Int) ≠ 1 then _ else if buf ptr &&& 128 ≠ 0 then _ else _) (ptr + 1) = _
    rw [if_neg (by decide), if_pos hcont]
    rfl
  · rw [if_neg hcont, decodeLoop, StateT.run_bind]
    show StateT.run (if (1 : Int) ≠ 1 then _ else if buf ptr &&& 128 ≠ 0 then _ else _) (ptr + 1) = _
    rw [if_neg (by decide), if_neg hcont]
    rfl

/-- Over a buffer that holds a terminated field, the loop stops at its end. -/
theorem decodeLoop_bufchar (buf : Memory) :
    ∀ (ls : List UInt8) (left len value multiplier ptr : Nat), Terminates ls →
      ls.length ≤ left → buf.load ptr ls.length = ls →
      (decodeLoop (bufchar buf) left len value multiplier).run ptr =
        ((len + ls.length, value + lengthValue ls * multiplier), ptr + ls.length) := by
  intro ls
  induction ls with
  | nil => intro left len value multiplier ptr hterm; exact hterm.elim
  | cons b rest ih =>
      intro left len value multiplier ptr hterm hleft hload
      obtain ⟨left, rfl⟩ : ∃ k, left = k + 1 := ⟨left - 1, by simp at hleft; omega⟩
      rw [List.length_cons, Memory.load_succ, List.cons.injEq] at hload
      obtain ⟨rfl, hrest⟩ := hload
      have hcont := and_128_ne_zero_iff (buf ptr)
      rw [decodeLoop_bufchar_succ, toNat_and_127]
      by_cases hlast : (buf ptr).toNat < 128
      · obtain rfl := (terminates_cons_of_lt hlast).mp hterm
        rw [if_neg (fun hne => absurd (hcont.mp hne) (by omega))]
        simp [lengthValue]
      · rw [if_pos (hcont.mpr (by omega)), ih left (len + 1) _ _ (ptr + 1)
          ((terminates_cons_of_ge (by omega)).mp hterm) (by simp at hleft; omega) hrest]
        simp only [lengthValue, List.length_cons]
        refine Prod.ext (Prod.ext ?_ ?_) ?_
        · show len + 1 + rest.length = len + (rest.length + 1)
          omega
        · show value + _ * multiplier + lengthValue rest * (multiplier * 128) = _
          ring
        · show ptr + 1 + rest.length = ptr + (rest.length + 1)
          omega

/-- The decoder applied where a terminated field of at most four bytes stands. -/
theorem mqttPacketDecodeBuf_of_load {buf : Memory} {ls : List UInt8} (hterm : Terminates ls)
    (hlen : ls.length ≤ 4) (hload : buf.load 0 ls.length = ls) :
    mqttPacketDecodeBuf buf = (ls.length, lengthValue ls) := by
  rw [mqttPacketDecodeBuf, mqttPacketDecode, maxNoOfRemainingLengthBytes,
    decodeLoop_bufchar buf ls 4 0 0 1 0 hterm hlen hload]
  simp

/-- The encoder's field is read back with its length and its value. -/
theorem mqttPacketDecodeBuf_encode {buf : Memory} {n : Nat} (h : n < 268435456)
    (hload : buf.load 0 (mqttPacketEncode n).length = mqttPacketEncode n) :
    mqttPacketDecodeBuf buf = ((mqttPacketEncode n).length, n) := by
  rw [mqttPacketDecodeBuf_of_load (terminates_mqttPacketEncode h) (mqttPacketEncode_length_le h)
    hload, lengthValue_mqttPacketEncode h]

end MqttClient
