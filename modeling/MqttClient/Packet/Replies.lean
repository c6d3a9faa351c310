/-
# The replies of the server's side and their buffers

`MQTTSerialize_connack`, `MQTTSerialize_suback` and `MQTTSerialize_unsuback` compare
their buffer with a minimum computed by hand, where the serializers of the client use
`MQTTPacket_len` and `MQTTSerialize_ack` the four bytes it writes.  Each of the three
minima is smaller than the packet, so there are buffers that are accepted and overrun.
-/

import MqttClient.Packet.Server
import MqttClient.Packet.WholePackets

namespace MqttClient

open Semantics

/-- Nothing is written at or behind `buflen`, and a packet of more than `buflen` bytes is
refused. -/
def Serialized.StaysInside (s : Serialized) (buflen : Int) (size : Int) : Prop :=
  (∀ i : Nat, i < s.written.length → (i : Int) < buflen) ∧
    (buflen < size → s.rc = mqttPacketBufferTooShort)

/-- Compare the buffer with a minimum, then write. -/
theorem staysInside_iff {buflen minimum size : Int} {written : List UInt8}
    (hle : (written.length : Int) ≤ size) :
    (if buflen < minimum then .tooShort else .ofBytes written : Serialized).StaysInside
        buflen size ↔ buflen < minimum ∨ size ≤ buflen := by
  by_cases hshort : buflen < minimum
  · rw [if_pos hshort]
    refine iff_of_true ⟨fun i hi => absurd hi (Nat.not_lt_zero i), fun _ => rfl⟩ (.inl hshort)
  · rw [if_neg hshort]
    constructor
    · rintro ⟨_, hrefused⟩
      by_contra hnot
      have hrc : (written.length : Int) = -2 := hrefused (by omega)
      omega
    · intro hroom
      have hsize : size ≤ buflen := hroom.resolve_left hshort
      refine ⟨fun i hi => ?_, fun hlt => absurd hlt (by omega)⟩
      have hlt : i < written.length := hi
      omega

/-- The length of a SUBACK with `count` codes: header, length field, identifier, codes. -/
def subackSize (count : Int) : Int := 1 + (mqttPacketEncode (2 + count)).length + (2 + count)

theorem mqttPacketEncode_length_pos (n : Int) : 0 < (mqttPacketEncode n).length := by
  rw [mqttPacketEncode, mqttPacketEncodeLoop]
  split <;> simp

/-- A length that does not fit an `int` turns negative, and the field is then one byte. -/
theorem mqttPacketEncode_toInt_length_le {count : Int} (hlo : 0 ≤ count) (hhi : count < 2 ^ 31) :
    (mqttPacketEncode (toInt (2 + count))).length ≤ (mqttPacketEncode (2 + count)).length := by
  by_cases hfits : 2 + count < 2 ^ 31
  · obtain ⟨n, rfl⟩ := Int.eq_ofNat_of_zero_le hlo
    have hcast : (2 + (n : Int)) = ((2 + n : Nat) : Int) := by omega
    rw [hcast, toInt_of_lt (by omega)]
  · have hneg : toInt (2 + count) < 0 := by
      unfold toInt
      rw [Int.bmod_def]
      split <;> omega
    have hone : (mqttPacketEncode (toInt (2 + count))).length = 1 := by
      have hquot : 0 ≤ (-toInt (2 + count)).tdiv 128 := Int.tdiv_nonneg (by omega) (by decide)
      rw [Int.neg_tdiv] at hquot
      rw [mqttPacketEncode, mqttPacketEncodeLoop, if_neg (by omega)]
      rfl
    have hpos := mqttPacketEncode_length_pos (2 + count)
    omega

theorem mqttSerializeSuback_staysInside_iff {buflen count : Int} (packetid : UInt16)
    (grantedQoSs : Nat → Int) (hlo : 0 ≤ count) (hhi : count < 2 ^ 31) :
    (mqttSerializeSuback buflen packetid count grantedQoSs).StaysInside buflen
        (subackSize count) ↔
      buflen < toInt (2 + count) ∨ subackSize count ≤ buflen := by
  have hfield := mqttPacketEncode_toInt_length_le hlo hhi
  refine staysInside_iff ?_
  simp only [subackSize, List.length_append, List.length_cons, List.length_map, List.length_range,
    writeInt_length]
  omega

/-- The three replies stay inside their buffer exactly if it has room for the packet or is
shorter than the minimum it is compared with: `2` for a packet of four bytes, and two
more than the number of codes for a SUBACK. -/
theorem replies_stayInside_iff (buflen : Int) (packetid : UInt16) (connackRc sessionPresent : UInt8)
    (count : Int) (grantedQoSs : Nat → Int) (hlo : 0 ≤ count) (hhi : count < 2 ^ 31) :
    ((mqttSerializeConnack buflen connackRc sessionPresent).StaysInside buflen 4 ∧
      (mqttSerializeSuback buflen packetid count grantedQoSs).StaysInside buflen
        (subackSize count) ∧
      (mqttSerializeUnsuback buflen packetid).StaysInside buflen 4) ↔
    (buflen < 2 ∨ 4 ≤ buflen) ∧
      (buflen < toInt (2 + count) ∨ subackSize count ≤ buflen) := by
  have hconnack : (mqttSerializeConnack buflen connackRc sessionPresent).StaysInside buflen 4 ↔
      buflen < 2 ∨ 4 ≤ buflen := staysInside_iff (le_refl 4)
  have hunsuback : (mqttSerializeUnsuback buflen packetid).StaysInside buflen 4 ↔
      buflen < 2 ∨ 4 ≤ buflen := staysInside_iff (le_refl 4)
  rw [hconnack, hunsuback, mqttSerializeSuback_staysInside_iff packetid grantedQoSs hlo hhi]
  constructor
  · rintro ⟨hfour, hsuback, _⟩
    exact ⟨hfour, hsuback⟩
  · rintro ⟨hfour, hsuback⟩
    exact ⟨hfour, hsuback, hfour⟩

/-- A buffer of three bytes is overrun by each of them. -/
theorem replies_overrun_three :
    ¬ (mqttSerializeConnack 3 0 0).StaysInside 3 4 ∧
      ¬ (mqttSerializeSuback 3 1 1 fun _ => 0).StaysInside 3 (subackSize 1) ∧
      ¬ (mqttSerializeUnsuback 3 1).StaysInside 3 4 := by
  refine ⟨fun h => ?_, fun h => ?_, fun h => ?_⟩
  · exact absurd (h.1 3 (by decide)) (by decide)
  · exact absurd (h.1 3 (by decide)) (by decide)
  · exact absurd (h.1 3 (by decide)) (by decide)

/-- Buffers of six bytes have room for all three. -/
theorem replies_stayInside_six :
    (mqttSerializeConnack 6 0 1).StaysInside 6 4 ∧
      (mqttSerializeSuback 6 300 2 fun _ => 1).StaysInside 6 (subackSize 2) ∧
      (mqttSerializeUnsuback 6 300).StaysInside 6 4 :=
  (replies_stayInside_iff 6 300 0 1 2 (fun _ => 1) (by decide) (by decide)).mpr (by decide)

end MqttClient
