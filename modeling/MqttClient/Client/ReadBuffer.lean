/-
# The read buffer and its end

`readPacket` writes the length field back into the read buffer before it compares the
announced length with what is left of it, and a length that was cut off is used as far
as it was read.  Neither takes it past the end: the field has at most four bytes, and
the comparison is made with the value that is written.  What it reports as a packet
ends within the buffer.
-/

import MqttClient.Client.Readers

namespace MqttClient

open Semantics Program

variable {σ H : Type} {P : Platform σ}

/-- Nothing at or behind the end of the read buffer was changed. -/
structure KeepsEnd (w w' : World σ H) : Prop where
  size_eq : w'.client.readbufSize = w.client.readbufSize
  kept : ∀ i, w.client.readbufSize ≤ i → w'.client.readbuf i = w.client.readbuf i

namespace KeepsEnd

variable {w w' w'' : World σ H}

theorem trans (h : KeepsEnd w w') (h' : KeepsEnd w' w'') : KeepsEnd w w'' where
  size_eq := h'.size_eq.trans h.size_eq
  kept := fun i hi => (h'.kept i (h.size_eq ▸ hi)).trans (h.kept i hi)

theorem of_client_eq (h : w'.client = w.client) : KeepsEnd w w' :=
  ⟨by rw [h], fun i _ => by rw [h]⟩

/-- A run of bytes that ends within the buffer. -/
theorem of_store {start : Nat} {bytes : List UInt8}
    (h : w'.client = { w.client with readbuf := w.client.readbuf.store start bytes })
    (hend : start + bytes.length ≤ w.client.readbufSize) : KeepsEnd w w' where
  size_eq := by rw [h]
  kept := fun i hi => by
    rw [h]
    exact Memory.store_apply_of_ge _ (by omega)

end KeepsEnd

theorem finishPacket_keepsEnd {rc : Int} {w w' : World σ H}
    (h : (finishPacket P).run w = some (rc, w')) : KeepsEnd w w' := by
  obtain ⟨_, ⟨lastReceived, hclient⟩, _⟩ := finishPacket_cases h
  exact ⟨by rw [hclient], fun i _ => by rw [hclient]⟩

/-- A read of the network into the buffer stores at most what was asked for. -/
theorem readInto_keepsEnd {start len : Nat} {timeoutMs rc : Int} {w w' : World σ H}
    (hend : start + len ≤ w.client.readbufSize)
    (h : (readInto P start len timeoutMs).run w = some (rc, w')) : KeepsEnd w w' := by
  obtain ⟨r, _, hclient, _⟩ := readInto_cases h
  have hle := r.stored_le
  exact .of_store hclient (by omega)

/-- The body is read only if it ends within the buffer. -/
theorem readBody_keepsEnd {timer : Timer} {len n : Nat} {rc : Int} {w w' : World σ H}
    (hlen : len ≤ w.client.readbufSize)
    (h : (readBody P timer len n).run w = some (rc, w')) : KeepsEnd w w' := by
  obtain ⟨c, w₁, hclient, h⟩ := run_bind_eq_some.mp h
  cases hclient
  have hroom := toSizeT_le (i := (w.client.readbufSize : Int) - len) (by omega)
  split at h
  · obtain ⟨_, rfl⟩ := run_pure_eq_some.mp h
    exact .of_client_eq rfl
  · rename_i hfits
    split at h
    · obtain ⟨left, w₁, hleft, h⟩ := run_bind_eq_some.mp h
      obtain ⟨got, w₂, hread, h⟩ := run_bind_eq_some.mp h
      obtain ⟨hsame, _⟩ := Fetches.of_timerLeftMS hleft
      have hbody : KeepsEnd w₁ w₂ := readInto_keepsEnd (by rw [hsame]; omega) hread
      have hstart := (KeepsEnd.of_client_eq hsame).trans hbody
      split at h
      · obtain ⟨_, rfl⟩ := run_pure_eq_some.mp h
        exact hstart
      · exact hstart.trans (finishPacket_keepsEnd h)
    · exact finishPacket_keepsEnd h

theorem readPacket_keepsEnd {timer : Timer} {rc : Int} {w w' : World σ H}
    (hsize : 5 ≤ w.client.readbufSize) (h : (readPacket P timer).run w = some (rc, w')) :
    KeepsEnd w w' := by
  obtain ⟨rc', w₀, hbody, h⟩ := run_bind_eq_some.mp h
  obtain ⟨_, _, hlog, h⟩ := run_bind_eq_some.mp h
  cases hlog
  obtain ⟨_, rfl⟩ := run_pure_eq_some.mp h
  suffices hkeeps : KeepsEnd w w₀ from hkeeps.trans (.of_client_eq rfl)
  obtain ⟨left, w₁, hleft, hbody⟩ := run_bind_eq_some.mp hbody
  obtain ⟨got, w₂, hread, hbody⟩ := run_bind_eq_some.mp hbody
  obtain ⟨hsame, _⟩ := Fetches.of_timerLeftMS hleft
  have hheader : KeepsEnd w w₂ :=
    (KeepsEnd.of_client_eq hsame).trans (readInto_keepsEnd (by rw [hsame]; omega) hread)
  split at hbody
  · obtain ⟨_, rfl⟩ := run_pure_eq_some.mp hbody
    exact hheader
  · obtain ⟨left', w₃, hleft', hbody⟩ := run_bind_eq_some.mp hbody
    obtain ⟨⟨len, n⟩, w₄, hdecode, hbody⟩ := run_bind_eq_some.mp hbody
    obtain ⟨_, w₅, hfield, hbody⟩ := run_bind_eq_some.mp hbody
    obtain ⟨hsame', _⟩ := Fetches.of_timerLeftMS hleft'
    obtain ⟨field, cut, hlength, hvalue, hsame'', _⟩ := decodePacket_cases hdecode
    obtain rfl : n = lengthValue field := hvalue
    have hfour :=
      mqttPacketEncode_length_le (lengthValue_lt_of_length_le hlength.length_le)
    have hlengths : KeepsEnd w w₄ :=
      hheader.trans ((KeepsEnd.of_client_eq hsame').trans (.of_client_eq hsame''))
    have hsize₄ := hlengths.size_eq
    -- header and length field have at most five bytes
    have hstored : KeepsEnd w₄ w₅ := by
      cases hfield
      exact .of_store rfl (by omega)
    have hsize₅ := hstored.size_eq
    exact (hlengths.trans hstored).trans (readBody_keepsEnd (by omega) hbody)

/-- On a buffer of five bytes or more, `readPacket` stores only before its end, whatever
the network does.  When it reports a packet, the buffer starts with a frame, and the
end of the frame, as any decoder finds it, lies within the buffer. -/
theorem readPacket_staysInside {timer : Timer} {rc : Int} {w w' : World σ H}
    (hsize : 5 ≤ w.client.readbufSize) (h : (readPacket P timer).run w = some (rc, w')) :
    (∀ i, w.client.readbufSize ≤ i → w'.client.readbuf i = w.client.readbuf i) ∧
      (0 < rc → ∃ header body k, HoldsFrame w'.client.readbuf header body ∧
        rc = (MQTTHeader.ofByte header).type ∧
        mqttPacketDecodeBuf (w'.client.readbuf.shift 1) = (k, body.length) ∧
        1 + k + body.length ≤ w.client.readbufSize) := by
  have hkeeps := readPacket_keepsEnd hsize h
  refine ⟨hkeeps.kept, fun hpos => ?_⟩
  obtain ⟨reads, w₀, _, _, hrc | ⟨header, field, cut, body, hread⟩⟩ := readPacket_cases h
  · exact absurd hpos (Int.not_lt.mpr hrc)
  · have hfour := mqttPacketEncode_length_le hread.holds.length_lt
    have hfits := hread.fits
    have hsize' := hkeeps.size_eq
    have hroom := toSizeT_le (i := (w'.client.readbufSize : Int) - HoldsFrame.bodyStart body)
      (by rw [HoldsFrame.bodyStart]; omega)
    refine ⟨header, body, _, hread.holds, hread.rc_eq, hread.holds.decodeBuf, ?_⟩
    rw [HoldsFrame.bodyStart] at hfits hroom
    omega

/-- The client of the application, with a stream that starts with a SUBACK. -/
theorem readPacket_staysInside_suback :
    5 ≤ streamWorld.client.readbufSize ∧
      (readPacket (streamPlatform (streamOf [0x90, 3, 0, 1, 2]) none) Timer.init).Returns
        streamWorld fun rc w' =>
          0 < rc ∧ ∃ k n, mqttPacketDecodeBuf (w'.client.readbuf.shift 1) = (k, n) ∧
            1 + k + n ≤ streamWorld.client.readbufSize := by
  have hserves := streamPlatform_serves (streamOf [0x90, 3, 0, 1, 2]) none
  have hsize : 5 ≤ streamWorld.client.readbufSize := by decide
  obtain ⟨rc, w', hrun, hrc, _⟩ := readPacket_served hserves Timer.init (w := streamWorld) rfl
  have hpos : 0 < rc := by
    rw [hrc]
    decide
  obtain ⟨header, body, k, _, _, hdecode, hle⟩ := (readPacket_staysInside hsize hrun).2 hpos
  exact ⟨hsize, rc, w', hrun, hpos, k, body.length, hdecode, hle⟩

end MqttClient
