/-
# Three readers of one stream

`readPacket` and the two readers of `MQTTPacket.c` are three loops over one format.
Here they meet on the same stream of bytes, all of which can be read.  To say where
`readPacket` stops when they cannot, the transport may also fail from some byte on;
`readPacketResult` is what it returns then.

`MQTTPacket_readnb` refuses a length field that does not end within four bytes.  The
other two drop what their decoder reports and go on with the value decoded so far.
`readPacket` also computes the room in its buffer without a sign, and in a buffer
that is too small for header and length field there is then room for everything.
-/

import MqttClient.Packet.Read
import MqttClient.Client.Framing
import MqttClient.Tasks.MqttTask

namespace MqttClient

open Semantics Program

variable {σ H : Type}

/-! ## A transport that may fail -/

/-- The end `stop` of a read is not beyond the byte at which the transport fails. -/
def Before : (breakAt : Option Nat) → (stop : Nat) → Prop
  | none, _ => True
  | some k, stop => stop ≤ k

instance : (breakAt : Option Nat) → (stop : Nat) → Decidable (Before breakAt stop)
  | none, _ => .isTrue trivial
  | some k, stop => inferInstanceAs (Decidable (stop ≤ k))

/-- The platform hands out the stream in order.  A read that reaches beyond the byte
at which the transport fails returns -1, and what was read is not read again. -/
structure Serves (P : Platform σ) (stream : Memory) (breakAt : Option Nat)
    (position : σ → Nat) : Prop where
  read : ∀ {s : σ} {len : Nat} (timeoutMs : Int), Before breakAt (position s + len) →
    ∃ r s', P.mqttread s len timeoutMs = some (r, s') ∧ r.rc = len ∧
      r.stored = stream.load (position s) len ∧ position s' = position s + len
  fail : ∀ {s : σ} {len : Nat} (timeoutMs : Int), ¬ Before breakAt (position s + len) →
    ∃ r s', P.mqttread s len timeoutMs = some (r, s') ∧ r.rc = -1 ∧ position s ≤ position s'
  clock : ∀ s, position (P.gettimeofday s).2 = position s

/-- How many bytes of the length field can be read. -/
def fieldBytes : (breakAt : Option Nat) → Nat
  | none => 4
  | some k => min 4 (k - 1)

theorem fieldBytes_le (breakAt : Option Nat) : fieldBytes breakAt ≤ 4 := by
  cases breakAt with
  | none => exact Nat.le_refl 4
  | some k => exact Nat.min_le_left 4 (k - 1)

theorem before_mono {breakAt : Option Nat} {stop stop' : Nat} (h : Before breakAt stop)
    (hle : stop' ≤ stop) : Before breakAt stop' := by
  cases breakAt with
  | none => trivial
  | some k => exact Nat.le_trans hle h

/-- After the header byte, these bytes of the length field can be read and no more. -/
theorem fieldBytes_spec {breakAt : Option Nat} (h : Before breakAt 1) :
    (∀ i, i < fieldBytes breakAt → Before breakAt (1 + (i + 1))) ∧
      (fieldBytes breakAt < 4 → ¬ Before breakAt (1 + (fieldBytes breakAt + 1))) := by
  cases breakAt with
  | none => exact ⟨fun _ _ => trivial, fun hlt => absurd hlt (Nat.lt_irrefl 4)⟩
  | some k =>
      simp only [Before, fieldBytes] at h ⊢
      exact ⟨fun i hi => by omega, fun hlt => by omega⟩

/-- What step 3 of `readPacket` returns when a body of `n` bytes is announced and starts
at byte `start` of the stream. -/
def readBodyResult (breakAt : Option Nat) (header : UInt8) (readbufSize start n : Nat) : Int :=
  if toSizeT (readbufSize - headLength n) < n then bufferOverflow
  else if 0 < n ∧ ¬ Before breakAt (start + n) then 0
  else (MQTTHeader.ofByte header).type

/-- A body of `n` bytes from byte `start` of the stream on, if there is one, has room and
is there to be read. -/
def BodyArrives (breakAt : Option Nat) (readbufSize start n : Nat) : Prop :=
  ¬ toSizeT (readbufSize - headLength n) < n ∧ (0 < n → Before breakAt (start + n))

/-- What `readPacket` returns on this stream with a read buffer of this size. -/
def readPacketResult (stream : Memory) (breakAt : Option Nat) (readbufSize : Nat) : Int :=
  if Before breakAt 1 then
    let field := lengthField stream (fieldBytes breakAt) 1
    readBodyResult breakAt (stream 0) readbufSize (1 + field.length) (lengthValue field)
  else -1

/-- The clock always answers, so the end of `readPacket` returns the type. -/
theorem finishPacket_answers (P : Platform σ) (w : World σ H) :
    (finishPacket P).Returns w fun rc w' =>
      rc = (MQTTHeader.ofByte (w.client.readbuf 0)).type ∧
        w'.client.readbuf = w.client.readbuf := by
  apply returns_bind_of_eq_some (run_client w)
  split
  · exact ⟨_, _, rfl, rfl, rfl⟩
  · exact returns_pure ⟨rfl, rfl⟩

section Reading

variable {P : Platform σ} {stream : Memory} {breakAt : Option Nat} {position : σ → Nat}
  (hserves : Serves P stream breakAt position) {w : World σ H}

include hserves

theorem timerLeftMS_served (timer : Timer) :
    (timerLeftMS P timer).Returns w fun _ w' =>
      w'.client = w.client ∧ position w'.env = position w.env :=
  ⟨_, _, rfl, rfl, hserves.clock w.env⟩

theorem mqttread_served (len : Nat) (timeoutMs : Int)
    (hbefore : Before breakAt (position w.env + len)) :
    (mqttread P len timeoutMs).Returns w fun r w' =>
      r.rc = len ∧ r.stored = stream.load (position w.env) len ∧ w'.client = w.client ∧
        position w'.env = position w.env + len := by
  obtain ⟨r, env, hread, hrc, hstored, hposition⟩ := hserves.read timeoutMs hbefore
  refine ⟨r, { w with env, trace := w.trace ++ [.read ⟨len, r.rc, r.stored⟩] }, ?_, hrc, hstored,
    rfl, hposition⟩
  simp [mqttread, hread]

theorem mqttread_fails (len : Nat) (timeoutMs : Int)
    (hbeyond : ¬ Before breakAt (position w.env + len)) :
    (mqttread P len timeoutMs).Returns w fun r w' =>
      r.rc = -1 ∧ w'.client = w.client ∧ position w.env ≤ position w'.env := by
  obtain ⟨r, env, hread, hrc, hposition⟩ := hserves.fail timeoutMs hbeyond
  refine ⟨r, { w with env, trace := w.trace ++ [.read ⟨len, r.rc, r.stored⟩] }, ?_, hrc, rfl,
    hposition⟩
  simp [mqttread, hread]

theorem readInto_served (start len : Nat) (timeoutMs : Int)
    (hbefore : Before breakAt (position w.env + len)) :
    (readInto P start len timeoutMs).Returns w fun rc w' =>
      rc = len ∧ (w'.client = { w.client with
        readbuf := w.client.readbuf.store start (stream.load (position w.env) len) }) ∧
      position w'.env = position w.env + len := by
  apply (mqttread_served hserves len timeoutMs hbefore).bind
  rintro r w₁ ⟨hrc, hstored, hclient, hposition⟩
  refine ⟨_, _, rfl, hrc, ?_, hposition⟩
  show MQTTClient.mk _ _ _ _ _ _ _ _ _ _ _ _ _ _ = _
  rw [hclient, hstored]

theorem readInto_fails (start len : Nat) (timeoutMs : Int)
    (hbeyond : ¬ Before breakAt (position w.env + len)) :
    (readInto P start len timeoutMs).Returns w fun rc _ => rc = -1 := by
  apply (mqttread_fails hserves len timeoutMs hbeyond).bind
  rintro r w₁ ⟨hrc, _⟩
  exact ⟨_, _, rfl, hrc⟩

theorem networkChar_served (timeoutMs : Int) (hbefore : Before breakAt (position w.env + 1)) :
    (networkChar P timeoutMs).Returns w fun result w' =>
      result = (1, stream (position w.env)) ∧ w'.client = w.client ∧
        position w'.env = position w.env + 1 := by
  apply (mqttread_served hserves 1 timeoutMs hbefore).bind
  rintro r w₁ ⟨hrc, hstored, hclient, hposition⟩
  refine returns_pure ⟨?_, hclient, hposition⟩
  rw [hrc, hstored]
  rfl

theorem networkChar_fails (timeoutMs : Int) (hbeyond : ¬ Before breakAt (position w.env + 1)) :
    (networkChar P timeoutMs).Returns w fun result w' =>
      result.1 = -1 ∧ w'.client = w.client ∧ position w.env ≤ position w'.env := by
  apply (mqttread_fails hserves 1 timeoutMs hbeyond).bind
  rintro r w₁ hmid
  exact returns_pure hmid

/-- The length loop gets the bytes before the breakAt, and goes no further back. -/
theorem decodeLoop_served (timeoutMs : Int) :
    ∀ {left most len value multiplier : Nat} {w : World σ H},
      most ≤ left → (∀ i, i < most → Before breakAt (position w.env + (i + 1))) →
      (most < left → ¬ Before breakAt (position w.env + (most + 1))) →
      (decodeLoop (networkChar P timeoutMs) left len value multiplier).Returns w
        fun result w' =>
          result.2 = value + lengthValue (lengthField stream most (position w.env)) * multiplier ∧
          w'.client = w.client ∧
          position w.env + (lengthField stream most (position w.env)).length ≤ position w'.env ∧
          (most = left ∨ Terminates (lengthField stream most (position w.env)) →
            position w'.env =
              position w.env + (lengthField stream most (position w.env)).length) := by
  intro left
  induction left with
  | zero =>
      intro most len value multiplier w hmost _ _
      obtain rfl : most = 0 := by omega
      exact returns_pure ⟨by simp [lengthField, lengthValue], rfl, Nat.le_refl _, fun _ => rfl⟩
  | succ left ih =>
      intro most len value multiplier w hmost hbefore hbeyond
      cases most with
      | zero =>
          have hfails : ¬ Before breakAt (position w.env + 1) := hbeyond (Nat.succ_pos left)
          apply (networkChar_fails hserves timeoutMs hfails).bind
          rintro ⟨rc, c⟩ w₁ ⟨rfl, hclient, hposition⟩
          dsimp only
          rw [if_pos (by decide)]
          refine returns_pure ⟨by simp [lengthField, lengthValue], hclient, hposition, ?_⟩
          rintro (habsurd | hterm)
          · omega
          · exact hterm.elim
      | succ most =>
          have hserved := hbefore 0 (Nat.succ_pos most)
          apply (networkChar_served hserves timeoutMs hserved).bind
          rintro _ w₁ ⟨rfl, hclient, hposition⟩
          have hcont := and_128_ne_zero_iff (stream (position w.env))
          have hnext : ∀ i, position w₁.env + (i + 1) = position w.env + (i + 1 + 1) := by omega
          dsimp only
          rw [if_neg (by decide), toNat_and_127, lengthField]
          by_cases hlast : (stream (position w.env)).toNat < 128
          · rw [if_neg fun hne => absurd (hcont.mp hne) (by omega), if_pos hlast]
            refine returns_pure ⟨by simp [lengthValue], hclient, ?_, fun _ => hposition⟩
            exact Nat.le_of_eq hposition.symm
          · rw [if_pos (hcont.mpr (by omega)), if_neg hlast]
            apply (ih (w := w₁) (Nat.le_of_succ_le_succ hmost)
              (fun i hi => hnext i ▸ hbefore (i + 1) (by omega))
              (fun hlt => hnext most ▸ hbeyond (by omega))).mono
            rintro result w₂ ⟨hvalue, hclient', hle, heq⟩
            rw [hposition] at hvalue hle heq
            refine ⟨?_, hclient'.trans hclient, ?_, fun hend => ?_⟩
            · rw [hvalue, lengthValue]
              ring
            · rw [List.length_cons]
              omega
            · rw [List.length_cons, heq (hend.imp (by omega) ?_)]
              · omega
              · exact (terminates_cons_of_ge (by omega)).mp

/-- Step 3, with the header byte in the buffer and the next byte to read known. -/
theorem readBody_served (timer : Timer) (n : Nat) :
    (readBody P timer (headLength n) n).Returns w fun rc w' =>
      rc = readBodyResult breakAt (w.client.readbuf 0) w.client.readbufSize (position w.env) n ∧
        (BodyArrives breakAt w.client.readbufSize (position w.env) n →
          w'.client.readbuf =
            w.client.readbuf.store (headLength n) (stream.load (position w.env) n)) := by
  unfold readBodyResult
  apply returns_bind_of_eq_some (run_client w)
  split
  · rename_i hover
    exact returns_pure ⟨rfl, fun harrives => absurd hover harrives.1⟩
  · split
    · rename_i hpos
      apply (timerLeftMS_served hserves timer).bind
      rintro left w₁ ⟨hclient, hposition⟩
      by_cases hbefore : Before breakAt (position w.env + n)
      · rw [if_neg fun h => h.2 hbefore]
        apply (readInto_served hserves (headLength n) n left (hposition ▸ hbefore)).bind
        rintro rc w₂ ⟨rfl, hclient', _⟩
        rw [if_neg (not_not.mpr rfl)]
        apply (finishPacket_answers P w₂).mono
        rintro rc w₃ ⟨rfl, hkept⟩
        have hheader : w₂.client.readbuf 0 = w.client.readbuf 0 := by
          rw [hclient', hclient]
          exact store_apply_zero _ _ (by simp [headLength])
        exact ⟨by rw [hheader], fun _ => by rw [hkept, hclient', hclient, hposition]⟩
      · rw [if_pos ⟨hpos, hbefore⟩]
        apply (readInto_fails hserves (headLength n) n left (hposition ▸ hbefore)).bind
        rintro rc w₂ rfl
        rw [if_pos (by omega)]
        exact returns_pure ⟨rfl, fun harrives => absurd (harrives.2 hpos) hbefore⟩
    · rename_i hpos
      obtain rfl : n = 0 := Nat.eq_zero_of_not_pos hpos
      rw [if_neg fun h => hpos h.1, Memory.load_zero, Memory.store_nil]
      exact (finishPacket_answers P w).mono fun rc w' h => ⟨h.1, fun _ => h.2⟩

/-- The packet at the start of the stream stands in the buffer, if all of it arrives. -/
def StoresPacket (stream : Memory) (breakAt : Option Nat) (readbufSize : Nat)
    (readbuf : Memory) : Prop :=
  let field := lengthField stream (fieldBytes breakAt) 1
  Before breakAt 1 →
    BodyArrives breakAt readbufSize (1 + field.length) (lengthValue field) →
    HoldsFrame readbuf (stream 0) (stream.load (1 + field.length) (lengthValue field))

/-- Where the reading stands behind the length field.  If the field was cut off by the
failure, it may stand anywhere behind the bytes that arrived. -/
structure AfterField (stream : Memory) (breakAt : Option Nat) (p : Nat) : Prop where
  le : 1 + (lengthField stream (fieldBytes breakAt) 1).length ≤ p
  eq : fieldBytes breakAt = 4 ∨ Terminates (lengthField stream (fieldBytes breakAt) 1) →
    p = 1 + (lengthField stream (fieldBytes breakAt) 1).length

namespace AfterField

omit hserves

variable {p n : Nat} (h : AfterField stream breakAt p) (hheader : Before breakAt 1)

include h hheader

/-- If any byte behind the field can be read, the field was not cut off. -/
theorem eq_of_before {start : Nat}
    (hstart : 1 + (lengthField stream (fieldBytes breakAt) 1).length ≤ start) (hpos : 0 < n)
    (hbefore : Before breakAt (start + n)) :
    p = 1 + (lengthField stream (fieldBytes breakAt) 1).length := by
  refine h.eq (by_contra fun hend => ?_)
  obtain ⟨hfew, hterm⟩ := not_or.mp hend
  have hcut := lengthField_length_of_not_terminates stream hterm
  exact (fieldBytes_spec hheader).2 (Nat.lt_of_le_of_ne (fieldBytes_le breakAt) hfew)
    (before_mono hbefore (by omega))

/-- Whether a body can be read does not depend on it. -/
theorem before_iff (hpos : 0 < n) :
    Before breakAt (p + n) ↔
      Before breakAt (1 + (lengthField stream (fieldBytes breakAt) 1).length + n) := by
  constructor
  · exact fun hbefore => h.eq_of_before hheader h.le hpos hbefore ▸ hbefore
  · exact fun hbefore => (h.eq_of_before hheader (Nat.le_refl _) hpos hbefore).symm ▸ hbefore

theorem readBodyResult_eq (header : UInt8) (readbufSize : Nat) :
    readBodyResult breakAt header readbufSize p n =
      readBodyResult breakAt header readbufSize
        (1 + (lengthField stream (fieldBytes breakAt) 1).length) n :=
  if_congr Iff.rfl rfl
    (if_congr (and_congr_right fun hpos => not_congr (h.before_iff hheader hpos)) rfl rfl)

theorem bodyArrives_iff (readbufSize : Nat) :
    BodyArrives breakAt readbufSize p n ↔
      BodyArrives breakAt readbufSize (1 + (lengthField stream (fieldBytes breakAt) 1).length) n :=
  and_congr_right fun _ => forall_congr' fun hpos => h.before_iff hheader hpos

/-- A body that arrives stands directly behind the field. -/
theorem load_eq {readbufSize : Nat}
    (harrives : BodyArrives breakAt readbufSize
      (1 + (lengthField stream (fieldBytes breakAt) 1).length) n) :
    stream.load p n = stream.load (1 + (lengthField stream (fieldBytes breakAt) 1).length) n := by
  rcases Nat.eq_zero_or_pos n with hzero | hpos
  · rw [hzero, Memory.load_zero, Memory.load_zero]
  · rw [h.eq_of_before hheader (Nat.le_refl _) hpos (harrives.2 hpos)]

end AfterField

/-- Step 2: the length that is decoded, and where it leaves the reading. -/
theorem decodePacket_served (timeoutMs : Int) (hheader : Before breakAt 1)
    (hone : position w.env = 1) :
    (decodePacket P timeoutMs).Returns w fun result w' =>
      result.2 = lengthValue (lengthField stream (fieldBytes breakAt) 1) ∧
        w'.client = w.client ∧ AfterField stream breakAt (position w'.env) := by
  obtain ⟨hread, hstop⟩ := fieldBytes_spec hheader
  apply (decodeLoop_served hserves timeoutMs (fieldBytes_le breakAt) (hone ▸ hread)
    (hone ▸ hstop)).mono
  rintro ⟨count, n⟩ w' ⟨hvalue, hclient, hle, heq⟩
  rw [hone] at hvalue hle heq
  exact ⟨by simpa using hvalue, hclient, hle, heq⟩

/-- The three steps from the start of the stream. -/
theorem readPacketBody_served (timer : Timer) (hstart : position w.env = 0) :
    (readPacketBody P timer).Returns w fun rc w' =>
      rc = readPacketResult stream breakAt w.client.readbufSize ∧
        StoresPacket stream breakAt w.client.readbufSize w'.client.readbuf := by
  unfold readPacketBody readPacketResult
  apply (timerLeftMS_served hserves timer).bind
  rintro left w₁ ⟨hclient, hposition⟩
  rw [hstart] at hposition
  by_cases hheader : Before breakAt 1
  · rw [if_pos hheader]
    refine (readInto_served hserves 0 1 left (by rwa [hposition])).bind ?_
    rintro rc w₂ ⟨rfl, hclient₂, hposition₂⟩
    rw [if_neg (by decide)]
    apply (timerLeftMS_served hserves timer).bind
    rintro left' w₃ ⟨hclient₃, hposition₃⟩
    apply (decodePacket_served hserves left' hheader (by omega)).bind
    rintro ⟨count, n⟩ w₄ ⟨rfl, hclient₄, hafter⟩
    apply returns_bind_of_eq_some (run_modifyClient _ w₄)
    apply (readBody_served hserves timer _).mono
    rintro rc w₅ ⟨rfl, hbuf⟩
    have hsize : w₄.client.readbufSize = w.client.readbufSize := by
      rw [hclient₄, hclient₃, hclient₂, hclient]
    have hstored : w₄.client.readbuf = w.client.readbuf.store 0 [stream 0] := by
      rw [hclient₄, hclient₃, hclient₂, hposition, hclient]
      rfl
    refine ⟨?_, fun _ harrives => ?_⟩
    · have hbyte : w.client.readbuf.store 0 [stream 0] 0 = stream 0 := rfl
      simp only [World.update, hsize, store_apply_zero _ _ Nat.zero_lt_one, hstored, hbyte]
      exact hafter.readBodyResult_eq hheader (stream 0) w.client.readbufSize
    · have hlt : lengthValue (lengthField stream (fieldBytes breakAt) 1) < 268435456 :=
        lengthValue_lt_of_length_le
          ((lengthField_length_le stream _ 1).trans (fieldBytes_le breakAt))
      have hframe := HoldsFrame.of_stores w.client.readbuf (stream 0)
        (stream.load (1 + (lengthField stream (fieldBytes breakAt) 1).length)
          (lengthValue (lengthField stream (fieldBytes breakAt) 1))) (by rwa [Memory.load_length])
      rw [HoldsFrame.bodyStart, Memory.load_length] at hframe
      have harrives₄ := (hafter.bodyArrives_iff hheader w.client.readbufSize).mpr harrives
      rw [← hsize] at harrives₄
      rw [hbuf harrives₄, World.update, hafter.load_eq hheader harrives, hstored]
      exact hframe
  · rw [if_neg hheader]
    refine (readInto_fails hserves 0 1 left (by rwa [hposition])).bind ?_
    rintro rc w₂ rfl
    rw [if_pos (by decide)]
    exact returns_pure ⟨rfl, fun h => absurd h hheader⟩

/-- `readPacket` from the start of the stream: its result, and what it leaves in the
buffer. -/
theorem readPacket_served (timer : Timer) (hstart : position w.env = 0) :
    (readPacket P timer).Returns w fun rc w' =>
      rc = readPacketResult stream breakAt w.client.readbufSize ∧
        StoresPacket stream breakAt w.client.readbufSize w'.client.readbuf := by
  apply (readPacketBody_served hserves timer hstart).bind
  rintro rc w₁ ⟨rfl, hframe⟩
  exact ⟨_, _, rfl, rfl, hframe⟩

end Reading

/-! ## The three readers -/

/-- What is asked of the three results on a stream: a positive one means a length field
that ends in time, a field that does not end is an error for each of them, and they
accept the same frames. -/
structure ReadersAgree (stream : Memory) (rc rcRead rcReadnb : Int) : Prop where
  sound : ∀ r ∈ [rc, rcRead, rcReadnb], 0 < r → FieldEnds stream
  refuse : ¬ FieldEnds stream → ∀ r ∈ [rc, rcRead, rcReadnb], r < 0
  agree : (0 < rc ↔ 0 < rcRead) ∧ (0 < rcRead ↔ 0 < rcReadnb)

/-- The room that `readPacket` finds behind header and length field: in a buffer too
small for these two, any amount. -/
theorem toSizeT_room_lt_iff {size head n : Nat} (hsize : size < 2 ^ 31) (hhead : head ≤ 5)
    (hn : n < 268435456) : toSizeT (size - head) < n ↔ head ≤ size ∧ size < n + head := by
  unfold toSizeT
  omega

theorem headLength_le {n : Nat} (h : n < 268435456) : headLength n ≤ 5 := by
  have hfield := mqttPacketEncode_length_le h
  rw [headLength]
  omega

/-- `readPacket` on a stream that can be read to its end. -/
theorem readPacketResult_served (stream : Memory) (size : Nat) :
    readPacketResult stream none size =
      if toSizeT (size - headLength (announced stream)) < announced stream then bufferOverflow
      else (MQTTHeader.ofByte (stream 0)).type := by
  have hserved : ∀ stop, Before none stop := fun _ => trivial
  rw [readPacketResult, if_pos (hserved 1)]
  show readBodyResult none (stream 0) size _ (announced stream) = _
  rw [readBodyResult]
  exact if_congr Iff.rfl rfl (if_neg fun h => h.2 (hserved _))

theorem readPacketResult_none (stream : Memory) {size : Nat} (hsize : size < 2 ^ 31) :
    readPacketResult stream none size =
      if headLength (announced stream) ≤ size ∧
          size < announced stream + headLength (announced stream) then bufferOverflow
      else (MQTTHeader.ofByte (stream 0)).type := by
  have hlt := announced_lt stream
  rw [readPacketResult_served]
  exact if_congr (toSizeT_room_lt_iff hsize (headLength_le hlt) hlt) rfl rfl

/-- A stream on which they do: if the length field ends, the buffer has room for header
and field, or the packet has no type.  If it does not, there is that room, and the
length decoded so far exceeds the rest. -/
def ReadAlike (stream : Memory) (size : Nat) : Prop :=
  (FieldEnds stream → (MQTTHeader.ofByte (stream 0)).type = 0 ∨
    headLength (announced stream) ≤ size) ∧
  (¬ FieldEnds stream → headLength (announced stream) ≤ size ∧
    size < announced stream + headLength (announced stream))

/-- The comparison of the three results, for a packet of this type and length. -/
theorem readersAgree_iff {stream : Memory} (type n head size : Nat) :
    ReadersAgree stream (if head ≤ size ∧ size < n + head then bufferOverflow else type)
        (if (size : Int) < (n + head : Nat) then -1 else type)
        (if ¬ FieldEnds stream ∨ (size : Int) < (n + head : Nat) then -1 else type) ↔
      (FieldEnds stream → type = 0 ∨ head ≤ size) ∧
        (¬ FieldEnds stream → head ≤ size ∧ size < n + head) := by
  have hcast : (size : Int) < (n + head : Nat) ↔ size < n + head := Int.ofNat_lt
  have hneg : bufferOverflow < 0 := by decide
  simp only [hcast]
  by_cases hends : FieldEnds stream
  · simp only [hends, not_true_eq_false, false_or, false_implies, and_true, true_implies]
    constructor
    · intro hagree
      have hsame := hagree.agree.1
      split_ifs at hsame <;> omega
    · intro hroom
      refine ⟨fun _ _ _ => hends, fun h => absurd hends h, ?_, Iff.rfl⟩
      split_ifs <;> omega
  · simp only [hends, not_false_eq_true, true_or, if_true, false_implies, true_implies, true_and]
    constructor
    · intro hagree
      have hrefuse := hagree.refuse hends
      simp only [List.forall_mem_cons] at hrefuse
      obtain ⟨hpacket, hread, _⟩ := hrefuse
      split_ifs at hpacket hread <;> omega
    · intro hroom
      rw [if_pos hroom, if_pos hroom.2]
      refine ⟨?_, ?_, ?_⟩
      · simp
      · simp
      · simp

/-- On every stream that can be read to its end, these conditions say when the readers
agree. -/
theorem readers_agree_iff {P : Platform σ} {stream : Memory} {position : σ → Nat}
    (hserves : Serves P stream none position) (w : World σ H) (hstart : position w.env = 0)
    (hsize : w.client.readbufSize < 2 ^ 31) (timer : Timer) (buf : Memory) (trp : MQTTTransport)
    (hfresh : trp.state ≠ 1 ∧ trp.state ≠ 2) :
    (readPacket P timer).Returns w fun rc _ =>
      (ReadersAgree stream rc (readOn stream buf w.client.readbufSize)
          (readnbOn stream buf w.client.readbufSize trp) ↔
        ReadAlike stream w.client.readbufSize) := by
  apply (readPacket_served hserves timer hstart).mono
  rintro rc w' ⟨rfl, _⟩
  rw [readPacketResult_none stream hsize, readOn_eq, readnbOn_eq stream buf _ hfresh]
  exact readersAgree_iff _ _ _ _

/-! ## A platform that serves a stream -/

/-- Nothing but the stream: the clock stands still and every write is accepted. -/
def streamPlatform (stream : Memory) (breakAt : Option Nat) : Platform Nat where
  gettimeofday s := (⟨0, 0⟩, s)
  mqttread s len _ :=
    if Before breakAt (s + len) then
      some (⟨len, stream.load s len, by simp, by simp⟩, s + len)
    else some (⟨-1, [], by simp, by simp⟩, s)
  mqttwrite s offered _ := some (offered.length, s)
  cycleLocals s := (⟨⟨0, 0, 0, 0, .initializer, .null, 0⟩, ⟨0, 0, 0⟩⟩, s)

theorem streamPlatform_serves (stream : Memory) (breakAt : Option Nat) :
    Serves (streamPlatform stream breakAt) stream breakAt id where
  read _ hbefore := ⟨_, _, if_pos hbefore, rfl, rfl, rfl⟩
  fail _ hbeyond := ⟨_, _, if_neg hbeyond, rfl, Nat.le_refl _⟩
  clock _ := rfl

/-- A stream that starts with these bytes and goes on with zeros. -/
def streamOf (bytes : List UInt8) : Memory := fun i => bytes.getD i 0

/-- The start of a stream of bytes, in the buffer of the application's client. -/
def streamWorld : World Nat Unit := ⟨brokerClient, 0, []⟩

/-- A PINGRESP, on which all of them agree. -/
theorem readers_agree_iff_pingresp :
    (readPacket (streamPlatform (streamOf [0xD0, 0]) none) Timer.init).Returns streamWorld
      fun rc _ =>
        (ReadersAgree (streamOf [0xD0, 0]) rc (readOn (streamOf [0xD0, 0]) zeroBuffer 1024)
          (readnbOn (streamOf [0xD0, 0]) zeroBuffer 1024 ⟨0, 0, 0, 0⟩) ↔
            ReadAlike (streamOf [0xD0, 0]) 1024) :=
  readers_agree_iff (streamPlatform_serves (streamOf [0xD0, 0]) none) streamWorld rfl (by decide)
    Timer.init zeroBuffer ⟨0, 0, 0, 0⟩ (by decide)

/-- A CONNACK whose four length bytes all announce another one. -/
def unfinishedConnack : Memory := streamOf [0x20, 0x80, 0x80, 0x80, 0x80]

/-- `readPacket` and `MQTTPacket_read` accept it as a packet without a body. -/
theorem not_readersAgree_unfinishedConnack :
    (readPacket (streamPlatform unfinishedConnack none) Timer.init).Returns streamWorld
      fun rc _ =>
        rc = 2 ∧ readOn unfinishedConnack zeroBuffer 1024 = 2 ∧
        readnbOn unfinishedConnack zeroBuffer 1024 ⟨0, 0, 0, 0⟩ = -1 ∧
        ¬ ReadersAgree unfinishedConnack rc (readOn unfinishedConnack zeroBuffer 1024)
          (readnbOn unfinishedConnack zeroBuffer 1024 ⟨0, 0, 0, 0⟩) := by
  have hserves := streamPlatform_serves unfinishedConnack none
  apply (readPacket_served hserves Timer.init (w := streamWorld) rfl).mono
  rintro rc w' ⟨rfl, _⟩
  refine ⟨by decide, by decide, by decide, fun hagree => ?_⟩
  exact absurd (hagree.refuse (by decide) _ List.mem_cons_self) (by decide)

end MqttClient
