/-
# Frame readers over a callback

`MQTTPacket_read` and `MQTTPacket_readnb` of `MQTTPacket.c`.  Both take the bytes
from a callback, here a program in an arbitrary monad that reports its return value
and the bytes it stored.  The second one may be called again: what it knows of an
unfinished frame is kept in an `MQTTTransport`.

On a callback that supplies every byte asked for, each of them computes a function
of the stream.  `lengthField` is the length field as any of the decoders takes it
off the stream: up to its end, or four bytes of it.
-/

import MqttClient.Packet.RemainingLength

namespace MqttClient

open Semantics

/-- `MQTTPACKET_READ_ERROR`. -/
def mqttPacketReadError : Int := -1

/-! ## The readers -/

section Readers

variable {m : Type → Type} [Monad m] (getfn : Nat → m (Int × List UInt8))

/-- The callback asked for a single byte. -/
def getchar : m (Int × UInt8) := do
  let (rc, bytes) ← getfn 1
  pure (rc, bytes.headD 0)

/-- `MQTTPacket_read`: the return value and the buffer. -/
def mqttPacketRead (buf : Memory) (buflen : Int) : m (Int × Memory) := do
  -- 1. read the header byte
  let (got, bytes) ← getfn 1
  let buf := buf.store 0 bytes
  if got ≠ 1 then pure (-1, buf)
  else do
    -- 2. read the remaining length; what `MQTTPacket_decode` returns is dropped
    let (_, remLen) ← mqttPacketDecode (getchar getfn)
    let field := mqttPacketEncode remLen
    let buf := buf.store 1 field
    let len := 1 + field.length
    -- 3. read the rest
    if buflen < (remLen + len : Nat) then pure (-1, buf)
    else if remLen ≠ 0 then do
      let (got, bytes) ← getfn remLen
      let buf := buf.store len bytes
      if got ≠ remLen then pure (-1, buf)
      else pure ((MQTTHeader.ofByte (buf 0)).type, buf)
    else pure ((MQTTHeader.ofByte (buf 0)).type, buf)

/-- `MQTTTransport`, without its callback. -/
structure MQTTTransport where
  multiplier : Nat
  remLen : Int
  len : Int
  state : Int
  deriving DecidableEq, Repr

/-- What `MQTTPacket_decodenb` does with a byte it got. -/
def MQTTTransport.accept (trp : MQTTTransport) (c : UInt8) : MQTTTransport :=
  { trp with
    len := trp.len + 1
    remLen := trp.remLen + (c &&& 127).toNat * trp.multiplier
    multiplier := trp.multiplier * 128 }

/-- The `do` loop of `MQTTPacket_decodenb`, with the number of bytes still allowed. -/
def decodenbLoop : Nat → MQTTTransport → m (Int × MQTTTransport)
  | 0, trp => pure (mqttPacketReadError, trp)
  | left + 1, trp => do
      let (frc, c) ← getchar getfn
      if frc = -1 then pure (mqttPacketReadError, trp)
      else if frc = 0 then pure (0, trp)
      else if c &&& 128 ≠ 0 then decodenbLoop left (trp.accept c)
      else pure ((trp.accept c).len, trp.accept c)

/-- `MQTTPacket_decodenb`. -/
def mqttPacketDecodenb (trp : MQTTTransport) : m (Int × MQTTTransport) :=
  let trp := if trp.len = 0 then { trp with multiplier := 1, remLen := 0 } else trp
  decodenbLoop getfn (maxNoOfRemainingLengthBytes - trp.len).toNat trp

/-- Case 2 of `MQTTPacket_readnb`: the body. -/
def readnbBody (buf : Memory) (trp : MQTTTransport) : m (Int × Memory × MQTTTransport) :=
  if trp.remLen ≠ 0 then do
    let (frc, bytes) ← getfn trp.remLen.toNat
    let buf := buf.store trp.len.toNat bytes
    if frc = -1 then pure (-1, buf, { trp with state := 0 })
    else if frc = 0 then pure (0, buf, trp)
    else
      let trp := { trp with remLen := trp.remLen - frc, len := trp.len + frc }
      if trp.remLen ≠ 0 then pure (0, buf, trp)
      else pure ((MQTTHeader.ofByte (buf 0)).type, buf, { trp with state := 0 })
  else pure ((MQTTHeader.ofByte (buf 0)).type, buf, { trp with state := 0 })

/-- Case 1: the remaining length, and on to the body. -/
def readnbLength (buf : Memory) (buflen : Int) (trp : MQTTTransport) :
    m (Int × Memory × MQTTTransport) := do
  let (frc, trp) ← mqttPacketDecodenb getfn trp
  if frc = mqttPacketReadError then pure (-1, buf, { trp with state := 0 })
  else if frc = 0 then pure (0, buf, trp)
  else
    let field := mqttPacketEncode trp.remLen
    let buf := buf.store 1 field
    let trp := { trp with len := 1 + field.length }
    if buflen < trp.remLen + trp.len then pure (-1, buf, { trp with state := 0 })
    else readnbBody getfn buf { trp with state := trp.state + 1 }

/-- Case 0: the header byte, and on to the remaining length. -/
def readnbHeader (buf : Memory) (buflen : Int) (trp : MQTTTransport) :
    m (Int × Memory × MQTTTransport) := do
  let (frc, bytes) ← getfn 1
  let buf := buf.store 0 bytes
  if frc = -1 then pure (-1, buf, { trp with state := 0 })
  else if frc = 0 then pure (0, buf, trp)
  else readnbLength getfn buf buflen { trp with len := 0, state := trp.state + 1 }

/-- `MQTTPacket_readnb`: the return value, the buffer and the transport. -/
def mqttPacketReadnb (buf : Memory) (buflen : Int) (trp : MQTTTransport) :
    m (Int × Memory × MQTTTransport) :=
  if trp.state = 1 then readnbLength getfn buf buflen trp
  else if trp.state = 2 then readnbBody getfn buf trp
  else readnbHeader getfn buf buflen { trp with state := 0 }

end Readers

/-! ## What a transport has taken of the length field -/

namespace MQTTTransport

/-- What `MQTTPacket_decodenb` does with several bytes. -/
def acceptAll (trp : MQTTTransport) (bytes : List UInt8) : MQTTTransport := bytes.foldl accept trp

theorem acceptAll_append (trp : MQTTTransport) (first rest : List UInt8) :
    (trp.acceptAll first).acceptAll rest = trp.acceptAll (first ++ rest) :=
  List.foldl_append.symm

theorem acceptAll_state (bytes : List UInt8) :
    ∀ trp : MQTTTransport, (trp.acceptAll bytes).state = trp.state := by
  induction bytes with
  | nil => exact fun trp => rfl
  | cons b bytes ih => exact fun trp => ih (trp.accept b)

theorem acceptAll_len (bytes : List UInt8) :
    ∀ trp : MQTTTransport, (trp.acceptAll bytes).len = trp.len + bytes.length := by
  induction bytes with
  | nil => exact fun trp => (Int.add_zero trp.len).symm
  | cons b bytes ih =>
      intro trp
      show ((trp.accept b).acceptAll bytes).len = _
      rw [ih, List.length_cons]
      show trp.len + 1 + _ = _
      omega

theorem acceptAll_remLen (bytes : List UInt8) :
    ∀ trp : MQTTTransport, (trp.acceptAll bytes).remLen =
      trp.remLen + lengthValue bytes * trp.multiplier := by
  induction bytes with
  | nil => simp [acceptAll, lengthValue]
  | cons b bytes ih =>
      intro trp
      show ((trp.accept b).acceptAll bytes).remLen = _
      rw [ih, lengthValue]
      simp only [accept, toNat_and_127]
      push_cast
      ring

end MQTTTransport

/-- The transport as a call of `MQTTPacket_decodenb` finds it: initialised on the first. -/
def MQTTTransport.begun (trp : MQTTTransport) : MQTTTransport :=
  if trp.len = 0 then { trp with multiplier := 1, remLen := 0 } else trp

theorem mqttPacketDecodenb_eq {m : Type → Type} [Monad m] (getfn : Nat → m (Int × List UInt8))
    (trp : MQTTTransport) : mqttPacketDecodenb getfn trp =
      decodenbLoop getfn (maxNoOfRemainingLengthBytes - trp.begun.len).toNat trp.begun :=
  rfl

theorem MQTTTransport.begun_len (trp : MQTTTransport) : trp.begun.len = trp.len := by
  unfold begun
  split <;> rfl

/-- Initialising does nothing to a transport that has been initialised, with or without
bytes accepted since. -/
theorem MQTTTransport.begun_acceptAll {trp : MQTTTransport} (hlen : 0 ≤ trp.len)
    (bytes : List UInt8) : (trp.begun.acceptAll bytes).begun = trp.begun.acceptAll bytes := by
  cases bytes with
  | nil =>
      by_cases hzero : trp.len = 0
      · simp [acceptAll, begun, hzero]
      · simp [acceptAll, begun, hzero]
  | cons b bytes =>
      have haccepted := acceptAll_len (b :: bytes) trp.begun
      rw [begun_len, List.length_cons] at haccepted
      exact if_neg (by omega)

/-! ## The length field on a stream -/

/-- The bytes of a length field that starts at `ptr`: up to the first one without a
continuation bit, and at most `left`. -/
def lengthField (stream : Memory) : (left ptr : Nat) → List UInt8
  | 0, _ => []
  | left + 1, ptr =>
      if (stream ptr).toNat < 128 then [stream ptr]
      else stream ptr :: lengthField stream left (ptr + 1)

theorem lengthField_length_le (stream : Memory) :
    ∀ left ptr, (lengthField stream left ptr).length ≤ left
  | 0, _ => Nat.le_refl 0
  | left + 1, ptr => by
      have ih := lengthField_length_le stream left (ptr + 1)
      unfold lengthField
      split
      · exact Nat.succ_le_succ (Nat.zero_le left)
      · exact Nat.succ_le_succ ih

/-- The field stands where it was taken from. -/
theorem lengthField_hasAt (stream : Memory) :
    ∀ left ptr, stream.HasAt ptr (lengthField stream left ptr)
  | 0, ptr => Memory.hasAt_nil stream ptr
  | left + 1, ptr => by
      unfold lengthField
      split
      · exact Memory.hasAt_cons.mpr ⟨rfl, Memory.hasAt_nil stream _⟩
      · exact Memory.hasAt_cons.mpr ⟨rfl, lengthField_hasAt stream left (ptr + 1)⟩

/-- A field that does not end has all the bytes that were allowed. -/
theorem lengthField_length_of_not_terminates (stream : Memory) :
    ∀ {left ptr}, ¬ Terminates (lengthField stream left ptr) →
      (lengthField stream left ptr).length = left
  | 0, _, _ => rfl
  | left + 1, ptr, hterm => by
      rw [lengthField] at hterm ⊢
      by_cases hlast : (stream ptr).toNat < 128
      · rw [if_pos hlast] at hterm
        exact absurd ((terminates_cons_of_lt hlast).mpr rfl) hterm
      · rw [if_neg hlast, terminates_cons_of_ge (by omega)] at hterm
        rw [if_neg hlast, List.length_cons, lengthField_length_of_not_terminates stream hterm]

/-- A field that ends within the bytes allowed is the same with more of them allowed. -/
theorem lengthField_eq_of_terminates (stream : Memory) :
    ∀ {left more ptr : Nat}, left ≤ more → Terminates (lengthField stream left ptr) →
      lengthField stream more ptr = lengthField stream left ptr
  | 0, _, _, _, hterm => hterm.elim
  | _ + 1, 0, _, hle, _ => absurd hle (by omega)
  | left + 1, more + 1, ptr, hle, hterm => by
      rw [lengthField] at hterm ⊢
      rw [lengthField]
      by_cases hlast : (stream ptr).toNat < 128
      · rw [if_pos hlast, if_pos hlast]
      · rw [if_neg hlast] at hterm
        rw [if_neg hlast, if_neg hlast, lengthField_eq_of_terminates stream (by omega)
          ((terminates_cons_of_ge (by omega)).mp hterm)]

/-- The field ends exactly if one of the bytes allowed has no continuation bit. -/
theorem terminates_lengthField_iff (stream : Memory) :
    ∀ left ptr, Terminates (lengthField stream left ptr) ↔
      ∃ i, i < left ∧ (stream (ptr + i)).toNat < 128
  | 0, ptr => ⟨False.elim, fun ⟨i, hi, _⟩ => absurd hi (Nat.not_lt_zero i)⟩
  | left + 1, ptr => by
      rw [lengthField]
      by_cases hlast : (stream ptr).toNat < 128
      · rw [if_pos hlast]
        exact ⟨fun _ => ⟨0, Nat.succ_pos left, hlast⟩,
          fun _ => (terminates_cons_of_lt hlast).mpr rfl⟩
      · rw [if_neg hlast, terminates_cons_of_ge (by omega), terminates_lengthField_iff stream left]
        constructor
        · rintro ⟨i, hi, hend⟩
          exact ⟨i + 1, by omega, by rwa [Nat.add_comm i 1, ← Nat.add_assoc]⟩
        · rintro ⟨i, hi, hend⟩
          cases i with
          | zero => exact absurd hend hlast
          | succ i => exact ⟨i, by omega, by rwa [Nat.add_assoc, Nat.add_comm 1 i]⟩

/-- A callback that always supplies the next bytes of the stream. -/
def streamGet (stream : Memory) (len : Nat) : StateM Nat (Int × List UInt8) :=
  fun ptr => ((len, stream.load ptr len), ptr + len)

/-- A single byte of the stream is what `bufchar` gets. -/
theorem getchar_streamGet (stream : Memory) : getchar (streamGet stream) = bufchar stream := rfl

/-- The loop of `MQTTPacket_decode` takes the field, finished or not. -/
theorem decodeLoop_lengthField (stream : Memory) :
    ∀ left len value multiplier ptr,
      ∃ count, (decodeLoop (bufchar stream) left len value multiplier).run ptr =
        ((count, value + lengthValue (lengthField stream left ptr) * multiplier),
          ptr + (lengthField stream left ptr).length) := by
  intro left
  induction left with
  | zero =>
      intro len value multiplier ptr
      refine ⟨len + 1, ?_⟩
      simp only [lengthField, lengthValue, Nat.zero_mul, Nat.add_zero, List.length_nil]
      rfl
  | succ left ih =>
      intro len value multiplier ptr
      have hcont := and_128_ne_zero_iff (stream ptr)
      rw [decodeLoop_bufchar_succ, lengthField, toNat_and_127]
      by_cases hlast : (stream ptr).toNat < 128
      · rw [if_neg (fun hne => absurd (hcont.mp hne) (by omega)), if_pos hlast]
        exact ⟨len + 1, by simp [lengthValue]⟩
      · rw [if_pos (hcont.mpr (by omega)), if_neg hlast]
        obtain ⟨count, hrest⟩ := ih (len + 1) (value + (stream ptr).toNat % 128 * multiplier)
          (multiplier * 128) (ptr + 1)
        refine ⟨count, ?_⟩
        rw [hrest, lengthValue, List.length_cons]
        refine Prod.ext (Prod.ext rfl ?_) ?_
        · show value + _ * multiplier + _ * (multiplier * 128) = _
          ring
        · show ptr + 1 + _ = ptr + (_ + 1)
          ring

/-- The length announced on the stream after the header byte. -/
def announced (stream : Memory) : Nat := lengthValue (lengthField stream 4 1)

/-- Header byte and length field, written in the shortest way. -/
def headLength (n : Nat) : Nat := 1 + (mqttPacketEncode n).length

/-- The length field on the stream ends within four bytes. -/
def FieldEnds (stream : Memory) : Prop := ∃ i, i < 4 ∧ (stream (1 + i)).toNat < 128

instance (stream : Memory) : Decidable (FieldEnds stream) :=
  decidable_of_iff _ (terminates_lengthField_iff stream 4 1)

theorem announced_lt (stream : Memory) : announced stream < 268435456 :=
  lengthValue_lt_of_length_le (lengthField_length_le stream 4 1)

/-- The header byte stays in place when the rest is stored behind it. -/
theorem store_apply_zero (buf : Memory) (bytes : List UInt8) {start : Nat} (h : 0 < start) :
    buf.store start bytes 0 = buf 0 := by
  simp [Memory.store, h]

/-- What `MQTTPacket_read` returns at the start of the stream. -/
def readOn (stream buf : Memory) (buflen : Int) : Int :=
  ((mqttPacketRead (streamGet stream) buf buflen).run 0).1.1

/-- What `MQTTPacket_readnb` returns at the start of the stream. -/
def readnbOn (stream buf : Memory) (buflen : Int) (trp : MQTTTransport) : Int :=
  ((mqttPacketReadnb (streamGet stream) buf buflen trp).run 0).1.1

/-- A first step whose result is known is skipped. -/
theorem stateM_run_bind {S α β : Type} {x : StateM S α} {f : α → StateM S β} {s s' : S} {a : α}
    (h : x.run s = (a, s')) : (x >>= f).run s = (f a).run s' := by
  rw [StateT.run_bind, h]
  rfl

theorem run_streamGet (stream : Memory) (len ptr : Nat) :
    (streamGet stream len).run ptr = (((len : Int), stream.load ptr len), ptr + len) := rfl

/-- `MQTTPacket_read` refuses what does not fit, and nothing else. -/
theorem readOn_eq (stream buf : Memory) (buflen : Int) :
    readOn stream buf buflen =
      if buflen < (announced stream + headLength (announced stream) : Nat) then -1
      else ((MQTTHeader.ofByte (stream 0)).type : Int) := by
  obtain ⟨count, hdecode⟩ := decodeLoop_lengthField stream 4 0 0 1 1
  rw [Nat.zero_add, Nat.mul_one] at hdecode
  rw [readOn, mqttPacketRead, stateM_run_bind (run_streamGet stream 1 0)]
  dsimp only
  rw [if_neg (by decide), getchar_streamGet, mqttPacketDecode, maxNoOfRemainingLengthBytes,
    stateM_run_bind hdecode]
  dsimp only
  rw [← announced, ← headLength]
  split
  · rfl
  · split
    · rw [stateM_run_bind (run_streamGet stream (announced stream) _)]
      dsimp only
      rw [if_neg (not_not.mpr rfl)]
      show ((MQTTHeader.ofByte _).type : Int) = _
      rw [store_apply_zero _ _ (by simp [headLength])]
      rfl
    · rfl

/-- One step of the loop of `MQTTPacket_decodenb`. -/
theorem decodenbLoop_streamGet_succ (stream : Memory) (left : Nat) (trp : MQTTTransport)
    (ptr : Nat) :
    (decodenbLoop (streamGet stream) (left + 1) trp).run ptr =
      if (stream ptr).toNat < 128 then
        ((trp.len + 1, trp.accept (stream ptr)), ptr + 1)
      else (decodenbLoop (streamGet stream) left (trp.accept (stream ptr))).run (ptr + 1) := by
  have hcont := and_128_ne_zero_iff (stream ptr)
  have hchar : (getchar (streamGet stream)).run ptr = ((1, stream ptr), ptr + 1) := rfl
  rw [decodenbLoop, stateM_run_bind hchar]
  dsimp only
  by_cases hlast : (stream ptr).toNat < 128
  · rw [if_pos hlast, if_neg (by decide : ¬ (1 : Int) = -1), if_neg (by decide : ¬ (1 : Int) = 0),
      if_neg fun hne => absurd (hcont.mp hne) (by omega)]
    rfl
  · rw [if_neg hlast, if_neg (by decide : ¬ (1 : Int) = -1), if_neg (by decide : ¬ (1 : Int) = 0),
      if_pos (hcont.mpr (by omega))]

/-- The loop takes the field, and reports a field that does not end. -/
theorem decodenbLoop_streamGet (stream : Memory) :
    ∀ left trp ptr, ∃ trp' : MQTTTransport, trp'.state = trp.state ∧
      trp'.remLen = trp.remLen + lengthValue (lengthField stream left ptr) * trp.multiplier ∧
      (decodenbLoop (streamGet stream) left trp).run ptr =
        ((if Terminates (lengthField stream left ptr) then
            trp.len + (lengthField stream left ptr).length else mqttPacketReadError, trp'),
          ptr + (lengthField stream left ptr).length) := by
  intro left
  induction left with
  | zero =>
      intro trp ptr
      exact ⟨trp, rfl, by simp [lengthField, lengthValue], rfl⟩
  | succ left ih =>
      intro trp ptr
      rw [decodenbLoop_streamGet_succ, lengthField]
      by_cases hlast : (stream ptr).toNat < 128
      · rw [if_pos hlast, if_pos hlast, if_pos ((terminates_cons_of_lt hlast).mpr rfl)]
        refine ⟨trp.accept (stream ptr), rfl, ?_, rfl⟩
        simp only [MQTTTransport.accept, lengthValue, toNat_and_127, Nat.mul_zero, Nat.add_zero]
      · rw [if_neg hlast, if_neg hlast]
        obtain ⟨trp', hstate, hvalue, hrun⟩ := ih (trp.accept (stream ptr)) (ptr + 1)
        have hterm : Terminates (stream ptr :: lengthField stream left (ptr + 1)) ↔
            Terminates (lengthField stream left (ptr + 1)) :=
          terminates_cons_of_ge (by omega)
        refine ⟨trp', hstate, ?_, ?_⟩
        · rw [hvalue, lengthValue]
          simp only [MQTTTransport.accept, toNat_and_127]
          push_cast
          ring
        · rw [hrun, List.length_cons]
          refine Prod.ext (Prod.ext ?_ rfl) ?_
          · refine if_congr hterm.symm ?_ rfl
            simp only [MQTTTransport.accept]
            omega
          · show ptr + 1 + _ = ptr + (_ + 1)
            ring

/-- The body is supplied in one piece, so case 2 ends with the packet's type. -/
theorem readnbBody_streamGet (stream buf : Memory) (trp : MQTTTransport) {n : Nat}
    (hremLen : trp.remLen = n) (hlen : 0 < trp.len) (ptr : Nat) :
    ((readnbBody (streamGet stream) buf trp).run ptr).1.1 =
      ((MQTTHeader.ofByte (buf 0)).type : Int) := by
  unfold readnbBody
  split
  · rename_i hne
    rw [hremLen, Int.toNat_natCast, stateM_run_bind (run_streamGet stream n ptr)]
    dsimp only
    rw [if_neg (by omega), if_neg (by omega), if_neg (by omega)]
    show ((MQTTHeader.ofByte _).type : Int) = _
    rw [store_apply_zero _ _ (by omega)]
  · rfl

/-- Case 1 with nothing of the length field read yet. -/
theorem readnbLength_streamGet (stream buf : Memory) (buflen : Int) {trp : MQTTTransport}
    (hlen : trp.len = 0) :
    ((readnbLength (streamGet stream) buf buflen trp).run 1).1.1 =
      if ¬ FieldEnds stream ∨
          buflen < (announced stream + headLength (announced stream) : Nat) then -1
      else ((MQTTHeader.ofByte (buf 0)).type : Int) := by
  have hends := terminates_lengthField_iff stream 4 1
  obtain ⟨trp', hstate, hvalue, hrun⟩ := decodenbLoop_streamGet stream 4
    { trp with multiplier := 1, remLen := 0 } 1
  have hremLen : trp'.remLen = announced stream := by simpa [announced] using hvalue
  have hdecode : (mqttPacketDecodenb (streamGet stream) trp).run 1 =
      ((if Terminates (lengthField stream 4 1) then ((lengthField stream 4 1).length : Int)
        else mqttPacketReadError, trp'), 1 + (lengthField stream 4 1).length) := by
    rw [mqttPacketDecodenb, if_pos hlen]
    simp only [hlen, Int.zero_add] at hrun ⊢
    exact hrun
  rw [readnbLength, stateM_run_bind hdecode]
  dsimp only
  by_cases hterm : Terminates (lengthField stream 4 1)
  · have hpos := hterm.length_pos
    have hhead : trp'.remLen + (1 + ((mqttPacketEncode trp'.remLen).length : Int)) =
        (announced stream + headLength (announced stream) : Nat) := by
      rw [hremLen, headLength]
      push_cast
      rfl
    rw [if_pos hterm, if_neg (by rw [mqttPacketReadError]; omega), if_neg (by omega), hhead]
    by_cases hfits : buflen < (announced stream + headLength (announced stream) : Nat)
    · rw [if_pos hfits, if_pos (.inr hfits)]
      rfl
    · rw [if_neg hfits, if_neg (fun h => h.elim (fun h => h (hends.mp hterm)) hfits)]
      have hbody := readnbBody_streamGet stream (buf.store 1 (mqttPacketEncode trp'.remLen))
        { trp' with len := 1 + (mqttPacketEncode trp'.remLen).length, state := trp'.state + 1 }
        hremLen (by dsimp only; omega) (1 + (lengthField stream 4 1).length)
      rw [hbody, store_apply_zero _ _ (by decide)]
  · rw [if_neg hterm, if_pos rfl, if_pos (.inl (hends.not.mp hterm))]
    rfl

/-- `MQTTPacket_readnb` at the start of a frame refuses what does not fit and what does
not end. -/
theorem readnbOn_eq (stream buf : Memory) (buflen : Int) {trp : MQTTTransport}
    (hfresh : trp.state ≠ 1 ∧ trp.state ≠ 2) :
    readnbOn stream buf buflen trp =
      if ¬ FieldEnds stream ∨
          buflen < (announced stream + headLength (announced stream) : Nat) then -1
      else ((MQTTHeader.ofByte (stream 0)).type : Int) := by
  rw [readnbOn, mqttPacketReadnb, if_neg hfresh.1, if_neg hfresh.2, readnbHeader,
    stateM_run_bind (run_streamGet stream 1 0)]
  dsimp only
  rw [if_neg (by decide), if_neg (by decide)]
  exact readnbLength_streamGet stream _ buflen rfl

/-! ## A transport that pauses -/

/-- One call of `MQTTPacket_decodenb` on a transport that at every byte pauses or supplies
it takes the rest of the field, or a part of it up to the next pause.  `Supplied` and
`Paused` are what can be said about the state with and without the rest. -/
theorem decodenbLoop_field {S : Type} {getfn : Nat → StateM S (Int × List UInt8)} {pos : S → Nat}
    {stream : Memory} {Supplied Paused : S → S → Prop}
    (hchar : ∀ s, (∃ s', (getchar getfn).run s = ((0, 0), s') ∧ pos s' = pos s ∧ Paused s s') ∨
      ∃ s', (getchar getfn).run s = ((1, stream (pos s)), s') ∧ pos s' = pos s + 1 ∧
        Supplied s s')
    (hsupplies : ∀ {s s₁ s₂}, Supplied s s₁ → Supplied s₁ s₂ → Supplied s s₂)
    (hpauses : ∀ {s s₁ s₂}, Supplied s s₁ → Paused s₁ s₂ → Paused s s₂) (field : List UInt8) :
    ∀ {left : Nat} (trp : MQTTTransport) (s : S), Terminates field → field.length ≤ left →
      stream.HasAt (pos s) field →
      (∃ s', (decodenbLoop getfn left trp).run s =
          (((trp.acceptAll field).len, trp.acceptAll field), s') ∧
          pos s' = pos s + field.length ∧ Supplied s s') ∨
      ∃ taken rest s', field = taken ++ rest ∧ Terminates rest ∧
        (decodenbLoop getfn left trp).run s = ((0, trp.acceptAll taken), s') ∧
        pos s' = pos s + taken.length ∧ Paused s s' := by
  induction field with
  | nil =>
      intro left trp s hterm
      exact hterm.elim
  | cons b rest ih =>
      intro left trp s hterm hleft hat
      obtain ⟨left, rfl⟩ : ∃ k, left = k + 1 := ⟨left - 1, by simp at hleft; omega⟩
      obtain ⟨rfl, hrest⟩ := Memory.hasAt_cons.mp hat
      have hcont := and_128_ne_zero_iff (stream (pos s))
      rw [decodenbLoop]
      obtain ⟨s₁, hrun₁, hpos, hpaused⟩ | ⟨s₁, hrun₁, hpos, hsupplied⟩ := hchar s
      · refine .inr ⟨[], stream (pos s) :: rest, s₁, rfl, hterm, ?_, hpos, hpaused⟩
        rw [stateM_run_bind hrun₁]
        rfl
      · rw [stateM_run_bind hrun₁]
        dsimp only
        rw [if_neg (by decide : ¬ (1 : Int) = -1), if_neg (by decide : ¬ (1 : Int) = 0)]
        by_cases hlast : (stream (pos s)).toNat < 128
        · obtain rfl := (terminates_cons_of_lt hlast).mp hterm
          rw [if_neg fun hne => absurd (hcont.mp hne) (by omega)]
          exact .inl ⟨s₁, rfl, hpos, hsupplied⟩
        · rw [if_pos (hcont.mpr (by omega))]
          rw [← hpos] at hrest
          obtain ⟨s₂, hrun, hpos', hrestSupplied⟩ |
              ⟨taken, rest', s₂, rfl, hterm', hrun, hpos', hpaused⟩ :=
            ih (trp.accept (stream (pos s))) s₁ ((terminates_cons_of_ge (by omega)).mp hterm)
              (by simp at hleft; omega) hrest
          · refine .inl ⟨s₂, hrun, ?_, hsupplies hsupplied hrestSupplied⟩
            rw [List.length_cons]
            omega
          · refine .inr ⟨stream (pos s) :: taken, rest', s₂, rfl, hterm', hrun, ?_,
              hpauses hsupplied hpaused⟩
            rw [List.length_cons]
            omega

end MqttClient
