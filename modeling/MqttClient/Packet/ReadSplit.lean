/-
# A frame that arrives in pieces

`MQTTPacket_readnb` may be called any number of times before a frame is complete.
Between calls the transport structure holds where it stands, in fields that change
their meaning on the way: `len` counts length bytes and later buffer positions,
`rem_len` adds up and later counts down.

`Midway` says what buffer and transport hold when the stream has been read up to a
given byte of the frame, as a function of that position alone.  A call takes it
further or ends the frame, however the transport splits the bytes, and what is then
in the buffer is what `MQTTPacket_read` leaves when it gets the frame in one go.

Every call asks for bytes and so gets some or uses up a pause.  A transport with
finitely many pauses therefore has the frame read after finitely many calls.
-/

import MqttClient.Packet.Read

namespace MqttClient

open Semantics

/-- A transport that holds a stream: it answers every request with as many of the next
bytes as it likes, at most those requested.  With none it says "call again". -/
structure Splits {S : Type} (stream : Memory) (getfn : Nat → StateM S (Int × List UInt8))
    (pos : S → Nat) : Prop where
  answer : ∀ n s, 0 < n → ∃ (k : Nat) (s' : S), k ≤ n ∧
    (getfn n).run s = (((k : Int), stream.load (pos s) k), s') ∧ pos s' = pos s + k

/-- A bound on how often the transport will still say "call again", as a function of its
state: such an answer lowers it, and no other raises it. -/
def PausesAtMost {S : Type} (getfn : Nat → StateM S (Int × List UInt8)) (pauses : S → Nat) :
    Prop :=
  ∀ n s, 0 < n →
    pauses ((getfn n).run s).2 + (if ((getfn n).run s).1.1 = 0 then 1 else 0) ≤ pauses s

/-- From one state to the other the transport has supplied bytes or used up pauses. -/
def MovesOn {S : Type} (getfn : Nat → StateM S (Int × List UInt8)) (pos : S → Nat)
    (s s' : S) : Prop :=
  ∀ pauses, PausesAtMost getfn pauses → pauses s' + pos s < pauses s + pos s'

theorem MovesOn.trans {S : Type} {getfn : Nat → StateM S (Int × List UInt8)} {pos : S → Nat}
    {s s₁ s₂ : S} (h : MovesOn getfn pos s s₁) (h' : MovesOn getfn pos s₁ s₂) :
    MovesOn getfn pos s s₂ := by
  intro pauses hpauses
  have hfirst := h pauses hpauses
  have hsecond := h' pauses hpauses
  omega

/-- Every request moves the transport on. -/
theorem Splits.request {S : Type} {stream : Memory} {getfn : Nat → StateM S (Int × List UInt8)}
    {pos : S → Nat} (hsplits : Splits stream getfn pos) {n : Nat} (hn : 0 < n) (s : S) :
    ∃ (k : Nat) (s' : S), k ≤ n ∧ (getfn n).run s = (((k : Int), stream.load (pos s) k), s') ∧
      pos s' = pos s + k ∧ MovesOn getfn pos s s' := by
  obtain ⟨k, s', hle, hrun, hpos⟩ := hsplits.answer n s hn
  refine ⟨k, s', hle, hrun, hpos, fun pauses hpauses => ?_⟩
  have hanswer := hpauses n s hn
  rw [hrun] at hanswer
  dsimp only at hanswer
  split at hanswer <;> omega

/-! ## A frame on the stream -/

section Frame

variable (stream : Memory) (ptr : Nat)

/-- The length field of the frame that starts at `ptr`. -/
def frameField : List UInt8 := lengthField stream 4 (ptr + 1)

/-- The length it announces. -/
def frameRemLen : Nat := lengthValue (frameField stream ptr)

/-- Where the body starts. -/
def frameBody : Nat := ptr + 1 + (frameField stream ptr).length

/-- Where the frame ends. -/
def frameEnd : Nat := frameBody stream ptr + frameRemLen stream ptr

/-- A frame stands at `ptr`: the type is not 0, the length field ends within four bytes,
and header, shortest length field and body fit the buffer. -/
structure FrameAt (buflen : Int) : Prop where
  type_ne : (MQTTHeader.ofByte (stream ptr)).type ≠ 0
  ends : Terminates (frameField stream ptr)
  fits : ((frameRemLen stream ptr + headLength (frameRemLen stream ptr) : Nat) : Int) ≤ buflen

/-- The buffer with the header, the length in the shortest form and `d` bytes of the body. -/
def bufferAt (buf : Memory) (d : Nat) : Memory :=
  ((buf.store 0 [stream ptr]).store 1 (mqttPacketEncode (frameRemLen stream ptr))).store
    (headLength (frameRemLen stream ptr)) (stream.load (frameBody stream ptr) d)

variable {stream ptr}

theorem bufferAt_apply_zero (buf : Memory) (d : Nat) :
    bufferAt stream ptr buf d 0 = stream ptr := by
  rw [bufferAt, store_apply_zero _ _ (by simp [headLength]), store_apply_zero _ _ Nat.one_pos]
  rfl

theorem bufferAt_zero (buf : Memory) :
    bufferAt stream ptr buf 0 =
      (buf.store 0 [stream ptr]).store 1 (mqttPacketEncode (frameRemLen stream ptr)) := by
  rw [bufferAt, Memory.load_zero, Memory.store_nil]

/-- The next bytes of the body go behind those that are there. -/
theorem bufferAt_store (buf : Memory) (d k : Nat) :
    (bufferAt stream ptr buf d).store (headLength (frameRemLen stream ptr) + d)
        (stream.load (frameBody stream ptr + d) k) = bufferAt stream ptr buf (d + k) := by
  have hlength : d = (stream.load (frameBody stream ptr) d).length := by rw [Memory.load_length]
  rw [bufferAt, bufferAt, Memory.load_add]
  nth_rewrite 2 [hlength]
  exact Memory.store_store_append _ _ _ _

/-- `MQTTPacket_read` gets the frame in one go. -/
theorem mqttPacketRead_frame {buflen : Int} (h : FrameAt stream ptr buflen) (buf : Memory) :
    (mqttPacketRead (streamGet stream) buf buflen).run ptr =
      ((((MQTTHeader.ofByte (stream ptr)).type : Int),
        bufferAt stream ptr buf (frameRemLen stream ptr)), frameEnd stream ptr) := by
  obtain ⟨count, hdecode⟩ := decodeLoop_lengthField stream 4 0 0 1 (ptr + 1)
  rw [Nat.zero_add, Nat.mul_one] at hdecode
  have hfits := h.fits
  rw [mqttPacketRead, stateM_run_bind (run_streamGet stream 1 ptr)]
  dsimp only
  rw [if_neg (by decide), getchar_streamGet, mqttPacketDecode, maxNoOfRemainingLengthBytes,
    stateM_run_bind hdecode]
  dsimp only
  rw [← frameField, ← frameRemLen, ← headLength, if_neg (by omega)]
  by_cases hempty : frameRemLen stream ptr ≠ 0
  · rw [if_pos hempty, stateM_run_bind (run_streamGet stream (frameRemLen stream ptr) _)]
    dsimp only
    rw [if_neg (not_not.mpr rfl)]
    show ((((MQTTHeader.ofByte (bufferAt stream ptr buf (frameRemLen stream ptr) 0)).type : Int),
      _), _) = _
    rw [bufferAt_apply_zero]
    rfl
  · have hzero : frameRemLen stream ptr = 0 := not_not.mp hempty
    have hbuf : (buf.store 0 (stream.load ptr 1)).store 1
        (mqttPacketEncode (frameRemLen stream ptr)) =
          bufferAt stream ptr buf (frameRemLen stream ptr) :=
      (bufferAt_zero buf).symm.trans (congrArg (bufferAt stream ptr buf) hzero.symm)
    rw [if_neg hempty, hbuf, bufferAt_apply_zero, frameEnd, frameBody, hzero]
    rfl

end Frame

/-! ## Where the calls stand -/

/-- The transport before the first length byte. -/
def countingTransport : MQTTTransport := ⟨1, 0, 0, 1⟩

/-- The transport behind the whole field. -/
theorem acceptAll_frameField (stream : Memory) (ptr : Nat) :
    ∃ trp, trp = countingTransport.acceptAll (frameField stream ptr) ∧
      trp.len = (frameField stream ptr).length ∧ trp.remLen = frameRemLen stream ptr ∧
      trp.state = 1 := by
  refine ⟨_, rfl, ?_, ?_, ?_⟩
  · rw [MQTTTransport.acceptAll_len]
    exact Int.zero_add _
  · rw [MQTTTransport.acceptAll_remLen]
    simp [countingTransport, frameRemLen]
  · rw [MQTTTransport.acceptAll_state]
    rfl

/-- Buffer and transport when the stream has been read up to some byte of the frame at
`ptr`, which started with the buffer `buf`. -/
inductive Midway (stream : Memory) (ptr : Nat) (buf : Memory) :
    Memory → MQTTTransport → Nat → Prop
  | header {trp : MQTTTransport} (hstate : trp.state = 0) : Midway stream ptr buf buf trp ptr
  | length {trp : MQTTTransport} (taken rest : List UInt8)
      (hfield : frameField stream ptr = taken ++ rest) (hrest : Terminates rest)
      (htrp : trp.begun = countingTransport.acceptAll taken) :
      Midway stream ptr buf (buf.store 0 [stream ptr]) trp (ptr + 1 + taken.length)
  | body (multiplier d : Nat) (hd : d < frameRemLen stream ptr) :
      Midway stream ptr buf (bufferAt stream ptr buf d)
        ⟨multiplier, (frameRemLen stream ptr - d : Nat),
          (headLength (frameRemLen stream ptr) + d : Nat), 2⟩ (frameBody stream ptr + d)

/-- How a call ends: midway in the frame with 0, or at its end with the packet type and
the whole frame in the buffer. -/
inductive CallEnds (stream : Memory) (ptr : Nat) (buf : Memory) :
    Int → Memory → MQTTTransport → Nat → Prop
  | again {buf' : Memory} {trp : MQTTTransport} {p : Nat} (h : Midway stream ptr buf buf' trp p) :
      CallEnds stream ptr buf 0 buf' trp p
  | done {trp : MQTTTransport} (hstate : trp.state = 0) :
      CallEnds stream ptr buf (MQTTHeader.ofByte (stream ptr)).type
        (bufferAt stream ptr buf (frameRemLen stream ptr)) trp (frameEnd stream ptr)

section Calls

variable {S : Type} {stream : Memory} {getfn : Nat → StateM S (Int × List UInt8)} {pos : S → Nat}
  {ptr : Nat} {buf : Memory}

theorem Midway.lt_frameEnd {buf' : Memory} {trp : MQTTTransport} {p : Nat}
    (h : Midway stream ptr buf buf' trp p) : p < frameEnd stream ptr := by
  cases h with
  | header hstate =>
      rw [frameEnd, frameBody]
      omega
  | length taken rest hfield hrest htrp =>
      have hpos := hrest.length_pos
      rw [frameEnd, frameBody, hfield, List.length_append]
      omega
  | body multiplier d hd =>
      rw [frameEnd]
      omega

variable (hsplits : Splits stream getfn pos)

include hsplits

/-- A request for one byte: none of it, or the next byte. -/
theorem Splits.getchar (s : S) :
    (∃ s', (getchar getfn).run s = ((0, 0), s') ∧ pos s' = pos s ∧ MovesOn getfn pos s s') ∨
      ∃ s', (getchar getfn).run s = ((1, stream (pos s)), s') ∧ pos s' = pos s + 1 ∧
        MovesOn getfn pos s s' := by
  obtain ⟨k, s', hle, hrun, hpos, hadv⟩ := hsplits.request Nat.one_pos s
  have hchar : (MqttClient.getchar getfn).run s =
      (((k : Int), (stream.load (pos s) k).headD 0), s') := by
    rw [MqttClient.getchar, stateM_run_bind hrun]
    rfl
  obtain rfl | rfl : k = 0 ∨ k = 1 := by omega
  · exact .inl ⟨s', hchar, hpos, hadv⟩
  · exact .inr ⟨s', hchar, hpos, hadv⟩

/-- The body, from its `d`-th byte on. -/
theorem Splits.readnbBody (htype : (MQTTHeader.ofByte (stream ptr)).type ≠ 0) (buf : Memory)
    (multiplier : Nat) {d : Nat} (hd : d ≤ frameRemLen stream ptr) {s : S}
    (hpos : pos s = frameBody stream ptr + d) :
    ∃ rc buf' trp' s', (readnbBody getfn (bufferAt stream ptr buf d)
        ⟨multiplier, (frameRemLen stream ptr - d : Nat),
          (headLength (frameRemLen stream ptr) + d : Nat), 2⟩).run s = ((rc, buf', trp'), s') ∧
      CallEnds stream ptr buf rc buf' trp' (pos s') ∧ (rc = 0 → MovesOn getfn pos s s') := by
  have hdone : ∀ s', ((MQTTHeader.ofByte (stream ptr)).type : Int) = 0 →
      MovesOn getfn pos s s' := by
    intro s' hzero
    exact absurd (Int.natCast_eq_zero.mp hzero) htype
  rw [MqttClient.readnbBody]
  by_cases hmore : ((frameRemLen stream ptr - d : Nat) : Int) ≠ 0
  swap
  · obtain rfl : d = frameRemLen stream ptr := by omega
    rw [if_neg hmore]
    rw [bufferAt_apply_zero]
    refine ⟨_, _, _, s, rfl, ?_, hdone s⟩
    rw [hpos]
    exact .done rfl
  have hmore' : 0 < frameRemLen stream ptr - d := by omega
  obtain ⟨k, s', hle, hrun, hpos', hadv⟩ := hsplits.request hmore' s
  have hstore : (bufferAt stream ptr buf d).store
      (headLength (frameRemLen stream ptr) + d) (stream.load (pos s) k) =
        bufferAt stream ptr buf (d + k) := by
    rw [hpos, bufferAt_store]
  rw [hpos, Nat.add_assoc] at hpos'
  rw [if_pos hmore, Int.toNat_natCast, stateM_run_bind hrun]
  dsimp only
  rw [Int.toNat_natCast, hstore, if_neg (by omega)]
  by_cases hpause : (k : Int) = 0
  · obtain rfl : k = 0 := by omega
    rw [if_pos hpause]
    refine ⟨_, _, _, s', rfl, ?_, fun _ => hadv⟩
    rw [hpos']
    exact .again (.body multiplier d (by omega))
  rw [if_neg hpause]
  by_cases hlast : ((frameRemLen stream ptr - d : Nat) : Int) - k ≠ 0
  · have hleft : ((frameRemLen stream ptr - d : Nat) : Int) - k =
        (frameRemLen stream ptr - (d + k) : Nat) := by omega
    have hnext : ((headLength (frameRemLen stream ptr) + d : Nat) : Int) + k =
        (headLength (frameRemLen stream ptr) + (d + k) : Nat) := by omega
    rw [if_pos hlast, hleft, hnext]
    refine ⟨_, _, _, s', rfl, ?_, fun _ => hadv⟩
    rw [hpos']
    exact .again (.body multiplier (d + k) (by omega))
  · have hend : d + k = frameRemLen stream ptr := by omega
    rw [if_neg hlast, hend, bufferAt_apply_zero]
    refine ⟨_, _, _, s', rfl, ?_, hdone s'⟩
    rw [hpos', hend]
    exact .done rfl

/-- The length field, from the byte on where the last call left it, and the body. -/
theorem Splits.readnbLength {buflen : Int} (hframe : FrameAt stream ptr buflen) (buf : Memory)
    {taken rest : List UInt8} (hfield : frameField stream ptr = taken ++ rest)
    (hrest : Terminates rest) (trp : MQTTTransport)
    (htrp : trp.begun = countingTransport.acceptAll taken) {s : S}
    (hpos : pos s = ptr + 1 + taken.length) :
    ∃ rc buf' trp' s', (readnbLength getfn (buf.store 0 [stream ptr]) buflen trp).run s =
        ((rc, buf', trp'), s') ∧ CallEnds stream ptr buf rc buf' trp' (pos s') ∧
      (rc = 0 → MovesOn getfn pos s s') := by
  have hat : stream.HasAt (ptr + 1) (taken ++ rest) := by
    rw [← hfield]
    exact lengthField_hasAt stream 4 (ptr + 1)
  have hfour : (frameField stream ptr).length ≤ 4 := lengthField_length_le stream 4 (ptr + 1)
  rw [hfield, List.length_append] at hfour
  have hcount : (countingTransport.acceptAll taken).len = taken.length := by
    rw [MQTTTransport.acceptAll_len]
    exact Int.zero_add _
  have hleft : rest.length ≤ ((maxNoOfRemainingLengthBytes : Int) -
      (countingTransport.acceptAll taken).len).toNat := by
    rw [hcount, maxNoOfRemainingLengthBytes]
    omega
  rw [MqttClient.readnbLength, mqttPacketDecodenb_eq, htrp]
  have hrestAt := (Memory.hasAt_append.mp hat).2
  rw [← hpos] at hrestAt
  obtain ⟨s', hrun, hpos', hadv⟩ | ⟨more, rest', s', rfl, hrest', hrun, hpos', hadv⟩ :=
    decodenbLoop_field hsplits.getchar MovesOn.trans MovesOn.trans rest
      (countingTransport.acceptAll taken) s hrest hleft hrestAt
  · have hends := hframe.ends.length_pos
    have hfits := hframe.fits
    rw [MQTTTransport.acceptAll_append, ← hfield] at hrun
    rw [hfield, List.length_append] at hends
    obtain ⟨trp', hall, hlen, hremLen, hstate⟩ := acceptAll_frameField stream ptr
    have hhead : (1 + (mqttPacketEncode (frameRemLen stream ptr)).length : Int) =
        (headLength (frameRemLen stream ptr) + 0 : Nat) := by
      rw [headLength]
      push_cast
      ring
    rw [← hall] at hrun
    rw [stateM_run_bind hrun]
    dsimp only
    rw [hlen, hfield, List.length_append, if_neg (by rw [mqttPacketReadError]; omega),
      if_neg (by omega), hremLen, hhead, if_neg (by omega), hstate, ← bufferAt_zero]
    have hstart : pos s' = frameBody stream ptr + 0 := by
      rw [hpos', hpos, frameBody, hfield, List.length_append]
      omega
    obtain ⟨rc, buf', trp'', s'', hbody, hends, hprogress⟩ :=
      hsplits.readnbBody hframe.type_ne buf trp'.multiplier (Nat.zero_le _) hstart
    exact ⟨rc, buf', trp'', s'', hbody, hends, fun hzero => hadv.trans (hprogress hzero)⟩
  · rw [stateM_run_bind hrun, MQTTTransport.acceptAll_append]
    dsimp only
    rw [if_neg (by decide), if_pos rfl]
    refine ⟨_, _, _, s', rfl, ?_, fun _ => hadv⟩
    have hhere : pos s' = ptr + 1 + (taken ++ more).length := by
      rw [hpos', hpos, List.length_append, Nat.add_assoc]
    rw [hhere]
    rw [← List.append_assoc] at hfield
    exact .again (.length (taken ++ more) rest' hfield hrest'
      (@MQTTTransport.begun_acceptAll countingTransport (le_refl 0) _))

/-- A call that finds the frame midway leaves it done, or midway and further on. -/
theorem Splits.call {buflen : Int} (hframe : FrameAt stream ptr buflen) {buf₁ : Memory}
    {trp : MQTTTransport} {s : S} (h : Midway stream ptr buf buf₁ trp (pos s)) :
    ∃ rc buf' trp' s', (mqttPacketReadnb getfn buf₁ buflen trp).run s = ((rc, buf', trp'), s') ∧
      CallEnds stream ptr buf rc buf' trp' (pos s') ∧ (rc = 0 → MovesOn getfn pos s s') := by
  rw [mqttPacketReadnb]
  generalize hp : pos s = p at h
  cases h with
  | header hstate =>
      obtain ⟨k, s', hle, hrun, hpos, hadv⟩ := hsplits.request Nat.one_pos s
      rw [hp] at hrun hpos
      rw [hstate, if_neg (by decide), if_neg (by decide), readnbHeader, stateM_run_bind hrun]
      dsimp only
      obtain rfl | rfl : k = 0 ∨ k = 1 := by omega
      · rw [Memory.load_zero, Memory.store_nil]
        refine ⟨_, _, _, s', rfl, ?_, fun _ => hadv⟩
        rw [hpos]
        exact .again (.header rfl)
      · obtain ⟨rc, buf', trp', s'', hlength, hends, hprogress⟩ :=
          hsplits.readnbLength hframe buf (List.nil_append _).symm hframe.ends
            { trp with len := 0, state := 1 } rfl hpos
        exact ⟨rc, buf', trp', s'', hlength, hends, fun hzero => hadv.trans (hprogress hzero)⟩
  | length taken rest hfield hrest htrp =>
      have hstate : trp.state = 1 := by
        have hbegun := congrArg MQTTTransport.state htrp
        rw [MQTTTransport.acceptAll_state] at hbegun
        unfold MQTTTransport.begun at hbegun
        split at hbegun <;> exact hbegun
      rw [if_pos hstate]
      exact hsplits.readnbLength hframe buf hfield hrest trp htrp hp
  | body multiplier d hd =>
      rw [if_neg (fun h : (2 : Int) = 1 => absurd h (by decide)), if_pos rfl]
      exact hsplits.readnbBody hframe.type_ne buf multiplier hd.le hp

end Calls

/-! ## Frame after frame -/

section Frames

variable {S : Type} (stream : Memory) (getfn : Nat → StateM S (Int × List UInt8)) (pos : S → Nat)
  (buflen : Int)

/-- `MQTTPacket_readnb` is called again while it returns 0, at most `calls` times in all. -/
def readnbAgain : (calls : Nat) → Memory → MQTTTransport → StateM S (Int × Memory × MQTTTransport)
  | 0, buf, trp => pure (0, buf, trp)
  | calls + 1, buf, trp => do
      let (rc, buf, trp) ← mqttPacketReadnb getfn buf buflen trp
      if rc = 0 then readnbAgain calls buf trp else pure (rc, buf, trp)

/-- That many frames stand one behind the other on the stream. -/
def FramesAt : (frames ptr : Nat) → Prop
  | 0, _ => True
  | frames + 1, ptr => FrameAt stream ptr buflen ∧ FramesAt frames (frameEnd stream ptr)

/-- That many frames are read.  However often the reader is called, it has returned 0 so
far and the frame is not all supplied; or the frame has just been, and the reader
returned its type, left what `MQTTPacket_read` leaves that gets the frame in one go, and
stands ready for the next frame.  And it does return the type: one call for every byte of
the frame and for every pause that is still to come is enough. -/
def ReadsFrames : (frames : Nat) → Memory → MQTTTransport → S → Prop
  | 0, _, _, _ => True
  | frames + 1, buf, trp, s =>
      (∀ calls, ∃ rc buf' trp' s',
        (readnbAgain getfn buflen calls buf trp).run s = ((rc, buf', trp'), s') ∧
          (rc = 0 ∧ pos s' < frameEnd stream (pos s) ∨
            pos s' = frameEnd stream (pos s) ∧
              (mqttPacketRead (streamGet stream) buf buflen).run (pos s) =
                ((rc, buf'), pos s') ∧
              rc = (MQTTHeader.ofByte (stream (pos s))).type ∧ rc ≠ 0 ∧ trp'.state = 0 ∧
              ReadsFrames frames buf' trp' s')) ∧
        ∀ pauses, PausesAtMost getfn pauses →
          ∀ calls, pauses s + (frameEnd stream (pos s) - pos s) ≤ calls →
            ((readnbAgain getfn buflen calls buf trp).run s).1.1 =
              (MQTTHeader.ofByte (stream (pos s))).type

variable {stream getfn pos buflen}

/-- Any number of calls from anywhere in a frame.  While they all return 0, each has
supplied a byte or used up a pause. -/
theorem Splits.callsAgain (hsplits : Splits stream getfn pos) {ptr : Nat}
    (hframe : FrameAt stream ptr buflen) {buf : Memory} :
    ∀ (calls : Nat) {buf₁ : Memory} {trp : MQTTTransport} {s : S},
      Midway stream ptr buf buf₁ trp (pos s) →
      ∃ rc buf' trp' s', (readnbAgain getfn buflen calls buf₁ trp).run s = ((rc, buf', trp'), s') ∧
        CallEnds stream ptr buf rc buf' trp' (pos s') ∧
        (rc = 0 → ∀ pauses, PausesAtMost getfn pauses →
          pauses s' + pos s + calls ≤ pauses s + pos s') := by
  intro calls
  induction calls with
  | zero =>
      intro buf₁ trp s h
      exact ⟨0, buf₁, trp, s, rfl, .again h, fun _ _ _ => le_refl _⟩
  | succ calls ih =>
      intro buf₁ trp s h
      obtain ⟨rc, buf', trp', s', hrun, hends, hadv⟩ := hsplits.call hframe h
      rw [readnbAgain, stateM_run_bind hrun]
      dsimp only
      generalize hp : pos s' = p at hends
      cases hends with
      | again hmid =>
          rw [if_pos rfl]
          subst hp
          obtain ⟨rc, buf₂, trp₂, s₂, hrest, hends, hcount⟩ := ih hmid
          refine ⟨rc, buf₂, trp₂, s₂, hrest, hends, fun hzero pauses hpauses => ?_⟩
          have hfirst := hadv rfl pauses hpauses
          have hothers := hcount hzero pauses hpauses
          omega
      | done hstate =>
          have htype := hframe.type_ne
          rw [if_neg (by omega)]
          refine ⟨_, _, _, s', rfl, ?_, fun hzero => absurd hzero (by omega)⟩
          rw [hp]
          exact .done hstate

/-- With a bound on the pauses the calls end. -/
theorem Splits.callsAgain_ends (hsplits : Splits stream getfn pos) {pauses : S → Nat}
    (hpauses : PausesAtMost getfn pauses) {buf : Memory} {trp : MQTTTransport} {s : S}
    (hframe : FrameAt stream (pos s) buflen) (hstate : trp.state = 0) {calls : Nat}
    (hcalls : pauses s + (frameEnd stream (pos s) - pos s) ≤ calls) :
    ((readnbAgain getfn buflen calls buf trp).run s).1.1 =
      (MQTTHeader.ofByte (stream (pos s))).type := by
  have hstart : Midway stream (pos s) buf buf trp (pos s) := .header hstate
  obtain ⟨rc, buf', trp', s', hrun, hends, hcount⟩ := hsplits.callsAgain hframe calls hstart
  rw [hrun]
  generalize hp : pos s' = p at hends
  cases hends with
  | again hmid =>
      have hless := hmid.lt_frameEnd
      have hstartLess := hstart.lt_frameEnd
      have hleft := hcount rfl pauses hpauses
      omega
  | done hstate' => rfl

/-- `MQTTPacket_readnb` reads frame after frame as `MQTTPacket_read` would, however the
transport splits them, and comes to the end of each that the transport supplies. -/
theorem Splits.readsFrames (hsplits : Splits stream getfn pos) :
    ∀ (frames : Nat) (buf : Memory) {trp : MQTTTransport} {s : S}, trp.state = 0 →
      FramesAt stream buflen frames (pos s) →
      ReadsFrames stream getfn pos buflen frames buf trp s := by
  intro frames
  induction frames with
  | zero => exact fun _ _ _ _ _ => trivial
  | succ frames ih =>
      intro buf trp s hstate hframes
      obtain ⟨hframe, hrest⟩ := hframes
      refine ⟨fun calls => ?_, fun pauses hpauses calls hcalls =>
        hsplits.callsAgain_ends hpauses hframe hstate hcalls⟩
      obtain ⟨rc, buf', trp', s', hrun, hends, -⟩ :=
        hsplits.callsAgain hframe calls (.header hstate : Midway stream (pos s) buf buf trp (pos s))
      refine ⟨rc, buf', trp', s', hrun, ?_⟩
      generalize hp : pos s' = p at hends
      cases hends with
      | again hmid => exact .inl ⟨rfl, hmid.lt_frameEnd⟩
      | done hstate' =>
          have htype := hframe.type_ne
          refine .inr ⟨rfl, mqttPacketRead_frame hframe buf, rfl, by omega, hstate', ?_⟩
          refine ih _ hstate' ?_
          rw [hp]
          exact hrest

end Frames

/-- A transport with a list of how many bytes it has ready at each request; behind the
list it has all of them. -/
def scheduledGet (stream : Memory) (n : Nat) : StateM (List Nat × Nat) (Int × List UInt8) :=
  fun s =>
    let k := min (s.1.headD n) n
    ((k, stream.load s.2 k), (s.1.tail, s.2 + k))

theorem scheduledGet_splits (stream : Memory) : Splits stream (scheduledGet stream) Prod.snd :=
  ⟨fun n s _ => ⟨min (s.1.headD n) n, _, Nat.min_le_right _ _, rfl, rfl⟩⟩

/-- It pauses at most as often as the list is long. -/
theorem scheduledGet_pausesAtMost (stream : Memory) :
    PausesAtMost (scheduledGet stream) fun s => s.1.length := by
  rintro n ⟨ready, ptr⟩ hn
  cases ready with
  | nil => simp [scheduledGet, StateT.run, Nat.ne_of_gt hn]
  | cons k ready =>
      show ready.length + _ ≤ ready.length + 1
      split <;> omega

/-- A PUBLISH whose length is written with two bytes, and a PINGRESP. -/
def twoFrames : Memory := Memory.store (fun _ => 0) 0 [0x30, 0x83, 0, 0, 1, 97, 0xD0, 0]

theorem twoFrames_framesAt : FramesAt twoFrames 16 2 0 :=
  ⟨⟨by decide, by decide, by decide⟩, ⟨by decide, by decide, by decide⟩, trivial⟩

/-- Both are read, with pauses everywhere, and the transport makes finitely many of them. -/
theorem readsFrames_twoFrames :
    FramesAt twoFrames 16 2 0 ∧
      PausesAtMost (scheduledGet twoFrames) (fun s => s.1.length) ∧
      ReadsFrames twoFrames (scheduledGet twoFrames) Prod.snd 16 2 (fun _ => 255) ⟨7, 7, 7, 0⟩
        ([0, 1, 0, 1, 0, 1, 2, 0, 1, 1, 0], 0) :=
  ⟨twoFrames_framesAt, scheduledGet_pausesAtMost twoFrames,
    (scheduledGet_splits twoFrames).readsFrames 2 (fun _ => 255) rfl twoFrames_framesAt⟩

/-- The first of them takes six calls. -/
example : ((readnbAgain (scheduledGet twoFrames) 16 6 (fun _ => 255) ⟨7, 7, 7, 0⟩).run
    ([0, 1, 0, 1, 0, 1, 2, 0, 1, 1, 0], 0)).1.1 = 3 := by
  decide +kernel

end MqttClient
