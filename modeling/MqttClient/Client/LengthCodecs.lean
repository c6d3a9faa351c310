/-
# One length, four loops

`MQTTPacket_encode` divides; `MQTTPacket_decodeBuf`, `decodePacket` and
`MQTTPacket_decodenb` accumulate, the last of them across calls, since its transport
may answer that it has to be called again.  Whatever follows the field and however
often the transport pauses, the three take the same bytes and come to the same value.

Their accumulators are of type `int`.  The loops are written a second time with the
result of every multiplication and addition compared with the largest `int` and an
arbitrary action in place of an overflow; they are the same functions, so no
computation gets there.
-/

import Mathlib.Order.Bounds.Basic
import MqttClient.Client.Readers
import MqttClient.Packet.WholePackets

namespace MqttClient

open Semantics Program

/-! ## `MQTTPacket_decodenb` on a transport that pauses -/

/-- A transport that holds a stream: a list of the answers to come, where `false` is
"call again", and the position of the next byte.  Behind the list there are no pauses. -/
def pausingGet (stream : Memory) (len : Nat) : StateM (List Bool × Nat) (Int × List UInt8) :=
  fun s =>
    match s with
    | (false :: answers, ptr) => ((0, []), (answers, ptr))
    | (true :: answers, ptr) => ((len, stream.load ptr len), (answers, ptr + len))
    | ([], ptr) => ((len, stream.load ptr len), ([], ptr + len))

/-- A decoder that reports "call again" is called again, at most `calls` times in all. -/
def callAgain {S : Type} (call : MQTTTransport → StateM S (Int × MQTTTransport)) :
    (calls : Nat) → MQTTTransport → StateM S (Int × MQTTTransport)
  | 0, trp => pure (0, trp)
  | calls + 1, trp => do
      let (rc, trp) ← call trp
      if rc = 0 then callAgain call calls trp else pure (rc, trp)

/-- The transport pauses, with fewer pauses to come, or it supplies the next byte. -/
theorem getchar_pausingGet (stream : Memory) (s : List Bool × Nat) :
    (∃ s', (getchar (pausingGet stream)).run s = ((0, 0), s') ∧ s'.2 = s.2 ∧
      s'.1.length < s.1.length) ∨
    ∃ s', (getchar (pausingGet stream)).run s = ((1, stream s.2), s') ∧ s'.2 = s.2 + 1 ∧
      s'.1.length ≤ s.1.length := by
  match s with
  | (false :: answers, ptr) => exact .inl ⟨(answers, ptr), rfl, rfl, Nat.lt_succ_self _⟩
  | (true :: answers, ptr) => exact .inr ⟨(answers, ptr + 1), rfl, rfl, Nat.le_succ _⟩
  | ([], ptr) => exact .inr ⟨([], ptr + 1), rfl, rfl, Nat.le_refl 0⟩

/-- However the transport pauses, the calls together take the field and nothing else. -/
theorem callAgain_decodenb (stream : Memory) :
    ∀ (calls : Nat) {field : List UInt8} {trp : MQTTTransport} {answers : List Bool} {ptr : Nat},
      answers.length < calls → Terminates field → 0 ≤ trp.len → trp.len + field.length ≤ 4 →
      stream.HasAt ptr field →
      ∃ answers',
        (callAgain (mqttPacketDecodenb (pausingGet stream)) calls trp).run (answers, ptr) =
        (((trp.begun.acceptAll field).len, trp.begun.acceptAll field),
          (answers', ptr + field.length)) := by
  intro calls
  induction calls with
  | zero => exact fun h => absurd h (Nat.not_lt_zero _)
  | succ calls ih =>
      intro field trp answers ptr hcalls hterm hlen hfour hat
      have hpos := hterm.length_pos
      have hleft : field.length ≤
          ((maxNoOfRemainingLengthBytes : Int) - trp.begun.len).toNat := by
        rw [MQTTTransport.begun_len, maxNoOfRemainingLengthBytes]
        omega
      have hfinal := MQTTTransport.acceptAll_len field trp.begun
      rw [MQTTTransport.begun_len] at hfinal
      rw [callAgain, mqttPacketDecodenb_eq]
      obtain ⟨⟨answers', _⟩, hrun, rfl, -⟩ |
          ⟨taken, rest, ⟨answers', _⟩, rfl, hterm', hrun, rfl, hlt⟩ :=
        decodenbLoop_field (getchar_pausingGet stream) (fun h h' => Nat.le_trans h' h)
          (fun h h' => Nat.lt_of_lt_of_le h' h) field trp.begun (answers, ptr) hterm hleft hat
      · refine ⟨answers', ?_⟩
        rw [stateM_run_bind hrun]
        dsimp only
        rw [if_neg (by omega)]
        rfl
      · have hsplit := Memory.hasAt_append.mp hat
        have htaken := MQTTTransport.acceptAll_len taken trp.begun
        rw [MQTTTransport.begun_len] at htaken
        rw [List.length_append] at hfour
        have hcalls' : answers'.length < calls :=
          Nat.lt_of_lt_of_le hlt (Nat.le_of_lt_succ hcalls)
        have hlen' : 0 ≤ (trp.begun.acceptAll taken).len := by omega
        obtain ⟨answers'', hrest⟩ := ih hcalls' hterm' hlen' (by omega) hsplit.2
        rw [MQTTTransport.begun_acceptAll hlen] at hrest
        refine ⟨answers'', ?_⟩
        rw [stateM_run_bind hrun]
        dsimp only
        rw [if_pos rfl, hrest, List.length_append, ← Nat.add_assoc, MQTTTransport.acceptAll,
          MQTTTransport.acceptAll, MQTTTransport.acceptAll, List.foldl_append]

/-! ## `decodePacket` -/

/-- Over a network that supplies its bytes, the loop stops at the end of the field. -/
theorem decodeLoop_network {σ H : Type} {P : Platform σ} {stream : Memory} {position : σ → Nat}
    (hserves : Serves P stream none position) (timeoutMs : Int) (field : List UInt8) :
    ∀ {left len value multiplier : Nat} {w : World σ H}, Terminates field → field.length ≤ left →
      stream.HasAt (position w.env) field →
      (decodeLoop (networkChar P timeoutMs) left len value multiplier).Returns w fun result w' =>
        result = (len + field.length, value + lengthValue field * multiplier) ∧
          position w'.env = position w.env + field.length := by
  induction field with
  | nil =>
      intro left len value multiplier w hterm
      exact hterm.elim
  | cons b rest ih =>
      intro left len value multiplier w hterm hleft hat
      obtain ⟨left, rfl⟩ : ∃ k, left = k + 1 := ⟨left - 1, by simp at hleft; omega⟩
      obtain ⟨rfl, hrest⟩ := Memory.hasAt_cons.mp hat
      have hcont := and_128_ne_zero_iff (stream (position w.env))
      apply (networkChar_served hserves timeoutMs trivial).bind
      rintro _ w₁ ⟨rfl, _, hposition⟩
      dsimp only
      rw [if_neg (by decide), toNat_and_127]
      by_cases hlast : (stream (position w.env)).toNat < 128
      · obtain rfl := (terminates_cons_of_lt hlast).mp hterm
        rw [if_neg fun hne => absurd (hcont.mp hne) (by omega)]
        exact returns_pure ⟨by simp [lengthValue], hposition⟩
      · rw [if_pos (hcont.mpr (by omega))]
        apply (ih (w := w₁) ((terminates_cons_of_ge (by omega)).mp hterm)
          (by simp at hleft; omega) (hposition ▸ hrest)).mono
        rintro _ w₂ ⟨rfl, hposition'⟩
        refine ⟨Prod.ext ?_ ?_, ?_⟩
        · show len + 1 + rest.length = len + (rest.length + 1)
          omega
        · simp only [lengthValue]
          ring
        · rw [hposition', hposition, List.length_cons]
          omega

/-! ## The range of `int` -/

/-- `INT_MAX`. -/
def intMax : Nat := 2147483647

section Checked

variable {m : Type → Type} [Monad m]

/-- The loop of `MQTTPacket_decode` and `decodePacket` with every result compared with
`INT_MAX`: where one is larger, `overflow` happens instead. -/
def decodeLoopChecked (overflow : m (Nat × Nat)) (getchar : m (Int × UInt8)) :
    (left len value multiplier : Nat) → m (Nat × Nat)
  | 0, len, value, _ => pure (len + 1, value)
  | left + 1, len, value, multiplier => do
      let (rc, c) ← getchar
      if rc ≠ 1 then pure (len + 1, value)
      else
        let product := (c &&& 127).toNat * multiplier
        let value := value + product
        let multiplier := multiplier * 128
        if intMax < product ∨ intMax < value ∨ intMax < multiplier then overflow
        else if c &&& 128 ≠ 0 then decodeLoopChecked overflow getchar left (len + 1) value multiplier
        else pure (len + 1, value)

/-- The loop of `MQTTPacket_decodenb` with the same checks. -/
def decodenbLoopChecked (overflow : m (Int × MQTTTransport))
    (getfn : Nat → m (Int × List UInt8)) : Nat → MQTTTransport → m (Int × MQTTTransport)
  | 0, trp => pure (mqttPacketReadError, trp)
  | left + 1, trp => do
      let (frc, c) ← getchar getfn
      if frc = -1 then pure (mqttPacketReadError, trp)
      else if frc = 0 then pure (0, trp)
      else
        let product := (c &&& 127).toNat * trp.multiplier
        let sum := trp.remLen + product
        let multiplier := trp.multiplier * 128
        if intMax < product ∨ (intMax : Int) < sum ∨ intMax < multiplier then overflow
        else if c &&& 128 ≠ 0 then decodenbLoopChecked overflow getfn left (trp.accept c)
        else pure ((trp.accept c).len, trp.accept c)

/-- `MQTTPacket_decodenb` with the checks. -/
def decodenbChecked (overflow : m (Int × MQTTTransport)) (getfn : Nat → m (Int × List UInt8))
    (trp : MQTTTransport) : m (Int × MQTTTransport) :=
  decodenbLoopChecked overflow getfn (maxNoOfRemainingLengthBytes - trp.begun.len).toNat trp.begun

/-- The digits before a byte are worth less than its multiplier, and with the bytes still
allowed the multiplier does not pass `128 ^ 4`. -/
theorem decodeLoopChecked_eq (overflow : m (Nat × Nat)) (getchar : m (Int × UInt8)) :
    ∀ {left len value multiplier : Nat}, value < multiplier → multiplier * 128 ^ left ≤ 128 ^ 4 →
      decodeLoopChecked overflow getchar left len value multiplier =
        decodeLoop getchar left len value multiplier := by
  intro left
  induction left with
  | zero => exact fun _ _ => rfl
  | succ left ih =>
      intro len value multiplier hvalue hmultiplier
      rw [decodeLoopChecked, decodeLoop]
      refine bind_congr fun r => ?_
      obtain ⟨rc, c⟩ := r
      have hdigit : (c &&& 127).toNat < 128 := by
        rw [toNat_and_127]
        exact Nat.mod_lt _ (by decide)
      have hproduct : (c &&& 127).toNat * multiplier ≤ 127 * multiplier :=
        Nat.mul_le_mul_right _ (by omega)
      have hpow : multiplier * 128 * 128 ^ left ≤ 128 ^ 4 := by
        rwa [Nat.mul_assoc, ← Nat.pow_succ']
      have hle : multiplier * 128 ≤ 128 ^ 4 :=
        Nat.le_trans (Nat.le_mul_of_pos_right _ (Nat.pow_pos (by decide))) hpow
      have hmax : 128 ^ 4 ≤ intMax := by decide
      dsimp only
      rw [if_neg (show ¬ (intMax < _ ∨ intMax < _ ∨ intMax < _) by omega), ih (by omega) hpow]

end Checked

/-- The transport has taken `len` bytes of a field into account. -/
structure MQTTTransport.Counted (trp : MQTTTransport) : Prop where
  len_nonneg : 0 ≤ trp.len
  len_le : trp.len ≤ 4
  multiplier_eq : trp.multiplier = 128 ^ trp.len.toNat
  remLen_nonneg : 0 ≤ trp.remLen
  remLen_lt : trp.remLen < trp.multiplier

namespace MQTTTransport.Counted

variable {trp : MQTTTransport}

/-- The three results computed for a further byte. -/
theorem results_le (h : trp.Counted) (hlt : trp.len < 4) (c : UInt8) :
    (c &&& 127).toNat * trp.multiplier ≤ 127 * trp.multiplier ∧
      trp.multiplier * 128 = 128 ^ (trp.len.toNat + 1) ∧ trp.multiplier * 128 ≤ intMax := by
  have hdigit : (c &&& 127).toNat < 128 := by
    rw [toNat_and_127]
    exact Nat.mod_lt _ (by decide)
  have hnext : trp.multiplier * 128 = 128 ^ (trp.len.toNat + 1) := by
    rw [h.multiplier_eq, Nat.pow_succ]
  refine ⟨Nat.mul_le_mul_right _ (by omega), hnext, ?_⟩
  have hle : 128 ^ (trp.len.toNat + 1) ≤ 128 ^ 4 := Nat.pow_le_pow_right (by decide) (by omega)
  have hmax : 128 ^ 4 ≤ intMax := by decide
  omega

theorem accept (h : trp.Counted) (hlt : trp.len < 4) (c : UInt8) : (trp.accept c).Counted := by
  obtain ⟨hproduct, hnext, _⟩ := h.results_le hlt c
  obtain ⟨hnonneg, _, _, hvalue, hbound⟩ := h
  refine ⟨?_, ?_, ?_, ?_, ?_⟩
  · show 0 ≤ trp.len + 1
    omega
  · show trp.len + 1 ≤ 4
    omega
  · show trp.multiplier * 128 = 128 ^ (trp.len + 1).toNat
    rw [hnext, Int.toNat_add hnonneg (by decide)]
    rfl
  · show 0 ≤ trp.remLen + ((c &&& 127).toNat * trp.multiplier : Nat)
    omega
  · show trp.remLen + ((c &&& 127).toNat * trp.multiplier : Nat) < (trp.multiplier * 128 : Nat)
    omega

end MQTTTransport.Counted

/-- A transport that has not begun a field is initialised to one that has counted nothing. -/
theorem MQTTTransport.counted_begun {trp : MQTTTransport} (h : trp.len = 0 ∨ trp.Counted) :
    trp.begun.Counted := by
  unfold begun
  split
  · rename_i hzero
    exact ⟨by simp [hzero], by simp [hzero], by simp [hzero], by simp, by simp⟩
  · rename_i hlen
    exact h.resolve_left hlen

theorem decodenbLoopChecked_eq {m : Type → Type} [Monad m] (overflow : m (Int × MQTTTransport))
    (getfn : Nat → m (Int × List UInt8)) :
    ∀ {left : Nat} {trp : MQTTTransport}, trp.Counted → trp.len + left ≤ 4 →
      decodenbLoopChecked overflow getfn left trp = decodenbLoop getfn left trp := by
  intro left
  induction left with
  | zero => exact fun _ _ => rfl
  | succ left ih =>
      intro trp hcounted hleft
      have hlt : trp.len < 4 := by omega
      rw [decodenbLoopChecked, decodenbLoop]
      refine bind_congr fun r => ?_
      obtain ⟨frc, c⟩ := r
      obtain ⟨hproduct, _, hmax⟩ := hcounted.results_le hlt c
      have hbound := hcounted.remLen_lt
      have hnext : (trp.accept c).len + left ≤ 4 := by
        show trp.len + 1 + left ≤ 4
        omega
      dsimp only
      rw [if_neg (show ¬ (intMax < _ ∨ (intMax : Int) < _ ∨ intMax < _) by omega),
        ih (hcounted.accept hlt c) hnext]

section Calls

variable {S : Type} (getfn : Nat → StateM S (Int × List UInt8))

/-- Whatever the transport answers, a call leaves a count behind. -/
theorem decodenbLoop_counted :
    ∀ {left : Nat} {trp : MQTTTransport} (s : S), trp.Counted → trp.len + left ≤ 4 →
      ((decodenbLoop getfn left trp).run s).1.2.Counted := by
  intro left
  induction left with
  | zero => exact fun s hcounted _ => hcounted
  | succ left ih =>
      intro trp s hcounted hleft
      rcases hchar : (getchar getfn).run s with ⟨⟨frc, c⟩, s'⟩
      rw [decodenbLoop, stateM_run_bind hchar]
      dsimp only
      have hnext : (trp.accept c).len + left ≤ 4 := by
        show trp.len + 1 + left ≤ 4
        omega
      split
      · exact hcounted
      · split
        · exact hcounted
        · split
          · exact ih s' (hcounted.accept (by omega) c) hnext
          · exact hcounted.accept (by omega) c

/-- However often `MQTTPacket_decodenb` is called for a field, no check fails. -/
theorem callAgain_decodenbChecked_eq (overflow : StateM S (Int × MQTTTransport)) :
    ∀ (calls : Nat) {trp : MQTTTransport}, trp.begun.Counted →
      callAgain (decodenbChecked overflow getfn) calls trp =
        callAgain (mqttPacketDecodenb getfn) calls trp := by
  intro calls
  induction calls with
  | zero => exact fun _ => rfl
  | succ calls ih =>
      intro trp hcounted
      have hleft :
          trp.begun.len + ((maxNoOfRemainingLengthBytes - trp.begun.len).toNat : Int) ≤ 4 := by
        have hle := hcounted.len_le
        rw [maxNoOfRemainingLengthBytes]
        omega
      have hcall : decodenbChecked overflow getfn trp = mqttPacketDecodenb getfn trp :=
        decodenbLoopChecked_eq overflow getfn hcounted hleft
      rw [callAgain, callAgain, hcall]
      funext s
      rcases hrun : (mqttPacketDecodenb getfn trp).run s with ⟨⟨rc, trp'⟩, s'⟩
      have hafter : trp'.Counted := by
        have hkept := decodenbLoop_counted getfn s hcounted hleft
        rwa [← mqttPacketDecodenb_eq, hrun] at hkept
      show StateT.run _ s = StateT.run _ s
      rw [stateM_run_bind hrun, stateM_run_bind hrun]
      dsimp only
      rw [ih (MQTTTransport.counted_begun (.inr hafter))]

end Calls

/-! ## All of them on one field -/

/-- Each of the three decoders, applied where the field stands with anything behind it,
takes exactly its bytes and comes to this value. -/
structure DecodesTo (field : List UInt8) (v : Nat) : Prop where
  decodeBuf : ∀ buf : Memory, buf.HasAt 0 field →
    mqttPacketDecodeBuf buf = (field.length, v) ∧
      ((mqttPacketDecode (bufchar buf)).run 0).2 = field.length
  decodePacket : ∀ {σ H : Type} (P : Platform σ) (stream : Memory) (position : σ → Nat)
    (timeoutMs : Int) (w : World σ H), Serves P stream none position →
    stream.HasAt (position w.env) field →
    (decodePacket P timeoutMs).Returns w fun result w' =>
      result = (field.length, v) ∧ position w'.env = position w.env + field.length
  decodenb : ∀ (stream : Memory) (answers : List Bool) (ptr : Nat) (trp : MQTTTransport),
    trp.len = 0 → stream.HasAt ptr field →
    ∃ (trp' : MQTTTransport) (answers' : List Bool),
      (callAgain (mqttPacketDecodenb (pausingGet stream)) (answers.length + 1) trp).run
          (answers, ptr) = (((field.length : Int), trp'), (answers', ptr + field.length)) ∧
        trp'.remLen = v

/-- No multiplication or addition of the three decoders leaves the range of `int`,
whatever bytes and answers they get. -/
structure NeverOverflows : Prop where
  decodeBuf : ∀ (buf : Memory) (overflow : StateM Nat (Nat × Nat)),
    decodeLoopChecked overflow (bufchar buf) 4 0 0 1 = mqttPacketDecode (bufchar buf)
  decodePacket : ∀ {σ H : Type} (P : Platform σ) (timeoutMs : Int)
    (overflow : Action σ H (Nat × Nat)),
    decodeLoopChecked overflow (networkChar P timeoutMs) 4 0 0 1 = decodePacket P timeoutMs
  decodenb : ∀ {S : Type} (getfn : Nat → StateM S (Int × List UInt8))
    (overflow : StateM S (Int × MQTTTransport)) (calls : Nat) (trp : MQTTTransport), trp.len = 0 →
    callAgain (decodenbChecked overflow getfn) calls trp =
      callAgain (mqttPacketDecodenb getfn) calls trp

theorem neverOverflows : NeverOverflows where
  decodeBuf := fun _ overflow => decodeLoopChecked_eq overflow _ (by decide) (by decide)
  decodePacket := fun _ _ overflow => decodeLoopChecked_eq overflow _ (by decide) (by decide)
  decodenb := fun getfn overflow calls _ hlen =>
    callAgain_decodenbChecked_eq getfn overflow calls (MQTTTransport.counted_begun (.inl hlen))

/-- A field that ends within four bytes means one value to all decoders. -/
theorem decodesTo_lengthValue {field : List UInt8} (hterm : Terminates field)
    (hlen : field.length ≤ 4) : DecodesTo field (lengthValue field) where
  decodeBuf := fun buf hat => by
    have hrun := decodeLoop_bufchar buf field 4 0 0 1 0 hterm hlen hat
    refine ⟨mqttPacketDecodeBuf_of_load hterm hlen hat, ?_⟩
    rw [mqttPacketDecode, maxNoOfRemainingLengthBytes, hrun, Nat.zero_add]
  decodePacket := fun P stream position timeoutMs w hserves hat => by
    apply (decodeLoop_network hserves timeoutMs field hterm hlen hat).mono
    rintro result w' ⟨hresult, hposition⟩
    refine ⟨?_, hposition⟩
    rw [hresult, Nat.zero_add, Nat.zero_add, Nat.mul_one]
  decodenb := fun stream answers ptr trp hzero hat => by
    have hlen' : 0 ≤ trp.len := Int.le_of_eq hzero.symm
    obtain ⟨answers', hrun⟩ := callAgain_decodenb stream (answers.length + 1)
      (Nat.lt_succ_self _) hterm hlen' (by omega) hat
    have hbegun : trp.begun = { trp with multiplier := 1, remLen := 0 } := if_pos hzero
    refine ⟨trp.begun.acceptAll field, answers', ?_, ?_⟩
    · rw [hrun, MQTTTransport.acceptAll_len, MQTTTransport.begun_len, hzero, Int.zero_add]
    · rw [MQTTTransport.acceptAll_remLen, hbegun]
      simp

/-- The encoder writes the shortest field, all decoders read it back, they agree on every
other field as well, and nothing overflows. -/
theorem lengthField_codecs :
    (∀ n : Nat, n ≤ 268435455 →
      IsLeast {k | 1 ≤ k ∧ n < 128 ^ k} (mqttPacketEncode n).length ∧
        (mqttPacketEncode n).length ≤ 4 ∧ DecodesTo (mqttPacketEncode n) n) ∧
      (∀ field, Terminates field → field.length ≤ 4 →
        ∃ v, v ≤ 268435455 ∧ DecodesTo field v ∧ (mqttPacketEncode v).length ≤ field.length) ∧
      NeverOverflows := by
  refine ⟨fun n hn => ?_, fun field hterm hlen => ?_, neverOverflows⟩
  · have hlt : n < 268435456 := by omega
    have hvalue := lengthValue_mqttPacketEncode hlt
    have hterm := terminates_mqttPacketEncode hlt
    have hfour := mqttPacketEncode_length_le hlt
    refine ⟨⟨⟨hterm.length_pos, ?_⟩, ?_⟩, hfour, ?_⟩
    · have hbound := lengthValue_lt (mqttPacketEncode n)
      rwa [hvalue] at hbound
    · rintro k ⟨hpos, hk⟩
      by_cases hle : k ≤ 5
      · exact mqttPacketEncode_length_le_of_lt k hpos hle hk
      · omega
    · have hdecoded := decodesTo_lengthValue hterm hfour
      rwa [hvalue] at hdecoded
  · refine ⟨lengthValue field, ?_, decodesTo_lengthValue hterm hlen, ?_⟩
    · exact Nat.le_of_lt_succ (lengthValue_lt_of_length_le hlen)
    · exact mqttPacketEncode_length_le_of_lt field.length hterm.length_pos (by omega)
        (lengthValue_lt field)

/-- The value 321 takes two bytes, and a field of two bytes may stand for 0. -/
theorem lengthField_codecs_instances :
    mqttPacketEncode 321 = [0xC1, 2] ∧ DecodesTo [0xC1, 2] 321 ∧
      ∃ v, v ≤ 268435455 ∧ DecodesTo [0x80, 0] v ∧ (mqttPacketEncode v).length ≤ 2 := by
  have hencode : mqttPacketEncode 321 = [0xC1, 2] := by decide
  obtain ⟨hencoded, hfields, _⟩ := lengthField_codecs
  have hdecoded := (hencoded 321 (by decide)).2.2
  exact ⟨hencode, by rwa [show ((321 : Nat) : Int) = 321 from rfl, hencode] at hdecoded,
    hfields [0x80, 0] (by decide) (by decide)⟩

end MqttClient
