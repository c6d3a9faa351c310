/-
# Packets off a byte stream

On a platform that streams bytes and supplies them, `readPacket` returns whenever
the stream starts with a complete packet that fits the read buffer: it takes
exactly that packet, whatever the pieces, and leaves it in the buffer with its
length field written in the shortest way.  From one packet to a sequence is an
induction over the packets.
-/

import MqttClient.Client.Framing
import MqttClient.Platform.Network
import MqttClient.Tasks.MqttTask

namespace MqttClient

open Semantics Program

variable {σ H : Type}

/-- The platform is in a good state and these bytes are what its stream still has. -/
structure AtStream (pending : σ → List UInt8) (good : σ → Prop) (bytes : List UInt8)
    (w : World σ H) : Prop where
  pending_eq : pending w.env = bytes
  good : good w.env

section Reading

variable {P : Platform σ} {pending : σ → List UInt8} {good : σ → Prop} {limit : Nat}
  (hstream : Streams P pending) (hsupply : Supplies P pending good limit)
  {bytes rest : List UInt8} {w : World σ H}

include hstream hsupply

theorem gettimeofday_returns (h : AtStream pending good bytes w) :
    (gettimeofday P).Returns w fun _ w' =>
      w'.client = w.client ∧ AtStream pending good bytes w' :=
  ⟨_, _, rfl, rfl, (hstream.clock w.env).trans h.pending_eq, hsupply.clock h.good⟩

theorem timerLeftMS_returns (timer : Timer) (h : AtStream pending good bytes w) :
    (timerLeftMS P timer).Returns w fun _ w' =>
      w'.client = w.client ∧ AtStream pending good bytes w' :=
  (gettimeofday_returns hstream hsupply h).bind fun _ _ hmid => returns_pure hmid

theorem timerCountdown_returns (timeout : Nat) (h : AtStream pending good bytes w) :
    (timerCountdown P timeout).Returns w fun _ w' =>
      w'.client = w.client ∧ AtStream pending good bytes w' :=
  (gettimeofday_returns hstream hsupply h).bind fun _ _ hmid => returns_pure hmid

/-- A read of as many bytes as are named gets just these. -/
theorem mqttread_returns (bytes : List UInt8) (timeoutMs : Int) (hlimit : bytes.length ≤ limit)
    (h : AtStream pending good (bytes ++ rest) w) :
    (mqttread P bytes.length timeoutMs).Returns w fun r w' =>
      r.rc = bytes.length ∧ r.stored = bytes ∧ w'.client = w.client ∧
        AtStream pending good rest w' := by
  have hlen : bytes.length ≤ (pending w.env).length := by
    rw [h.pending_eq, List.length_append]
    exact Nat.le_add_right _ _
  obtain ⟨r, env, hread, hgood⟩ := hsupply.read timeoutMs h.good hlimit hlen
  obtain ⟨hrc, hsplit⟩ := hstream.read hread
  rw [h.pending_eq] at hsplit
  obtain ⟨hstored, hrest⟩ := List.append_inj hsplit (r.length_eq hrc).symm
  refine ⟨r, { w with env, trace := w.trace ++ [.read ⟨bytes.length, r.rc, r.stored⟩] }, ?_,
    hrc, hstored.symm, rfl, hrest.symm, hgood⟩
  simp [mqttread, hread]

theorem readInto_returns (bytes : List UInt8) (start : Nat) (timeoutMs : Int)
    (hlimit : bytes.length ≤ limit) (h : AtStream pending good (bytes ++ rest) w) :
    (readInto P start bytes.length timeoutMs).Returns w fun rc w' =>
      rc = bytes.length ∧
        w'.client = { w.client with readbuf := w.client.readbuf.store start bytes } ∧
        AtStream pending good rest w' := by
  apply (mqttread_returns hstream hsupply bytes timeoutMs hlimit h).bind
  rintro r w₁ ⟨hrc, hstored, hclient, hat⟩
  refine ⟨_, _, rfl, hrc, ?_, hat.pending_eq, hat.good⟩
  show MQTTClient.mk _ _ _ _ _ _ _ _ _ _ _ _ _ _ = _
  rw [hclient, hstored]

theorem networkChar_returns (timeoutMs : Int) {b : UInt8} (hlimit : 1 ≤ limit)
    (h : AtStream pending good (b :: rest) w) :
    (networkChar P timeoutMs).Returns w fun result w' =>
      result = (1, b) ∧ w'.client = w.client ∧ AtStream pending good rest w' := by
  apply (mqttread_returns hstream hsupply [b] timeoutMs hlimit h).bind
  rintro r w₁ ⟨hrc, hstored, hclient, hat⟩
  refine returns_pure ⟨?_, hclient, hat⟩
  rw [hrc, hstored]
  rfl

/-- The length loop stops at the end of the field and leaves the rest. -/
theorem decodeLoop_networkChar_returns (timeoutMs : Int) (hlimit : 1 ≤ limit) :
    ∀ {ls : List UInt8} {left len value multiplier : Nat} {w : World σ H}, Terminates ls →
      ls.length ≤ left → AtStream pending good (ls ++ rest) w →
      (decodeLoop (networkChar P timeoutMs) left len value multiplier).Returns w
        fun result w' => result.2 = value + lengthValue ls * multiplier ∧
          w'.client = w.client ∧ AtStream pending good rest w' := by
  intro ls
  induction ls with
  | nil => intro left len value multiplier w hterm; exact hterm.elim
  | cons b ls ih =>
      intro left len value multiplier w hterm hleft h
      obtain ⟨left, rfl⟩ : ∃ k, left = k + 1 := ⟨left - 1, by simp at hleft; omega⟩
      apply (networkChar_returns hstream hsupply timeoutMs hlimit h).bind
      rintro _ w₁ ⟨rfl, hclient, hat⟩
      have hcont := and_128_ne_zero_iff b
      dsimp only
      rw [if_neg (by decide), toNat_and_127]
      by_cases hlast : b.toNat < 128
      · obtain rfl := (terminates_cons_of_lt hlast).mp hterm
        rw [if_neg fun hne => absurd (hcont.mp hne) (by omega)]
        exact returns_pure ⟨by simp [lengthValue], hclient, hat⟩
      · rw [if_pos (hcont.mpr (by omega))]
        apply (ih ((terminates_cons_of_ge (by omega)).mp hterm) (by simpa using hleft) hat).mono
        rintro result w₂ ⟨hvalue, hclient', hat'⟩
        refine ⟨?_, hclient'.trans hclient, hat'⟩
        rw [hvalue, lengthValue]
        ring

theorem finishPacket_returns (h : AtStream pending good bytes w) :
    (finishPacket P).Returns w fun rc w' =>
      rc = (MQTTHeader.ofByte (w.client.readbuf 0)).type ∧
        (∃ lastReceived, w'.client = { w.client with lastReceived }) ∧
        AtStream pending good bytes w' := by
  apply returns_bind_of_eq_some (run_client w)
  split
  · apply (timerCountdown_returns hstream hsupply _ h).bind
    rintro lastReceived w₁ ⟨hclient, hat⟩
    refine ⟨_, _, rfl, rfl, ⟨lastReceived, ?_⟩, hat.pending_eq, hat.good⟩
    rw [← hclient]
    rfl
  · exact returns_pure ⟨rfl, ⟨w.client.lastReceived, rfl⟩, h⟩

/-- Step 3 on a stream that has the body, when header and field are in the buffer. -/
theorem readBody_returns (timer : Timer) (m : Memory) (header : UInt8) {body : List UInt8}
    (hlt : body.length < 268435456) (hlimit : body.length ≤ limit)
    (hsize : w.client.readbufSize < 2 ^ 64)
    (hfits : HoldsFrame.frameLength body ≤ w.client.readbufSize)
    (hbuf : w.client.readbuf = (m.store 0 [header]).store 1 (mqttPacketEncode body.length))
    (h : AtStream pending good (body ++ rest) w) :
    (readBody P timer (1 + (mqttPacketEncode body.length).length) body.length).Returns w
      fun rc w' => rc = (MQTTHeader.ofByte header).type ∧
        (∃ readbuf lastReceived, w'.client = { w.client with readbuf, lastReceived }) ∧
        HoldsFrame w'.client.readbuf header body ∧ AtStream pending good rest w' := by
  have hstores := HoldsFrame.of_stores m header body hlt
  apply returns_bind_of_eq_some (run_client w)
  rw [HoldsFrame.frameLength, HoldsFrame.bodyStart] at hfits
  have hroom : ¬ toSizeT (w.client.readbufSize - (1 + (mqttPacketEncode body.length).length : Nat)) <
      body.length := by
    have hdiff : (w.client.readbufSize - (1 + (mqttPacketEncode body.length).length : Nat) : Int) =
        (w.client.readbufSize - (1 + (mqttPacketEncode body.length).length) : Nat) := by omega
    rw [hdiff, toSizeT_of_lt (by omega)]
    omega
  rw [if_neg hroom]
  split
  · apply (timerLeftMS_returns hstream hsupply timer h).bind
    rintro left w₁ ⟨hsame, hat⟩
    apply (readInto_returns hstream hsupply body _ left hlimit hat).bind
    rintro rc w₂ ⟨rfl, hclient, hat'⟩
    rw [if_neg (not_not.mpr rfl)]
    have hholds : HoldsFrame w₂.client.readbuf header body := by
      rw [hclient, hsame, hbuf]
      exact hstores
    apply (finishPacket_returns hstream hsupply hat').mono
    rintro rc w₃ ⟨rfl, ⟨lastReceived, hclient'⟩, hat''⟩
    refine ⟨by rw [hholds.header_eq], ⟨w₂.client.readbuf, lastReceived, ?_⟩, ?_, hat''⟩
    · rw [hclient', hclient, hsame]
    · rw [hclient']
      exact hholds
  · rename_i hempty
    obtain rfl : body = [] := List.length_eq_zero_iff.mp (by omega)
    have hholds : HoldsFrame w.client.readbuf header [] := by
      rw [Memory.store_nil] at hstores
      rw [hbuf]
      exact hstores
    apply (finishPacket_returns hstream hsupply h).mono
    rintro rc w₁ ⟨rfl, ⟨lastReceived, hclient⟩, hat⟩
    refine ⟨by rw [hholds.header_eq], ⟨w.client.readbuf, lastReceived, hclient⟩, ?_, hat⟩
    rw [hclient]
    exact hholds

/-- A complete packet at the front of the stream is taken off it, and only that. -/
theorem readPacket_returns (timer : Timer) {F : Frame} (hlimit : w.client.readbufSize ≤ limit)
    (hsize : w.client.readbufSize < 2 ^ 64)
    (hfits : HoldsFrame.frameLength F.body ≤ w.client.readbufSize)
    (h : AtStream pending good (F.bytes ++ rest) w) :
    (readPacket P timer).Returns w fun rc w' => rc = F.type ∧
      (∃ readbuf lastReceived, w'.client = { w.client with readbuf, lastReceived }) ∧
      HoldsFrame w'.client.readbuf F.header F.body ∧ AtStream pending good rest w' := by
  have hlen : 1 ≤ w.client.readbufSize ∧ F.body.length ≤ w.client.readbufSize := by
    rw [HoldsFrame.frameLength, HoldsFrame.bodyStart] at hfits
    omega
  have hbytes : F.bytes ++ rest = [F.header] ++ (F.field ++ (F.body ++ rest)) := by
    simp [Frame.bytes]
  rw [hbytes] at h
  have hbody : (readPacketBody P timer).Returns w fun rc w' => rc = F.type ∧
      (∃ readbuf lastReceived, w'.client = { w.client with readbuf, lastReceived }) ∧
      HoldsFrame w'.client.readbuf F.header F.body ∧ AtStream pending good rest w' := by
    unfold readPacketBody
    apply (timerLeftMS_returns hstream hsupply timer h).bind
    rintro left w₁ ⟨hsame, hat⟩
    refine (readInto_returns hstream hsupply [F.header] 0 left (Nat.le_trans hlen.1 hlimit)
      hat).bind ?_
    rintro rc w₂ ⟨rfl, hclient, hat⟩
    rw [if_neg (by simp)]
    apply (timerLeftMS_returns hstream hsupply timer hat).bind
    rintro left' w₃ ⟨hsame', hat⟩
    refine (decodeLoop_networkChar_returns hstream hsupply left' (Nat.le_trans hlen.1 hlimit)
      F.terminates F.field_le hat).bind ?_
    rintro ⟨len, n⟩ w₄ ⟨hvalue, hsame'', hat⟩
    obtain rfl : n = F.body.length := by
      rw [← F.value_eq]
      simpa using hvalue
    dsimp only
    have hchain : w₄.client =
        { w.client with readbuf := w.client.readbuf.store 0 [F.header] } := by
      rw [hsame'', hsame', hclient, hsame]
    apply returns_bind_of_eq_some (run_modifyClient _ w₄)
    have hat₅ : AtStream pending good (F.body ++ rest) (w₄.update fun c =>
        { c with readbuf := c.readbuf.store 1 (mqttPacketEncode F.body.length) }) :=
      ⟨hat.pending_eq, hat.good⟩
    refine (readBody_returns hstream hsupply timer w.client.readbuf F.header F.body_length_lt
      (Nat.le_trans hlen.2 hlimit) ?_ ?_ ?_ hat₅).mono ?_
    · simpa only [World.update, hchain] using hsize
    · simpa only [World.update, hchain] using hfits
    · simp only [World.update, hchain]
    · rintro rc w₅ ⟨hrc, ⟨readbuf, lastReceived, hfinal⟩, hholds, hat'⟩
      refine ⟨hrc, ⟨readbuf, lastReceived, ?_⟩, hholds, hat'⟩
      rw [hfinal]
      simp only [World.update, hchain]
  apply hbody.bind
  rintro rc w₁ ⟨hrc, hclient, hholds, hat⟩
  exact ⟨_, _, rfl, hrc, hclient, hholds, hat.pending_eq, hat.good⟩

end Reading

/-! ## Sequences of packets -/

/-- Successive calls of `readPacket`, one for each timer: what each returned and what
it left in the read buffer. -/
def readPackets (P : Platform σ) : List Timer → Action σ H (List (Int × Memory))
  | [] => pure []
  | timer :: timers => do
      let rc ← readPacket P timer
      let c ← client
      let later ← readPackets P timers
      pure ((rc, c.readbuf) :: later)

/-- The shortest length field for a number. -/
structure IsMinimalField (field : List UInt8) (n : Nat) : Prop where
  terminates : Terminates field
  value_eq : lengthValue field = n
  length_le : ∀ other, Terminates other → lengthValue other = n → field.length ≤ other.length

/-- The packet as it stands in the read buffer: with the shortest length field, from
the start of the buffer on. -/
def Frame.StandsIn (F : Frame) (buf : Memory) : Prop :=
  ∃ field, IsMinimalField field F.body.length ∧
    buf.load 0 (1 + field.length + F.body.length) = F.header :: (field ++ F.body)

theorem isMinimalField_mqttPacketEncode {n : Nat} (h : n < 268435456) :
    IsMinimalField (mqttPacketEncode n) n where
  terminates := terminates_mqttPacketEncode h
  value_eq := lengthValue_mqttPacketEncode h
  length_le other hterm hvalue := by
    have hlt : n < 128 ^ other.length := hvalue ▸ lengthValue_lt other
    by_cases hlong : 4 ≤ other.length
    · exact Nat.le_trans (mqttPacketEncode_length_le h) hlong
    · exact (mqttPacketEncodeLoop_spec other.length 5 n (by omega) hterm.length_pos hlt).2.1

theorem HoldsFrame.standsIn {F : Frame} {buf : Memory}
    (h : HoldsFrame buf F.header F.body) : F.StandsIn buf := by
  refine ⟨mqttPacketEncode F.body.length, isMinimalField_mqttPacketEncode F.body_length_lt, ?_⟩
  rw [Nat.add_assoc, Memory.load_add, Memory.load_add, h.field_eq, Nat.zero_add, h.body_eq]
  simp [Memory.load, h.header_eq]

/-- Over any platform that streams and supplies its bytes, successive calls take the
packets off the stream one by one. -/
theorem readPackets_returns {P : Platform σ} {pending : σ → List UInt8} {good : σ → Prop}
    {limit : Nat} (hstream : Streams P pending) (hsupply : Supplies P pending good limit)
    {rest : List UInt8} :
    ∀ {frames : List Frame} {timers : List Timer} {w : World σ H},
      timers.length = frames.length → w.client.readbufSize ≤ limit →
      w.client.readbufSize < 2 ^ 64 →
      (∀ F ∈ frames, HoldsFrame.frameLength F.body ≤ w.client.readbufSize) →
      AtStream pending good (frames.flatMap Frame.bytes ++ rest) w →
      (readPackets P timers).Returns w fun results w' =>
        List.Forall₂ (fun result F => result.1 = (F.type : Int) ∧ F.StandsIn result.2)
          results frames ∧ AtStream pending good rest w' := by
  intro frames
  induction frames with
  | nil =>
      intro timers w hcount _ _ _ h
      obtain rfl : timers = [] := List.length_eq_zero_iff.mp hcount
      exact returns_pure ⟨.nil, h⟩
  | cons F frames ih =>
      intro timers w hcount hlimit hsize hfits h
      obtain ⟨timer, timers, rfl⟩ : ∃ t ts, timers = t :: ts :=
        List.exists_cons_of_length_pos (by simp [hcount])
      rw [List.flatMap_cons, List.append_assoc] at h
      refine (readPacket_returns hstream hsupply timer hlimit hsize
        (hfits F List.mem_cons_self) h).bind ?_
      rintro rc w₁ ⟨rfl, ⟨readbuf, lastReceived, hclient⟩, hholds, hat⟩
      apply returns_bind_of_eq_some (run_client w₁)
      have hsame : w₁.client.readbufSize = w.client.readbufSize := by rw [hclient]
      refine (ih (by simpa using hcount) (hsame ▸ hlimit) (hsame ▸ hsize)
        (fun G hG => hsame ▸ hfits G (List.mem_cons_of_mem F hG)) hat).bind ?_
      rintro results w₃ ⟨hall, hat'⟩
      exact returns_pure ⟨.cons ⟨rfl, hholds.standsIn⟩ hall, hat'⟩

/-- Whatever pieces `SSL_read` hands the bytes out in, and whatever retries it asks
for in between, successive calls of `readPacket` over `mqtt_network_read` return the
packets' types in order, leave each packet in the read buffer with the shortest
length field, and take exactly its bytes. -/
theorem readPackets_linuxPlatform {τ H : Type} (host : TlsHost τ) (inbound : τ → List UInt8)
    (patience : τ → Nat) (hdelivers : host.Delivers inbound patience) (frames : List Frame)
    (rest : List UInt8) (timers : List Timer) (w : World τ H) (fuel : Nat)
    (hcount : timers.length = frames.length)
    (hsize : w.client.readbufSize < 2 ^ 64)
    (hfits : ∀ F ∈ frames, HoldsFrame.frameLength F.body ≤ w.client.readbufSize)
    (hinbound : inbound w.env = frames.flatMap Frame.bytes ++ rest)
    (hfuel : patience w.env + w.client.readbufSize < fuel) :
    ∃ results w', (readPackets (linuxPlatform host fuel) timers).run w = some (results, w') ∧
      List.Forall₂ (fun result F => result.1 = (F.type : Int) ∧ F.StandsIn result.2)
        results frames ∧
      inbound w'.env = rest := by
  obtain ⟨results, w', hrun, hall, hat⟩ := readPackets_returns (hdelivers.streams fuel)
    (hdelivers.supplies fuel w.client.readbufSize) hcount (Nat.le_refl _) hsize hfits
    ⟨hinbound, hfuel⟩
  exact ⟨results, w', hrun, hall, hat.pending_eq⟩

/-- A PINGRESP whose length field takes two bytes where one would do. -/
def longPingresp : Frame := ⟨0xD0, [0x80, 0], [], by decide, by decide, by decide⟩

/-- A PUBLISH of `b` on the topic `a`. -/
def shortPublish : Frame := ⟨0x30, [4], [0, 1, 97, 98], by decide, by decide, by decide⟩

/-- Both packets and the first byte of the next one, in pieces and with retries. -/
theorem readPackets_linuxPlatform_pieces :
    ∃ results w', (readPackets (linuxPlatform Recording.host 1040) [Timer.init, Timer.init]).run
        (⟨brokerClient, ⟨[0x30, 4, 0, 1, 97, 98, 0xD0, 0x80, 0, 0x30],
          [.wantRead, .upTo 1, .wantWrite, .upTo 1, .upTo 3, .wantRead]⟩, []⟩ :
          World Recording Unit) = some (results, w') ∧
      List.Forall₂ (fun result F => result.1 = (F.type : Int) ∧ F.StandsIn result.2)
        results [shortPublish, longPingresp] ∧
      w'.env.inbound = [0x30] :=
  readPackets_linuxPlatform Recording.host Recording.inbound
    (fun recording => recording.schedule.length) Recording.delivers
    [shortPublish, longPingresp] [0x30] [Timer.init, Timer.init] _ 1040 rfl (by decide)
    (by decide) rfl (by decide)

end MqttClient
