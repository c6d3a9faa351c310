/-
# What a message handler is given

`MQTTDeserialize_publish` trusts the lengths inside a PUBLISH in two places.  It
reads the packet identifier without looking whether the body still has two bytes,
and then the payload starts behind the end of the frame and its length is negative,
a huge `size_t` for the handler.  And when the topic does not fit it returns the
number of length bytes, which is 1 for every body shorter than 128 bytes and means
success to the caller, while the payload was never assigned.  Away from these two
the payload lies in the frame.
-/

import MqttClient.Semantics.Transition
import MqttClient.Client.Session

namespace MqttClient

open Semantics Program

variable {σ H : Type} {P : Platform σ} {fuel : Nat}

/-! ## Sound PUBLISH packets -/

/-- The body has room for its topic and, above QoS 0, for an identifier after it; or
the topic does not fit and the length field has more than one byte. -/
def PublishIsSound (header : UInt8) (body : List UInt8) : Prop :=
  (∃ n, leadingInt? body = some n ∧
    2 + n + (if 0 < (MQTTHeader.ofByte header).qos then 2 else 0) ≤ body.length) ∨
  (¬ TopicFits body ∧ 128 ≤ body.length)

/-- The payload lies in the frame that the buffer holds. -/
structure MessageData.InFrame (data : MessageData) (buf : Memory) (header : UInt8)
    (body : List UInt8) (offset : Nat) : Prop where
  holds : HoldsFrame buf header body
  payload_eq : data.message.payload = .into buf offset
  start_le : HoldsFrame.bodyStart body + 2 ≤ offset
  end_le : offset + data.message.payloadlen ≤ HoldsFrame.frameLength body

theorem toUnsignedInt_of_nonneg {i : Int} (h : 0 ≤ i) (hlt : i < 2 ^ 32) :
    (toUnsignedInt i : Int) = i := by
  unfold toUnsignedInt
  omega

/-- What is delivered from a sound PUBLISH lies in its frame. -/
theorem inFrame_of_isDelivery {buf : Memory} {header : UInt8} {body : List UInt8} {fp : H}
    {data : MessageData} (hholds : HoldsFrame buf header body)
    (htype : (MQTTHeader.ofByte header).type = MsgType.publish.code)
    (hsound : PublishIsSound header body)
    (h : (Event.call fp data).IsDelivery buf) :
    ∃ offset, data.InFrame buf header body offset := by
  obtain ⟨fp', out, out', _, hdec, hcall⟩ := h
  cases hcall
  have hlt := hholds.length_lt
  have hfield := mqttPacketEncode_length_le hlt
  rcases hsound with ⟨n, hlead, hroom⟩ | ⟨hfits, hlong⟩
  · rw [hholds.mqttDeserializePublish_of_fits htype hlead (by omega)] at hdec
    cases hdec
    refine ⟨_, hholds, rfl, ?_, ?_⟩
    · unfold HoldsFrame.payloadStart
      omega
    · have hstart : HoldsFrame.payloadStart header body n ≤ HoldsFrame.frameLength body := by
        unfold HoldsFrame.payloadStart HoldsFrame.frameLength
        omega
      have hlen : HoldsFrame.frameLength body < 2 ^ 32 := by
        unfold HoldsFrame.frameLength HoldsFrame.bodyStart
        omega
      have hcast := toUnsignedInt_of_nonneg
        (show 0 ≤ (HoldsFrame.frameLength body : Int) - HoldsFrame.payloadStart header body n
          by omega) (by omega)
      show HoldsFrame.payloadStart header body n + toUnsignedInt
        ((HoldsFrame.frameLength body : Int) - HoldsFrame.payloadStart header body n) ≤ _
      omega
  · -- the decoder reports at least two and the packet is dropped
    have hrc := hholds.mqttDeserializePublish_of_not_fits htype hfits out
    rw [hdec] at hrc
    have htwo := mqttPacketEncode_length_of_ge hlong hlt
    simp only at hrc
    omega

/-! ## The handler of the application -/

/-- The payload fits the message buffer with room for a terminating zero, so
`MqttMessageArrived` copies it, terminates it, and touches nothing behind. -/
structure MessageData.FitsMsgBuffer (data : MessageData) : Prop where
  payloadlen_le : data.message.payloadlen ≤ mqttBufsize - 1
  terminated : ∀ msgBuffer, mqttMessageArrived msgBuffer data data.message.payloadlen = 0
  untouched : ∀ msgBuffer i, mqttBufsize ≤ i → mqttMessageArrived msgBuffer data i = msgBuffer i

theorem fitsMsgBuffer_of_le {data : MessageData}
    (h : data.message.payloadlen ≤ mqttBufsize - 1) : data.FitsMsgBuffer where
  payloadlen_le := h
  terminated msgBuffer := by
    unfold mqttBufsize at h
    rw [mqttMessageArrived, Memory.store_apply_of_ge _ (by simp)]
    have hzero : (List.replicate mqttBufsize (0 : UInt8))[data.message.payloadlen]? = some 0 := by
      rw [List.getElem?_replicate, if_pos (by unfold mqttBufsize; omega)]
    simpa using msgBuffer.store_apply_add 0 hzero
  untouched msgBuffer i hi := by
    unfold mqttBufsize at h hi
    rw [mqttMessageArrived, Memory.store_apply_of_ge _ (by rw [Memory.load_length]; omega),
      Memory.store_apply_of_ge _ (by rw [List.length_replicate, mqttBufsize]; omega)]

/-! ## Runs of `cycle` -/

/-- One turn as a step: its label is the timer it was given and what it returned. -/
def CycleStep (P : Platform σ) (fuel : Nat) (w : World σ H) (label : Timer × Int)
    (w' : World σ H) : Prop :=
  (cycle P fuel label.1).run w = some (label.2, w')

/-- Every PUBLISH that was received in the turn was sound. -/
def ReceivesSound (turn : Transition (World σ H) (Timer × Int)) : Prop :=
  ∀ call ∈ receptions (since turn.source turn.target), call.rc = MsgType.publish.code →
    ∀ header field cut body, ReadsPacket call.reads header field cut body →
      PublishIsSound header body

/-- Every handler called in the turn was given a payload in the frame just received,
a frame within the read buffer, and one that fits the message buffer. -/
def DeliversInFrame (turn : Transition (World σ H) (Timer × Int)) : Prop :=
  ∀ fp data, .call fp data ∈ since turn.source turn.target →
    ∃ header body offset, data.InFrame turn.target.client.readbuf header body offset ∧
      HoldsFrame.frameLength body ≤ mqttBufsize ∧ data.FitsMsgBuffer

/-- The frame left behind by `readPacket` fits a read buffer of the application's
size, and a payload in it fits the message buffer. -/
theorem FrameRead.frameLength_le {c : MQTTClient H} {call : Reception} {header : UInt8}
    {field : List UInt8} {cut : List ReadLog} {body : List UInt8}
    (h : FrameRead c call header field cut body) (hsize : c.readbufSize = mqttBufsize) :
    HoldsFrame.frameLength body ≤ mqttBufsize := by
  have hfield := mqttPacketEncode_length_le h.holds.length_lt
  have hfits := h.fits
  have hdiff : ((c.readbufSize : Int) - HoldsFrame.bodyStart body) =
      ((mqttBufsize - HoldsFrame.bodyStart body : Nat) : Int) := by
    rw [hsize]
    unfold mqttBufsize HoldsFrame.bodyStart
    omega
  rw [hdiff, toSizeT_of_lt (by unfold mqttBufsize; omega)] at hfits
  unfold mqttBufsize HoldsFrame.frameLength HoldsFrame.bodyStart at *
  omega

/-- A turn that receives only sound packets delivers in the frame. -/
theorem cycleStep_deliversInFrame {w w' : World σ H} {label : Timer × Int}
    (h : CycleStep P fuel w label w') (hsize : w.client.readbufSize = mqttBufsize)
    (hsound : ReceivesSound ⟨w, label, w'⟩) : DeliversInFrame ⟨w, label, w'⟩ := by
  obtain ⟨packetType, w₁, w₂, hread, hreact, hend⟩ := cycle_cases h
  obtain ⟨reads, w₀, hfetch, hw₁, hframe⟩ := readPacket_cases hread
  -- ending the session changes neither the trace nor the read buffer
  have hlast : w'.trace = w₂.trace ∧ w'.client.readbuf = w₂.client.readbuf := by
    rcases hend with ⟨_, _, rfl⟩ | ⟨_, rfl⟩
    · exact ⟨rfl, rfl⟩
    · exact ⟨rfl, dropSession_readbuf w₂.client⟩
  have hreceived : Received [⟨packetType, reads⟩] w w' := by
    have hall := ((hfetch.received packetType).trans
      (.of_emits (hw₁ ▸ hreact) fun e he => he.isSilent)).trans (.of_trace_eq hlast.1)
    simpa using hall
  intro fp data hcall
  obtain ⟨_, new, htrace, hreading, _⟩ := id hfetch
  obtain ⟨_, new', htrace', hnew'⟩ := id hreact
  have hsince : since w w' = new ++ [.packet packetType] ++ new' := by
    rw [since, hlast.1, htrace', hw₁, World.log, htrace]
    simp [List.append_assoc]
  rw [hsince] at hcall
  have hdelivery : packetType = MsgType.publish.code ∧
      (Event.call fp data).IsDelivery w₁.client.readbuf := by
    simp only [List.mem_append, List.mem_singleton, reduceCtorEq, or_false] at hcall
    rcases hcall with hcall | hcall
    · exact (hreading _ hcall).elim
    · exact (hnew' _ hcall).resolve_left id
  obtain ⟨rfl, hdelivery⟩ := hdelivery
  rcases hframe with hle | ⟨header, field, cut, body, hframe⟩
  · exact absurd hle (by decide)
  · have htype : (MQTTHeader.ofByte header).type = MsgType.publish.code := by
      have hrc := hframe.rc_eq
      simp only [Nat.cast_inj] at hrc
      exact hrc.symm
    have hone : PublishIsSound header body := by
      refine hsound ⟨_, reads⟩ ?_ rfl header field cut body hframe.toReadsPacket
      rw [hreceived.receptions_since]
      exact List.mem_singleton_self _
    obtain ⟨offset, hin⟩ := inFrame_of_isDelivery hframe.holds htype hone hdelivery
    have hsize₁ : w₁.client.readbufSize = mqttBufsize := by
      obtain ⟨⟨_, _, hclient⟩, _⟩ := hfetch
      rw [hw₁, World.log, hclient]
      exact hsize
    have hlen := hframe.frameLength_le hsize₁
    refine ⟨header, body, offset, ?_, hlen, fitsMsgBuffer_of_le ?_⟩
    · rw [hlast.2, hreact.readbuf]
      exact hin
    · have hstart := hin.start_le
      have hend := hin.end_le
      unfold HoldsFrame.bodyStart at hstart
      omega

/-- In every run of `cycle` over the application's buffers whose PUBLISH packets are
all sound, every handler is given a payload inside the frame just received, and
`MqttMessageArrived` copies at most 1023 bytes and leaves them terminated. -/
theorem run_deliversInFrame (P : Platform σ) (fuel : Nat) {w w' : World σ H}
    {turns : List (Transition (World σ H) (Timer × Int))}
    (hrun : Run (CycleStep P fuel) w turns w') (hsize : w.client.readbufSize = mqttBufsize)
    (hsound : ∀ turn ∈ turns, ReceivesSound turn) : ∀ turn ∈ turns, DeliversInFrame turn := by
  have hinv := (hrun.invariant (fun w => w.client.readbufSize = mqttBufsize) hsize hsound
    fun turn hstep _ hbefore => (cycle_sameSizes hstep).readbufSize.trans hbefore).2
  intro turn hmem
  obtain ⟨hstep, hbefore, _⟩ := hinv turn hmem
  exact cycleStep_deliversInFrame hstep hbefore (hsound turn hmem)

/-- A connected client with a handler for the topic `"a"`. -/
def listeningWorld (inbound : List UInt8) : World Recording Unit :=
  (connectedWorld inbound).update fun c =>
    { c with messageHandlers := fun i =>
        if i.val = 0 then ⟨some ⟨[97], by decide⟩, some ()⟩ else ⟨none, none⟩ }

/-- A PUBLISH at QoS 0 for that topic, with the payload `"b"`. -/
def plainPublish : Frame := .ofBody 0x30 [0, 1, 97, 98] (by decide)

/-- The run that receives just this packet. -/
theorem run_deliversInFrame_plainPublish :
    ∃ rc w', CycleStep (linuxPlatform Recording.host 8) 8 (listeningWorld plainPublish.bytes)
        (second, rc) w' ∧
      DeliversInFrame ⟨listeningWorld plainPublish.bytes, (second, rc), w'⟩ := by
  obtain ⟨rc, w', hrun, hobs⟩ := returns_of_map_eq
    (show ((cycle (linuxPlatform Recording.host 8) 8 second).run
      (listeningWorld plainPublish.bytes)).map (fun r => receptions r.2.trace) =
        some [⟨MsgType.publish.code, plainPublish.readLogs⟩] by decide)
  refine ⟨rc, w', hrun, run_deliversInFrame (linuxPlatform Recording.host 8) 8
    (.cons (l := (second, rc)) hrun (.nil w')) rfl ?_ _ (List.mem_singleton_self _)⟩
  intro turn hturn
  obtain rfl := List.mem_singleton.mp hturn
  intro call hcall _ header field cut body hreads
  obtain rfl := List.mem_singleton.mp ((congrArg (call ∈ ·) hobs).mp hcall)
  obtain ⟨rfl, _, _, rfl⟩ := hreads.unique (.of_readLogs (F := plainPublish) rfl)
  exact .inl ⟨1, rfl, by decide⟩

/-- A PUBLISH at QoS 1 whose topic fills the body: the handler is given a length of
`0xFFFFFFFE`. -/
theorem cycle_publish_without_identifier :
    ((cycle (linuxPlatform Recording.host 8) 8 second).run
      (listeningWorld [0x32, 3, 0, 1, 97])).map (fun r => r.2.trace.filterMap fun e =>
        match e with
        | .call _ data => some data.message.payloadlen
        | _ => none) = some [0xFFFFFFFE] := by
  decide

end MqttClient
