/-
# Two tasks and one inbound queue

`MQTTConnect` sets `isconnected` before `MqttConnectBroker` subscribes, and from
then on `mqtt_sub_task` takes turns of its own: both tasks read packets off the one
connection, and whoever runs `cycle` next gets the next packet.  The system below
has the broker's packets as a queue, `mqtt_pub_task` on its way through
`MqttConnectBroker`, and `mqtt_sub_task` in and out of `MQTTYield`.  A turn takes
the first packet of the queue; that `cycle` does so is `cycle_takes`.
-/

import MqttClient.Client.Exchange
import MqttClient.Semantics.Transition

namespace MqttClient

open Semantics Program

variable {σ H : Type}

/-! ## The system -/

/-- Where `mqtt_pub_task` is. -/
inductive PubPhase
  /-- In `MQTTConnect`, waiting for CONNACK. -/
  | connecting
  /-- `MQTTConnect` has returned and nothing has been subscribed yet. -/
  | connected
  /-- In `MQTTSubscribe`, waiting for SUBACK. -/
  | waiting
  /-- `MqttConnectBroker` has returned. -/
  | subscribed
  /-- The wait for SUBACK has failed and the connection is not closed yet. -/
  | abandoned
  /-- Something else has failed and the connection is not closed yet. -/
  | failed
  deriving DecidableEq, Repr

/-- A SUBSCRIBE has been sent on this connection and its SUBACK not been taken. -/
def PubPhase.awaitsSuback : PubPhase → Bool
  | waiting | abandoned => true
  | connecting | connected | subscribed | failed => false

/-- The packets that nobody has taken yet, and the two tasks. -/
structure Inbox where
  queue : List Frame
  isconnected : Bool
  pub : PubPhase
  /-- `mqtt_sub_task` is in `MQTTYield`, which does not look at `isconnected`. -/
  yielding : Bool
  /-- The broker has answered the last SUBSCRIBE. -/
  answered : Bool

/-- One step of the broker or of a task.  Whether a turn goes well is up to timers
and the network. -/
inductive Move
  | arrive (packet : Frame)
  | pubCycle (ok : Bool)
  | pubSubscribe
  | pubGiveUp
  | pubReconnect
  | subYield
  | subCycle (ok : Bool)
  | subReturn

/-- The packet is a SUBACK. -/
def Frame.isSuback (F : Frame) : Bool := F.type = MsgType.suback.code

/-- The CONNACK accepts the connection, as `MQTTDeserialize_connack` reads it: a body
too short for a return code leaves the preset 0. -/
def Frame.acceptsConnection (F : Frame) : Bool := F.body.length < 2 || F.body[1]? = some 0

namespace Inbox

/-- Before the first connection. -/
def start : Inbox := ⟨[], false, .connecting, false, false⟩

/-- A turn of either task takes the next packet: the packet, what `cycle` returns, and
what is left.  A turn that does not go well ends the session. -/
def take (s : Inbox) (ok : Bool) : Option (Frame × Int × Inbox) :=
  match s.queue with
  | [] => none
  | F :: rest =>
      some (F, if ok then F.type else failure,
        { s with queue := rest, isconnected := s.isconnected && ok })

/-- Where a turn that took `F` and in which `cycle` returned `rc` leaves
`mqtt_pub_task`. -/
def afterPubCycle (s : Inbox) (F : Frame) (rc : Int) : Option Inbox :=
  match s.pub with
  | .connecting =>
      if rc = MsgType.connack.code then
        if F.acceptsConnection then some { s with pub := .connected, isconnected := true }
        else some { s with pub := .failed }
      else if rc < 0 then some { s with pub := .failed } else some s
  | .waiting =>
      if rc = MsgType.suback.code then some { s with pub := .subscribed }
      else if rc < 0 then some { s with pub := .abandoned } else some s
  | .subscribed => if rc < 0 then some { s with pub := .failed } else some s -- in `MQTTPublish`
  | .connected | .abandoned | .failed => none

/-- One step.  The broker sends well-formed packets, and a SUBACK only as the one
answer to a SUBSCRIBE.  A new connection starts with an empty queue. -/
def step (s : Inbox) : Move → Option Inbox
  | .arrive packet =>
      if packet.packet?.isNone then none
      else if packet.isSuback then
        if s.pub.awaitsSuback && !s.answered then
          some { s with queue := s.queue ++ [packet], answered := true }
        else none
      else some { s with queue := s.queue ++ [packet] }
  | .pubCycle ok => (s.take ok).bind fun (F, rc, s) => s.afterPubCycle F rc
  | .pubSubscribe =>
      if s.pub = .connected then
        if s.isconnected then some { s with pub := .waiting, answered := false }
        else some { s with pub := .failed }
      else none
  | .pubGiveUp =>
      match s.pub with
      | .waiting => some { s with pub := .abandoned, isconnected := false }
      | .connecting | .connected | .subscribed =>
          some { s with pub := .failed, isconnected := false }
      | .abandoned | .failed => none
  | .pubReconnect =>
      match s.pub with
      | .abandoned | .failed =>
          some { s with queue := [], isconnected := false, pub := .connecting }
      | .connecting | .connected | .waiting | .subscribed => none
  | .subYield => if s.isconnected then some { s with yielding := true } else none
  | .subCycle ok =>
      if s.yielding then
        (s.take ok).map fun (_, rc, s) => if rc < 0 then { s with yielding := false } else s
      else none
  | .subReturn => some { s with yielding := false }

end Inbox

/-- A SUBACK that the step takes off the queue is taken by the `waitfor` of
`mqtt_pub_task`. -/
def SubackReachesWaiter (tr : Transition Inbox Move) : Prop :=
  match tr.label with
  | .subCycle _ => ∀ F ∈ tr.source.queue.head?, F.isSuback = false
  | .pubCycle _ => ∀ F ∈ tr.source.queue.head?, F.isSuback = true → tr.source.pub = .waiting
  | _ => True

instance : DecidablePred SubackReachesWaiter
  | ⟨s, .subCycle _, _⟩ => inferInstanceAs (Decidable (∀ F ∈ s.queue.head?, F.isSuback = false))
  | ⟨s, .pubCycle _, _⟩ =>
      inferInstanceAs (Decidable (∀ F ∈ s.queue.head?, F.isSuback = true → s.pub = .waiting))
  | ⟨_, .arrive _, _⟩ | ⟨_, .pubSubscribe, _⟩ | ⟨_, .pubGiveUp, _⟩ | ⟨_, .pubReconnect, _⟩
  | ⟨_, .subYield, _⟩ | ⟨_, .subReturn, _⟩ => isTrue trivial

/-- The step is not a turn of `mqtt_sub_task` while a SUBACK is awaited. -/
def SubTaskStaysOut (tr : Transition Inbox Move) : Bool :=
  match tr.label with
  | .subCycle _ => !tr.source.pub.awaitsSuback
  | _ => true

/-! ## The client takes the packets of the queue -/

section Refinement

variable {P : Platform σ} {pending : σ → List UInt8} {good : σ → Prop} {limit fuel : Nat}

/-- The queue is what the stream still has, in packets the client can take. -/
structure Inbox.Represents (pending : σ → List UInt8) (good : σ → Prop) (limit : Nat)
    (s : Inbox) (w : World σ H) : Prop where
  atStream : AtStream pending good (s.queue.flatMap Frame.bytes) w
  isconnected_eq : w.client.isconnected = s.isconnected
  bufSize_ge : 4 ≤ toInt w.client.bufSize
  readbufSize_le : w.client.readbufSize ≤ limit
  readbufSize_lt : w.client.readbufSize < 2 ^ 64
  wellFormed : ∀ F ∈ s.queue, F.packet?.isSome
  fits : ∀ F ∈ s.queue, HoldsFrame.frameLength F.body ≤ w.client.readbufSize

/-- A turn that takes a well-formed packet returns its type and keeps the session, or
fails and ends it. -/
theorem cycle_outcome {timer : Timer} {F : Frame} {p : Inbound} {rc : Int} {w w' : World σ H}
    (hpacket : F.packet? = some p)
    (hread : (readPacket P timer).Ensures w fun packetType _ => packetType = F.type)
    (hrun : (cycle P fuel timer).run w = some (rc, w')) :
    ∃ ok : Bool, rc = (if ok then (F.type : Int) else failure) ∧
      w'.client.isconnected = (w.client.isconnected && ok) := by
  obtain ⟨packetType, w₁, w₂, hpacketRun, hreact, hend⟩ := cycle_cases hrun
  obtain rfl := hread packetType w₁ hpacketRun
  obtain ⟨reads, w₀, hfetch, rfl, _⟩ := readPacket_cases hpacketRun
  rcases hend with ⟨_, rfl, rfl⟩ | ⟨hrc, rfl⟩
  · refine ⟨true, rfl, ?_⟩
    rw [Bool.and_true, hreact.isconnected]
    exact hfetch.isconnected
  · rw [if_pos (isHandled_of_packet? hpacket)] at hrc
    refine ⟨false, hrc, ?_⟩
    rw [Bool.and_false]
    exact w₂.client.dropSession_isconnected

/-- A turn of either task takes the first packet of the queue. -/
theorem cycle_takes (hstream : Streams P pending) (hsupply : Supplies P pending good limit)
    (haccept : AcceptsWrites P good) (hfuel : 2 ≤ fuel) {s : Inbox} {w : World σ H}
    (h : s.Represents pending good limit w) (hne : s.queue ≠ []) (timer : Timer) :
    (cycle P fuel timer).Returns w fun rc w' =>
      ∃ ok F t, s.take ok = some (F, rc, t) ∧ t.Represents pending good limit w' := by
  obtain ⟨F, rest, hqueue⟩ := List.exists_cons_of_ne_nil hne
  have hF : F ∈ s.queue := by rw [hqueue]; exact List.mem_cons_self
  obtain ⟨p, hpacket⟩ := Option.isSome_iff_exists.mp (h.wellFormed F hF)
  have hat := h.atStream
  rw [hqueue, List.flatMap_cons] at hat
  have hread := (readPacket_returns hstream hsupply timer h.readbufSize_le h.readbufSize_lt
    (h.fits F hF) hat).mono fun packetType _ hpost => hpost.1
  obtain ⟨rc, w', hrun, hat', _⟩ := cycle_returns hstream hsupply haccept hfuel hpacket
    h.bufSize_ge h.readbufSize_le h.readbufSize_lt (h.fits F hF) timer hat
  have hsizes := cycle_sameSizes hrun
  obtain ⟨ok, hrc, hconnected⟩ := cycle_outcome hpacket hread.ensures hrun
  refine ⟨rc, w', hrun, ok, F, { s with queue := rest, isconnected := s.isconnected && ok }, ?_, ?_⟩
  · simp only [Inbox.take, hqueue, hrc]
  · have hlater : ∀ G ∈ rest, G ∈ s.queue := fun G hG => by
      rw [hqueue]
      exact List.mem_cons_of_mem F hG
    exact {
      atStream := hat'
      isconnected_eq := by rw [hconnected, h.isconnected_eq]
      bufSize_ge := hsizes.bufSize ▸ h.bufSize_ge
      readbufSize_le := hsizes.readbufSize ▸ h.readbufSize_le
      readbufSize_lt := hsizes.readbufSize ▸ h.readbufSize_lt
      wellFormed := fun G hG => h.wellFormed G (hlater G hG)
      fits := fun G hG => hsizes.readbufSize ▸ h.fits G (hlater G hG) }

end Refinement

/-! ## The invariant -/

namespace Inbox

/-- The number of SUBACKs in the queue. -/
def subacks (s : Inbox) : Nat := s.queue.countP Frame.isSuback

/-- A SUBACK is in the queue only while it is awaited, and then it is the only one. -/
structure Awaited (s : Inbox) : Prop where
  le_one : s.subacks ≤ if s.answered then 1 else 0
  eq_zero : s.pub.awaitsSuback = false → s.subacks = 0

theorem take_cases {s t : Inbox} {ok : Bool} {F : Frame} {rc : Int}
    (h : s.take ok = some (F, rc, t)) :
    rc = (if ok then (F.type : Int) else failure) ∧ t.pub = s.pub ∧ t.answered = s.answered ∧
      s.subacks = t.subacks + (if F.isSuback then 1 else 0) := by
  unfold take at h
  split at h
  · cases h
  · rename_i F rest hqueue
    cases h
    refine ⟨rfl, rfl, rfl, ?_⟩
    rw [subacks, hqueue, List.countP_cons]
    rfl

/-- The invariant only looks at the SUBACKs in the queue, the phase and the answer. -/
theorem Awaited.of_le {s t : Inbox} (h : s.Awaited) (hle : t.subacks ≤ s.subacks)
    (hanswered : t.answered = s.answered)
    (hphase : t.pub.awaitsSuback = false → s.pub.awaitsSuback = false ∨ t.subacks = 0) :
    t.Awaited := by
  refine ⟨hanswered ▸ Nat.le_trans hle h.le_one, fun hno => ?_⟩
  rcases hphase hno with hbefore | hzero
  · have hzero := h.eq_zero hbefore
    omega
  · exact hzero

theorem awaited_afterPubCycle {s t u : Inbox} {ok : Bool} {F : Frame} {rc : Int} (h : s.Awaited)
    (htake : s.take ok = some (F, rc, t)) (hafter : t.afterPubCycle F rc = some u) :
    u.Awaited := by
  obtain ⟨hrc, hpub, hanswered, hcount⟩ := take_cases htake
  have hle : t.subacks ≤ s.subacks := by omega
  unfold afterPubCycle at hafter
  split at hafter
  · rename_i hphase
    have hbefore : s.pub.awaitsSuback = false := by rw [← hpub, hphase]; rfl
    split at hafter
    · split at hafter
      · cases hafter
        exact h.of_le hle hanswered fun _ => .inl hbefore
      · cases hafter
        exact h.of_le hle hanswered fun _ => .inl hbefore
    · split at hafter
      · cases hafter
        exact h.of_le hle hanswered fun _ => .inl hbefore
      · cases hafter
        exact h.of_le hle hanswered fun _ => .inl hbefore
  · rename_i hphase
    split at hafter
    · -- the packet taken is the one SUBACK there can be
      rename_i hsuback
      have hone : s.subacks ≤ 1 := Nat.le_trans h.le_one (by split <;> decide)
      have htaken : F.isSuback = true := by
        cases ok with
        | false =>
            rw [hsuback] at hrc
            cases hrc
        | true => exact decide_eq_true (Int.natCast_inj.mp (hrc.symm.trans hsuback))
      rw [if_pos htaken] at hcount
      cases hafter
      exact h.of_le hle hanswered fun _ => .inr (show t.subacks = 0 by omega)
    · split at hafter
      · cases hafter
        exact h.of_le hle hanswered fun hno => by cases hno
      · cases hafter
        exact h.of_le hle hanswered fun hno => by rw [hphase] at hno; cases hno
  · rename_i hphase
    have hbefore : s.pub.awaitsSuback = false := by rw [← hpub, hphase]; rfl
    split at hafter
    · cases hafter
      exact h.of_le hle hanswered fun _ => .inl hbefore
    · cases hafter
      exact h.of_le hle hanswered fun _ => .inl hbefore
  all_goals cases hafter

theorem awaited_arrive {s t : Inbox} {packet : Frame} (h : s.Awaited)
    (hstep : s.step (.arrive packet) = some t) : t.Awaited := by
  simp only [step] at hstep
  split at hstep
  · cases hstep
  · split at hstep
    · rename_i hsuback
      split at hstep
      · rename_i hawaits
        obtain ⟨hphase, hunanswered⟩ := Bool.and_eq_true_iff.mp hawaits
        have hzero := h.le_one
        rw [show s.answered = false by simpa using hunanswered] at hzero
        cases hstep
        refine ⟨?_, fun hno => by rw [hphase] at hno; cases hno⟩
        have hcount : List.countP Frame.isSuback (s.queue ++ [packet]) = s.subacks + 1 := by
          rw [List.countP_append, List.countP_singleton, if_pos hsuback]
          rfl
        show List.countP Frame.isSuback (s.queue ++ [packet]) ≤ 1
        rw [hcount]
        exact Nat.succ_le_succ hzero
      · cases hstep
    · rename_i hother
      cases hstep
      have hcount : List.countP Frame.isSuback (s.queue ++ [packet]) = s.subacks := by
        rw [List.countP_append, List.countP_singleton, if_neg hother]
        rfl
      exact h.of_le (Nat.le_of_eq hcount) rfl .inl

/-- Every step keeps it, also a turn of `mqtt_sub_task` that takes the SUBACK. -/
theorem awaited_step {s t : Inbox} {move : Move} (h : s.Awaited) (hstep : s.step move = some t) :
    t.Awaited := by
  cases move with
  | arrive packet => exact awaited_arrive h hstep
  | pubCycle ok =>
      obtain ⟨⟨F, rc, u⟩, htake, hafter⟩ := Option.bind_eq_some_iff.mp hstep
      exact awaited_afterPubCycle h htake hafter
  | pubSubscribe =>
      simp only [step] at hstep
      split at hstep
      · rename_i hphase
        have hbefore : s.pub.awaitsSuback = false := by rw [hphase]; rfl
        have hzero := h.eq_zero hbefore
        split at hstep
        · cases hstep
          exact ⟨Nat.le_of_eq hzero, fun hno => by cases hno⟩
        · cases hstep
          exact h.of_le (Nat.le_refl _) rfl fun _ => .inl hbefore
      · cases hstep
  | pubGiveUp =>
      simp only [step] at hstep
      split at hstep
      · cases hstep
        exact h.of_le (Nat.le_refl _) rfl fun hno => by cases hno
      · rename_i hphase
        cases hstep
        exact h.of_le (Nat.le_refl _) rfl fun _ => .inl (by rw [hphase]; rfl)
      · rename_i hphase
        cases hstep
        exact h.of_le (Nat.le_refl _) rfl fun _ => .inl (by rw [hphase]; rfl)
      · rename_i hphase
        cases hstep
        exact h.of_le (Nat.le_refl _) rfl fun _ => .inl (by rw [hphase]; rfl)
      all_goals cases hstep
  | pubReconnect =>
      simp only [step] at hstep
      have hempty : ({ s with queue := [], isconnected := false, pub := .connecting } :
          Inbox).Awaited := h.of_le (Nat.zero_le _) rfl fun _ => .inr rfl
      split at hstep
      · cases hstep
        exact hempty
      · cases hstep
        exact hempty
      all_goals cases hstep
  | subYield =>
      simp only [step] at hstep
      split at hstep
      · cases hstep
        exact h.of_le (Nat.le_refl _) rfl .inl
      · cases hstep
  | subCycle ok =>
      simp only [step] at hstep
      split at hstep
      · obtain ⟨⟨F, rc, u⟩, htake, heq⟩ := Option.map_eq_some_iff.mp hstep
        obtain ⟨_, hpub, hanswered, hcount⟩ := take_cases htake
        have hkept : u.Awaited := h.of_le (by omega) hanswered fun hno => .inl (hpub ▸ hno)
        dsimp only at heq
        split at heq
        · cases heq
          exact hkept.of_le (Nat.le_refl _) rfl .inl
        · cases heq
          exact hkept
      · cases hstep
  | subReturn =>
      cases hstep
      exact h.of_le (Nat.le_refl _) rfl .inl

/-- Where no SUBACK is awaited, the next packet is none. -/
theorem Awaited.head_ne {s : Inbox} (h : s.Awaited) (hphase : s.pub.awaitsSuback = false)
    {F : Frame} (hF : F ∈ s.queue.head?) : F.isSuback = false := by
  have hnone := List.countP_eq_zero.mp (h.eq_zero hphase) F (List.mem_of_mem_head? hF)
  exact Bool.not_eq_true _ ▸ hnone

/-- In a run, a turn of `mqtt_pub_task` finds a SUBACK only while it waits for one. -/
theorem Awaited.pub_waiting {s t : Inbox} {ok : Bool} (h : s.Awaited)
    (hstep : s.step (.pubCycle ok) = some t) {F : Frame} (hF : F ∈ s.queue.head?)
    (hsuback : F.isSuback = true) : s.pub = .waiting := by
  obtain ⟨⟨_, rc, u⟩, htake, hafter⟩ := Option.bind_eq_some_iff.mp hstep
  obtain ⟨_, hpub, _⟩ := take_cases htake
  cases hphase : s.pub with
  | waiting => rfl
  | connecting | connected | subscribed | failed =>
      rw [h.head_ne (by rw [hphase]; rfl) hF] at hsuback
      cases hsuback
  | abandoned =>
      rw [hphase] at hpub
      simp [afterPubCycle, hpub] at hafter

end Inbox

/-- Over every interleaving: a turn of `mqtt_sub_task` that is not taken while a SUBACK
is awaited leaves the SUBACK alone, and so every SUBACK that is taken then is taken by
the `waitfor` it answers. -/
theorem suback_reaches_waiter (run : List (Transition Inbox Move)) (t : Inbox)
    (hrun : Run (fun s move t => s.step move = some t) Inbox.start run t)
    (hout : ∀ tr ∈ run, SubTaskStaysOut tr = true) : ∀ tr ∈ run, SubackReachesWaiter tr := by
  have hinit : Inbox.start.Awaited := ⟨Nat.le_refl 0, fun _ => rfl⟩
  obtain ⟨_, hall⟩ := hrun.invariant Inbox.Awaited hinit hout
    fun tr hstep _ h => Inbox.awaited_step h hstep
  intro tr htr
  obtain ⟨hstep, hawaited, _⟩ := hall tr htr
  have hstays := hout tr htr
  obtain ⟨s, move, t⟩ := tr
  cases move with
  | subCycle ok =>
      intro F hF
      exact hawaited.head_ne (by simpa [SubTaskStaysOut] using hstays) hF
  | pubCycle ok =>
      intro F hF hsuback
      exact hawaited.pub_waiting hstep hF hsuback
  | _ => trivial

/-- A CONNACK that accepts. -/
def acceptingConnack : Frame := .ofBody 0x20 [0, 0] (by decide)

/-- A SUBACK for identifier 2 that grants QoS 0. -/
def grantingSuback : Frame := .ofBody 0x90 [0, 2, 0] (by decide)

/-- `mqtt_pub_task` connects and subscribes while `mqtt_sub_task` is still asleep. -/
theorem suback_reaches_waiter_asleep :
    ∃ run t, Run (fun s move t => Inbox.step s move = some t) Inbox.start run t ∧
      t.pub = .subscribed ∧ t.queue = [] ∧ ∀ tr ∈ run, SubackReachesWaiter tr := by
  obtain ⟨⟨run, t⟩, hreplay, hobs⟩ := Option.map_eq_some_iff.mp
    (show (replay Inbox.step .start [.arrive acceptingConnack, .pubCycle true, .pubSubscribe,
        .arrive grantingSuback, .pubCycle true, .subYield]).map
      (fun r => (r.2.pub, r.2.queue.length, r.1.all SubTaskStaysOut)) =
      some (.subscribed, 0, true) by decide)
  obtain ⟨hpub, hrest⟩ := Prod.mk.inj hobs
  obtain ⟨hqueue, hout⟩ := Prod.mk.inj hrest
  have hrun := run_of_replay hreplay
  exact ⟨run, t, hrun, hpub, List.length_eq_zero_iff.mp hqueue,
    suback_reaches_waiter run t hrun (List.all_eq_true.mp hout)⟩

/-- `mqtt_sub_task` sees `isconnected` while the SUBSCRIBE is under way, takes the
SUBACK, and `mqtt_pub_task` waits in vain until it gives the session up. -/
theorem suback_taken_by_sub_task :
    ∃ run t, Run (fun s move t => Inbox.step s move = some t) Inbox.start run t ∧
      (∃ tr ∈ run, ¬ SubackReachesWaiter tr) ∧ t.pub = .abandoned ∧ t.isconnected = false := by
  obtain ⟨⟨run, t⟩, hreplay, hobs⟩ := Option.map_eq_some_iff.mp
    (show (replay Inbox.step .start [.arrive acceptingConnack, .pubCycle true, .pubSubscribe,
        .subYield, .arrive grantingSuback, .subCycle true, .pubGiveUp]).map
      (fun r => (decide (∃ tr ∈ r.1, ¬ SubackReachesWaiter tr), r.2.pub, r.2.isconnected)) =
      some (true, .abandoned, false) by decide)
  obtain ⟨htaken, hrest⟩ := Prod.mk.inj hobs
  obtain ⟨hpub, hclosed⟩ := Prod.mk.inj hrest
  exact ⟨run, t, run_of_replay hreplay, of_decide_eq_true htaken, hpub, hclosed⟩

end MqttClient
