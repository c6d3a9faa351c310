/-
# From the PLC to the broker

The whole program is three tasks: `modbus_task` reads a register of the PLC and hands its
value over, `mqtt_pub_task` takes it and publishes it, `mqtt_sub_task` takes turns of the
client.  Here they run together, step by step and in any order, on the same `shared_value`,
the same client and the same connection.

Two things are taken for granted that the source does not enforce.  No two calls of the
client overlap: `mqtt_pub_task` and `mqtt_sub_task` make them without a lock, and what comes
of overlapping ones is the matter of `SharedBuffer` and `SubackQueue`.  And nobody but
`modbus_task` closes the descriptor of its connection, although descriptors belong to the
whole process.

In these runs, whatever the PLC, the broker and the network do, what is published are values
of the register: every PUBLISH on the wire carries the text of a value that the PLC has
answered, the values come in the order in which they were read, and none comes twice.  Some
are lost, and only two things are needed: no wait ends without a signal, and no read ends in
a Modbus exception, after which the task relays what it has not read.
-/

import MqttClient.Tasks.Conversation
import MqttClient.Tasks.ModbusTask
import MqttClient.Tasks.SharedValue

namespace MqttClient

open Semantics Program

variable {σ τ : Type}

/-! ## The Modbus task, step by step -/

/-- Where `modbus_task` is between its calls of `platform.h` and nanoMODBUS. -/
inductive PlcPoint
  /-- Before `connect_tcp`. -/
  | connecting (nAttemps : Nat)
  /-- Before `nmbs_client_create`. -/
  | creating (fd : Int)
  /-- Before `nmbs_read_holding_registers`. -/
  | reading (fd : Int)
  /-- Between the two calls, with `r_regs[0]` as it was shared. -/
  | sharing (fd : Int) (register : UInt16)
  | returned
  deriving DecidableEq, Repr

/-- The calls with their outcome; of a read also what `r_regs[0]` holds after it. -/
inductive PlcCall
  | connect (success : Bool)
  | create (err : NmbsError)
  | read (err : NmbsError) (register : UInt16)
  | write (err : NmbsError)
  deriving DecidableEq, Repr

/-- One call of `modbus_task`, with the calls of `disconnect` that its error causes. -/
inductive PlcStep (E : ModbusHost τ) (config : ModbusTaskConfig) :
    PlcPoint → τ → PlcCall → PlcPoint → τ → Prop
  | connected {nAttemps : Nat} {fd : Int} {env env' : τ}
      (hrun : (E.connectTcp config.plcIp config.plcPort).run env = some (some fd, env')) :
      PlcStep E config (.connecting nAttemps) env (.connect true) (.creating fd) env'
  | notConnected {nAttemps : Nat} {env env' : τ}
      (hrun : (E.connectTcp config.plcIp config.plcPort).run env = some (none, env')) :
      PlcStep E config (.connecting nAttemps) env (.connect false)
        (if nAttemps + 1 < maxConnAttemps then .connecting (nAttemps + 1) else .returned) env'
  | created {fd : Int} {err : NmbsError} {env env' : τ}
      (hrun : (E.nmbsClientCreate fd).run env = some (err, env')) :
      PlcStep E config (.creating fd) env (.create err)
        (if err = .other then .returned else .reading fd) env'
  | read {fd : Int} {before value : UInt16} {err : NmbsError} {env env₁ env' : τ}
      (hbefore : E.uninitialised.run env = some (before, env₁))
      (hrun : (E.nmbsReadHoldingRegisters fd config.plcRegister).run env₁ =
        some ((err, value), env')) (hgoes : err ≠ .other) :
      PlcStep E config (.reading fd) env (.read err (if err = .none then value else before))
        (.sharing fd (if err = .none then value else before)) env'
  | readFailed {fd : Int} {before value : UInt16} {env env₁ env₂ env₃ env' : τ}
      (hbefore : E.uninitialised.run env = some (before, env₁))
      (hrun : (E.nmbsReadHoldingRegisters fd config.plcRegister).run env₁ =
        some ((.other, value), env₂))
      (hdisconnect : (E.disconnect fd).run env₂ = some (⟨⟩, env₃))
      (hfinal : (E.disconnect fd).run env₃ = some (⟨⟩, env')) :
      PlcStep E config (.reading fd) env (.read .other before) .returned env'
  | wrote {fd : Int} {register : UInt16} {env env' : τ}
      (hrun : (E.nmbsWriteMultipleRegisters fd config.plcRegister (register + 1)).run env =
        some (.none, env')) :
      PlcStep E config (.sharing fd register) env (.write .none) (.reading fd) env'
  | writeRefused {fd : Int} {register : UInt16} {env env₁ env' : τ}
      (hrun : (E.nmbsWriteMultipleRegisters fd config.plcRegister (register + 1)).run env =
        some (.exception, env₁))
      (hfinal : (E.disconnect fd).run env₁ = some (⟨⟩, env')) :
      PlcStep E config (.sharing fd register) env (.write .exception) .returned env'
  | writeFailed {fd : Int} {register : UInt16} {env env₁ env₂ env' : τ}
      (hrun : (E.nmbsWriteMultipleRegisters fd config.plcRegister (register + 1)).run env =
        some (.other, env₁))
      (hdisconnect : (E.disconnect fd).run env₁ = some (⟨⟩, env₂))
      (hfinal : (E.disconnect fd).run env₂ = some (⟨⟩, env')) :
      PlcStep E config (.sharing fd register) env (.write .other) .returned env'

/-! ## The three tasks together -/

/-- A step of the monitor that belongs to no other step of the tasks. -/
def Handover.Move.isInternal : Handover.Move → Bool
  | read _ | connect _ | giveUp | publish _ | sleepOver _ => false
  | _ => true

/-- What a step of `mqtt_pub_task` that ends at this point is for the handover. -/
def AppMove.handover? (move : AppMove σ) (at' : PubPoint) : Option Handover.Move :=
  match move with
  | publish _ _ => some (.publish (at' = .sleeping))
  | finishRound => some (.sleepOver (at' = .waiting))
  | subscribe _ => if at' = .waiting then some (.connect true) else none
  | disconnectNetwork _ => if at' = .returned then some .giveUp else none
  | _ => none

/-- The value in `r_regs[0]` that is shared after the call. -/
def PlcCall.register? : PlcCall → Option UInt16
  | read err register => if err = .other then none else some register
  | _ => none

/-- The three tasks and what they share.  `plcEnv` is the PLC with the connection to it, which
is the Modbus task's own. -/
structure Gateway (σ τ : Type) where
  app : Application σ
  handover : Handover
  plc : PlcPoint
  plcEnv : τ

/-- A step of one of the tasks. -/
inductive GatewayMove (σ : Type)
  | plc (call : PlcCall)
  | share (move : Handover.Move)
  | app (move : AppMove σ)

/-- The program starts its threads. -/
def Gateway.start (env : σ) (plcEnv : τ) : Gateway σ τ :=
  ⟨.start env, .start, .connecting 0, plcEnv⟩

/-- One step of the program, in the runs in which no two calls of the client overlap and no
other task closes the descriptor of the PLC's connection: a call of the client is one step, and
`plcEnv` changes in the calls of `modbus_task` only. -/
inductive GatewayStep (P : Platform σ) (fuel : Nat) (config : MqttConfig) (E : ModbusHost τ)
    (task : ModbusTaskConfig) : Gateway σ τ → GatewayMove σ → Gateway σ τ → Prop
  /-- `modbus_task` calls, outside of its critical section. -/
  | plc {s : Gateway σ τ} {call : PlcCall} {plc : PlcPoint} {plcEnv : τ}
      (hstep : PlcStep E task s.plc s.plcEnv call plc plcEnv)
      (hoff : call.register? = none) (hunlocked : s.handover.modbus = .reading) :
      GatewayStep P fuel config E task s (.plc call) { s with plc, plcEnv }
  /-- `modbus_task` has read a register, and goes on to share it. -/
  | read {s : Gateway σ τ} {call : PlcCall} {register : UInt16} {plc : PlcPoint} {plcEnv : τ}
      {handover : Handover} (hstep : PlcStep E task s.plc s.plcEnv call plc plcEnv)
      (hregister : call.register? = some register)
      (hshare : Handover.Step s.handover (.read register) handover) :
      GatewayStep P fuel config E task s (.plc call) { s with plc, plcEnv, handover }
  /-- A task goes on in its critical section, or into it or out of it. -/
  | share {s : Gateway σ τ} {move : Handover.Move} {handover : Handover}
      (hinternal : move.isInternal = true) (hshare : Handover.Step s.handover move handover) :
      GatewayStep P fuel config E task s (.share move) { s with handover }
  /-- `mqtt_pub_task` or `mqtt_sub_task` does something that is no step of the handover. -/
  | app {s : Gateway σ τ} {move : AppMove σ} {app : Application σ}
      (hstep : AppStep P fuel config s.app move app) (halone : move.handover? app.pub = none) :
      GatewayStep P fuel config E task s (.app move) { s with app }
  /-- `mqtt_pub_task` enters its loop, leaves it, or publishes what it has taken. -/
  | joint {s : Gateway σ τ} {move : AppMove σ} {shared : Handover.Move} {app : Application σ}
      {handover : Handover} (hstep : AppStep P fuel config s.app move app)
      (hjoint : move.handover? app.pub = some shared)
      (hvalue : ∀ value message, move = .publish value message →
        s.handover.pub = .publishing value)
      (hshare : Handover.Step s.handover shared handover) :
      GatewayStep P fuel config E task s (.app move) { s with app, handover }

/-- The step of the handover that a step of the program is. -/
def handoverMove? (tr : Transition (Gateway σ τ) (GatewayMove σ)) : Option Handover.Move :=
  match tr.label with
  | .plc call => call.register?.map .read
  | .share move => some move
  | .app move => move.handover? tr.target.app.pub

/-- The handover in a run of the program. -/
def handoverRun (run : List (Transition (Gateway σ τ) (GatewayMove σ))) :
    List (Transition Handover Handover.Move) :=
  Run.project Gateway.handover handoverMove? run

variable {P : Platform σ} {fuel : Nat} {config : MqttConfig} {E : ModbusHost τ}
  {task : ModbusTaskConfig}

/-- A step of the program leaves the handover alone, or is a step of it. -/
theorem GatewayStep.handover {tr : Transition (Gateway σ τ) (GatewayMove σ)}
    (hstep : GatewayStep P fuel config E task tr.source tr.label tr.target) :
    handoverMove? tr = none ∧ tr.target.handover = tr.source.handover ∨
      ∃ move, handoverMove? tr = some move ∧
        Handover.Step tr.source.handover move tr.target.handover := by
  obtain ⟨s, label, t⟩ := tr
  unfold handoverMove?
  dsimp only at hstep ⊢
  cases hstep with
  | plc _ hoff => exact .inl ⟨by simp [hoff], rfl⟩
  | read _ hregister hshare => exact .inr ⟨_, by simp [hregister], hshare⟩
  | share _ hshare => exact .inr ⟨_, rfl, hshare⟩
  | app _ halone => exact .inl ⟨halone, rfl⟩
  | joint _ hjoint _ hshare => exact .inr ⟨_, hjoint, hshare⟩

/-- In a run of the program the handover runs by itself. -/
theorem run_handoverRun {run : List (Transition (Gateway σ τ) (GatewayMove σ))} {s t : Gateway σ τ}
    (h : Run (GatewayStep P fuel config E task) s run t) :
    Run Handover.Step s.handover (handoverRun run) t.handover :=
  h.of_project fun _ hstep => hstep.handover

/-! ## The values on their way -/

/-- The value that `modbus_task` has read and not stored. -/
def ModbusAt.unstored : ModbusAt → List Nat
  | locking value | storing value => [value.toNat]
  | reading | signalling | unlocking => []

/-- The value that `mqtt_pub_task` has taken and not published. -/
def PubAt.unpublished : PubAt → List Nat
  | unlocking value | publishing value => [value]
  | _ => []

namespace Handover

/-- The value that a step reads. -/
def readValue? (tr : Transition Handover Move) : Option Nat :=
  match tr.label with
  | .read value => some value.toNat
  | _ => none

/-- The value that a step publishes, or tries to. -/
def offered? (tr : Transition Handover Move) : Option Nat :=
  match tr.label, tr.source.pub with
  | .publish _, .publishing value => some value
  | _, _ => none

/-- The values that were read are those that were stored, and the one to be stored. -/
theorem stored_append_unstored {run : List (Transition Handover Move)} {s : Handover}
    (hrun : Run Step start run s) :
    stored run ++ s.modbus.unstored = run.filterMap readValue? := by
  refine hrun.history (fun run s => stored run ++ s.modbus.unstored = run.filterMap readValue?)
    rfl fun before tr _ _ hstep h => ?_
  obtain ⟨s, move, t⟩ := tr
  dsimp only at hstep h ⊢
  rw [stored_concat, filterMap_concat, ← h]
  cases hstep with
  | read value hat => simp [hat, stored?, readValue?, ModbusAt.unstored]
  | modbusLock hat => simp [hat, stored?, readValue?, ModbusAt.unstored]
  | store hat => simp [hat, stored?, readValue?, ModbusAt.unstored]
  | signal hat => simp [hat, stored?, readValue?, ModbusAt.unstored]
  | modbusUnlock hat => simp [hat, stored?, readValue?, ModbusAt.unstored]
  | _ => simp [stored?, readValue?]

/-- The values that were taken are those that were published, and the one to be published. -/
theorem offered_append_unpublished {run : List (Transition Handover Move)} {s : Handover}
    (hrun : Run Step start run s) :
    run.filterMap offered? ++ s.pub.unpublished = taken run := by
  refine hrun.history (fun run s => run.filterMap offered? ++ s.pub.unpublished = taken run)
    rfl fun before tr _ _ hstep h => ?_
  obtain ⟨s, move, t⟩ := tr
  dsimp only at hstep h ⊢
  rw [taken_concat, filterMap_concat, ← h]
  cases hstep with
  | connect success hat => cases success <;> simp [hat, taken?, offered?, PubAt.unpublished]
  | giveUp hat => simp [hat, taken?, offered?, PubAt.unpublished]
  | pubLock hat => simp [hat, taken?, offered?, PubAt.unpublished]
  | block hat => simp [hat, taken?, offered?, PubAt.unpublished]
  | reacquire hat => simp [hat, taken?, offered?, PubAt.unpublished]
  | take hat => simp [hat, taken?, offered?, PubAt.unpublished]
  | pubUnlock hat => simp [hat, taken?, offered?, PubAt.unpublished]
  | publish success hat => cases success <;> simp [hat, taken?, offered?, PubAt.unpublished]
  | sleepOver success hat => cases success <;> simp [hat, taken?, offered?, PubAt.unpublished]
  | _ => simp [taken?, offered?]

/-- Without spurious wake-ups, what is published was read, in this order. -/
theorem offered_sublist_read {run : List (Transition Handover Move)} {s : Handover}
    (hrun : Run Step start run s) (hwake : ∀ tr ∈ run, tr.label ≠ .wakeUp) :
    (run.filterMap offered?).Sublist (run.filterMap readValue?) := by
  have hstart : InOrder [] start :=
    ⟨located_start, List.Sublist.refl _, by rintro (h | h | h) <;> cases h⟩
  have horder : InOrder run s := hrun.history InOrder hstart fun before tr after heq hstep h =>
    inOrder_step hstep (hwake tr (by simp [heq])) h
  have htaken : (run.filterMap offered?).Sublist (taken run) := by
    rw [← offered_append_unpublished hrun]
    exact List.sublist_append_left _ _
  have hstored : (stored run).Sublist (run.filterMap readValue?) := by
    rw [← stored_append_unstored hrun]
    exact List.sublist_append_left _ _
  exact (htaken.trans horder.sublist).trans hstored

end Handover

/-! ## The publications -/

/-- The packet is a PUBLISH. -/
def isPublish : List UInt8 → Bool
  | [] => false
  | header :: _ => (MQTTHeader.ofByte header).type == MsgType.publish.code

theorem IsPacketOf.isPublish_eq {type : MsgType} {packet : List UInt8}
    (h : IsPacketOf type packet) : isPublish packet = (type.code == MsgType.publish.code) := by
  obtain ⟨header, body, rfl, htype⟩ := h
  rw [isPublish, htype]

theorem filter_turns {turns : List (List UInt8)} (h : ∀ packet ∈ turns, IsTurnPacket packet) :
    turns.filter isPublish = [] := by
  rw [List.filter_eq_nil_iff]
  intro packet hmem
  obtain ⟨type, htype, hpacket⟩ := h packet hmem
  rw [hpacket.isPublish_eq]
  rcases htype with hreply | rfl
  · cases type <;> first | decide | cases hreply
  · decide

theorem Asked.filter {request : Request} {packets : List (List UInt8)} (h : Asked request packets) :
    packets.filter isPublish = [] ∨ request.type = .publish ∧
      ∃ packet, packets.filter isPublish = [packet] ∧ request.IsWrittenAs packet := by
  cases h with
  | silent => exact .inl rfl
  | @own packet turns hpacket hturns =>
      rw [List.filter_cons, filter_turns hturns, hpacket.1.isPublish_eq]
      by_cases htype : request.type = .publish
      · rw [htype]
        exact .inr ⟨rfl, packet, rfl, hpacket⟩
      · refine .inl (if_neg fun hcode => htype ?_)
        revert hcode
        cases request.type <;> decide

/-- Only the publication of a value sends a PUBLISH, and at most one. -/
theorem AppStep.publishes (htopic : config.topic.bytes.length ≤ 65535) {s t : Application σ}
    {move : AppMove σ} (hstep : AppStep P fuel config s move t) :
    ∃ packets, SendsPackets packets s.world t.world ∧
      (packets.filter isPublish = [] ∨ ∃ value message packet, move = .publish value message ∧
        packets.filter isPublish = [packet] ∧
        (valueRequest config value message).IsWrittenAs packet) := by
  have hquiet : ∀ {world : World σ AppHandler}, world.trace = s.world.trace →
      ∃ packets, SendsPackets packets s.world world ∧ (packets.filter isPublish = [] ∨
        ∃ value message packet, move = .publish value message ∧
          packets.filter isPublish = [packet] ∧
          (valueRequest config value message).IsWrittenAs packet) :=
    fun htrace => ⟨[], .of_trace_eq htrace, .inl rfl⟩
  cases hstep with
  | connected | notConnected | disconnectNetwork => exact hquiet rfl
  | clientInit | closeSession => exact hquiet rfl
  | finishRound | check => exact hquiet rfl
  | @connect _ data rc world hat hrun =>
      have hcall : CallStep P fuel s.world (.connect (some connectOptions) data) world := ⟨rc, hrun⟩
      obtain ⟨packets, hsends, hasked⟩ := hcall.asked connectOptions_isWellFormed
        (fun _ => Iff.rfl) nofun nofun
      exact ⟨packets, hsends, .inl (hasked.filter.resolve_right fun h => nomatch h.1)⟩
  | @subscribe _ grantedQoS rc world hat hrun =>
      have hcall : CallStep P fuel s.world
        (.subscribe config.topic 0 (some .mqttMessageArrived) grantedQoS) world := ⟨rc, hrun⟩
      have hwell : (Request.subscribe config.topic 0).IsWellFormed := htopic
      obtain ⟨packets, hsends, hasked⟩ := hcall.asked hwell (fun _ => Iff.rfl) nofun nofun
      exact ⟨packets, hsends, .inl (hasked.filter.resolve_right fun h => nomatch h.1)⟩
  | @publish value message rc world hat hrun =>
      have hcall : CallStep P fuel s.world (.publish config.topic
        (composeMessage message (publishText config value))) world := ⟨rc, hrun⟩
      obtain ⟨packets, hsends, hasked⟩ :=
        hcall.asked (valueRequest_isWellFormed htopic value message) (fun _ => Iff.rfl) nofun nofun
      rcases hasked.filter with hnone | ⟨_, packet, hone, hpacket⟩
      · exact ⟨packets, hsends, .inl hnone⟩
      · exact ⟨packets, hsends, .inr ⟨value, message, packet, rfl, hone, hpacket⟩⟩
  | yield _ hrun =>
      obtain ⟨turns, hsends, hturns⟩ := mqttYield_sendsOnly hrun
      exact ⟨turns, hsends, .inl (filter_turns hturns)⟩

/-- What has been published so far was offered for publication, in this order; a packet and
its value are related by `Publishes`. -/
def HasPublished (Publishes : List UInt8 → Nat → Prop) (start : World σ AppHandler)
    (run : List (Transition (Gateway σ τ) (GatewayMove σ))) (s : Gateway σ τ) : Prop :=
  ∃ packets values, SendsPackets packets start s.app.world ∧
    values.Sublist ((handoverRun run).filterMap Handover.offered?) ∧
    List.Forall₂ Publishes (packets.filter isPublish) values

theorem handoverRun_concat (run : List (Transition (Gateway σ τ) (GatewayMove σ)))
    (tr : Transition (Gateway σ τ) (GatewayMove σ)) :
    handoverRun (run ++ [tr]) = handoverRun run ++ ((handoverMove? tr).map fun move =>
      ⟨tr.source.handover, move, tr.target.handover⟩).toList :=
  Handover.filterMap_concat _ run tr

/-- The values that have been offered, after one more step. -/
theorem offered_concat (run : List (Transition (Gateway σ τ) (GatewayMove σ)))
    (tr : Transition (Gateway σ τ) (GatewayMove σ)) :
    (handoverRun (run ++ [tr])).filterMap Handover.offered? =
      (handoverRun run).filterMap Handover.offered? ++ ((handoverMove? tr).bind fun move =>
        Handover.offered? ⟨tr.source.handover, move, tr.target.handover⟩).toList := by
  rw [handoverRun_concat, List.filterMap_append]
  cases handoverMove? tr with
  | none => rfl
  | some move => exact congrArg _ (Handover.filterMap_concat _ [] _)

theorem HasPublished.step (htopic : config.topic.bytes.length ≤ 65535)
    {Publishes : List UInt8 → Nat → Prop} {start : World σ AppHandler}
    {run : List (Transition (Gateway σ τ) (GatewayMove σ))}
    {tr : Transition (Gateway σ τ) (GatewayMove σ)} (h : HasPublished Publishes start run tr.source)
    (hstep : GatewayStep P fuel config E task tr.source tr.label tr.target)
    (hwritten : ∀ value message packet, tr.label = .app (.publish value message) →
      (valueRequest config value message).IsWrittenAs packet → Publishes packet value) :
    HasPublished Publishes start (run ++ [tr]) tr.target := by
  obtain ⟨packets, values, hsends, hsublist, hvalues⟩ := h
  -- a step that publishes nothing
  have hquiet : ∀ {more}, SendsPackets more tr.source.app.world tr.target.app.world →
      more.filter isPublish = [] → HasPublished Publishes start (run ++ [tr]) tr.target := by
    intro more hmore hnone
    refine ⟨packets ++ more, values, hsends.trans hmore, ?_, ?_⟩
    · rw [offered_concat]
      exact hsublist.trans (List.sublist_append_left _ _)
    · rwa [List.filter_append, hnone, List.append_nil]
  obtain ⟨s, label, t⟩ := tr
  dsimp only at hstep hsends hquiet hwritten ⊢
  cases hstep with
  | plc | read | share => exact hquiet (.of_trace_eq rfl) rfl
  | @app move _ hstep halone =>
      obtain ⟨more, hmore, hnone | ⟨value, message, packet, rfl, _⟩⟩ := hstep.publishes htopic
      · exact hquiet hmore hnone
      · cases halone
  | @joint move shared app handover hstep hjoint hvalue hshare =>
      obtain ⟨more, hmore, hnone | ⟨value, message, packet, rfl, hone, hpacket⟩⟩ :=
        hstep.publishes htopic
      · exact hquiet hmore hnone
      · refine ⟨packets ++ more, values ++ [value], hsends.trans hmore, ?_, ?_⟩
        · rw [offered_concat]
          refine hsublist.append ?_
          cases hjoint
          have hoffered : ∀ success, Handover.offered?
              ⟨s.handover, .publish success, handover⟩ = some value := by
            intro success
            unfold Handover.offered?
            rw [hvalue value message rfl]
          have hmove : handoverMove?
              (⟨s, .app (.publish value message), { s with app, handover }⟩ :
                Transition (Gateway σ τ) (GatewayMove σ)) =
              some (.publish (app.pub = .sleeping)) := rfl
          rw [hmove, Option.bind_some, hoffered]
          exact List.Sublist.refl _
        · rw [List.filter_append, hone]
          exact List.rel_append hvalues (.cons (hwritten value message packet rfl hpacket) .nil)

/-- The value that the PLC answers in a step. -/
def answered? (tr : Transition (Gateway σ τ) (GatewayMove σ)) : Option Nat :=
  match tr.label with
  | .plc (.read .none register) => some register.toNat
  | _ => none

/-- What the application contributes to the handover is neither a read nor internal. -/
theorem handover?_spec {move : AppMove σ} {at' : PubPoint} {shared : Handover.Move}
    (h : move.handover? at' = some shared) :
    shared.isInternal = false ∧ ∀ value, shared ≠ .read value := by
  cases move
  case publish | finishRound =>
    cases h
    exact ⟨rfl, nofun⟩
  case subscribe | disconnectNetwork =>
    simp only [AppMove.handover?] at h
    split at h
    · cases h
      exact ⟨rfl, nofun⟩
    · cases h
  all_goals cases h

/-- Unless a read ends in an exception, the handover gets what the PLC has answered. -/
theorem readValue_eq_answered {tr : Transition (Gateway σ τ) (GatewayMove σ)}
    (hstep : GatewayStep P fuel config E task tr.source tr.label tr.target)
    (hexception : ∀ register, tr.label ≠ .plc (.read .exception register)) :
    ((handoverMove? tr).map fun move =>
      (⟨tr.source.handover, move, tr.target.handover⟩ : Transition Handover Handover.Move)).bind
        Handover.readValue? = answered? tr := by
  obtain ⟨s, label, t⟩ := tr
  dsimp only at hstep hexception
  cases label with
  | plc call =>
      cases call with
      | read err register =>
          cases err with
          | none | other => rfl
          | exception => exact absurd rfl (hexception register)
      | connect | create | write => rfl
  | share move =>
      cases hstep with
      | share hinternal => cases move <;> first | rfl | cases hinternal
  | app move =>
      simp only [handoverMove?, answered?]
      cases hshared : move.handover? t.app.pub with
      | none => rfl
      | some shared =>
          cases shared with
          | read value => exact absurd rfl ((handover?_spec hshared).2 value)
          | _ => rfl

/-- The PUBLISH packets of a run carry values that the PLC has answered, in the order in which
they were read. -/
theorem published_answered {env : σ} {plcEnv : τ} (htopic : config.topic.bytes.length ≤ 65535)
    {run : List (Transition (Gateway σ τ) (GatewayMove σ))} {s : Gateway σ τ}
    (hrun : Run (GatewayStep P fuel config E task) (.start env plcEnv) run s)
    (hwake : ∀ tr ∈ run, tr.label ≠ .share .wakeUp)
    (hexception : ∀ tr ∈ run, ∀ register, tr.label ≠ .plc (.read .exception register))
    {Publishes : List UInt8 → Nat → Prop}
    (hwritten : ∀ tr ∈ run, ∀ value message packet, tr.label = .app (.publish value message) →
      (valueRequest config value message).IsWrittenAs packet → Publishes packet value) :
    ∃ values : List Nat, values.Sublist (run.filterMap answered?) ∧
      List.Forall₂ Publishes ((sentPackets s.app.world.trace).filter isPublish) values := by
  have hsteps : ∀ tr ∈ run, GatewayStep P fuel config E task tr.source tr.label tr.target :=
    fun tr htr => ((hrun.invariant (fun _ => True) trivial hwake fun _ _ _ _ => trivial).2 tr htr).1
  have hhandover := run_handoverRun hrun
  have hsilent : ∀ tr ∈ handoverRun run, tr.label ≠ .wakeUp := by
    intro tr htr hlabel
    obtain ⟨tr', htr', hmap⟩ := List.mem_filterMap.mp htr
    obtain ⟨move, hmove, rfl⟩ := Option.map_eq_some_iff.mp hmap
    obtain rfl : move = .wakeUp := hlabel
    unfold handoverMove? at hmove
    split at hmove
    · obtain ⟨_, _, hne⟩ := Option.map_eq_some_iff.mp hmove
      cases hne
    · rename_i heq
      cases hmove
      exact hwake tr' htr' heq
    · cases (handover?_spec hmove).1
  have hread : (handoverRun run).filterMap Handover.readValue? = run.filterMap answered? := by
    unfold handoverRun Run.project
    rw [List.filterMap_filterMap]
    exact List.filterMap_congr fun tr htr =>
      readValue_eq_answered (hsteps tr htr) (hexception tr htr)
  have hpublished : HasPublished Publishes (Application.start env).world run s :=
    hrun.history (HasPublished Publishes (Application.start env).world)
      ⟨[], [], .of_trace_eq rfl, List.Sublist.refl _, .nil⟩ fun before tr after heq hstep h =>
        h.step htopic hstep (hwritten tr (by simp [heq]))
  obtain ⟨packets, values, hsends, hsublist, hvalues⟩ := hpublished
  have hpackets : sentPackets s.app.world.trace = packets := hsends.sentPackets_since
  refine ⟨values, ?_, hpackets ▸ hvalues⟩
  rw [← hread]
  exact hsublist.trans (Handover.offered_sublist_read hhandover hsilent)

/-- A PLC with one register, that answers at once. -/
def registerHost : ModbusHost UInt16 where
  connectTcp _ _ := pure (some 3)
  disconnect _ := pure ⟨⟩
  nmbsClientCreate _ := pure .none
  nmbsReadHoldingRegisters _ _ := gets fun register => (.none, register)
  nmbsWriteMultipleRegisters _ _ value := do
    modify fun _ => value
    pure .none
  uninitialised := pure 7

theorem idle_isFree : (Monitor.idle : Monitor MutexUser).IsFree := by decide

/-- The mutex while the publisher is blocked. -/
def blockedMonitor : Monitor MutexUser := (Monitor.idle.enter .pub idle_isFree).wait .pub

theorem blockedMonitor_isFree : blockedMonitor.IsFree := by decide

/-- The mutex when `modbus_task` has signalled and gone. -/
def wokenMonitor : Monitor MutexUser :=
  ((blockedMonitor.enter .modbus blockedMonitor_isFree).wake .pub).unlock .modbus

theorem wokenMonitor_isFree : wokenMonitor.IsFree := by decide

/-- The body of the PUBLISH with that value. -/
def bodyOfFive : List UInt8 := [0, 1, 97] ++ (publishText briefConfig 5).bytes

theorem bodyOfFive_length : bodyOfFive.length < 268435456 := by decide

/-- The PUBLISH, at QoS 0. -/
def publicationOfFive : Frame := .ofBody 0x30 bodyOfFive bodyOfFive_length

/-- The application subscribes and waits, the register is read and handed over, and its value
goes out. -/
theorem exists_runOfFive :
    ∃ run s, Run
        (GatewayStep (linuxPlatform Recording.host 1030) 8 briefConfig registerHost plcConfig)
        (.start briefBroker 5) run s ∧
      (∀ tr ∈ run, tr.label ≠ .share .wakeUp) ∧
      (∀ tr ∈ run, ∀ register, tr.label ≠ .plc (.read .exception register)) ∧
      (∀ tr ∈ run, ∀ value message, tr.label = .app (.publish value message) →
        message = foundMessage 0 0) ∧
      run.filterMap answered? = [5] ∧
      (sentPackets s.app.world.trace).filter isPublish = [publicationOfFive.bytes] := by
  have hcalls :
      ((mqttConnect (linuxPlatform Recording.host 1030) 8 (some connectOptions) ⟨0, 0⟩).run
        briefWorld).bind (fun connected =>
      ((mqttSubscribe (linuxPlatform Recording.host 1030) 8 briefConfig.topic 0
        (some .mqttMessageArrived) 0).run connected.2).bind fun subscribed =>
      ((publishStep (linuxPlatform Recording.host 1030) 8 briefConfig 5 (foundMessage 0 0)).run
        subscribed.2).map fun published => (connected.1, subscribed.1, published.1,
          (sentPackets published.2.trace).filter isPublish)) =
      some (0, 0, 0, [publicationOfFive.bytes]) := by
    decide
  obtain ⟨⟨rc₁, w₁⟩, hconnect, hcalls⟩ := Option.bind_eq_some_iff.mp hcalls
  obtain ⟨⟨rc₂, w₂⟩, hsubscribe, hcalls⟩ := Option.bind_eq_some_iff.mp hcalls
  obtain ⟨⟨rc₃, w₃⟩, hpublish, hcalls⟩ := Option.map_eq_some_iff.mp hcalls
  simp only [Prod.mk.injEq] at hcalls
  obtain ⟨rfl, rfl, rfl, hpackets⟩ := hcalls
  have hrun : Run (GatewayStep (linuxPlatform Recording.host 1030) 8 briefConfig registerHost
      plcConfig) (.start briefBroker 5) _ _ :=
    .cons (.app (@AppStep.connected _ _ _ _ _ 0 .allGood briefBroker rfl (by decide)) rfl) <|
    .cons (.app (.clientInit rfl) rfl) <| .cons (.app (.connect rfl hconnect) rfl) <|
    .cons (.joint (.subscribe rfl hsubscribe) rfl nofun (.connect true rfl)) <|
    .cons (.share rfl (.pubLock rfl idle_isFree)) <| .cons (.share rfl (.block rfl)) <|
    .cons (.plc (.connected rfl) rfl rfl) <| .cons (.plc (.created rfl) rfl rfl) <|
    .cons (.read (.read rfl rfl nofun) rfl (.read 5 rfl)) <|
    .cons (.share rfl (.modbusLock rfl blockedMonitor_isFree)) <| .cons (.share rfl (.store rfl)) <|
    .cons (.share rfl (.signal rfl (.wakes .pub rfl))) <| .cons (.share rfl (.modbusUnlock rfl)) <|
    .cons (.share rfl (.reacquire rfl rfl wokenMonitor_isFree)) <|
    .cons (.share rfl (.take rfl)) <| .cons (.share rfl (.pubUnlock rfl)) <|
    .single (.joint (.publish rfl hpublish) rfl (by rintro _ _ ⟨⟩; rfl) (.publish true rfl))
  refine ⟨_, _, hrun, by simp, by simp, ?_, rfl, hpackets⟩
  simp +contextual

end MqttClient
