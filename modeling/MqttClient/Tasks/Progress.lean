/-
# Who can go on

The three tasks hold each other up in two places: at `mutex`, and where `mqtt_pub_task` waits
on `cond`.  Whoever has the mutex can go on, and gives it back; and while `mqtt_pub_task`
waits, `modbus_task` can go on, and signals, unless it has returned.  Then the wait is for
ever: `modbus_task` returns after a transport error, and if the publisher is waiting, or waits
later, nothing but a spurious wake-up takes it on, and with the session closed nothing is left
to do for `mqtt_sub_task` either.  The runs are those of `GatewayStep`, in which no two calls
of the client overlap.
-/

import MqttClient.Client.Returning
import MqttClient.Tasks.Gateway

namespace MqttClient

open Semantics Program

variable {σ τ : Type}

/-! ## Who can go on -/

/-- The threads that `main` creates. -/
inductive Thread
  | modbus
  | pub
  | sub
  deriving DecidableEq, Repr

/-- The thread that a step takes on.  A wait that fails, or that ends without a signal, takes
nobody on. -/
def GatewayMove.thread? : GatewayMove σ → Option Thread
  | plc _ => some .modbus
  | share .modbusLock | share .store | share .signal | share .modbusUnlock => some .modbus
  | share .pubLock | share .block | share .reacquire | share .take | share .pubUnlock => some .pub
  | share _ => none
  | app .check | app .yield => some .sub
  | app _ => some .pub

/-- The thread has a next step. -/
def CanGoOn (P : Platform σ) (fuel : Nat) (config : MqttConfig) (E : ModbusHost τ)
    (task : ModbusTaskConfig) (thread : Thread) (s : Gateway σ τ) : Prop :=
  ∃ move t, GatewayStep P fuel config E task s move t ∧ move.thread? = some thread

/-- Every call of the host returns. -/
structure ModbusHost.Responds (E : ModbusHost τ) : Prop where
  connectTcp : ∀ address port env, ∃ fd env', (E.connectTcp address port).run env = some (fd, env')
  disconnect : ∀ fd env, ∃ env', (E.disconnect fd).run env = some (⟨⟩, env')
  nmbsClientCreate : ∀ fd env, ∃ err env', (E.nmbsClientCreate fd).run env = some (err, env')
  nmbsReadHoldingRegisters : ∀ fd address env, ∃ err value env',
    (E.nmbsReadHoldingRegisters fd address).run env = some ((err, value), env')
  nmbsWriteMultipleRegisters : ∀ fd address value env, ∃ err env',
    (E.nmbsWriteMultipleRegisters fd address value).run env = some (err, env')
  uninitialised : ∀ env, ∃ value env', E.uninitialised.run env = some (value, env')

/-! ## The tasks in step -/

/-- Where the handover has `mqtt_pub_task`, at a point between its calls. -/
def PubPoint.IsAt : PubPoint → PubAt → Prop
  | attempting _, at' | initializing _, at' | connecting _, at' | subscribing _, at'
  | closing _, at' | disconnecting _, at' => at' = .connecting
  | waiting, at' => at'.isConnected = true ∧ at' ≠ .sleeping
  | sleeping, at' => at' = .sleeping
  | returned, at' => at' = .returned

/-- What holds between the parts of the program after every step. -/
structure Coupled (s : Gateway σ τ) : Prop where
  located : s.handover.Located
  pub : s.app.pub.IsAt s.handover.pub
  modbus : s.handover.modbus = .reading ∨ ∃ fd register, s.plc = .sharing fd register
  timeout : s.app.world.client.commandTimeoutMs ≤ 1000

theorem coupled_start (env : σ) (plcEnv : τ) : Coupled (Gateway.start env plcEnv) :=
  ⟨Handover.located_start, rfl, .inl rfl, Nat.zero_le 1000⟩

/-- Between taking the lock and publishing, `mqtt_pub_task` is in the loop. -/
theorem PubPoint.IsAt.eq_waiting {point : PubPoint} {at' : PubAt} (h : point.IsAt at')
    (hconnected : at'.isConnected = true) (hawake : at' ≠ .sleeping) : point = .waiting := by
  cases point with
  | waiting => rfl
  | sleeping => exact absurd h hawake
  | _ =>
      rw [h] at hconnected
      cases hconnected

/-- A step inside the handover leaves both tasks at their points. -/
theorem PubPoint.IsAt.internal {point : PubPoint} {s t : Handover} {move : Handover.Move}
    (h : point.IsAt s.pub) (hinternal : move.isInternal = true) (hstep : Handover.Step s move t) :
    point.IsAt t.pub := by
  cases hstep with
  | read | connect | giveUp | publish | sleepOver => cases hinternal
  | modbusLock | store | signal | modbusUnlock | waitError | wakeUp => exact h
  | pubLock hat | block hat | reacquire hat | take hat | pubUnlock hat =>
      rw [hat] at h
      rw [h.eq_waiting rfl (by simp)]
      exact ⟨rfl, by simp⟩

theorem Handover.Step.modbus_eq {s t : Handover} {move : Handover.Move}
    (hstep : Handover.Step s move t) (hinternal : move.isInternal = true) :
    t.modbus = s.modbus ∨ s.modbus ≠ .reading := by
  cases hstep with
  | read => cases hinternal
  | modbusLock hat | store hat | signal hat | modbusUnlock hat => exact .inr (by simp [hat])
  | _ => exact .inl rfl

variable {P : Platform σ} {fuel : Nat} {config : MqttConfig} {E : ModbusHost τ}
  {task : ModbusTaskConfig}

/-- The command timeout is the second that `MqttConnectBroker` sets. -/
theorem AppStep.commandTimeoutMs_le {s t : Application σ} {move : AppMove σ}
    (hstep : AppStep P fuel config s move t) (h : s.world.client.commandTimeoutMs ≤ 1000) :
    t.world.client.commandTimeoutMs ≤ 1000 := by
  have hcall : ∀ {call : Call AppHandler} {world : World σ AppHandler},
      CallStep P fuel s.world call world → call.Within 1000 →
      world.client.commandTimeoutMs ≤ 1000 :=
    fun hcall hwithin => hcall.commandTimeoutMs_le hwithin h
  cases hstep with
  | connected | notConnected | disconnectNetwork | finishRound | check => exact h
  | clientInit => exact Nat.le_refl 1000
  | @connect _ data rc world hat hrun =>
      have hstep : CallStep P fuel s.world (.connect (some connectOptions) data) world := ⟨rc, hrun⟩
      exact hcall hstep trivial
  | @subscribe _ grantedQoS rc world hat hrun =>
      have hstep : CallStep P fuel s.world
        (.subscribe config.topic 0 (some .mqttMessageArrived) grantedQoS) world := ⟨rc, hrun⟩
      exact hcall hstep trivial
  | closeSession =>
      have hstep : CallStep P fuel s.world .closeSession (s.world.update MQTTClient.closeSession) :=
        ⟨⟨⟩, rfl⟩
      exact hcall hstep trivial
  | @publish value message rc world hat hrun =>
      have hstep : CallStep P fuel s.world (.publish config.topic
        (composeMessage message (publishText config value))) world := ⟨rc, hrun⟩
      exact hcall hstep trivial
  | @yield rc world _ hrun =>
      have hstep : CallStep P fuel s.world (.yield 500) world := ⟨rc, hrun⟩
      have hwithin : toUnsignedInt 500 ≤ 1000 := by decide
      exact hcall hstep hwithin

/-- What the steps of the application do to the point of `mqtt_pub_task`, where the handover
takes no part. -/
theorem AppStep.isAt {s t : Application σ} {move : AppMove σ}
    (hstep : AppStep P fuel config s move t) (halone : move.handover? t.pub = none) {at' : PubAt}
    (h : s.pub.IsAt at') : t.pub.IsAt at' := by
  cases hstep with
  | connected hat | notConnected hat | clientInit hat | closeSession hat =>
      rw [hat] at h
      exact h
  | connect hat =>
      rw [hat] at h
      dsimp only
      split <;> exact h
  | @subscribe _ _ rc _ hat =>
      rw [hat] at h
      by_cases hrc : rc = mqttSuccess
      · simp only [AppMove.handover?, if_pos hrc, reduceIte] at halone
        cases halone
      · simp only [if_neg hrc]
        exact h
  | @disconnectNetwork nAttemps _ hat =>
      rw [hat] at h
      by_cases hmore : nAttemps < 10
      · simp only [if_pos hmore]
        exact h
      · simp only [AppMove.handover?, if_neg hmore, reduceIte] at halone
        cases halone
  | publish | finishRound => cases halone
  | check | yield => exact h

/-- The steps of `mqtt_pub_task` that are steps of the handover take both to the same place. -/
theorem AppStep.isAt_joint {s t : Application σ} {move : AppMove σ}
    (hstep : AppStep P fuel config s move t) {shared : Handover.Move}
    (hjoint : move.handover? t.pub = some shared) {h h' : Handover}
    (hshare : Handover.Step h shared h') : t.pub.IsAt h'.pub := by
  cases hstep with
  | connected | notConnected | clientInit | connect | closeSession | check | yield => cases hjoint
  | @subscribe _ _ rc _ hat =>
      by_cases hrc : rc = mqttSuccess
      · simp only [AppMove.handover?, if_pos hrc, reduceIte] at hjoint
        cases hjoint
        cases hshare
        simp only [if_pos hrc]
        exact ⟨rfl, by decide⟩
      · simp only [AppMove.handover?, if_neg hrc, reduceCtorEq, reduceIte] at hjoint
  | @disconnectNetwork nAttemps _ hat =>
      by_cases hmore : nAttemps < 10
      · simp only [AppMove.handover?, if_pos hmore, reduceCtorEq, reduceIte] at hjoint
      · simp only [AppMove.handover?, if_neg hmore, reduceIte] at hjoint
        cases hjoint
        cases hshare
        simp only [if_neg hmore]
        rfl
  | @publish _ _ rc _ hat =>
      cases hjoint
      cases hshare
      by_cases hrc : rc = mqttSuccess
      · simp only [if_pos hrc, decide_true, reduceIte]
        rfl
      · simp only [if_neg hrc, reduceCtorEq, decide_false]
        rfl
  | finishRound hat =>
      cases hjoint
      cases hshare
      by_cases hopen : s.world.client.isconnected = true
      · simp only [if_pos hopen, decide_true, reduceIte]
        exact ⟨rfl, by decide⟩
      · simp only [if_neg hopen, reduceCtorEq, decide_false]
        rfl

/-- In front of its wait, the one call of the client that `mqtt_pub_task` makes is to publish. -/
theorem AppStep.eq_publish {s t : Application σ} {move : AppMove σ}
    (hstep : AppStep P fuel config s move t)
    (hthread : (GatewayMove.app move).thread? = some .pub)
    (hpub : s.pub = .returned ∨ s.pub = .waiting) :
    ∃ value message, move = .publish value message := by
  cases hstep with
  | publish => exact ⟨_, _, rfl⟩
  | check | yield => cases hthread
  | connected hat | notConnected hat | clientInit hat | connect hat | subscribe hat
  | closeSession hat | disconnectNetwork hat | finishRound hat =>
      rw [hat] at hpub
      rcases hpub with hpub | hpub <;> cases hpub

/-- `mqtt_pub_task` leaves the other task where it is. -/
theorem Handover.Step.modbus_eq_of_handover {move : AppMove σ} {at' : PubPoint}
    {shared : Handover.Move} (hjoint : move.handover? at' = some shared) {h h' : Handover}
    (hshare : Handover.Step h shared h') : h'.modbus = h.modbus := by
  obtain ⟨hinternal, hread⟩ := handover?_spec hjoint
  cases hshare with
  | read value => exact absurd rfl (hread value)
  | connect | giveUp | publish | sleepOver => rfl
  | _ => cases hinternal

theorem PlcStep.eq_sharing {point point' : PlcPoint} {env env' : τ} {call : PlcCall}
    (hstep : PlcStep E task point env call point' env') {value : UInt16}
    (hvalue : call.register? = some value) : ∃ fd register, point' = .sharing fd register := by
  cases hstep with
  | read => exact ⟨_, _, rfl⟩
  | _ => cases hvalue

theorem Coupled.step {tr : Transition (Gateway σ τ) (GatewayMove σ)} (h : Coupled tr.source)
    (hstep : GatewayStep P fuel config E task tr.source tr.label tr.target) :
    Coupled tr.target := by
  obtain ⟨s, label, t⟩ := tr
  dsimp only at h hstep ⊢
  cases hstep with
  | plc _ _ hunlocked => exact ⟨h.located, h.pub, .inl hunlocked, h.timeout⟩
  | @read call register plc plcEnv handover hplc hregister hshare =>
      refine ⟨Handover.located_step hshare h.located, ?_, .inr (hplc.eq_sharing hregister),
        h.timeout⟩
      cases hshare
      exact h.pub
  | @share move handover hinternal hshare =>
      refine ⟨Handover.located_step hshare h.located, h.pub.internal hinternal hshare, ?_,
        h.timeout⟩
      rcases hshare.modbus_eq hinternal with hsame | hbusy
      · rw [show ({ s with handover } : Gateway σ τ).handover.modbus = s.handover.modbus from hsame]
        exact h.modbus
      · exact .inr (h.modbus.resolve_left hbusy)
  | app happ halone =>
      exact ⟨h.located, happ.isAt halone h.pub, h.modbus, happ.commandTimeoutMs_le h.timeout⟩
  | @joint move shared app handover happ hjoint _ hshare =>
      refine ⟨Handover.located_step hshare h.located, happ.isAt_joint hjoint hshare, ?_,
        happ.commandTimeoutMs_le h.timeout⟩
      rw [show ({ s with app, handover } : Gateway σ τ).handover.modbus = s.handover.modbus from
        Handover.Step.modbus_eq_of_handover hjoint hshare]
      exact h.modbus

/-! ## Going on -/

theorem MutexUser.eq_pub_of_ne : ∀ t : MutexUser, t ≠ .modbus → t = .pub := by decide

theorem MutexUser.eq_modbus_of_ne : ∀ t : MutexUser, t ≠ .pub → t = .modbus := by decide

section GoingOn

variable {s : Gateway σ τ} {thread : Thread}

/-- Wherever `modbus_task` is, its next call returns. -/
theorem ModbusHost.Responds.exists_plcStep (hE : E.Responds) (task : ModbusTaskConfig)
    {point : PlcPoint} (hpoint : point ≠ .returned) (env : τ) :
    ∃ call point' env', PlcStep E task point env call point' env' := by
  cases point with
  | connecting nAttemps =>
      obtain ⟨fd, env', hrun⟩ := hE.connectTcp task.plcIp task.plcPort env
      cases fd with
      | some fd => exact ⟨_, _, _, .connected hrun⟩
      | none => exact ⟨_, _, _, .notConnected hrun⟩
  | creating fd =>
      obtain ⟨err, env', hrun⟩ := hE.nmbsClientCreate fd env
      exact ⟨_, _, _, .created hrun⟩
  | reading fd =>
      obtain ⟨before, env₁, hbefore⟩ := hE.uninitialised env
      obtain ⟨err, value, env₂, hrun⟩ := hE.nmbsReadHoldingRegisters fd task.plcRegister env₁
      by_cases hgoes : err = .other
      · subst hgoes
        obtain ⟨env₃, hdisconnect⟩ := hE.disconnect fd env₂
        obtain ⟨env₄, hfinal⟩ := hE.disconnect fd env₃
        exact ⟨_, _, _, .readFailed hbefore hrun hdisconnect hfinal⟩
      · exact ⟨_, _, _, .read hbefore hrun hgoes⟩
  | sharing fd register =>
      obtain ⟨err, env₁, hrun⟩ :=
        hE.nmbsWriteMultipleRegisters fd task.plcRegister (register + 1) env
      obtain ⟨env₂, hdisconnect⟩ := hE.disconnect fd env₁
      cases err with
      | none => exact ⟨_, _, _, .wrote hrun⟩
      | exception => exact ⟨_, _, _, .writeRefused hrun hdisconnect⟩
      | other =>
          obtain ⟨env₃, hfinal⟩ := hE.disconnect fd env₂
          exact ⟨_, _, _, .writeFailed hrun hdisconnect hfinal⟩
  | returned => exact absurd rfl hpoint

theorem canGoOn_share {move : Handover.Move} {handover : Handover}
    (hshare : Handover.Step s.handover move handover) (hinternal : move.isInternal = true)
    (hthread : (GatewayMove.share move : GatewayMove σ).thread? = some thread) :
    CanGoOn P fuel config E task thread s :=
  ⟨_, _, .share hinternal hshare, hthread⟩

/-- A step of the application, whether it is one of the handover or not. -/
theorem canGoOn_app {move : AppMove σ} {app : Application σ}
    (hstep : AppStep P fuel config s.app move app)
    (hthread : (GatewayMove.app move).thread? = some thread)
    (hvalue : ∀ value message, move = .publish value message → s.handover.pub = .publishing value)
    (hshare : ∀ shared, move.handover? app.pub = some shared →
      ∃ handover, Handover.Step s.handover shared handover) :
    CanGoOn P fuel config E task thread s := by
  cases hshared : move.handover? app.pub with
  | none => exact ⟨_, _, .app hstep hshared, hthread⟩
  | some shared =>
      obtain ⟨handover, hhandover⟩ := hshare shared hshared
      exact ⟨_, _, .joint hstep hshared hvalue hhandover, hthread⟩

namespace Coupled

variable (h : Coupled s)

include h

/-- Inside its critical section `modbus_task` can go on. -/
theorem modbus_of_inside (hinside : s.handover.monitor.standing .modbus = .inside) :
    CanGoOn P fuel config E task .modbus s := by
  rw [h.located.modbus] at hinside
  cases hat : s.handover.modbus with
  | reading | locking =>
      rw [hat] at hinside
      cases hinside
  | storing => exact canGoOn_share (.store hat) rfl rfl
  | signalling =>
      obtain ⟨m, hsignals⟩ := s.handover.monitor.exists_signals
      exact canGoOn_share (.signal hat hsignals) rfl rfl
  | unlocking => exact canGoOn_share (.modbusUnlock hat) rfl rfl

/-- Inside its critical section `mqtt_pub_task` can go on. -/
theorem pub_of_inside (hinside : s.handover.monitor.standing .pub = .inside) :
    CanGoOn P fuel config E task .pub s := by
  have hpub := h.located.pub
  rw [hinside] at hpub
  cases hat : s.handover.pub with
  | calling => exact canGoOn_share (.block hat) rfl rfl
  | taking => exact canGoOn_share (.take hat) rfl rfl
  | unlocking => exact canGoOn_share (.pubUnlock hat) rfl rfl
  | waiting =>
      rw [hat] at hpub
      rcases hpub with hblocked | hwoken
      · cases hblocked
      · cases hwoken
  | _ =>
      rw [hat] at hpub
      cases hpub

/-- `modbus_task` has returned, can go on, or is at the mutex that `mqtt_pub_task` has. -/
theorem modbus_goesOn (hE : E.Responds) :
    s.plc = .returned ∨ CanGoOn P fuel config E task .modbus s ∨
      s.handover.monitor.standing .pub = .inside := by
  have hlocated := h.located.modbus
  cases hat : s.handover.modbus with
  | reading =>
      by_cases hreturned : s.plc = .returned
      · exact .inl hreturned
      · obtain ⟨call, plc, plcEnv, hstep⟩ := hE.exists_plcStep task hreturned s.plcEnv
        cases hregister : call.register? with
        | none => exact .inr (.inl ⟨_, _, .plc hstep hregister hat, rfl⟩)
        | some register => exact .inr (.inl ⟨_, _, .read hstep hregister (.read register hat), rfl⟩)
  | locking value =>
      rw [hat] at hlocated
      rcases s.handover.monitor.isFree_or_inside MutexUser.eq_pub_of_ne
        (by simp [hlocated, ModbusAt.standing]) with hfree | hinside
      · exact .inr (.inl (canGoOn_share (.modbusLock hat hfree) rfl rfl))
      · exact .inr (.inr hinside)
  | storing | signalling | unlocking =>
      rw [hat] at hlocated
      exact .inr (.inl (h.modbus_of_inside hlocated))

/-- In its loop `mqtt_pub_task` can go on, is at the mutex that `modbus_task` has, or waits for
a signal. -/
theorem pub_inLoop (hat : s.app.pub = .waiting)
    (hpublish : ∀ message, ∃ world,
      CallStep P fuel s.app.world (.publish config.topic message) world) :
    CanGoOn P fuel config E task .pub s ∨ s.handover.monitor.standing .modbus = .inside ∨
      s.handover.monitor.standing .pub = .blocked := by
  have hpub := h.pub
  have hlocated := h.located.pub
  rw [hat] at hpub
  cases hhandover : s.handover.pub with
  | locking =>
      rw [hhandover] at hlocated
      rcases s.handover.monitor.isFree_or_inside MutexUser.eq_modbus_of_ne
        (by rw [hlocated]; decide) with hfree | hinside
      · exact .inl (canGoOn_share (.pubLock hhandover hfree) rfl rfl)
      · exact .inr (.inl hinside)
  | calling | taking | unlocking =>
      rw [hhandover] at hlocated
      exact .inl (h.pub_of_inside hlocated)
  | waiting =>
      rw [hhandover] at hlocated
      rcases hlocated with hblocked | hwoken
      · exact .inr (.inr hblocked)
      · rcases s.handover.monitor.isFree_or_inside MutexUser.eq_modbus_of_ne
          (by simp [hwoken]) with hfree | hinside
        · exact .inl (canGoOn_share (.reacquire hhandover hwoken hfree) rfl rfl)
        · exact .inr (.inl hinside)
  | publishing value =>
      obtain ⟨world, rc, hrun⟩ :=
        hpublish (composeMessage ⟨0, 0, 0, 0, .null, 0⟩ (publishText config value))
      refine .inl (canGoOn_app (.publish hat hrun) rfl ?_ fun shared hshared => ?_)
      · rintro _ _ ⟨⟩
        exact hhandover
      · cases hshared
        exact ⟨_, .publish _ hhandover⟩
  | sleeping => exact absurd hhandover hpub.2
  | connecting | returned =>
      rw [hhandover] at hpub
      cases hpub.1

/-- `mqtt_pub_task` has returned, can go on, is at the mutex that `modbus_task` has, or waits
for a signal. -/
theorem pub_goesOn {clock : σ → Int} (hP : Ticks P clock) (hfuel : 1000000 < fuel) :
    s.app.pub = .returned ∨ CanGoOn P fuel config E task .pub s ∨
      s.handover.monitor.standing .modbus = .inside ∨
      s.handover.monitor.standing .pub = .blocked := by
  have hpub := h.pub
  have hcall : ∀ call : Call AppHandler, call.timeoutMs s.app.world ≤ 1000 →
      ∃ world, CallStep P fuel s.app.world call world :=
    fun call htimeout => hP.callStep hfuel call (by omega)
  cases hat : s.app.pub with
  | attempting nAttemps =>
      refine .inr (.inl ?_)
      by_cases hret : (mqttNetworkConnect .allGood s.app.handles).1 = 0
      · exact ⟨_, _, .app (@AppStep.connected _ _ _ _ _ _ _ s.app.world.env hat hret) rfl, rfl⟩
      · exact ⟨_, _, .app (@AppStep.notConnected _ _ _ _ _ _ _ s.app.world.env hat hret) rfl, rfl⟩
  | initializing => exact .inr (.inl ⟨_, _, .app (.clientInit hat) rfl, rfl⟩)
  | connecting =>
      obtain ⟨world, rc, hrun⟩ := hcall (.connect (some connectOptions) ⟨0, 0⟩) h.timeout
      exact .inr (.inl ⟨_, _, .app (.connect hat hrun) rfl, rfl⟩)
  | subscribing =>
      rw [hat] at hpub
      obtain ⟨world, rc, hrun⟩ :=
        hcall (.subscribe config.topic 0 (some .mqttMessageArrived) 0) h.timeout
      refine .inr (.inl (canGoOn_app (.subscribe hat hrun) rfl (by simp) fun shared hshared => ?_))
      simp only [AppMove.handover?] at hshared
      split at hshared
      · cases hshared
        exact ⟨_, .connect true hpub⟩
      · cases hshared
  | closing => exact .inr (.inl ⟨_, _, .app (.closeSession hat) rfl, rfl⟩)
  | disconnecting =>
      rw [hat] at hpub
      refine .inr (.inl (canGoOn_app (@AppStep.disconnectNetwork _ _ _ _ _ _ s.app.world.env hat)
        rfl (by simp) fun shared hshared => ?_))
      simp only [AppMove.handover?] at hshared
      split at hshared
      · cases hshared
      · cases hshared
        exact ⟨_, .giveUp hpub⟩
  | waiting => exact .inr (h.pub_inLoop hat fun message => hcall _ h.timeout)
  | sleeping =>
      rw [hat] at hpub
      refine .inr (.inl (canGoOn_app (.finishRound hat) rfl (by simp) fun shared hshared => ?_))
      cases hshared
      exact ⟨_, .sleepOver _ hpub⟩
  | returned => exact .inl rfl

end Coupled

/-- `mqtt_sub_task` finds the session closed, or can go on. -/
theorem sub_goesOn {clock : σ → Int} (hP : Ticks P clock) (hfuel : 1000000 < fuel) :
    s.app.yielding = false ∧ s.app.world.client.isconnected = false ∨
      CanGoOn P fuel config E task .sub s := by
  cases hyielding : s.app.yielding with
  | true =>
      have htimeout : (Call.yield 500 : Call AppHandler).timeoutMs s.app.world ≤ 1000 := by
        show toUnsignedInt 500 ≤ 1000
        decide
      obtain ⟨world, rc, hrun⟩ : ∃ world, CallStep P fuel s.app.world (.yield 500) world :=
        hP.callStep hfuel _ (by omega)
      exact .inr ⟨_, _, .app (.yield hyielding hrun) rfl, rfl⟩
  | false =>
      cases hopen : s.app.world.client.isconnected with
      | true => exact .inr ⟨_, _, .app (.check hyielding hopen) rfl, rfl⟩
      | false => exact .inl ⟨rfl, rfl⟩

/-! ## Having nothing to do -/

/-- After its return `modbus_task` takes no step. -/
theorem Coupled.modbus_stays (h : Coupled s) (hreturned : s.plc = .returned) :
    ¬ CanGoOn P fuel config E task .modbus s := by
  have hreading : s.handover.modbus = .reading := by
    refine h.modbus.resolve_right ?_
    rintro ⟨fd, register, hsharing⟩
    rw [hreturned] at hsharing
    cases hsharing
  rintro ⟨move, t, hstep, hthread⟩
  cases hstep with
  | plc hplc | read hplc =>
      rw [hreturned] at hplc
      cases hplc
  | share _ hshare =>
      cases hshare with
      | modbusLock hat | store hat | signal hat | modbusUnlock hat =>
          rw [hreading] at hat
          cases hat
      | _ => cases hthread
  | @app move | @joint move => cases move <;> cases hthread

/-- Where the handover and the application have `mqtt_pub_task` when it has returned, and when
it waits for a signal. -/
theorem Coupled.pub_place (h : Coupled s)
    (hstays : s.app.pub = .returned ∨ s.handover.monitor.standing .pub = .blocked) :
    s.handover.pub = .returned ∧ s.app.pub = .returned ∨
      s.handover.pub = .waiting ∧ s.handover.monitor.standing .pub = .blocked ∧
        s.app.pub = .waiting := by
  have hpub := h.pub
  rcases hstays with hreturned | hblocked
  · rw [hreturned] at hpub
    exact .inl ⟨hpub, hreturned⟩
  · have hlocated := h.located.pub
    rw [hblocked] at hlocated
    cases hat : s.handover.pub with
    | waiting =>
        rw [hat] at hpub
        exact .inr ⟨rfl, hblocked, hpub.eq_waiting rfl (by decide)⟩
    | _ =>
        rw [hat] at hlocated
        cases hlocated

/-- After its return, and while it waits for a signal, `mqtt_pub_task` takes no step. -/
theorem Coupled.pub_stays (h : Coupled s)
    (hstays : s.app.pub = .returned ∨ s.handover.monitor.standing .pub = .blocked) :
    ¬ CanGoOn P fuel config E task .pub s := by
  have hplace := h.pub_place hstays
  rintro ⟨move, t, hstep, hthread⟩
  cases hstep with
  | plc | read => cases hthread
  | share _ hshare =>
      cases hshare with
      | pubLock hat | block hat | take hat | pubUnlock hat =>
          rcases hplace with ⟨hreturned, _⟩ | ⟨hwaiting, _⟩
          · rw [hreturned] at hat
            cases hat
          · rw [hwaiting] at hat
            cases hat
      | reacquire hat hwoken =>
          rcases hplace with ⟨hreturned, _⟩ | ⟨_, hblocked, _⟩
          · rw [hreturned] at hat
            cases hat
          · rw [hblocked] at hwoken
            cases hwoken
      | _ => cases hthread
  | @app move app hstep halone =>
      obtain ⟨value, message, rfl⟩ := hstep.eq_publish hthread (hplace.imp And.right fun h => h.2.2)
      cases halone
  | @joint move shared app handover hstep hjoint hvalue =>
      obtain ⟨value, message, rfl⟩ := hstep.eq_publish hthread (hplace.imp And.right fun h => h.2.2)
      have hpublishing := hvalue value message rfl
      rcases hplace with ⟨hreturned, _⟩ | ⟨hwaiting, _⟩
      · rw [hreturned] at hpublishing
        cases hpublishing
      · rw [hwaiting] at hpublishing
        cases hpublishing

/-- While it finds the session closed, `mqtt_sub_task` takes no step. -/
theorem sub_stays (hyielding : s.app.yielding = false)
    (hclosed : s.app.world.client.isconnected = false) :
    ¬ CanGoOn P fuel config E task .sub s := by
  rintro ⟨move, t, hstep, hthread⟩
  cases hstep with
  | plc | read => cases hthread
  | @share move => cases move <;> cases hthread
  | app hstep | joint hstep =>
      cases hstep with
      | check _ hopen =>
          rw [hclosed] at hopen
          cases hopen
      | yield hyields =>
          rw [hyielding] at hyields
          cases hyields
      | _ => cases hthread

/-- Nobody can go on where `modbus_task` has returned, `mqtt_pub_task` has returned or waits for
a signal, and the session is closed, and only there. -/
theorem Coupled.nobody_iff (h : Coupled s) (hE : E.Responds) {clock : σ → Int}
    (hP : Ticks P clock) (hfuel : 1000000 < fuel) :
    (∀ thread, ¬ CanGoOn P fuel config E task thread s) ↔
      s.plc = .returned ∧
        (s.app.pub = .returned ∨ s.handover.monitor.standing .pub = .blocked) ∧
        s.app.yielding = false ∧ s.app.world.client.isconnected = false := by
  constructor
  · intro hnobody
    refine ⟨?_, ?_, (sub_goesOn hP hfuel).resolve_right (hnobody .sub)⟩
    · rcases h.modbus_goesOn hE with hreturned | hgoes | hinside
      · exact hreturned
      · exact absurd hgoes (hnobody .modbus)
      · exact absurd (h.pub_of_inside hinside) (hnobody .pub)
    · rcases h.pub_goesOn hP hfuel with hreturned | hgoes | hinside | hblocked
      · exact .inl hreturned
      · exact absurd hgoes (hnobody .pub)
      · exact absurd (h.modbus_of_inside hinside) (hnobody .modbus)
      · exact .inr hblocked
  · rintro ⟨hreturned, hstays, hyielding, hclosed⟩ thread
    cases thread with
    | modbus => exact h.modbus_stays hreturned
    | pub => exact h.pub_stays hstays
    | sub => exact sub_stays hyielding hclosed

end GoingOn

/-- Who can go on in a state that a run of the program reaches whose client calls do not
overlap, on a platform whose clock goes on and whose calls return.  `modbus_task` has returned
or can go on, or `mqtt_pub_task` has the mutex and can go on.  `mqtt_pub_task` has returned or
can go on, or `modbus_task` has the mutex and can go on, or it waits for a signal, and then
`modbus_task` can go on unless it has returned.  `mqtt_sub_task` can go on unless it finds the
session closed.  So nobody can go on exactly if `modbus_task` has returned, `mqtt_pub_task` has
returned or waits for a signal, and the session is closed. -/
theorem gateway_canGoOn (P : Platform σ) (clock : σ → Int) (hP : Ticks P clock) (fuel : Nat)
    (hfuel : 1000000 < fuel) (config : MqttConfig) (E : ModbusHost τ) (hE : E.Responds)
    (task : ModbusTaskConfig) (env : σ) (plcEnv : τ)
    {run : List (Transition (Gateway σ τ) (GatewayMove σ))} {s : Gateway σ τ}
    (hrun : Run (GatewayStep P fuel config E task) (.start env plcEnv) run s) :
    (s.plc = .returned ∨ CanGoOn P fuel config E task .modbus s ∨
      s.handover.monitor.standing .pub = .inside ∧ CanGoOn P fuel config E task .pub s) ∧
    (s.app.pub = .returned ∨ CanGoOn P fuel config E task .pub s ∨
      s.handover.monitor.standing .modbus = .inside ∧ CanGoOn P fuel config E task .modbus s ∨
      s.handover.monitor.standing .pub = .blocked ∧
        (s.plc = .returned ∨ CanGoOn P fuel config E task .modbus s)) ∧
    (s.app.yielding = false ∧ s.app.world.client.isconnected = false ∨
      CanGoOn P fuel config E task .sub s) ∧
    ((∀ thread, ¬ CanGoOn P fuel config E task thread s) ↔
      s.plc = .returned ∧
        (s.app.pub = .returned ∨ s.handover.monitor.standing .pub = .blocked) ∧
        s.app.yielding = false ∧ s.app.world.client.isconnected = false) := by
  have hcoupled : Coupled s :=
    hrun.history (fun _ => Coupled) (coupled_start env plcEnv) fun _ _ _ _ hstep h => h.step hstep
  have hmodbus : s.plc = .returned ∨ CanGoOn P fuel config E task .modbus s ∨
      s.handover.monitor.standing .pub = .inside := hcoupled.modbus_goesOn hE
  refine ⟨?_, ?_, sub_goesOn hP hfuel, hcoupled.nobody_iff hE hP hfuel⟩
  · rcases hmodbus with hreturned | hgoes | hinside
    · exact .inl hreturned
    · exact .inr (.inl hgoes)
    · exact .inr (.inr ⟨hinside, hcoupled.pub_of_inside hinside⟩)
  · rcases hcoupled.pub_goesOn hP hfuel with hreturned | hgoes | hinside | hblocked
    · exact .inl hreturned
    · exact .inr (.inl hgoes)
    · exact .inr (.inr (.inl ⟨hinside, hcoupled.modbus_of_inside hinside⟩))
    · -- who waits for a signal does not have the mutex
      have hnot : s.handover.monitor.standing .pub ≠ .inside := by simp [hblocked]
      exact .inr (.inr (.inr ⟨hblocked, hmodbus.imp_right fun h => h.resolve_right hnot⟩))

theorem registerHost_responds : registerHost.Responds where
  connectTcp _ _ _ := ⟨_, _, rfl⟩
  disconnect _ _ := ⟨_, rfl⟩
  nmbsClientCreate _ _ := ⟨_, _, rfl⟩
  nmbsReadHoldingRegisters _ _ _ := ⟨_, _, _, rfl⟩
  nmbsWriteMultipleRegisters _ _ _ _ := ⟨_, _, rfl⟩
  uninitialised _ := ⟨_, _, rfl⟩

/-- The register is read and `modbus_task` has the mutex: it can go on, although the network
neither takes nor gives anything. -/
theorem gateway_canGoOn_locked :
    ∃ run s, Run (GatewayStep stalledPlatform 1000001 briefConfig registerHost plcConfig)
        (.start 0 5) run s ∧
      s.handover.monitor.standing .modbus = .inside ∧
      CanGoOn stalledPlatform 1000001 briefConfig registerHost plcConfig .modbus s := by
  have hrun : Run (GatewayStep stalledPlatform 1000001 briefConfig registerHost plcConfig)
      (.start 0 5) _ _ :=
    .cons (.plc (.connected rfl) rfl rfl) <| .cons (.plc (.created rfl) rfl rfl) <|
    .cons (.read (.read rfl rfl (by decide)) rfl (.read 5 rfl)) <|
    .single (.share rfl (.modbusLock rfl idle_isFree))
  refine ⟨_, _, hrun, rfl, ?_⟩
  obtain ⟨hreturned | hgoes | ⟨hinside, _⟩, _⟩ := gateway_canGoOn _ _ stalledPlatform_ticks
    1000001 (by decide) briefConfig registerHost registerHost_responds plcConfig 0 5 hrun
  · cases hreturned
  · exact hgoes
  · cases hinside

end MqttClient
