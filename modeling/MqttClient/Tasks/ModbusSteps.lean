/-
# The Modbus task, whole and in steps

In the model of the whole program `modbus_task` is taken step by step, so that the other two
tasks can go on between its steps.  By itself it is one function.  The two descriptions agree:
wherever a step leads, what the function has still to do at the old point is the step followed
by what it has to do at the new one.

Both descriptions give `modbus_task` its connection to itself.  In the program descriptors
belong to the whole process, and when an attempt of `mqtt_pub_task` fails before it has a
socket, `mqtt_network_disconnect` closes the number that an earlier attempt has left in
`sockfd`, or 0.  What this does to the PLC's connection is outside of both.
-/

import MqttClient.Tasks.Gateway

namespace MqttClient

open Semantics Program

variable {τ : Type}

/-! ## What is left to do -/

/-- What the function has still to do at this point, observed for so many iterations. -/
def PlcPoint.rest (E : ModbusHost τ) (task : ModbusTaskConfig) (steps : Nat) :
    PlcPoint → ModbusAction τ TaskStatus
  | connecting nAttemps => do
      let conn ← connectLoop E task (maxConnAttemps - nAttemps)
      match conn with
      | none => pure .returned
      | some fd => serveConnection E task fd steps
  | creating fd => serveConnection E task fd steps
  | reading fd => modbusLoop E task fd steps
  | sharing fd register => do
      let err ← relayRegister E task fd register
      if err = .none then modbusLoop E task fd steps
      else do
        host (E.disconnect fd)
        pure .returned
  | returned => pure .returned

/-- Before an attempt to connect there is one left. -/
def PlcPoint.HasAttempt : PlcPoint → Prop
  | connecting nAttemps => nAttemps < maxConnAttemps
  | _ => True

/-- What the function notes of a call made at this point. -/
def PlcPoint.events (point : PlcPoint) : PlcCall → List ModbusEvent
  | .connect _ => []
  | .create err => [.created err]
  | .read err register => [.read err register]
  | .write err =>
      match point with
      | sharing _ register => [.stored register, .wrote (register + 1) err]
      | _ => []

/-- A read begins an iteration of the loop. -/
def PlcCall.iterations : PlcCall → Nat
  | read _ _ => 1
  | connect _ | create _ | write _ => 0

/-- The observation of the function that ends at this point. -/
def PlcPoint.status? : PlcPoint → Option TaskStatus
  | reading _ => some .running
  | returned => some .returned
  | connecting _ | creating _ | sharing _ _ => none

variable {E : ModbusHost τ} {task : ModbusTaskConfig}

/-! ## One call -/

section Calls

variable {fd : Int} {env env' : τ} {value : Nat} {trace : List ModbusEvent}

theorem run_host_of_eq_some {α : Type} {x : Program τ α} {a : α} {env : τ} {w : ModbusWorld τ}
    (h : x.run w.env = some (a, env)) : (host x).run w = some (a, { w with env }) := by
  show (x.run w.env).map _ = _
  rw [h]
  rfl

theorem run_connectLoop_succ {conn : Option Int} {left : Nat}
    (hrun : (E.connectTcp task.plcIp task.plcPort).run env = some (conn, env')) :
    (connectLoop E task (left + 1)).run ⟨env, value, trace⟩ =
      match conn with
      | none => (connectLoop E task left).run ⟨env', value, trace⟩
      | some fd => some (some fd, ⟨env', value, trace⟩) := by
  rw [connectLoop, run_bind_of_eq_some (run_host_of_eq_some hrun)]
  cases conn <;> rfl

theorem run_relayRegister {register : UInt16} {err : NmbsError}
    (hrun : (E.nmbsWriteMultipleRegisters fd task.plcRegister (register + 1)).run env =
      some (err, env')) (hgoes : err ≠ .other) :
    (relayRegister E task fd register).run ⟨env, value, trace⟩ = some (err, ⟨env', register.toNat,
      trace ++ [.stored register, .wrote (register + 1) err]⟩) := by
  rw [relayRegister, run_bind_of_eq_some rfl, run_bind_of_eq_some (run_host_of_eq_some hrun),
    run_bind_of_eq_some rfl, if_neg (mt stops_iff.mp hgoes), Program.run_pure]
  simp

theorem run_relayRegister_other {register : UInt16} {env'' : τ}
    (hrun : (E.nmbsWriteMultipleRegisters fd task.plcRegister (register + 1)).run env =
      some (.other, env')) (hdisconnect : (E.disconnect fd).run env' = some (⟨⟩, env'')) :
    (relayRegister E task fd register).run ⟨env, value, trace⟩ = some (.other,
      ⟨env'', register.toNat, trace ++ [.stored register, .wrote (register + 1) .other]⟩) := by
  rw [relayRegister, run_bind_of_eq_some rfl, run_bind_of_eq_some (run_host_of_eq_some hrun),
    run_bind_of_eq_some rfl, if_pos (by decide),
    run_bind_of_eq_some (run_host_of_eq_some hdisconnect), Program.run_pure]
  simp

/-- After an error of the loop the connection is closed, and the task returns. -/
theorem run_afterIteration {x : ModbusAction τ NmbsError} {next : ModbusAction τ TaskStatus}
    {err : NmbsError} {w : ModbusWorld τ} (hx : x.run w = some (err, ⟨env, value, trace⟩))
    (herr : err ≠ .none) (hfinal : (E.disconnect fd).run env = some (⟨⟩, env')) :
    (x >>= fun err => if err = .none then next else do
      host (E.disconnect fd)
      pure .returned).run w = some (.returned, ⟨env', value, trace⟩) := by
  rw [run_bind_of_eq_some hx, if_neg herr, run_bind_of_eq_some (run_host_of_eq_some hfinal)]
  rfl

/-- A task that has returned has closed the connection last. -/
theorem exists_finalDisconnect {w w' : ModbusWorld τ} {status : TaskStatus}
    (h : (do
      host (E.disconnect fd)
      pure .returned : ModbusAction τ TaskStatus).run w = some (status, w')) :
    ∃ env', (E.disconnect fd).run w.env = some (⟨⟩, env') := by
  obtain ⟨_, _, hhost, _⟩ := run_bind_eq_some.mp h
  obtain ⟨env', hfinal, _⟩ := run_host_eq_some hhost
  exact ⟨env', hfinal⟩

end Calls

/-- A step of the task is the first thing that is left to do before it, and what is left to do
after it is the rest of that. -/
theorem PlcStep.unrolls {point point' : PlcPoint} {env env' : τ} {call : PlcCall}
    (h : PlcStep E task point env call point' env') (hattempt : point.HasAttempt) :
    point'.HasAttempt ∧ ∀ steps value trace, ∃ value',
      (point.rest E task (steps + call.iterations)).run ⟨env, value, trace⟩ =
        (point'.rest E task steps).run ⟨env', value', trace ++ point.events call⟩ := by
  cases h with
  | @connected nAttemps fd _ _ hrun =>
      refine ⟨trivial, fun steps value trace => ⟨value, ?_⟩⟩
      obtain ⟨left, hleft⟩ := Nat.exists_eq_add_of_lt hattempt
      rw [PlcPoint.rest, show maxConnAttemps - nAttemps = left + 1 by omega,
        run_bind_of_eq_some (run_connectLoop_succ hrun), PlcPoint.events, List.append_nil]
      rfl
  | @notConnected nAttemps _ _ hrun =>
      obtain ⟨left, hleft⟩ := Nat.exists_eq_add_of_lt hattempt
      by_cases hmore : nAttemps + 1 < maxConnAttemps
      · rw [if_pos hmore]
        refine ⟨hmore, fun steps value trace => ⟨value, ?_⟩⟩
        rw [PlcPoint.rest, PlcPoint.rest, show maxConnAttemps - nAttemps = left + 1 by omega,
          show maxConnAttemps - (nAttemps + 1) = left by omega, run_bind,
          run_connectLoop_succ hrun, PlcPoint.events, List.append_nil]
        rfl
      · rw [if_neg hmore]
        refine ⟨trivial, fun steps value trace => ⟨value, ?_⟩⟩
        rw [PlcPoint.rest, show maxConnAttemps - nAttemps = 0 + 1 by omega, run_bind,
          run_connectLoop_succ hrun, PlcPoint.events, List.append_nil]
        rfl
  | @created fd err _ _ hrun =>
      by_cases herr : err = .other
      · rw [if_pos herr]
        refine ⟨trivial, fun steps value trace => ⟨value, ?_⟩⟩
        rw [PlcPoint.rest, serveConnection, run_bind_of_eq_some (run_host_of_eq_some hrun),
          run_bind_of_eq_some rfl, if_pos (stops_iff.mpr herr)]
        rfl
      · rw [if_neg herr]
        refine ⟨trivial, fun steps value trace => ⟨value, ?_⟩⟩
        rw [PlcPoint.rest, serveConnection, run_bind_of_eq_some (run_host_of_eq_some hrun),
          run_bind_of_eq_some rfl, if_neg (mt stops_iff.mp herr)]
        rfl
  | @read fd before answer err _ env₁ _ hbefore hrun hgoes =>
      refine ⟨trivial, fun steps value trace => ⟨value, ?_⟩⟩
      rw [PlcPoint.rest, PlcCall.iterations, modbusLoop, run_bind, modbusIteration,
        run_bind_of_eq_some (run_host_of_eq_some hbefore),
        run_bind_of_eq_some (run_host_of_eq_some hrun), run_bind_of_eq_some rfl,
        if_neg (mt stops_iff.mp hgoes)]
      rfl
  | @readFailed fd before answer _ env₁ env₂ env₃ _ hbefore hrun hdisconnect hfinal =>
      refine ⟨trivial, fun steps value trace => ⟨value, ?_⟩⟩
      have hiteration : (modbusIteration E task fd).run ⟨env, value, trace⟩ =
          some (.other, ⟨env₃, value, trace ++ [.read .other before]⟩) := by
        rw [modbusIteration, run_bind_of_eq_some (run_host_of_eq_some hbefore),
          run_bind_of_eq_some (run_host_of_eq_some hrun), run_bind_of_eq_some rfl,
          if_pos (by decide), run_bind_of_eq_some (run_host_of_eq_some hdisconnect)]
        rfl
      rw [PlcPoint.rest, PlcCall.iterations, modbusLoop,
        run_afterIteration hiteration (by decide) hfinal]
      rfl
  | @wrote fd register _ _ hrun =>
      refine ⟨trivial, fun steps value trace => ⟨register.toNat, ?_⟩⟩
      rw [PlcPoint.rest, PlcPoint.rest, run_bind_of_eq_some (run_relayRegister hrun (by decide)),
        if_pos rfl]
      rfl
  | @writeRefused fd register _ env₁ _ hrun hfinal =>
      refine ⟨trivial, fun steps value trace => ⟨register.toNat, ?_⟩⟩
      rw [PlcPoint.rest, run_afterIteration (run_relayRegister hrun (by decide)) (by decide) hfinal]
      rfl
  | @writeFailed fd register _ env₁ env₂ _ hrun hdisconnect hfinal =>
      refine ⟨trivial, fun steps value trace => ⟨register.toNat, ?_⟩⟩
      rw [PlcPoint.rest, run_afterIteration (run_relayRegister_other hrun hdisconnect) (by decide)
        hfinal]
      rfl

/-- How much there is ahead: every step takes something off. -/
def PlcPoint.ahead (steps : Nat) : PlcPoint → Nat
  | connecting nAttemps => 2 * steps + 2 + (maxConnAttemps - nAttemps)
  | creating _ | sharing _ _ => 2 * steps + 1
  | reading _ => 2 * steps
  | returned => 0

theorem PlcStep.ahead_lt {point point' : PlcPoint} {env env' : τ} {call : PlcCall}
    (h : PlcStep E task point env call point' env') (hattempt : point.HasAttempt) (steps : Nat) :
    point'.ahead steps < point.ahead (steps + call.iterations) := by
  cases h with
  | @notConnected nAttemps =>
      have hlt : nAttemps < maxConnAttemps := hattempt
      simp only [PlcCall.iterations]
      split
      · simp only [PlcPoint.ahead]
        omega
      · simp only [PlcPoint.ahead]
        omega
  | created =>
      simp only [PlcCall.iterations]
      split
      · simp only [PlcPoint.ahead]
        omega
      · simp only [PlcPoint.ahead]
        omega
  | _ =>
      simp only [PlcCall.iterations, PlcPoint.ahead]
      omega

/-- If the function gets further, a step can be taken. -/
theorem PlcPoint.exists_step {point : PlcPoint} (hattempt : point.HasAttempt) {steps : Nat}
    {w w' : ModbusWorld τ} {status : TaskStatus}
    (hrun : (point.rest E task steps).run w = some (status, w')) :
    point.status? = some status ∧ w = w' ∨
      ∃ call point' env' steps', PlcStep E task point w.env call point' env' ∧
        steps = steps' + call.iterations := by
  cases point with
  | connecting nAttemps =>
      obtain ⟨left, hleft⟩ := Nat.exists_eq_add_of_lt hattempt
      rw [PlcPoint.rest, show maxConnAttemps - nAttemps = left + 1 by omega, connectLoop] at hrun
      obtain ⟨_, _, hloop, _⟩ := run_bind_eq_some.mp hrun
      obtain ⟨conn, _, hhost, _⟩ := run_bind_eq_some.mp hloop
      obtain ⟨env, hconnect, _⟩ := run_host_eq_some hhost
      cases conn with
      | none => exact .inr ⟨_, _, _, steps, .notConnected hconnect, rfl⟩
      | some fd => exact .inr ⟨_, _, _, steps, .connected hconnect, rfl⟩
  | creating fd =>
      obtain ⟨err, _, hhost, _⟩ := run_bind_eq_some.mp hrun
      obtain ⟨env, hcreate, _⟩ := run_host_eq_some hhost
      exact .inr ⟨_, _, _, steps, .created hcreate, rfl⟩
  | reading fd =>
      cases steps with
      | zero =>
          obtain ⟨rfl, rfl⟩ := run_pure_eq_some.mp hrun
          exact .inl ⟨rfl, rfl⟩
      | succ steps =>
          obtain ⟨err, w₁, hiteration, hrest⟩ := run_bind_eq_some.mp hrun
          obtain ⟨before, w₂, hhost, hiteration⟩ := run_bind_eq_some.mp hiteration
          obtain ⟨env₂, hbefore, rfl⟩ := run_host_eq_some hhost
          obtain ⟨⟨readErr, answer⟩, w₃, hhost, hiteration⟩ := run_bind_eq_some.mp hiteration
          obtain ⟨env₃, hread, rfl⟩ := run_host_eq_some hhost
          obtain ⟨_, w₄, hnote, hiteration⟩ := run_bind_eq_some.mp hiteration
          cases hnote
          rcases run_errorBranch hiteration with ⟨rfl, rfl, _, env₄, hdisconnect, rfl⟩ | ⟨hgoes, _⟩
          · obtain ⟨env₅, hfinal⟩ := exists_finalDisconnect hrest
            exact .inr ⟨_, _, _, steps, .readFailed hbefore hread hdisconnect hfinal, rfl⟩
          · exact .inr ⟨_, _, _, steps, .read hbefore hread hgoes, rfl⟩
  | sharing fd register =>
      obtain ⟨err, w₁, hrelay, hrest⟩ := run_bind_eq_some.mp hrun
      obtain ⟨_, w₂, hset, hrelay⟩ := run_bind_eq_some.mp hrelay
      cases hset
      obtain ⟨writeErr, w₃, hhost, hrelay⟩ := run_bind_eq_some.mp hrelay
      obtain ⟨env₃, hwrite, rfl⟩ := run_host_eq_some hhost
      obtain ⟨_, w₄, hnote, hrelay⟩ := run_bind_eq_some.mp hrelay
      cases hnote
      rcases run_errorBranch hrelay with ⟨rfl, rfl, _, env₄, hdisconnect, rfl⟩ | ⟨hgoes, hrelay⟩
      · obtain ⟨env₅, hfinal⟩ := exists_finalDisconnect hrest
        exact .inr ⟨_, _, _, steps, .writeFailed hwrite hdisconnect hfinal, rfl⟩
      · obtain ⟨rfl, rfl⟩ := run_pure_eq_some.mp hrelay
        cases writeErr with
        | none => exact .inr ⟨_, _, _, steps, .wrote hwrite, rfl⟩
        | exception =>
            obtain ⟨env₅, hfinal⟩ := exists_finalDisconnect hrest
            exact .inr ⟨_, _, _, steps, .writeRefused hwrite hfinal, rfl⟩
        | other => exact absurd rfl hgoes
  | returned =>
      obtain ⟨rfl, rfl⟩ := run_pure_eq_some.mp hrun
      exact .inl ⟨rfl, rfl⟩

/-! ## Runs -/

/-- `modbus_task` by itself, step by step. -/
def PlcTaskStep (E : ModbusHost τ) (task : ModbusTaskConfig) (s : PlcPoint × τ) (call : PlcCall)
    (t : PlcPoint × τ) : Prop :=
  PlcStep E task s.1 s.2 call t.1 t.2

/-- What the function notes of the steps. -/
def modbusEvents (run : List (Transition (PlcPoint × τ) PlcCall)) : List ModbusEvent :=
  run.flatMap fun tr => tr.source.1.events tr.label

theorem rest_of_run {run : List (Transition (PlcPoint × τ) PlcCall)} {s t : PlcPoint × τ}
    (h : Run (PlcTaskStep E task) s run t) (hattempt : s.1.HasAttempt) (steps : Nat) :
    ∃ steps₀, ∀ value trace, ∃ value', (s.1.rest E task steps₀).run ⟨s.2, value, trace⟩ =
      (t.1.rest E task steps).run ⟨t.2, value', trace ++ modbusEvents run⟩ := by
  induction h with
  | nil s =>
      refine ⟨steps, fun value trace => ⟨value, ?_⟩⟩
      rw [modbusEvents, List.flatMap_nil, List.append_nil]
  | @cons s t u call run first rest ih =>
      obtain ⟨hattempt', hunrolls⟩ := PlcStep.unrolls first hattempt
      obtain ⟨steps₁, hrest⟩ := ih hattempt'
      refine ⟨steps₁ + call.iterations, fun value trace => ?_⟩
      obtain ⟨value₁, hfirst⟩ := hunrolls steps₁ value trace
      obtain ⟨value₂, hrest⟩ := hrest value₁ (trace ++ s.1.events call)
      refine ⟨value₂, ?_⟩
      rw [hfirst, hrest, List.append_assoc]
      rfl

/-- What the function is observed to do, the task does step by step. -/
theorem steps_of_rest {status : TaskStatus} {w' : ModbusWorld τ} :
    ∀ {n : Nat} {point : PlcPoint} {steps : Nat} {w : ModbusWorld τ}, point.ahead steps < n →
      point.HasAttempt → (point.rest E task steps).run w = some (status, w') →
      ∃ run point', Run (PlcTaskStep E task) (point, w.env) run (point', w'.env) ∧
        point'.status? = some status ∧ w'.trace = w.trace ++ modbusEvents run := by
  intro n
  induction n with
  | zero => exact fun hlt => absurd hlt (Nat.not_lt_zero _)
  | succ n ih =>
      intro point steps w hlt hattempt hrun
      rcases PlcPoint.exists_step hattempt hrun with
        ⟨hstatus, rfl⟩ | ⟨call, next, env', steps', hstep, rfl⟩
      · exact ⟨[], point, .nil _, hstatus, (List.append_nil _).symm⟩
      · obtain ⟨hattempt', hunrolls⟩ := hstep.unrolls hattempt
        obtain ⟨value', hunrolls⟩ := hunrolls steps' w.sharedValue w.trace
        have hahead := hstep.ahead_lt hattempt steps'
        obtain ⟨run, point', hsteps, hstatus, htrace⟩ :=
          ih (by omega) hattempt' (hunrolls.symm.trans hrun)
        have hfirst : PlcTaskStep E task (point, w.env) call (next, env') := hstep
        refine ⟨_, point', .cons hfirst hsteps, hstatus, ?_⟩
        rw [htrace, List.append_assoc]
        rfl

/-- At the head of its loop, and when it has returned, the function is observed to have got
there. -/
theorem PlcPoint.rest_of_status {point : PlcPoint} {status : TaskStatus}
    (h : point.status? = some status) (w : ModbusWorld τ) :
    (point.rest E task 0).run w = some (status, w) := by
  cases point with
  | reading fd =>
      cases h
      rfl
  | returned =>
      cases h
      rfl
  | connecting | creating | sharing => cases h

/-- The function `modbus_task` and its steps agree: an observation of the function, with the
state in which it leaves the PLC and the calls that it has made, is possible exactly if a run of
the steps makes these calls and is then at the head of the loop, or returned. -/
theorem modbusTask_iff_steps (E : ModbusHost τ) (task : ModbusTaskConfig) (plcEnv plcEnv' : τ)
    (status : TaskStatus) (events : List ModbusEvent) :
    (∃ steps w, (modbusTask E (some task) steps).run (.start plcEnv) = some (status, w) ∧
        w.env = plcEnv' ∧ w.trace = events) ↔
      ∃ run point, Run (PlcTaskStep E task) (.connecting 0, plcEnv) run (point, plcEnv') ∧
        point.status? = some status ∧ modbusEvents run = events := by
  have hattempt : (PlcPoint.connecting 0).HasAttempt := by
    show 0 < maxConnAttemps
    decide
  constructor
  · rintro ⟨steps, w, hrun, rfl, rfl⟩
    have hrest : ((PlcPoint.connecting 0).rest E task steps).run (.start plcEnv) =
        some (status, w) := hrun
    obtain ⟨run, point, hsteps, hstatus, htrace⟩ :=
      steps_of_rest (Nat.lt_succ_self _) hattempt hrest
    exact ⟨run, point, hsteps, hstatus, htrace.symm⟩
  · rintro ⟨run, point, hrun, hstatus, rfl⟩
    obtain ⟨steps, hrest⟩ := rest_of_run hrun hattempt 0
    obtain ⟨value, hrest⟩ := hrest 0 []
    have hend : (point.rest E task 0).run ⟨plcEnv', value, modbusEvents run⟩ =
        some (status, ⟨plcEnv', value, modbusEvents run⟩) := PlcPoint.rest_of_status hstatus _
    exact ⟨steps, _, hrest.trans hend, rfl, rfl⟩

end MqttClient
