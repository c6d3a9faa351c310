/-
# The Modbus task: `modbus_task.c`

The task connects to the PLC and then repeats one iteration: it reads a holding
register, hands the value to the publisher through `shared_value`, and writes the value
plus one back.  Everything it calls is a parameter, `ModbusHost`: `platform.h` and
nanoMODBUS, whose calls report no error, a Modbus exception or another error, and leave
the output register alone unless there was no error.  The register array is a local
without an initialiser, so an untouched register holds whatever the host put there.

The iteration treats an exception from the read like a success: the register that was
not read is published and its increment is written back.  A run relays what was read
exactly if none of its reads ends in an exception.
-/

import MqttClient.Semantics.Program
import MqttClient.Packet.Format

namespace MqttClient

open Semantics Program

variable {σ : Type}

/-! ## The task -/

/-- `nmbs_error`, as far as the task tells its values apart: `NMBS_ERROR_NONE`, the
codes of Modbus exceptions, and the codes of transport, timeout and format errors. -/
inductive NmbsError
  | none
  | exception
  | other
  deriving DecidableEq, Repr

/-- `nmbs_error_is_exception`. -/
def NmbsError.isException (err : NmbsError) : Bool := err = .exception

/-- `modbus_task_config_t`. -/
structure ModbusTaskConfig where
  plcIp : CString
  plcPort : CString
  plcRegister : Nat

/-- What the task calls and does not define, over states `σ`. -/
structure ModbusHost (σ : Type) where
  connectTcp : (address port : CString) → Program σ (Option Int)
  disconnect : (fd : Int) → Program σ PUnit
  nmbsClientCreate : (fd : Int) → Program σ NmbsError
  /-- The value matters only if there was no error. -/
  nmbsReadHoldingRegisters : (fd : Int) → (address : Nat) → Program σ (NmbsError × UInt16)
  nmbsWriteMultipleRegisters : (fd : Int) → (address : Nat) → (value : UInt16) →
    Program σ NmbsError
  /-- What the uninitialised `r_regs[0]` of an iteration holds. -/
  uninitialised : Program σ UInt16

/-- What the task does, as an observer sees it. -/
inductive ModbusEvent
  /-- The modbus client was created. -/
  | created (err : NmbsError)
  /-- The register was read, and `r_regs[0]` holds this now. -/
  | read (err : NmbsError) (register : UInt16)
  /-- `shared_value` was assigned. -/
  | stored (value : UInt16)
  /-- The register was written. -/
  | wrote (value : UInt16) (err : NmbsError)
  deriving DecidableEq, Repr

/-- The host, the variable `shared_value`, and what the task did so far. -/
structure ModbusWorld (σ : Type) where
  env : σ
  sharedValue : Nat
  trace : List ModbusEvent

/-- A function of the task. -/
abbrev ModbusAction (σ α : Type) : Type := Program (ModbusWorld σ) α

/-- A call of the host. -/
def host {α : Type} (x : Program σ α) : ModbusAction σ α :=
  ⟨fun w => (x.run w.env).map fun (a, env) => (a, { w with env })⟩

/-- Note what was done. -/
def note (event : ModbusEvent) : ModbusAction σ PUnit :=
  .modify fun w => { w with trace := w.trace ++ [event] }

/-- `shared_value = value`, between the calls that lock, signal and unlock. -/
def setSharedValue (value : UInt16) : ModbusAction σ PUnit :=
  .modify fun w => { w with sharedValue := value.toNat, trace := w.trace ++ [.stored value] }

section Task

variable (E : ModbusHost σ)

/-- `MAX_CONN_ATTEMPS`. -/
def maxConnAttemps : Nat := 10

/-- The loop around `connect_tcp`, with the number of attempts left. -/
def connectLoop (config : ModbusTaskConfig) : Nat → ModbusAction σ (Option Int)
  | 0 => pure none
  | left + 1 => do
      let conn ← host (E.connectTcp config.plcIp config.plcPort)
      match conn with
      | none => connectLoop config left
      | some fd => pure (some fd)

/-- The second half of an iteration: publish the register, increment it, and write it
back.  The result is the last value of `err`. -/
def relayRegister (config : ModbusTaskConfig) (fd : Int) (register : UInt16) :
    ModbusAction σ NmbsError := do
  setSharedValue register
  let err ← host (E.nmbsWriteMultipleRegisters fd config.plcRegister (register + 1))
  note (.wrote (register + 1) err)
  if err ≠ .none ∧ !err.isException then do
    host (E.disconnect fd)
    pure err
  else pure err

/-- One iteration, up to the `while` condition.  The result is the last value of
`err`, which both `continue`s leave different from `NMBS_ERROR_NONE`. -/
def modbusIteration (config : ModbusTaskConfig) (fd : Int) : ModbusAction σ NmbsError := do
  let before ← host E.uninitialised
  let (err, value) ← host (E.nmbsReadHoldingRegisters fd config.plcRegister)
  let register := if err = .none then value else before
  note (.read err register)
  if err ≠ .none ∧ !err.isException then do
    host (E.disconnect fd)
    pure err
  else relayRegister E config fd register

/-- Whether the task has returned, or is still in its loop when the observation ends. -/
inductive TaskStatus
  | returned
  | running
  deriving DecidableEq, Repr

/-- The `do` loop and the final `disconnect`, observed for so many iterations. -/
def modbusLoop (config : ModbusTaskConfig) (fd : Int) : Nat → ModbusAction σ TaskStatus
  | 0 => pure .running
  | steps + 1 => do
      let err ← modbusIteration E config fd
      if err = .none then modbusLoop config fd steps
      else do
        host (E.disconnect fd)
        pure .returned

/-- `modbus_task` with a connection. -/
def serveConnection (config : ModbusTaskConfig) (fd : Int) (steps : Nat) :
    ModbusAction σ TaskStatus := do
  let err ← host (E.nmbsClientCreate fd)
  note (.created err)
  if err ≠ .none ∧ !err.isException then pure .returned
  else modbusLoop E config fd steps

/-- `modbus_task`, observed for so many iterations. -/
def modbusTask (config : Option ModbusTaskConfig) (steps : Nat) : ModbusAction σ TaskStatus :=
  match config with
  | none => pure .returned
  | some config => do
      let conn ← connectLoop E config maxConnAttemps
      match conn with
      | none => pure .returned
      | some fd => serveConnection E config fd steps

end Task

/-! ## What is relayed -/

/-- The event is the outcome of a read. -/
def ModbusEvent.read? : ModbusEvent → Option (NmbsError × UInt16)
  | read err register => some (err, register)
  | _ => none

/-- The read of the current iteration: the last one. -/
def lastRead? (trace : List ModbusEvent) : Option (NmbsError × UInt16) :=
  (trace.filterMap ModbusEvent.read?).getLast?

/-- The event publishes a value or writes one back. -/
def ModbusEvent.isRelay : ModbusEvent → Bool
  | stored _ | wrote _ _ => true
  | created _ | read _ _ => false

/-- What is published was read in the same iteration, what is written back is one more,
and an iteration whose read failed does neither. -/
structure RelaysReads (trace : List ModbusEvent) : Prop where
  stored : ∀ before value after, trace = before ++ .stored value :: after →
    lastRead? before = some (.none, value)
  wrote : ∀ before value err after, trace = before ++ .wrote value err :: after →
    ∃ read, lastRead? before = some (.none, read) ∧ value.toNat = (read.toNat + 1) % 65536
  failed : ∀ before err register after, trace = before ++ .read err register :: after →
    err ≠ .none → ∀ e ∈ after.takeWhile (·.read?.isNone), e.isRelay = false

/-- What an event asks of the read of its iteration. -/
def ModbusEvent.Accords (current : Option (NmbsError × UInt16)) : ModbusEvent → Prop
  | stored value => current = some (.none, value)
  | wrote value _ =>
      ∃ read, current = some (.none, read) ∧ value.toNat = (read.toNat + 1) % 65536
  | created _ | read _ _ => True

/-- Every event accords with the read of its iteration, after the events seen before. -/
def AccordsAfter (seen trace : List ModbusEvent) : Prop :=
  ∀ before e after, trace = before ++ e :: after → e.Accords (lastRead? (seen ++ before))

theorem accordsAfter_nil (seen : List ModbusEvent) : AccordsAfter seen [] := by
  intro before e after h
  cases before <;> cases h

theorem accordsAfter_cons {seen trace : List ModbusEvent} {e : ModbusEvent} :
    AccordsAfter seen (e :: trace) ↔
      e.Accords (lastRead? seen) ∧ AccordsAfter (seen ++ [e]) trace := by
  constructor
  · intro h
    refine ⟨by simpa using h [] e trace rfl, ?_⟩
    intro before e' after heq
    have hlater := h (e :: before) e' after (by rw [heq, List.cons_append])
    rwa [List.append_assoc, List.singleton_append]
  · rintro ⟨hhead, htail⟩ before e' after heq
    cases before with
    | nil =>
        cases heq
        rwa [List.append_nil]
    | cons e'' before =>
        obtain ⟨rfl, hrest⟩ := List.cons.inj heq
        have hlater := htail before e' after hrest
        rwa [List.append_assoc, List.singleton_append] at hlater

theorem lastRead?_append_read (seen : List ModbusEvent) (err : NmbsError) (register : UInt16) :
    lastRead? (seen ++ [.read err register]) = some (err, register) := by
  rw [lastRead?, List.filterMap_append]
  exact List.getLast?_concat

theorem lastRead?_append_of_none {seen between : List ModbusEvent}
    (h : ∀ e ∈ between, e.read? = none) : lastRead? (seen ++ between) = lastRead? seen := by
  rw [lastRead?, List.filterMap_append, List.filterMap_eq_nil_iff.mpr h, List.append_nil, lastRead?]

theorem relaysReads_iff_accordsAfter {trace : List ModbusEvent} :
    RelaysReads trace ↔ AccordsAfter [] trace := by
  constructor
  · intro h before e after heq
    cases e with
    | stored value => exact h.stored before value after heq
    | wrote value err => exact h.wrote before value err after heq
    | created err => trivial
    | read err register => trivial
  · intro h
    refine ⟨fun before value after heq => h before _ after heq,
      fun before value err after heq => h before _ after heq, ?_⟩
    intro before err register after heq hfailed e he
    -- an event of the iteration would ask for a read without error
    obtain ⟨between, rest, hsplit⟩ := List.append_of_mem he
    have hbetween : ∀ e' ∈ between, e'.read? = none := by
      intro e' he'
      have hmem : e' ∈ after.takeWhile (·.read?.isNone) := by
        rw [hsplit]
        exact List.mem_append_left _ he'
      exact Option.isNone_iff_eq_none.mp (List.all_eq_true.mp List.all_takeWhile e' hmem)
    have hafter : after = between ++ e :: (rest ++ after.dropWhile (·.read?.isNone)) := by
      conv_lhs => rw [← after.takeWhile_append_dropWhile (p := (·.read?.isNone)), hsplit]
      rw [List.append_assoc, List.cons_append]
    have hcurrent := h (before ++ [.read err register] ++ between) e
      (rest ++ after.dropWhile (·.read?.isNone)) (by
        rw [heq, List.append_assoc, List.append_assoc, List.singleton_append, ← hafter])
    rw [List.nil_append, lastRead?_append_of_none hbetween, lastRead?_append_read] at hcurrent
    cases e with
    | stored value => exact absurd (congrArg Prod.fst (Option.some.inj hcurrent)) hfailed
    | wrote value err' =>
        obtain ⟨_, hread, _⟩ := hcurrent
        exact absurd (congrArg Prod.fst (Option.some.inj hread)) hfailed
    | created err' => rfl
    | read err' register' => rfl

/-! ## Iterations -/

/-- The events of an iteration, and the value of `err` at its end. -/
inductive IsIteration : List ModbusEvent → NmbsError → Prop
  | failed (register : UInt16) : IsIteration [.read .other register] .other
  | relayed {readErr : NmbsError} (hread : readErr ≠ .other) (register : UInt16)
      (err : NmbsError) :
      IsIteration [.read readErr register, .stored register, .wrote (register + 1) err] err

theorem run_host_eq_some {α : Type} {x : Program σ α} {a : α} {w w' : ModbusWorld σ}
    (h : (host x).run w = some (a, w')) :
    ∃ env, x.run w.env = some (a, env) ∧ w' = { w with env } := by
  obtain ⟨⟨a', env⟩, hrun, heq⟩ := Option.map_eq_some_iff.mp h
  cases heq
  exact ⟨env, hrun, rfl⟩

theorem trace_of_host {α : Type} {x : Program σ α} {a : α} {w w' : ModbusWorld σ}
    (h : (host x).run w = some (a, w')) : w'.trace = w.trace := by
  obtain ⟨env, _, rfl⟩ := run_host_eq_some h
  rfl

theorem stops_iff {err : NmbsError} :
    (err ≠ .none ∧ !err.isException) ↔ err = .other := by
  cases err <;> decide

section Runs

variable {E : ModbusHost σ} {config : ModbusTaskConfig} {fd : Int} {w w' : ModbusWorld σ}

/-- The error branch behind a call: an error that is not a Modbus exception closes the
connection and ends the iteration. -/
theorem run_errorBranch {err result : NmbsError} {rest : ModbusAction σ NmbsError}
    (h : (if err ≠ .none ∧ !err.isException then do
        host (E.disconnect fd)
        pure err
      else rest : ModbusAction σ NmbsError).run w = some (result, w')) :
    (err = .other ∧ result = .other ∧
        ∃ a env, (E.disconnect fd).run w.env = some (a, env) ∧ w' = { w with env }) ∨
      err ≠ .other ∧ rest.run w = some (result, w') := by
  split at h
  · rename_i hstops
    rw [stops_iff] at hstops
    obtain ⟨a, w₁, hdisconnect, h⟩ := run_bind_eq_some.mp h
    obtain ⟨rfl, rfl⟩ := run_pure_eq_some.mp h
    exact .inl ⟨hstops, hstops, a, run_host_eq_some hdisconnect⟩
  · rename_i hgoes
    rw [stops_iff] at hgoes
    exact .inr ⟨hgoes, h⟩

theorem relayRegister_trace {register : UInt16} {err : NmbsError}
    (h : (relayRegister E config fd register).run w = some (err, w')) :
    w'.trace = w.trace ++ [.stored register, .wrote (register + 1) err] := by
  obtain ⟨_, w₁, hset, h⟩ := run_bind_eq_some.mp h
  obtain ⟨err', w₂, hwrite, h⟩ := run_bind_eq_some.mp h
  obtain ⟨_, w₃, hnote, h⟩ := run_bind_eq_some.mp h
  cases hset
  cases hnote
  have htrace := trace_of_host hwrite
  rcases run_errorBranch h with ⟨rfl, rfl, _, env, _, rfl⟩ | ⟨_, h⟩
  · simp [htrace]
  · obtain ⟨rfl, rfl⟩ := run_pure_eq_some.mp h
    simp [htrace]

theorem modbusIteration_trace {err : NmbsError}
    (h : (modbusIteration E config fd).run w = some (err, w')) :
    ∃ new, w'.trace = w.trace ++ new ∧ IsIteration new err := by
  obtain ⟨before, w₁, hbefore, h⟩ := run_bind_eq_some.mp h
  obtain ⟨⟨readErr, value⟩, w₂, hread, h⟩ := run_bind_eq_some.mp h
  obtain ⟨_, w₃, hnote, h⟩ := run_bind_eq_some.mp h
  cases hnote
  have htrace : w₂.trace = w.trace := (trace_of_host hread).trans (trace_of_host hbefore)
  rcases run_errorBranch h with ⟨rfl, rfl, _, env, _, rfl⟩ | ⟨hgoes, h⟩
  · refine ⟨_, ?_, .failed before⟩
    simp [htrace]
  · refine ⟨_, ?_, .relayed hgoes (if readErr = .none then value else before) err⟩
    rw [relayRegister_trace h]
    simp [htrace]

/-- The loop is a sequence of iterations. -/
theorem modbusLoop_trace : ∀ {steps : Nat} {status : TaskStatus} {w w' : ModbusWorld σ},
    (modbusLoop E config fd steps).run w = some (status, w') →
    ∃ iterations : List (List ModbusEvent), w'.trace = w.trace ++ iterations.flatten ∧
      ∀ new ∈ iterations, ∃ err, IsIteration new err := by
  intro steps
  induction steps with
  | zero =>
      intro status w w' h
      obtain ⟨_, rfl⟩ := run_pure_eq_some.mp h
      exact ⟨[], by simp, by simp⟩
  | succ steps ih =>
      intro status w w' h
      obtain ⟨err, w₁, hiteration, h⟩ := run_bind_eq_some.mp h
      obtain ⟨new, htrace, hnew⟩ := modbusIteration_trace hiteration
      split at h
      · obtain ⟨iterations, htrace', hall⟩ := ih h
        refine ⟨new :: iterations, by simp [htrace', htrace], ?_⟩
        intro new' hnew'
        rcases List.mem_cons.mp hnew' with rfl | hlater
        · exact ⟨err, hnew⟩
        · exact hall new' hlater
      · obtain ⟨_, w₂, hdisconnect, h⟩ := run_bind_eq_some.mp h
        obtain ⟨_, rfl⟩ := run_pure_eq_some.mp h
        refine ⟨[new], ?_, by simpa using ⟨err, hnew⟩⟩
        rw [trace_of_host hdisconnect]
        simp [htrace]

theorem connectLoop_trace : ∀ {left : Nat} {conn : Option Int} {w w' : ModbusWorld σ},
    (connectLoop E config left).run w = some (conn, w') → w'.trace = w.trace := by
  intro left
  induction left with
  | zero =>
      intro conn w w' h
      obtain ⟨_, rfl⟩ := run_pure_eq_some.mp h
      rfl
  | succ left ih =>
      intro conn w w' h
      obtain ⟨conn', w₁, hconnect, h⟩ := run_bind_eq_some.mp h
      rw [← trace_of_host hconnect]
      cases conn' with
      | none => exact ih h
      | some fd =>
          obtain ⟨_, rfl⟩ := run_pure_eq_some.mp h
          rfl

/-- The task is a sequence of iterations, after the modbus client was created. -/
theorem modbusTask_trace {config : Option ModbusTaskConfig} {steps : Nat} {status : TaskStatus}
    (h : (modbusTask E config steps).run w = some (status, w')) :
    ∃ (created : List ModbusEvent) (iterations : List (List ModbusEvent)),
      w'.trace = w.trace ++ (created ++ iterations.flatten) ∧
      (∀ e ∈ created, ∃ err, e = .created err) ∧
      ∀ new ∈ iterations, ∃ err, IsIteration new err := by
  cases config with
  | none =>
      obtain ⟨_, rfl⟩ := run_pure_eq_some.mp h
      exact ⟨[], [], by simp, by simp, by simp⟩
  | some config =>
      obtain ⟨conn, w₁, hconnect, h⟩ := run_bind_eq_some.mp h
      have htrace := connectLoop_trace hconnect
      cases conn with
      | none =>
          obtain ⟨_, rfl⟩ := run_pure_eq_some.mp h
          exact ⟨[], [], by simp [htrace], by simp, by simp⟩
      | some fd =>
          obtain ⟨err, w₂, hcreate, h⟩ := run_bind_eq_some.mp h
          obtain ⟨_, w₃, hnote, h⟩ := run_bind_eq_some.mp h
          cases hnote
          rw [← trace_of_host hcreate] at htrace
          split at h
          · obtain ⟨_, rfl⟩ := run_pure_eq_some.mp h
            exact ⟨[.created err], [], by simp [htrace], by simp, by simp⟩
          · obtain ⟨iterations, htrace', hall⟩ := modbusLoop_trace h
            exact ⟨[.created err], iterations, by simp [htrace', htrace], by simp, hall⟩

end Runs

/-! ## Exceptions -/

/-- An iteration accords if its read does not end in an exception. -/
theorem accordsAfter_iteration {seen new rest : List ModbusEvent} {err : NmbsError}
    (h : IsIteration new err) :
    AccordsAfter seen (new ++ rest) ↔
      (∀ register, .read .exception register ∉ new) ∧ AccordsAfter (seen ++ new) rest := by
  cases h with
  | failed register => simp [accordsAfter_cons, ModbusEvent.Accords]
  | @relayed readErr hread register err =>
      have hcurrent := lastRead?_append_read seen readErr register
      have hcurrent' : lastRead? (seen ++ [.read readErr register, .stored register]) =
          some (readErr, register) := by
        have hsplit : seen ++ [ModbusEvent.read readErr register, .stored register] =
            seen ++ [.read readErr register] ++ [.stored register] := by simp
        rw [hsplit, lastRead?_append_of_none (by simp [ModbusEvent.read?]), hcurrent]
      simp only [List.cons_append, List.nil_append, accordsAfter_cons, ModbusEvent.Accords,
        hcurrent, hcurrent', true_and, List.append_assoc]
      cases readErr with
      | none => simp [UInt16.toNat_add]
      | exception => simp
      | other => exact absurd rfl hread

theorem accordsAfter_iterations {iterations : List (List ModbusEvent)} :
    ∀ {seen : List ModbusEvent}, (∀ new ∈ iterations, ∃ err, IsIteration new err) →
      (AccordsAfter seen iterations.flatten ↔
        ∀ register, .read .exception register ∉ iterations.flatten) := by
  induction iterations with
  | nil => intro seen _; simp [accordsAfter_nil]
  | cons new iterations ih =>
      intro seen hall
      obtain ⟨err, hnew⟩ := hall new List.mem_cons_self
      rw [List.flatten_cons, accordsAfter_iteration hnew,
        ih fun new' hnew' => hall new' (List.mem_cons_of_mem new hnew')]
      simp only [List.mem_append, not_or, forall_and]

theorem accordsAfter_created {created : List ModbusEvent} {rest : List ModbusEvent} :
    ∀ {seen : List ModbusEvent}, (∀ e ∈ created, ∃ err, e = .created err) →
      (AccordsAfter seen (created ++ rest) ↔ AccordsAfter (seen ++ created) rest) := by
  induction created with
  | nil => intro seen _; simp
  | cons e created ih =>
      intro seen hall
      obtain ⟨err, rfl⟩ := hall e List.mem_cons_self
      rw [List.cons_append, accordsAfter_cons,
        ih fun e he => hall e (List.mem_cons_of_mem _ he)]
      simp [ModbusEvent.Accords]

/-- The world in which the task starts. -/
def ModbusWorld.start (env : σ) : ModbusWorld σ := ⟨env, 0, []⟩

/-- Whatever the host answers, the task relays what it reads exactly if no read ends
in a Modbus exception. -/
theorem relaysReads_iff_no_exception (E : ModbusHost σ) (config : Option ModbusTaskConfig)
    (steps : Nat) (env : σ) :
    (modbusTask E config steps).Ensures (.start env) fun _ w' =>
      RelaysReads w'.trace ↔ ∀ register, .read .exception register ∉ w'.trace := by
  intro status w' h
  obtain ⟨created, iterations, htrace, hcreated, hall⟩ := modbusTask_trace h
  have hclean : ∀ register, .read .exception register ∉ created := by
    intro register hmem
    obtain ⟨err, heq⟩ := hcreated _ hmem
    cases heq
  rw [relaysReads_iff_accordsAfter, htrace]
  show AccordsAfter [] ([] ++ (created ++ iterations.flatten)) ↔ _
  rw [List.nil_append, accordsAfter_created hcreated, accordsAfter_iterations hall]
  simp only [ModbusWorld.start, List.nil_append, List.mem_append, not_or, forall_and]
  exact ⟨fun h => ⟨hclean, h⟩, And.right⟩

/-- A PLC that answers the read with an exception and accepts the write. -/
def exceptionHost : ModbusHost PUnit where
  connectTcp _ _ := pure (some 3)
  disconnect _ := pure ⟨⟩
  nmbsClientCreate _ := pure .none
  nmbsReadHoldingRegisters _ _ := pure (.exception, 0)
  nmbsWriteMultipleRegisters _ _ _ := pure .none
  uninitialised := pure 7

/-- A configuration of the task. -/
def plcConfig : ModbusTaskConfig := ⟨⟨[49], by decide⟩, ⟨[53, 48, 50], by decide⟩, 1⟩

/-- The value 7, which was never read, is published, and 8 is written to the PLC. -/
theorem not_relaysReads_exceptionHost :
    (modbusTask exceptionHost (some plcConfig) 1).Returns (.start ⟨⟩) fun status w' =>
      status = .running ∧
        w'.trace = [.created .none, .read .exception 7, .stored 7, .wrote 8 .none] ∧
        ¬ RelaysReads w'.trace := by
  refine ⟨.running, _, rfl, rfl, rfl, fun h => ?_⟩
  exact absurd (h.stored [.created .none, .read .exception 7] 7 [.wrote 8 .none] rfl) (by decide)

end MqttClient
