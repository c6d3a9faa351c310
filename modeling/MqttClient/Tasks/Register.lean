/-
# The register as a counter

Each iteration of `modbus_task` reads the register, hands its value over and writes the next
number.  On a PLC that keeps what is written, and whose register nobody else writes, the values
it answers are then consecutive, from the first one on; the device publishes some of them, in
this order, and until the register has gone round none of them twice.
-/

import MqttClient.Tasks.Gateway

namespace MqttClient

open Semantics Program

variable {σ τ : Type}

/-! ## A register that keeps its value -/

/-- The register at this address has a content: an answered read gives it, an answered write
sets it, and no other call touches it.  What a write that was not answered leaves is open. -/
structure ModbusHost.KeepsRegister (E : ModbusHost τ) (address : Nat) (content : τ → UInt16) :
    Prop where
  connectTcp : ∀ {host port env fd env'}, (E.connectTcp host port).run env = some (fd, env') →
    content env' = content env
  nmbsClientCreate : ∀ {fd env err env'}, (E.nmbsClientCreate fd).run env = some (err, env') →
    content env' = content env
  uninitialised : ∀ {env value env'}, E.uninitialised.run env = some (value, env') →
    content env' = content env
  read : ∀ {fd env value env'},
    (E.nmbsReadHoldingRegisters fd address).run env = some ((.none, value), env') →
      value = content env ∧ content env' = content env
  write : ∀ {fd value env env'},
    (E.nmbsWriteMultipleRegisters fd address value).run env = some (.none, env') →
      content env' = value

/-- The first numbers of a register that counts from `start`. -/
def countFrom (start : UInt16) (n : Nat) : List Nat :=
  (List.range n).map fun i => (start + UInt16.ofNat i).toNat

theorem countFrom_succ (start : UInt16) (n : Nat) :
    countFrom start (n + 1) = countFrom start n ++ [(start + UInt16.ofNat n).toNat] := by
  rw [countFrom, List.range_succ, List.map_append]
  rfl

/-- What `modbus_task` relies on at a point, if `next` is the number to come: the register holds
it, or is about to be set to it. -/
def PlcPoint.Expects (content next : UInt16) : PlcPoint → Prop
  | connecting _ | creating _ | reading _ => content = next
  | sharing _ register => register + 1 = next
  | returned => True

variable {E : ModbusHost τ} {task : ModbusTaskConfig} {content : τ → UInt16}

/-- A call is the answer with the number to come, after which the next one is to come, or no
answer. -/
theorem PlcStep.counts (hE : E.KeepsRegister task.plcRegister content) {point point' : PlcPoint}
    {env env' : τ} {call : PlcCall} {next : UInt16}
    (hstep : PlcStep E task point env call point' env') (h : point.Expects (content env) next)
    (hexception : ∀ register, call ≠ .read .exception register) :
    call = .read .none next ∧ point'.Expects (content env') (next + 1) ∨
      (∀ register, call ≠ .read .none register) ∧ point'.Expects (content env') next := by
  cases hstep with
  | connected hrun => exact .inr ⟨nofun, (hE.connectTcp hrun).trans h⟩
  | notConnected hrun =>
      refine .inr ⟨nofun, ?_⟩
      split
      · exact (hE.connectTcp hrun).trans h
      · trivial
  | created hrun =>
      refine .inr ⟨nofun, ?_⟩
      split
      · trivial
      · exact (hE.nmbsClientCreate hrun).trans h
  | @read fd before value err _ env₁ _ hbefore hrun hgoes =>
      cases err with
      | other => exact absurd rfl hgoes
      | exception => exact absurd rfl (hexception _)
      | none =>
          obtain ⟨rfl, _⟩ := hE.read hrun
          obtain rfl : content env₁ = next := (hE.uninitialised hbefore).trans h
          exact .inl ⟨rfl, rfl⟩
  | readFailed => exact .inr ⟨nofun, trivial⟩
  | wrote hrun => exact .inr ⟨nofun, (hE.write hrun).trans h⟩
  | writeRefused | writeFailed => exact .inr ⟨nofun, trivial⟩

/-! ## Whole runs -/

variable {P : Platform σ} {fuel : Nat} {config : MqttConfig}

/-- What has been answered so far, and what comes next. -/
def HasCounted (content : τ → UInt16) (start : UInt16)
    (run : List (Transition (Gateway σ τ) (GatewayMove σ))) (s : Gateway σ τ) : Prop :=
  ∃ n, run.filterMap answered? = countFrom start n ∧
    s.plc.Expects (content s.plcEnv) (start + UInt16.ofNat n)

theorem HasCounted.step (hE : E.KeepsRegister task.plcRegister content) {start : UInt16}
    {run : List (Transition (Gateway σ τ) (GatewayMove σ))}
    {tr : Transition (Gateway σ τ) (GatewayMove σ)} (h : HasCounted content start run tr.source)
    (hstep : GatewayStep P fuel config E task tr.source tr.label tr.target)
    (hexception : ∀ register, tr.label ≠ .plc (.read .exception register)) :
    HasCounted content start (run ++ [tr]) tr.target := by
  obtain ⟨n, hanswered, hexpects⟩ := h
  -- a step without an answer
  have hquiet : answered? tr = none →
      tr.target.plc.Expects (content tr.target.plcEnv) (start + UInt16.ofNat n) →
      HasCounted content start (run ++ [tr]) tr.target := by
    intro hnone hexpects
    refine ⟨n, ?_, hexpects⟩
    rw [Handover.filterMap_concat, hnone, hanswered]
    exact List.append_nil _
  have hcall : ∀ call, tr.label = .plc call →
      PlcStep E task tr.source.plc tr.source.plcEnv call tr.target.plc tr.target.plcEnv →
      HasCounted content start (run ++ [tr]) tr.target := by
    intro call hlabel hplc
    rcases hplc.counts hE hexpects fun register heq => hexception register (heq ▸ hlabel) with
      ⟨rfl, hnext⟩ | ⟨hnot, hsame⟩
    · refine ⟨n + 1, ?_, ?_⟩
      · rw [Handover.filterMap_concat, hanswered, countFrom_succ, answered?, hlabel]
        rfl
      · rwa [UInt16.ofNat_add, ← UInt16.add_assoc]
    · refine hquiet ?_ hsame
      rw [answered?, hlabel]
      cases call with
      | read err register =>
          cases err with
          | none => exact absurd rfl (hnot register)
          | exception | other => rfl
      | connect | create | write => rfl
  obtain ⟨s, label, t⟩ := tr
  dsimp only at hstep hquiet hcall hexpects ⊢
  cases hstep with
  | plc hplc => exact hcall _ rfl hplc
  | read hplc => exact hcall _ rfl hplc
  | share | app | joint => exact hquiet rfl hexpects

end MqttClient
