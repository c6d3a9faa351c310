/-
# The descriptor of the Modbus connection

Five places can close the descriptor of the Modbus connection: the two platform
functions when they find the connection ended, the two error branches of the loop, and
the end of the task.  The error branches leave by `continue`, which goes to the
condition of the loop and from there to the end, so after an error that is not a Modbus
exception the descriptor is closed twice at least, while its number may already belong
to another thread.  If the error comes from the creation of the client the task returns
at once and does not close it at all.  A run closes its descriptor once exactly if no
call of nanoMODBUS ends in such an error.
-/

import MqttClient.Platform.ModbusTcp

namespace MqttClient

open Semantics Program

variable {τ ν : Type} {T : TcpHost τ} {fuel : Nat}

/-! ## Closing once -/

/-- The descriptor `connect_tcp` returned, and what is recorded since. -/
def sinceConnected : List TcpEvent → Option (Int × List TcpEvent)
  | [] => none
  | .connected fd :: events => some (fd, events)
  | .closed _ :: events => sinceConnected events

/-- The descriptor that `connect_tcp` returned, if it did, was closed once since, and no
other was closed. -/
def ClosedOnce (events : List TcpEvent) : Prop :=
  ∀ fd after, sinceConnected events = some (fd, after) → after = [.closed fd]

/-- A call of nanoMODBUS ended in an error that is not a Modbus exception. -/
def ModbusEvent.reportsOther : ModbusEvent → Bool
  | created err | read err _ | wrote _ err => err = .other
  | stored _ => false

/-- The library reports a negative result of a platform function as an error that is
not a Modbus exception. -/
structure NanoModbus.ReportsNegative (N : NanoModbus ν) : Prop where
  read : ∀ library address, (N.readHoldingRegisters library address).Reports
    PlatformCall.IsNegative fun result => result.1.1 = .other
  write : ∀ library address value, (N.writeMultipleRegisters library address value).Reports
    PlatformCall.IsNegative fun result => result.1 = .other

/-! ## The platform functions -/

/-- Nothing was recorded. -/
def SameEvents (w w' : TcpWorld τ ν) : Prop := w'.events = w.events

/-- Nothing was recorded but so many closes of the descriptor. -/
def Closes (fd : Int) (n : Nat) (w w' : TcpWorld τ ν) : Prop :=
  w'.events = w.events ++ List.replicate n (.closed fd)

theorem SameEvents.closes {fd : Int} {w w' : TcpWorld τ ν} (h : SameEvents w w') :
    Closes fd 0 w w' := by
  rw [Closes, List.replicate_zero, List.append_nil]
  exact h

theorem Closes.trans {fd : Int} {n m : Nat} {w w' w'' : TcpWorld τ ν} (h : Closes fd n w w')
    (h' : Closes fd m w' w'') : Closes fd (n + m) w w'' := by
  rw [Closes] at h h' ⊢
  rw [h', h, List.append_assoc, List.replicate_append_replicate]

theorem sameEvents_syscall {α : Type} (f : τ → α × τ) :
    Keeps SameEvents (syscall f : TcpAction τ ν α) := by
  intro w a w' h
  cases h
  rfl

theorem closes_disconnect {fd : Int} {a : PUnit} {w w' : TcpWorld τ ν}
    (h : (disconnect T fd).run w = some (a, w')) : Closes fd 1 w w' := by
  cases h
  rfl

/-- The descriptor may have been closed, but only if there was a failure. -/
structure ClosesIf (fd : Int) (failed : Prop) (w w' : TcpWorld τ ν) : Prop where
  closes : ∃ n, Closes fd n w w'
  quiet : failed ∨ SameEvents w w'

namespace ClosesIf

variable {fd : Int} {failed : Prop} {w w' w'' : TcpWorld τ ν}

theorem of_same (h : SameEvents w w') : ClosesIf fd failed w w' := ⟨⟨0, h.closes⟩, .inr h⟩

theorem after (h : SameEvents w w') (h' : ClosesIf fd failed w' w'') :
    ClosesIf fd failed w w'' := by
  obtain ⟨⟨n, hcloses⟩, hquiet⟩ := h'
  exact ⟨⟨_, h.closes.trans hcloses⟩, hquiet.imp_right fun hsame => Eq.trans hsame h⟩

theorem of_disconnect (hfailed : failed) {a : PUnit}
    (h : (disconnect T fd).run w = some (a, w')) : ClosesIf fd failed w w' :=
  ⟨⟨1, closes_disconnect h⟩, .inl hfailed⟩

end ClosesIf

theorem readFdLoop_closesIf {fd timeoutMs : Int} :
    ∀ {left : Nat} {got : List UInt8} {answer : Int × List UInt8} {w w' : TcpWorld τ ν},
      (readFdLoop T fd timeoutMs left got).run w = some (answer, w') →
      ClosesIf fd (answer.1 < 0) w w' := by
  have hneg : (-1 : Int) < 0 := by decide
  intro left
  induction left with
  | zero =>
      intro got answer w w' h
      obtain ⟨_, rfl⟩ := run_pure_eq_some.mp h
      exact .of_same rfl
  | succ left ih =>
      intro got answer w w' h
      obtain ⟨ret, w₁, hselect, h⟩ := run_bind_eq_some.mp h
      refine .after (sameEvents_syscall _ _ _ _ hselect) ?_
      split at h
      · obtain ⟨_, rfl⟩ := run_pure_eq_some.mp h
        exact .of_same rfl
      · split at h
        · obtain ⟨r, w₂, hread, h⟩ := run_bind_eq_some.mp h
          refine .after (sameEvents_syscall _ _ _ _ hread) ?_
          cases r with
          | endOfFile =>
              obtain ⟨_, w₃, hclose, h⟩ := run_bind_eq_some.mp h
              obtain ⟨rfl, rfl⟩ := run_pure_eq_some.mp h
              exact .of_disconnect hneg hclose
          | error =>
              obtain ⟨_, rfl⟩ := run_pure_eq_some.mp h
              exact .of_same rfl
          | byte b => exact ih h
        · obtain ⟨_, rfl⟩ := run_pure_eq_some.mp h
          exact .of_same rfl

theorem writeFdLoop_closesIf {fd timeoutMs : Int} {buf : Memory} {count : Nat} :
    ∀ {fuel total : Nat} {answer : Int} {w w' : TcpWorld τ ν},
      (writeFdLoop T fd buf count timeoutMs fuel total).run w = some (answer, w') →
      ClosesIf fd (answer < 0) w w' := by
  have hneg : (-1 : Int) < 0 := by decide
  intro fuel
  induction fuel with
  | zero =>
      intro total answer w w' h
      cases h
  | succ fuel ih =>
      intro total answer w w' h
      rw [writeFdLoop] at h
      split at h
      · obtain ⟨_, rfl⟩ := run_pure_eq_some.mp h
        exact .of_same rfl
      · obtain ⟨ret, w₁, hselect, h⟩ := run_bind_eq_some.mp h
        refine .after (sameEvents_syscall _ _ _ _ hselect) ?_
        split at h
        · obtain ⟨_, rfl⟩ := run_pure_eq_some.mp h
          exact .of_same rfl
        · split at h
          · obtain ⟨sent, w₂, hwrite, h⟩ := run_bind_eq_some.mp h
            refine .after (sameEvents_syscall _ _ _ _ hwrite) ?_
            split at h
            · obtain ⟨_, w₃, hclose, h⟩ := run_bind_eq_some.mp h
              obtain ⟨rfl, rfl⟩ := run_pure_eq_some.mp h
              exact .of_disconnect hneg hclose
            · split at h
              · obtain ⟨_, rfl⟩ := run_pure_eq_some.mp h
                exact .of_same rfl
              · exact ih h
          · obtain ⟨_, rfl⟩ := run_pure_eq_some.mp h
            exact .of_same rfl

theorem platformCall_closesIf {fd : Int} {call : PlatformCall} {answer : call.Answer}
    {w w' : TcpWorld τ ν} (h : (platformCall T fuel fd call).run w = some (answer, w')) :
    ClosesIf fd (call.IsNegative answer) w w' := by
  cases call with
  | read count timeoutMs => exact readFdLoop_closesIf h
  | write buf count timeoutMs => exact writeFdLoop_closesIf h

/-- A call of a library that reports negative results closes the descriptor only if it
ends in an error. -/
theorem libraryCall_closesIf {α : Type} {fd : Int} (failed : α → Prop)
    {call : ν → Interaction PlatformCall PlatformCall.Answer (α × ν)}
    (hreports : ∀ library, (call library).Reports PlatformCall.IsNegative
      fun result => failed result.1)
    {a : α} {w w' : TcpWorld τ ν} (h : (libraryCall T fuel fd call).run w = some (a, w')) :
    ClosesIf fd (failed a) w w' := by
  obtain ⟨⟨⟨a', library⟩, w₁⟩, hrun, heq⟩ := Option.map_eq_some_iff.mp h
  cases heq
  have hcloses : ∃ n, Closes fd n w w₁ := by
    refine Interaction.keeps_run (R := fun w w' => ∃ n, Closes fd n w w') ?_ ?_ ?_ _ _ _ _ hrun
    · exact fun w => ⟨0, SameEvents.closes rfl⟩
    · rintro w₁ w₂ w₃ ⟨n, hn⟩ ⟨m, hm⟩
      exact ⟨_, hn.trans hm⟩
    · exact fun call w answer w' hcall => (platformCall_closesIf hcall).closes
  have hquiet : failed a ∨ SameEvents w w₁ :=
    Interaction.run_reports (R := SameEvents) (hreports w.library) (fun w => rfl)
      (fun h h' => Eq.trans h' h)
      (fun call w answer w' hcall => (platformCall_closesIf hcall).quiet) hrun
  exact ⟨hcloses, hquiet⟩

/-! ## The task -/

/-- How often a part of an iteration closes the descriptor: not at all, unless it ends
in an error that is not a Modbus exception. -/
def ClosesOnOther (fd : Int) (err : NmbsError) (w w' : TcpWorld τ ν) : Prop :=
  ∃ n, Closes fd n w w' ∧ if err = .other then 1 ≤ n else n = 0

/-- An error branch: what the failed call closed, and then the branch itself. -/
theorem ClosesIf.disconnect {failed : Prop} {fd : Int} {a : PUnit} {v v' v'' : TcpWorld τ ν}
    (h : ClosesIf fd failed v v') (h' : (disconnect T fd).run v' = some (a, v'')) :
    ClosesOnOther fd .other v v'' := by
  obtain ⟨⟨n, hcloses⟩, _⟩ := h
  exact ⟨n + 1, hcloses.trans (closes_disconnect h'), Nat.le_add_left 1 n⟩

/-- No error branch: the call closed nothing. -/
theorem ClosesIf.closesOnOther {err err' : NmbsError} {fd : Int} {v v' : TcpWorld τ ν}
    (h : ClosesIf fd (err = .other) v v') (hgoes : err ≠ .other) (hgoes' : err' ≠ .other) :
    ClosesOnOther fd err' v v' :=
  ⟨0, (h.quiet.resolve_left hgoes).closes, by rw [if_neg hgoes']⟩

section Task

variable {N : NanoModbus ν} {config : ModbusTaskConfig} {fd : Int}
  {w w' : ModbusWorld (TcpWorld τ ν)}

theorem nmbsReadHoldingRegisters_closesIf (hN : N.ReportsNegative) {address : Nat}
    {result : NmbsError × UInt16} {v v' : TcpWorld τ ν}
    (h : ((tcpModbusHost T fuel N).nmbsReadHoldingRegisters fd address).run v =
      some (result, v')) : ClosesIf fd (result.1 = .other) v v' :=
  libraryCall_closesIf (fun result : NmbsError × UInt16 => result.1 = .other)
    (fun library => hN.read library address) h

theorem nmbsWriteMultipleRegisters_closesIf (hN : N.ReportsNegative) {address : Nat}
    {value : UInt16} {err : NmbsError} {v v' : TcpWorld τ ν}
    (h : ((tcpModbusHost T fuel N).nmbsWriteMultipleRegisters fd address value).run v =
      some (err, v')) : ClosesIf fd (err = .other) v v' :=
  libraryCall_closesIf (fun err : NmbsError => err = .other)
    (fun library => hN.write library address value) h

theorem relayRegister_closes (hN : N.ReportsNegative) {register : UInt16} {err : NmbsError}
    (h : (relayRegister (tcpModbusHost T fuel N) config fd register).run w = some (err, w')) :
    ClosesOnOther fd err w.env w'.env := by
  obtain ⟨_, w₁, hset, h⟩ := run_bind_eq_some.mp h
  obtain ⟨err', w₂, hwrite, h⟩ := run_bind_eq_some.mp h
  obtain ⟨_, w₃, hnote, h⟩ := run_bind_eq_some.mp h
  cases hset
  cases hnote
  obtain ⟨env, hlibrary, rfl⟩ := run_host_eq_some hwrite
  have hcall := nmbsWriteMultipleRegisters_closesIf hN hlibrary
  rcases run_errorBranch h with ⟨_, rfl, _, env', hclose, rfl⟩ | ⟨hgoes, h⟩
  · exact hcall.disconnect hclose
  · obtain ⟨rfl, rfl⟩ := run_pure_eq_some.mp h
    exact hcall.closesOnOther hgoes hgoes

theorem modbusIteration_closes (hN : N.ReportsNegative) {err : NmbsError}
    (h : (modbusIteration (tcpModbusHost T fuel N) config fd).run w = some (err, w')) :
    ClosesOnOther fd err w.env w'.env := by
  obtain ⟨before, w₁, hbefore, h⟩ := run_bind_eq_some.mp h
  obtain ⟨⟨readErr, value⟩, w₂, hread, h⟩ := run_bind_eq_some.mp h
  obtain ⟨_, w₃, hnote, h⟩ := run_bind_eq_some.mp h
  cases hnote
  obtain ⟨env₁, hlocal, rfl⟩ := run_host_eq_some hbefore
  obtain ⟨env₂, hlibrary, rfl⟩ := run_host_eq_some hread
  have hcall : ClosesIf fd (readErr = .other) w.env env₂ :=
    .after (sameEvents_syscall _ _ _ _ hlocal)
      (nmbsReadHoldingRegisters_closesIf hN hlibrary)
  rcases run_errorBranch h with ⟨_, rfl, _, env', hclose, rfl⟩ | ⟨hgoes, h⟩
  · exact hcall.disconnect hclose
  · obtain ⟨n, hcloses, hn⟩ := relayRegister_closes hN h
    have hall := (hcall.quiet.resolve_left hgoes).closes.trans hcloses
    exact ⟨0 + n, hall, by rwa [Nat.zero_add]⟩

/-- An iteration reports an error exactly if it ends in one. -/
theorem IsIteration.reportsOther_iff {new : List ModbusEvent} {err : NmbsError}
    (h : IsIteration new err) : (∃ e ∈ new, e.reportsOther = true) ↔ err = .other := by
  cases h with
  | failed register => simp [ModbusEvent.reportsOther]
  | @relayed readErr hread register err => simp [ModbusEvent.reportsOther, hread]

/-- A loop that has ended closed the descriptor once exactly if it met no error. -/
theorem modbusLoop_closes (hN : N.ReportsNegative) : ∀ {steps : Nat}
    {w w' : ModbusWorld (TcpWorld τ ν)},
    (modbusLoop (tcpModbusHost T fuel N) config fd steps).run w = some (.returned, w') →
    ∃ n new, Closes fd n w.env w'.env ∧ w'.trace = w.trace ++ new ∧
      (n = 1 ↔ ∀ e ∈ new, e.reportsOther = false) := by
  intro steps
  induction steps with
  | zero =>
      intro w w' h
      cases h
  | succ steps ih =>
      intro w w' h
      obtain ⟨err, w₁, hiteration, h⟩ := run_bind_eq_some.mp h
      obtain ⟨new, htrace, hnew⟩ := modbusIteration_trace hiteration
      obtain ⟨n, hcloses, hn⟩ := modbusIteration_closes hN hiteration
      have hreports := hnew.reportsOther_iff
      split at h
      · rename_i hnone
        rw [hnone] at hn hreports
        obtain ⟨m, new', hcloses', htrace', hm⟩ := ih h
        rw [if_neg (by decide)] at hn
        refine ⟨n + m, new ++ new', hcloses.trans hcloses',
          by rw [htrace', htrace, List.append_assoc], ?_⟩
        rw [hn, Nat.zero_add, hm, List.forall_mem_append]
        have hclean : ∀ e ∈ new, e.reportsOther = false := by simpa using hreports
        exact ⟨fun h => ⟨hclean, h⟩, And.right⟩
      · obtain ⟨_, w₂, hdisconnect, h⟩ := run_bind_eq_some.mp h
        obtain ⟨_, rfl⟩ := run_pure_eq_some.mp h
        obtain ⟨env, hclose, rfl⟩ := run_host_eq_some hdisconnect
        refine ⟨n + 1, new, hcloses.trans (closes_disconnect hclose), htrace, ?_⟩
        by_cases hother : err = .other
        · rw [if_pos hother] at hn
          obtain ⟨e, he, hset⟩ := hreports.mpr hother
          refine iff_of_false (by omega) fun hclean => ?_
          rw [hclean e he] at hset
          cases hset
        · rw [if_neg hother] at hn
          refine iff_of_true (by omega) fun e he => ?_
          by_contra hset
          exact hother (hreports.mp ⟨e, he, by simpa using hset⟩)

/-- The task with a connection: if the client cannot be created it closes nothing. -/
theorem serveConnection_closes (hN : N.ReportsNegative) {steps : Nat}
    (h : (serveConnection (tcpModbusHost T fuel N) config fd steps).run w =
      some (.returned, w')) :
    ∃ n new, Closes fd n w.env w'.env ∧ w'.trace = w.trace ++ new ∧
      (n = 1 ↔ ∀ e ∈ new, e.reportsOther = false) := by
  obtain ⟨err, w₁, hcreate, h⟩ := run_bind_eq_some.mp h
  obtain ⟨_, w₂, hnote, h⟩ := run_bind_eq_some.mp h
  obtain ⟨env, hrun, rfl⟩ := run_host_eq_some hcreate
  cases hrun
  cases hnote
  split at h
  · rename_i hstops
    obtain ⟨_, rfl⟩ := run_pure_eq_some.mp h
    refine ⟨0, [.created _], SameEvents.closes rfl, rfl, iff_of_false (by decide) fun hclean => ?_⟩
    exact absurd (hclean _ List.mem_cons_self) (by
      rw [ModbusEvent.reportsOther, stops_iff.mp hstops]
      decide)
  · rename_i hgoes
    rw [stops_iff] at hgoes
    obtain ⟨n, new, hcloses, htrace, hn⟩ := modbusLoop_closes hN h
    refine ⟨n, .created _ :: new, hcloses, by rw [htrace]; exact List.append_assoc _ [_] _, ?_⟩
    rw [hn, List.forall_mem_cons]
    exact ⟨fun h => ⟨by simpa [ModbusEvent.reportsOther] using hgoes, h⟩, And.right⟩

/-! ## Connecting -/

/-- Only sockets that did not connect were closed. -/
def ClosesSome (v v' : TcpWorld τ ν) : Prop :=
  ∃ new, v'.events = v.events ++ new ∧ ∀ e ∈ new, ∃ fd, e = .closed fd

theorem ClosesSome.of_same {v v' : TcpWorld τ ν} (h : SameEvents v v') : ClosesSome v v' :=
  ⟨[], by rw [List.append_nil]; exact h, by simp⟩

theorem ClosesSome.trans {v v' v'' : TcpWorld τ ν} (h : ClosesSome v v')
    (h' : ClosesSome v' v'') : ClosesSome v v'' := by
  obtain ⟨new, hevents, hnew⟩ := h
  obtain ⟨new', hevents', hnew'⟩ := h'
  exact ⟨new ++ new', by rw [hevents', hevents, List.append_assoc],
    List.forall_mem_append.mpr ⟨hnew, hnew'⟩⟩

theorem closesSome_connectTcpLoop :
    ∀ left, Keeps ClosesSome (connectTcpLoop T left : TcpAction τ ν _) := by
  have hsyscall : ∀ {α : Type} (f : τ → α × τ), Keeps ClosesSome (syscall f : TcpAction τ ν α) :=
    fun f => (sameEvents_syscall f).mono fun _ _ => .of_same
  have hclose : ∀ fd, Keeps ClosesSome (closeFd T fd : TcpAction τ ν _) := by
    intro fd v a v' h
    cases h
    exact ⟨[.closed fd], rfl, by simp⟩
  intro left
  induction left with
  | zero => exact keeps_pure (fun _ => .of_same rfl) none
  | succ left ih =>
      refine .bind .trans (hsyscall _) fun fd => .ite ih ?_
      refine .bind .trans (hsyscall _) fun ret => .ite (keeps_pure (fun _ => .of_same rfl) _) ?_
      exact .bind .trans (hclose fd) fun _ => ih

/-- The last thing a successful `connect_tcp` records is its descriptor. -/
def Connects (conn : Option Int) (v v' : TcpWorld τ ν) : Prop :=
  match conn with
  | none => ClosesSome v v'
  | some fd => ∃ v₁, ClosesSome v v₁ ∧ v'.events = v₁.events ++ [.connected fd]

theorem connectTcp_connects {address port : CString} {conn : Option Int} {v v' : TcpWorld τ ν}
    (h : (connectTcp T address port).run v = some (conn, v')) : Connects conn v v' := by
  obtain ⟨addresses, v₁, hlookup, h⟩ := run_bind_eq_some.mp h
  have hsame : ClosesSome v v₁ := .of_same (sameEvents_syscall _ _ _ _ hlookup)
  cases addresses with
  | none =>
      obtain ⟨rfl, rfl⟩ := run_pure_eq_some.mp h
      exact hsame
  | some count =>
      obtain ⟨conn', v₂, hloop, h⟩ := run_bind_eq_some.mp h
      have hcloses := hsame.trans (closesSome_connectTcpLoop count _ _ _ hloop)
      cases conn' with
      | none =>
          obtain ⟨rfl, rfl⟩ := run_pure_eq_some.mp h
          exact hcloses
      | some fd =>
          cases h
          exact ⟨v₂, hcloses, rfl⟩

theorem connectLoop_connects : ∀ {left : Nat} {conn : Option Int}
    {w w' : ModbusWorld (TcpWorld τ ν)},
    (connectLoop (tcpModbusHost T fuel N) config left).run w = some (conn, w') →
    Connects conn w.env w'.env := by
  intro left
  induction left with
  | zero =>
      intro conn w w' h
      obtain ⟨rfl, rfl⟩ := run_pure_eq_some.mp h
      exact ClosesSome.of_same rfl
  | succ left ih =>
      intro conn w w' h
      obtain ⟨conn', w₁, hconnect, h⟩ := run_bind_eq_some.mp h
      obtain ⟨env, hrun, rfl⟩ := run_host_eq_some hconnect
      have hfirst := connectTcp_connects hrun
      cases conn' with
      | some fd =>
          obtain ⟨rfl, rfl⟩ := run_pure_eq_some.mp h
          exact hfirst
      | none =>
          have hrest := ih h
          cases conn with
          | none => exact ClosesSome.trans hfirst hrest
          | some fd =>
              obtain ⟨v₁, hcloses, hevents⟩ := hrest
              exact ⟨v₁, ClosesSome.trans hfirst hcloses, hevents⟩

end Task

theorem sinceConnected_append {closes rest : List TcpEvent}
    (h : ∀ e ∈ closes, ∃ fd, e = .closed fd) :
    sinceConnected (closes ++ rest) = sinceConnected rest := by
  induction closes with
  | nil => rfl
  | cons e closes ih =>
      obtain ⟨fd, rfl⟩ := h e List.mem_cons_self
      exact ih fun e he => h e (List.mem_cons_of_mem _ he)

theorem closedOnce_iff {closes : List TcpEvent} (h : ∀ e ∈ closes, ∃ fd, e = .closed fd)
    (fd : Int) (n : Nat) :
    ClosedOnce (closes ++ .connected fd :: List.replicate n (.closed fd)) ↔ n = 1 := by
  rw [ClosedOnce, sinceConnected_append h]
  constructor
  · intro honce
    have hone := congrArg List.length (honce fd _ rfl)
    simpa using hone
  · rintro rfl fd' after heq
    cases heq
    rfl

theorem closedOnce_of_closesSome {closes : List TcpEvent}
    (h : ∀ e ∈ closes, ∃ fd, e = .closed fd) : ClosedOnce closes := by
  intro fd after hsince
  rw [← List.append_nil closes, sinceConnected_append h] at hsince
  cases hsince

/-- For every system and every library that reports negative results as errors: when the
task has returned, its descriptor was closed exactly once if and only if no call of the
library ended in an error other than a Modbus exception. -/
theorem closedOnce_iff_no_other_error {N : NanoModbus ν} (hN : N.ReportsNegative)
    (T : TcpHost τ) (fuel : Nat) (config : Option ModbusTaskConfig) (steps : Nat) (system : τ)
    (library : ν) :
    (modbusTask (tcpModbusHost T fuel N) config steps).Ensures (.start ⟨system, library, []⟩)
      fun status w' => status = .returned →
        (ClosedOnce w'.env.events ↔ ∀ e ∈ w'.trace, e.reportsOther = false) := by
  rintro status w' h rfl
  cases config with
  | none =>
      obtain ⟨_, rfl⟩ := run_pure_eq_some.mp h
      exact iff_of_true (closedOnce_of_closesSome (by simp [ModbusWorld.start]))
        (by simp [ModbusWorld.start])
  | some config =>
      obtain ⟨conn, w₁, hconnect, h⟩ := run_bind_eq_some.mp h
      have hconnects := connectLoop_connects hconnect
      have hsilent : w₁.trace = [] := connectLoop_trace hconnect
      cases conn with
      | none =>
          obtain ⟨_, rfl⟩ := run_pure_eq_some.mp h
          obtain ⟨new, hevents, hnew⟩ := hconnects
          rw [hevents, hsilent]
          exact iff_of_true (closedOnce_of_closesSome hnew) (by simp)
      | some fd =>
          obtain ⟨v₁, ⟨new, hevents, hnew⟩, hconnected⟩ := hconnects
          obtain ⟨n, trace, hcloses, htrace, hn⟩ := serveConnection_closes hN h
          rw [hcloses, hconnected, hevents, htrace, hsilent, List.nil_append, ← hn,
            List.append_assoc, List.singleton_append]
          exact closedOnce_iff hnew fd n

/-! ## A connection that ends -/

/-- A system on which everything succeeds, and every read of a byte has this outcome. -/
def plcSystem (outcome : ReadByte) : TcpHost PUnit where
  getaddrinfo s _ _ := (some 1, s)
  socket s := (3, s)
  connect s _ := (0, s)
  select s _ _ := (1, s)
  read s _ := (outcome, s)
  write s _ bytes := (bytes.length, s)
  close s _ := s
  uninitialised s := (0, s)

/-- A library that reads one byte, and is answered every write with an exception. -/
def byteModbus : NanoModbus PUnit where
  clientCreate library := (.none, library)
  readHoldingRegisters library _ := .ask (.read 1 1000) fun (answer : Int × List UInt8) =>
    .done (if answer.1 < 0 then (.other, 0) else (.none, (answer.2.headD 0).toUInt16), library)
  writeMultipleRegisters library _ _ := .done (.exception, library)

theorem byteModbus_reportsNegative : byteModbus.ReportsNegative where
  read library address := by
    rintro (answer : Int × List UInt8)
    refine ⟨fun (hnegative : answer.1 < 0) => ?_, trivial⟩
    show (if answer.1 < 0 then (NmbsError.other, (0 : UInt16)) else _).1 = _
    rw [if_pos hnegative]
  write _ _ _ := trivial

/-- The write is answered with an exception, and the descriptor is closed at the end. -/
theorem closedOnce_iff_no_other_error_exception :
    (modbusTask (tcpModbusHost (plcSystem (.byte 5)) 3 byteModbus) (some plcConfig) 1).Returns
      (.start ⟨⟨⟩, ⟨⟩, []⟩) fun status w' => status = .returned ∧
        w'.trace = [.created .none, .read .none 5, .stored 5, .wrote 6 .exception] ∧
        (ClosedOnce w'.env.events ↔ ∀ e ∈ w'.trace, e.reportsOther = false) :=
  ⟨.returned, _, rfl, rfl, by decide,
    closedOnce_iff_no_other_error byteModbus_reportsNegative (plcSystem (.byte 5)) 3
      (some plcConfig) 1 ⟨⟩ ⟨⟩ .returned _ rfl rfl⟩

/-- The PLC ends the connection, and the descriptor is closed by `read_fd_linux`, by the
error branch, and at the end. -/
theorem not_closedOnce_endOfFile :
    (modbusTask (tcpModbusHost (plcSystem .endOfFile) 3 byteModbus) (some plcConfig) 1).Returns
      (.start ⟨⟨⟩, ⟨⟩, []⟩) fun status w' => status = .returned ∧
        w'.env.events = [.connected 3, .closed 3, .closed 3, .closed 3] ∧
        ¬ ClosedOnce w'.env.events := by
  refine ⟨.returned, _, rfl, rfl, by decide, fun honce => ?_⟩
  exact absurd (honce 3 [.closed 3, .closed 3, .closed 3] (by decide)) (by decide)

end MqttClient
