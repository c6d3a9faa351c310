/-
# The Modbus connection: `platform.h`

`connect_tcp`, `disconnect`, and the two functions nanoMODBUS reads and writes with, over
the outcomes of the system calls.  Every `close` is recorded, and so is the descriptor
`connect_tcp` ends up with.  nanoMODBUS itself is a parameter: each of its calls is an
interaction that may read and write as often as it likes before it returns.

`read_fd_linux` and `write_fd_linux` close the connection when they find it ended, and
only then.
-/

import MqttClient.Semantics.Interaction
import MqttClient.Semantics.Memory
import MqttClient.Tasks.ModbusTask

namespace MqttClient

open Semantics Program

variable {τ ν : Type}

/-! ## The system calls -/

/-- The outcome of `read` for one byte. -/
inductive ReadByte
  | byte (b : UInt8)
  | endOfFile
  | error
  deriving DecidableEq, Repr

/-- The system calls on TCP connections, over states `τ`. -/
structure TcpHost (τ : Type) where
  /-- The number of addresses found. -/
  getaddrinfo : τ → (address port : CString) → Option Nat × τ
  socket : τ → Int × τ
  connect : τ → (fd : Int) → Int × τ
  select : τ → (fd : Int) → (timeoutMs : Int) → Int × τ
  read : τ → (fd : Int) → ReadByte × τ
  write : τ → (fd : Int) → (bytes : List UInt8) → Int × τ
  close : τ → (fd : Int) → τ
  /-- What a local variable without an initialiser holds. -/
  uninitialised : τ → UInt16 × τ

/-- What is recorded of the descriptors. -/
inductive TcpEvent
  /-- `connect_tcp` returned this descriptor. -/
  | connected (fd : Int)
  /-- `close` was called. -/
  | closed (fd : Int)
  deriving DecidableEq, Repr

/-- The system, the state of nanoMODBUS, and the record. -/
structure TcpWorld (τ ν : Type) where
  host : τ
  library : ν
  events : List TcpEvent

/-- A function of the platform. -/
abbrev TcpAction (τ ν α : Type) : Type := Program (TcpWorld τ ν) α

/-- A system call. -/
def syscall {α : Type} (f : τ → α × τ) : TcpAction τ ν α :=
  ⟨fun w => some ((f w.host).1, { w with host := (f w.host).2 })⟩

theorem run_syscall {α : Type} (f : τ → α × τ) (w : TcpWorld τ ν) :
    (syscall f).run w = some ((f w.host).1, { w with host := (f w.host).2 }) := rfl

/-- Record an event. -/
def record (event : TcpEvent) : TcpAction τ ν PUnit :=
  .modify fun w => { w with events := w.events ++ [event] }

section Platform

variable (T : TcpHost τ) (fuel : Nat)

/-- `close`. -/
def closeFd (fd : Int) : TcpAction τ ν PUnit := do
  syscall fun host => ((), T.close host fd)
  record (.closed fd)

/-- The loop of `connect_tcp` over the addresses that are left. -/
def connectTcpLoop : Nat → TcpAction τ ν (Option Int)
  | 0 => pure none
  | left + 1 => do
      let fd ← syscall T.socket
      if fd = -1 then connectTcpLoop left
      else do
        let ret ← syscall (T.connect · fd)
        if ret = 0 then pure (some fd)
        else do
          closeFd T fd
          connectTcpLoop left

/-- `connect_tcp`: the descriptor stands for the pointer to `client_connection`. -/
def connectTcp (address port : CString) : TcpAction τ ν (Option Int) := do
  let addresses ← syscall (T.getaddrinfo · address port)
  match addresses with
  | none => pure none
  | some count => do
      let conn ← connectTcpLoop T count
      match conn with
      | none => pure none
      | some fd => do
          record (.connected fd)
          pure (some fd)

/-- `disconnect`. -/
def disconnect (fd : Int) : TcpAction τ ν PUnit := closeFd T fd

/-- The `while` loop of `read_fd_linux`, with what is left to read and what was read:
the value returned, and the bytes stored. -/
def readFdLoop (fd timeoutMs : Int) : (left : Nat) → List UInt8 → TcpAction τ ν (Int × List UInt8)
  | 0, got => pure (got.length, got)
  | left + 1, got => do
      let ret ← syscall (T.select · fd timeoutMs)
      if ret = 0 then pure (got.length, got)
      else if ret = 1 then do
        let r ← syscall (T.read · fd)
        match r with
        | .endOfFile => do
            disconnect T fd
            pure (-1, got)
        | .error => pure (-1, got)
        | .byte b => readFdLoop fd timeoutMs left (got ++ [b])
      else pure (-1, got)

/-- `read_fd_linux`. -/
def readFdLinux (fd : Int) (count : UInt16) (timeoutMs : Int) : TcpAction τ ν (Int × List UInt8) :=
  readFdLoop T fd timeoutMs count.toNat []

/-- The `while` loop of `write_fd_linux`.  Every `write` is passed the whole `count`,
whatever has been written before, and `total` is a `uint16_t`. -/
def writeFdLoop (fd : Int) (buf : Memory) (count : Nat) (timeoutMs : Int) :
    (fuel total : Nat) → TcpAction τ ν Int
  | 0, _ => .diverge
  | fuel + 1, total =>
      if total = count then pure total
      else do
        let ret ← syscall (T.select · fd timeoutMs)
        if ret = 0 then pure 0
        else if ret = 1 then do
          let w ← syscall (T.write · fd (buf.load total count))
          if w = 0 then do
            disconnect T fd
            pure (-1)
          else if w ≤ 0 then pure (-1)
          else writeFdLoop fd buf count timeoutMs fuel ((total + w.toNat) % 65536)
        else pure (-1)

/-- `write_fd_linux`. -/
def writeFdLinux (fd : Int) (buf : Memory) (count : UInt16) (timeoutMs : Int) : TcpAction τ ν Int :=
  writeFdLoop T fd buf count.toNat timeoutMs fuel 0

/-! ## nanoMODBUS -/

/-- A call of a platform function. -/
inductive PlatformCall
  | read (count : UInt16) (timeoutMs : Int)
  | write (buf : Memory) (count : UInt16) (timeoutMs : Int)

/-- What a platform function reports. -/
def PlatformCall.Answer : PlatformCall → Type
  | read _ _ => Int × List UInt8
  | write _ _ _ => Int

/-- The platform function reports an error. -/
def PlatformCall.IsNegative : (call : PlatformCall) → call.Answer → Prop
  | read _ _, answer => answer.1 < 0
  | write _ _ _, answer => (show Int from answer) < 0

/-- The library, over states `ν`.  Creating a client only stores the platform
functions. -/
structure NanoModbus (ν : Type) where
  clientCreate : ν → NmbsError × ν
  readHoldingRegisters : ν → (address : Nat) →
    Interaction PlatformCall PlatformCall.Answer ((NmbsError × UInt16) × ν)
  writeMultipleRegisters : ν → (address : Nat) → (value : UInt16) →
    Interaction PlatformCall PlatformCall.Answer (NmbsError × ν)

/-- The platform functions, as the library calls them. -/
def platformCall (fd : Int) : (call : PlatformCall) → TcpAction τ ν call.Answer
  | .read count timeoutMs => readFdLinux T fd count timeoutMs
  | .write buf count timeoutMs => writeFdLinux T fuel fd buf count timeoutMs

/-- A call of the library. -/
def libraryCall {α : Type} (fd : Int)
    (call : ν → Interaction PlatformCall PlatformCall.Answer (α × ν)) : TcpAction τ ν α :=
  ⟨fun w => (((call w.library).run (platformCall T fuel fd)).run w).map fun ((a, library), w') =>
    (a, { w' with library })⟩

/-- `platform.h` and nanoMODBUS as the host of the task. -/
def tcpModbusHost (N : NanoModbus ν) : ModbusHost (TcpWorld τ ν) where
  connectTcp := connectTcp T
  disconnect := disconnect T
  nmbsClientCreate _ :=
    ⟨fun w => some ((N.clientCreate w.library).1,
      { w with library := (N.clientCreate w.library).2 })⟩
  nmbsReadHoldingRegisters fd address :=
    libraryCall T fuel fd fun library => N.readHoldingRegisters library address
  nmbsWriteMultipleRegisters fd address value :=
    libraryCall T fuel fd fun library => N.writeMultipleRegisters library address value
  uninitialised := syscall T.uninitialised

end Platform

end MqttClient
