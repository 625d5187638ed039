import MBootCore.Domain.Error
import MBootCore.Domain.Types
import MBootCore.Support.Program
import Mathlib.Data.List.Infix

/-!
# Session — DeviceSession

`DeviceSession` of `session/DeviceSession.cpp` on a device with any state. Each
operation goes through one of two wrappers, which check the state of the
session, call the device and keep the statistics and the history. Observers, the
log and the measured times are left out, and so is a call that comes while
another one is at work.
-/

namespace MBootCore.Session

inductive SessionState where
  | disconnected | discovered | negotiated | connected | initializing | ready | busy | reading
  | writing | erasing | resetting | finished | error | cancelled | connecting
  deriving DecidableEq, Repr

structure SessionStatistics where
  bytesRead : UInt64 := 0
  bytesWritten : UInt64 := 0
  bytesErased : UInt64 := 0
  readOps : UInt32 := 0
  writeOps : UInt32 := 0
  eraseOps : UInt32 := 0
  retries : UInt32 := 0
  failures : UInt32 := 0
  deriving DecidableEq, Repr

structure SessionOperation where
  name : String
  bytesTransferred : UInt64
  success : Bool
  deriving DecidableEq, Repr

/-- The operations of `IFlashDevice` the session calls. -/
structure SessionDevice (τ : Type) where
  openDevice : Program τ ErrorCode Unit
  close : τ → τ
  readMemory (address size : UInt64) : Program τ ErrorCode ByteBuffer
  writeMemory (address : UInt64) (data : ByteBuffer) : Program τ ErrorCode Unit
  eraseMemory (address size : UInt64) : Program τ ErrorCode Unit
  readPartition (name : String) : Program τ ErrorCode ByteBuffer
  writePartition (name : String) (data : ByteBuffer) : Program τ ErrorCode Unit
  erasePartition (name : String) : Program τ ErrorCode Unit
  reset : Program τ ErrorCode Unit
  cancel : τ → τ

structure DeviceSession (τ : Type) where
  device : τ
  state : SessionState := .disconnected
  stats : SessionStatistics := {}
  enableHistory : Bool := true
  history : List SessionOperation := []
  isCancelled : Bool := false

/-! ## Statistics -/

/-- `text.find(pattern) != std::string::npos`. -/
def finds (text pattern : String) : Bool := pattern.toList <:+: text.toList

def SessionStatistics.update (operation : String) (bytes : UInt64) (stats : SessionStatistics) :
    SessionStatistics :=
  if finds operation "read" then
    { stats with bytesRead := stats.bytesRead + bytes, readOps := stats.readOps + 1 }
  else if finds operation "write" then
    { stats with bytesWritten := stats.bytesWritten + bytes, writeOps := stats.writeOps + 1 }
  else if finds operation "erase" then
    { stats with bytesErased := stats.bytesErased + bytes, eraseOps := stats.eraseOps + 1 }
  else stats

namespace DeviceSession

variable {τ : Type}

def isConnected (s : DeviceSession τ) : Bool :=
  s.state matches .connected | .ready | .busy | .reading | .writing | .erasing

def isBusy (s : DeviceSession τ) : Bool :=
  s.state matches .busy | .reading | .writing | .erasing | .resetting | .initializing

def isTerminal (s : DeviceSession τ) : Bool := s.state matches .finished | .error | .cancelled

/-- A method of the session. -/
abbrev Method (τ : Type) (α : Type) : Type := Program (DeviceSession τ) ErrorCode α

def setState (state : SessionState) : Method τ Unit := Program.modify fun s => { s with state }

def updateStats (operation : String) (bytes : UInt64) : Method τ Unit :=
  Program.modify fun s => { s with stats := s.stats.update operation bytes }

def countFailure : Method τ Unit :=
  Program.modify fun s => { s with stats := { s.stats with failures := s.stats.failures + 1 } }

def addHistoryEntry (name : String) (success : Bool) (bytesTransferred : UInt64) :
    Method τ Unit :=
  Program.modify fun s =>
    if s.enableHistory then
      { s with history := s.history ++ [{ name, bytesTransferred, success }] }
    else s

def onDevice {α : Type} (operation : Program τ ErrorCode α) : Method τ α :=
  Program.zoom DeviceSession.device (fun device s => { s with device }) operation

/-- `if (checkCancelled()) return ErrorCode::Cancelled;`. -/
def checkCancelled : Method τ Unit := fun s =>
  if s.isCancelled then (.error .cancelled, { s with state := .cancelled }) else (.ok (), s)

/-- What the two wrappers share. -/
def execute {α : Type} (operation : Program τ ErrorCode α) (operationName : String)
    (busyState : SessionState) (bytes : α → UInt64) (failedBytes : UInt64) : Method τ α := do
  checkCancelled
  Program.failIf (!·.isConnected) .deviceDisconnected
  Program.failIf (·.isBusy) .invalidState
  setState busyState
  match ← Program.attempt (onDevice operation) with
  | .ok a =>
    setState .ready
    updateStats operationName (bytes a)
    addHistoryEntry operationName true (bytes a)
    pure a
  | .error error =>
    countFailure
    setState .error
    addHistoryEntry operationName false failedBytes
    Program.fail error

def executeWithStateCheck (operation : Program τ ErrorCode Unit) (operationName : String)
    (busyState : SessionState) (bytesTransferred : UInt64 := 0) : Method τ Unit :=
  execute operation operationName busyState (fun _ => bytesTransferred) bytesTransferred

def executeReadWithStateCheck (operation : Program τ ErrorCode ByteBuffer)
    (operationName : String) : Method τ ByteBuffer :=
  execute operation operationName .reading (fun data => data.length.toUInt64) 0

/-! ## Lifecycle -/

variable (flashDevice : Option (SessionDevice τ))

def connect : Method τ Unit := do
  let s ← Program.get
  if s.state = .ready ∨ s.state = .connected then pure ()
  else if s.isTerminal then Program.fail .invalidState
  else
    Program.modify fun s => { s with isCancelled := false, state := .connecting }
    match flashDevice with
    | none => setState .ready
    | some device =>
      match ← Program.attempt (onDevice device.openDevice) with
      | .ok () => setState .ready
      | .error error =>
        setState .error
        Program.fail error

def disconnect (s : DeviceSession τ) : DeviceSession τ :=
  if s.state = .disconnected ∨ s.state = .finished then s
  else
    match flashDevice with
    | none => { s with isCancelled := true, state := .disconnected }
    | some device =>
      { s with isCancelled := true, device := device.close s.device, state := .disconnected }

def reconnect : Method τ Unit := do
  Program.modify (disconnect flashDevice)
  connect flashDevice

def cancel (s : DeviceSession τ) : DeviceSession τ :=
  match flashDevice with
  | none => { s with isCancelled := true, state := .cancelled }
  | some device =>
    { s with isCancelled := true, state := .cancelled, device := device.cancel s.device }

def retry : Method τ Unit := do
  Program.failIf (·.state ≠ .error) .invalidState
  Program.modify fun s => { s with stats := { s.stats with retries := s.stats.retries + 1 } }
  reconnect flashDevice

def reset : Method τ Unit := Program.modify (disconnect flashDevice)

/-! ## Operations -/

def readMemory (address size : UInt64) : Method τ ByteBuffer :=
  match flashDevice with
  | none => Program.fail .notSupported
  | some device => executeReadWithStateCheck (device.readMemory address size) "readMemory"

def writeMemory (address : UInt64) (data : ByteBuffer) : Method τ Unit :=
  match flashDevice with
  | none => Program.fail .notSupported
  | some device =>
    executeWithStateCheck (device.writeMemory address data) "writeMemory" .writing
      data.length.toUInt64

def eraseMemory (address size : UInt64) : Method τ Unit :=
  match flashDevice with
  | none => Program.fail .notSupported
  | some device =>
    executeWithStateCheck (device.eraseMemory address size) "eraseMemory" .erasing size

def resetDevice : Method τ Unit :=
  match flashDevice with
  | none => Program.fail .notSupported
  | some device => executeWithStateCheck device.reset "resetDevice" .resetting

def readPartition (name : String) : Method τ ByteBuffer :=
  match flashDevice with
  | none => Program.fail .notSupported
  | some device =>
    executeReadWithStateCheck (device.readPartition name) ("readPartition:" ++ name)

def writePartition (name : String) (data : ByteBuffer) : Method τ Unit :=
  match flashDevice with
  | none => Program.fail .notSupported
  | some device =>
    executeWithStateCheck (device.writePartition name data) ("writePartition:" ++ name) .writing

def erasePartition (name : String) : Method τ Unit :=
  match flashDevice with
  | none => Program.fail .notSupported
  | some device =>
    executeWithStateCheck (device.erasePartition name) ("erasePartition:" ++ name) .erasing

end DeviceSession

/-! ## Calls -/

inductive SessionCall where
  | connect
  | disconnect
  | reconnect
  | cancel
  | retry
  | reset
  | readMemory (address size : UInt64)
  | writeMemory (address : UInt64) (data : ByteBuffer)
  | eraseMemory (address size : UInt64)
  | resetDevice
  | readPartition (name : String)
  | writePartition (name : String) (data : ByteBuffer)
  | erasePartition (name : String)

/-- A call that returns no data returns the empty buffer here. -/
def withoutData {τ : Type} (method : DeviceSession.Method τ Unit) :
    DeviceSession.Method τ ByteBuffer := do
  method
  pure []

def SessionCall.step {τ : Type} (flashDevice : Option (SessionDevice τ)) :
    SessionCall → DeviceSession.Method τ ByteBuffer
  | connect => withoutData (DeviceSession.connect flashDevice)
  | disconnect => withoutData (Program.modify (DeviceSession.disconnect flashDevice))
  | reconnect => withoutData (DeviceSession.reconnect flashDevice)
  | cancel => withoutData (Program.modify (DeviceSession.cancel flashDevice))
  | retry => withoutData (DeviceSession.retry flashDevice)
  | reset => withoutData (DeviceSession.reset flashDevice)
  | readMemory address size => DeviceSession.readMemory flashDevice address size
  | writeMemory address data => withoutData (DeviceSession.writeMemory flashDevice address data)
  | eraseMemory address size => withoutData (DeviceSession.eraseMemory flashDevice address size)
  | resetDevice => withoutData (DeviceSession.resetDevice flashDevice)
  | readPartition name => DeviceSession.readPartition flashDevice name
  | writePartition name data => withoutData (DeviceSession.writePartition flashDevice name data)
  | erasePartition name => withoutData (DeviceSession.erasePartition flashDevice name)

end MBootCore.Session
