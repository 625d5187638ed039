import MBootCore.Pipeline.RecoveryStrategy
import MBootCore.Session.DeviceSession

/-!
# Session — WatchedSession

The methods of `DeviceSession` with all that runs inside them: the device, the observers
that are told of every step, and other threads between two statements. Each of them may
call `cancel`. Where nobody does anything else, the methods are those of `DeviceSession`.
-/

namespace MBootCore.Session

/-- What an observer is told. -/
inductive SessionEvent where
  | stateChanged (oldState newState : SessionState)
  | error (error : ErrorCode) (message : String)
  | completed (operation : String)
  | disconnected
  | operationStarted (operation : String)
  | operationFinished (operation : String) (success : Bool)

/-- The operations of `IFlashDevice` the session calls, with the calls of `cancel` made in
them. -/
structure WatchedDevice (W : Type) where
  openDevice : Client W (Except ErrorCode Unit)
  close : Client W Unit
  readMemory (address size : UInt64) : Client W (Except ErrorCode ByteBuffer)
  writeMemory (address : UInt64) (data : ByteBuffer) : Client W (Except ErrorCode Unit)
  eraseMemory (address size : UInt64) : Client W (Except ErrorCode Unit)
  readPartition (name : String) : Client W (Except ErrorCode ByteBuffer)
  writePartition (name : String) (data : ByteBuffer) : Client W (Except ErrorCode Unit)
  erasePartition (name : String) : Client W (Except ErrorCode Unit)
  reset : Client W (Except ErrorCode Unit)

/-- All code around the session, over one world. -/
structure Company (W : Type) where
  flashDevice : Option (WatchedDevice W)
  /-- The observers, who can look at the session. -/
  notify : SessionEvent → DeviceSession W → Client W Unit
  /-- What other threads do before the next statement. -/
  meanwhile : DeviceSession W → Client W Unit

/-- `cancels` counts the calls of `cancel`; no code reads it. -/
structure WatchedSession (W : Type) where
  session : DeviceSession W
  cancels : Nat := 0

namespace WatchedSession

variable {W : Type} {α : Type}

abbrev Method (W α : Type) : Type := Program (WatchedSession W) ErrorCode α

/-! ## Statements -/

/-- Code of others runs. A `cancel` in it has set the flag and the state. -/
def call (code : DeviceSession W → Client W α) : Method W α := fun s =>
  match code s.session s.session.device with
  | (a, world, false) => (.ok a, { s with session := { s.session with device := world } })
  | (a, world, true) =>
    (.ok a, {
      session := { s.session with device := world, isCancelled := true, state := .cancelled }
      cancels := s.cancels + 1 })

/-- A statement of the session alone. -/
def onSession (m : DeviceSession.Method W α) : Method W α :=
  Program.zoom WatchedSession.session (fun session s => { s with session }) m

variable (company : Company W)

def announce (event : SessionEvent) : Method W Unit := call (company.notify event)

def meanwhile : Method W Unit := call company.meanwhile

/-- `m_state.exchange(newState)`, and the observers. -/
def setState (newState : SessionState) : Method W Unit := do
  let s ← Program.get
  onSession (DeviceSession.setState newState)
  if s.session.state = newState then pure ()
  else announce company (.stateChanged s.session.state newState)

def checkCancelled : Method W Unit := do
  let s ← Program.get
  if s.session.isCancelled then
    setState company .cancelled
    Program.fail .cancelled
  else pure ()

/-! ## Operations -/

/-- The checks before an operation. -/
def checkOperation : Method W Unit := do
  checkCancelled company
  meanwhile company
  onSession (Program.failIf (!·.isConnected) .deviceDisconnected)
  meanwhile company
  onSession (Program.failIf (·.isBusy) .invalidState)
  meanwhile company

/-- The call of the device, and what leads up to it. -/
def begin (busyState : SessionState) (operationName : String)
    (operation : Client W (Except ErrorCode α)) : Method W (Except ErrorCode α) := do
  setState company busyState
  announce company (.operationStarted operationName)
  call fun _ => operation

/-- What is done about the answer of the device, and the result. -/
def conclude (good : α → Method W Unit) (bad : ErrorCode → Method W Unit) :
    Except ErrorCode α → Method W α
  | .ok a => do
    good a
    pure a
  | .error error => do
    bad error
    Program.fail error

/-- What a wrapper is given. -/
structure Job (W α : Type) where
  operation : Client W (Except ErrorCode α)
  operationName : String
  busyState : SessionState
  bytes : α → UInt64
  failedBytes : UInt64
  failure : String

def succeeded (job : Job W α) (a : α) : Method W Unit := do
  setState company .ready
  onSession (DeviceSession.updateStats job.operationName (job.bytes a))
  onSession (DeviceSession.addHistoryEntry job.operationName true (job.bytes a))
  announce company (.completed job.operationName)
  announce company (.operationFinished job.operationName true)

def failed (job : Job W α) (error : ErrorCode) : Method W Unit := do
  onSession DeviceSession.countFailure
  setState company .error
  announce company (.error error (job.failure ++ job.operationName))
  onSession (DeviceSession.addHistoryEntry job.operationName false job.failedBytes)
  announce company (.operationFinished job.operationName false)

/-- What the two wrappers share. -/
def execute (job : Job W α) : Method W α := do
  checkOperation company
  let answer ← begin company job.busyState job.operationName job.operation
  conclude (succeeded company job) (failed company job) answer

/-- The job of `executeWithStateCheck`. -/
def Job.withStateCheck (operation : Client W (Except ErrorCode Unit)) (operationName : String)
    (busyState : SessionState) (bytesTransferred : UInt64 := 0) : Job W Unit where
  operation := operation
  operationName := operationName
  busyState := busyState
  bytes _ := bytesTransferred
  failedBytes := bytesTransferred
  failure := "Operation failed: "

/-- The job of `executeReadWithStateCheck`. -/
def Job.readWithStateCheck (operation : Client W (Except ErrorCode ByteBuffer))
    (operationName : String) : Job W ByteBuffer where
  operation := operation
  operationName := operationName
  busyState := .reading
  bytes data := data.length.toUInt64
  failedBytes := 0
  failure := "Read failed: "

/-! ## Lifecycle -/

/-- The checks of `connect` once it is not connected. -/
def checkConnect : Method W Unit := do
  meanwhile company
  onSession (Program.failIf (·.isTerminal) .invalidState)
  meanwhile company
  onSession (Program.modify fun s => { s with isCancelled := false })

def openDevice : Client W (Except ErrorCode Unit) :=
  match company.flashDevice with
  | some device => device.openDevice
  | none => fun world => (.ok (), world, false)

def connected : Method W Unit := do
  setState company .ready
  announce company (.completed "connect")
  announce company (.operationFinished "connect" true)

def connectFailed (error : ErrorCode) : Method W Unit := do
  setState company .error
  announce company (.error error "Failed to open flash device")
  announce company (.operationFinished "connect" false)

def connect : Method W Unit := do
  let s ← Program.get
  if s.session.state = .ready ∨ s.session.state = .connected then pure ()
  else
    checkConnect company
    let answer ← begin company .connecting "connect" (openDevice company)
    conclude (fun _ => connected company) (connectFailed company) answer

def close : Method W Unit :=
  match company.flashDevice with
  | some device => call fun _ => device.close
  | none => pure ()

def disconnect : Method W Unit := do
  let s ← Program.get
  if s.session.state = .disconnected ∨ s.session.state = .finished then pure ()
  else
    meanwhile company
    onSession (Program.modify fun s => { s with isCancelled := true })
    close company
    setState company .disconnected
    announce company .disconnected

/-- `reconnect` up to the connection. -/
def beginReconnect : Method W Unit := do
  disconnect company
  announce company (.operationStarted "reconnect")

def reconnect : Method W Unit := do
  beginReconnect company
  let result ← Program.attempt (connect company)
  announce company (.operationFinished "reconnect" result.isOk)
  Program.ofExcept result

/-- `retry` once the session has failed. -/
def beginRetry : Method W Unit := do
  meanwhile company
  onSession (Program.modify fun s =>
    { s with stats := { s.stats with retries := s.stats.retries + 1 } })

def retry : Method W Unit := do
  onSession (Program.failIf (·.state ≠ .error) .invalidState)
  beginRetry company
  reconnect company

def reset : Method W Unit := disconnect company

end WatchedSession

/-! ## Calls -/

/-- The device operations and the partition operations. -/
inductive DeviceCall : Type → Type where
  | readMemory (address size : UInt64) : DeviceCall ByteBuffer
  | writeMemory (address : UInt64) (data : ByteBuffer) : DeviceCall Unit
  | eraseMemory (address size : UInt64) : DeviceCall Unit
  | resetDevice : DeviceCall Unit
  | readPartition (name : String) : DeviceCall ByteBuffer
  | writePartition (name : String) (data : ByteBuffer) : DeviceCall Unit
  | erasePartition (name : String) : DeviceCall Unit

/-- The methods that report a result. -/
inductive ReportedCall : Type → Type 1 where
  | connect : ReportedCall Unit
  | reconnect : ReportedCall Unit
  | retry : ReportedCall Unit
  | reset : ReportedCall Unit
  | onDevice {α : Type} (call : DeviceCall α) : ReportedCall α

variable {W : Type} {α : Type}

open WatchedSession (Job) in
def DeviceCall.job (device : WatchedDevice W) {α : Type} : DeviceCall α → Job W α
  | readMemory address size =>
    .readWithStateCheck (device.readMemory address size) "readMemory"
  | writeMemory address data =>
    .withStateCheck (device.writeMemory address data) "writeMemory" .writing data.length.toUInt64
  | eraseMemory address size =>
    .withStateCheck (device.eraseMemory address size) "eraseMemory" .erasing size
  | resetDevice => .withStateCheck device.reset "resetDevice" .resetting
  | readPartition name =>
    .readWithStateCheck (device.readPartition name) ("readPartition:" ++ name)
  | writePartition name data =>
    .withStateCheck (device.writePartition name data) ("writePartition:" ++ name) .writing
  | erasePartition name =>
    .withStateCheck (device.erasePartition name) ("erasePartition:" ++ name) .erasing

def DeviceCall.method (company : Company W) (call : DeviceCall α) : WatchedSession.Method W α :=
  match company.flashDevice with
  | none => Program.fail .notSupported
  | some device => WatchedSession.execute company (call.job device)

def ReportedCall.method (company : Company W) {α : Type} :
    ReportedCall α → WatchedSession.Method W α
  | connect => WatchedSession.connect company
  | reconnect => WatchedSession.reconnect company
  | retry => WatchedSession.retry company
  | reset => WatchedSession.reset company
  | onDevice call => call.method company

/-! ## Alone with the device -/

section Quiet

open Program (Simulates)

/-- The device, which calls nobody. -/
def quietly (operation : Program W ErrorCode α) : Client W (Except ErrorCode α) := fun world =>
  ((operation world).1, (operation world).2, false)

def WatchedDevice.quiet (device : SessionDevice W) : WatchedDevice W where
  openDevice := quietly device.openDevice
  close world := ((), device.close world, false)
  readMemory address size := quietly (device.readMemory address size)
  writeMemory address data := quietly (device.writeMemory address data)
  eraseMemory address size := quietly (device.eraseMemory address size)
  readPartition name := quietly (device.readPartition name)
  writePartition name data := quietly (device.writePartition name data)
  erasePartition name := quietly (device.erasePartition name)
  reset := quietly device.reset

/-- Nobody around but the device. -/
def Company.quiet (flashDevice : Option (SessionDevice W)) : Company W where
  flashDevice := flashDevice.map WatchedDevice.quiet
  notify _ _ world := ((), world, false)
  meanwhile _ world := ((), world, false)

namespace WatchedSession

variable (flashDevice : Option (SessionDevice W))

theorem announce_quiet (event : SessionEvent) :
    announce (.quiet flashDevice) event = pure () := rfl

theorem meanwhile_quiet : meanwhile (.quiet flashDevice) = pure () := rfl

theorem onSession_simulates (m : DeviceSession.Method W α) :
    Simulates WatchedSession.session (onSession m) m := by
  intro s
  rw [onSession, Program.run_zoom]

theorem call_simulates (operation : Program W ErrorCode α) :
    Simulates WatchedSession.session (call fun _ => quietly operation)
      (Program.attempt (DeviceSession.onDevice operation)) :=
  fun _ => rfl

theorem setState_quiet (state : SessionState) :
    setState (.quiet flashDevice) state = onSession (DeviceSession.setState state) := by
  funext s
  rw [setState, Program.run_bind_ok (Program.run_get s)]
  by_cases hsame : s.session.state = state
  · rw [if_pos hsame]
    rfl
  · rw [if_neg hsame]
    rfl

theorem setState_simulates (state : SessionState) :
    Simulates WatchedSession.session (setState (.quiet flashDevice) state)
      (DeviceSession.setState state) := by
  rw [setState_quiet]
  exact onSession_simulates _

theorem checkCancelled_simulates :
    Simulates WatchedSession.session (checkCancelled (.quiet flashDevice))
      (DeviceSession.checkCancelled (τ := W)) := by
  intro s
  rw [checkCancelled, Program.run_bind_ok (Program.run_get s), DeviceSession.checkCancelled]
  by_cases hcancelled : s.session.isCancelled = true
  · have hset := setState_simulates flashDevice .cancelled s
    rw [if_pos hcancelled, if_pos hcancelled, Program.run_bind]
    rcases hrun : setState (.quiet flashDevice) .cancelled s with ⟨e | ⟨⟩, s'⟩
    · rw [hrun] at hset
      cases (Prod.mk.inj hset).1
    · rw [hrun] at hset
      exact Prod.ext rfl (Prod.mk.inj hset).2
  · rw [if_neg hcancelled, if_neg hcancelled]
    rfl

theorem begin_simulates (busyState : SessionState) (name : String)
    (operation : Program W ErrorCode α) :
    Simulates WatchedSession.session
      (begin (.quiet flashDevice) busyState name (quietly operation))
      (do
        DeviceSession.setState busyState
        Program.attempt (DeviceSession.onDevice operation)) :=
  Simulates.bind (setState_simulates flashDevice busyState) fun _ => call_simulates operation

theorem execute_simulates (job : Job W α) {operation : Program W ErrorCode α}
    (hoperation : job.operation = quietly operation) :
    Simulates WatchedSession.session (execute (.quiet flashDevice) job)
      (DeviceSession.execute operation job.operationName job.busyState job.bytes
        job.failedBytes) := by
  unfold execute checkOperation DeviceSession.execute
  simp only [Program.bind_assoc, meanwhile_quiet, Program.pure_bind]
  refine Simulates.bind (checkCancelled_simulates _) fun _ => ?_
  refine Simulates.bind (onSession_simulates _) fun _ => ?_
  refine Simulates.bind (onSession_simulates _) fun _ => ?_
  rw [hoperation, ← Program.bind_assoc]
  refine Simulates.bind (begin_simulates flashDevice _ _ operation) fun result => ?_
  cases result with
  | ok a =>
    simp only [conclude, succeeded, Program.bind_assoc, announce_quiet, Program.pure_bind]
    refine Simulates.bind (setState_simulates _ _) fun _ => ?_
    refine Simulates.bind (onSession_simulates _) fun _ => ?_
    refine Simulates.bind (onSession_simulates _) fun _ => ?_
    exact Simulates.pure a
  | error error =>
    simp only [conclude, failed, Program.bind_assoc, announce_quiet, Program.pure_bind]
    refine Simulates.bind (onSession_simulates _) fun _ => ?_
    refine Simulates.bind (setState_simulates _ _) fun _ => ?_
    refine Simulates.bind (onSession_simulates _) fun _ => ?_
    exact Simulates.fail error

theorem disconnect_simulates :
    Simulates WatchedSession.session (disconnect (.quiet flashDevice))
      (Program.modify (DeviceSession.disconnect flashDevice)) := by
  intro s
  rw [disconnect, Program.run_bind_ok (Program.run_get s), Program.run_modify]
  unfold DeviceSession.disconnect
  by_cases hleft : s.session.state = .disconnected ∨ s.session.state = .finished
  · rw [if_pos hleft, if_pos hleft]
    rfl
  rw [if_neg hleft, if_neg hleft, setState_quiet]
  cases flashDevice with
  | none => rfl
  | some device => rfl

theorem connect_simulates :
    Simulates WatchedSession.session (connect (.quiet flashDevice))
      (DeviceSession.connect flashDevice) := by
  intro s
  unfold connect DeviceSession.connect
  rw [Program.run_bind_ok (Program.run_get s), Program.run_bind_ok (Program.run_get s.session)]
  by_cases hconnected : s.session.state = .ready ∨ s.session.state = .connected
  · rw [if_pos hconnected, if_pos hconnected]
    rfl
  rw [if_neg hconnected, if_neg hconnected]
  simp only [checkConnect, Program.bind_assoc, meanwhile_quiet, Program.pure_bind, begin,
    connected, setState_quiet, announce_quiet]
  by_cases hterminal : s.session.isTerminal = true
  · have hrefused : onSession (Program.failIf (·.isTerminal) .invalidState) s
        = (.error .invalidState, s) := by
      rw [onSession, Program.run_zoom, Program.run_failIf, if_pos hterminal]
    rw [Program.run_bind_error hrefused, if_pos hterminal]
    rfl
  have hadmitted : onSession (Program.failIf (·.isTerminal) .invalidState) s = (.ok (), s) := by
    rw [onSession, Program.run_zoom, Program.run_failIf, if_neg hterminal]
  rw [Program.run_bind_ok hadmitted, if_neg hterminal]
  cases flashDevice with
  | none => rfl
  | some device =>
    have hdevice : openDevice (.quiet (some device)) = quietly device.openDevice := rfl
    rcases hopen : device.openDevice s.session.device with ⟨error | ⟨⟩, world⟩ <;>
      simp [hdevice, quietly, call, onSession, hopen, conclude, connectFailed, setState_quiet,
        announce_quiet, Program.run_bind, Program.run_zoom, DeviceSession.onDevice,
        DeviceSession.setState]

theorem reconnect_simulates :
    Simulates WatchedSession.session (reconnect (.quiet flashDevice))
      (DeviceSession.reconnect flashDevice) := by
  unfold reconnect beginReconnect DeviceSession.reconnect
  simp only [Program.bind_assoc, announce_quiet, Program.pure_bind]
  refine Simulates.bind (disconnect_simulates flashDevice) fun _ s => ?_
  rw [connect_simulates flashDevice s, Program.run_bind_ok (Program.run_attempt _ _)]
  rfl

theorem retry_simulates :
    Simulates WatchedSession.session (retry (.quiet flashDevice))
      (DeviceSession.retry flashDevice) := by
  unfold retry beginRetry DeviceSession.retry
  simp only [meanwhile_quiet, Program.pure_bind]
  refine Simulates.bind (onSession_simulates _) fun _ => ?_
  refine Simulates.bind (onSession_simulates _) fun _ => ?_
  exact reconnect_simulates flashDevice

end WatchedSession

variable (flashDevice : Option (SessionDevice W))

def DeviceCall.plain {α : Type} : DeviceCall α → DeviceSession.Method W α
  | readMemory address size => DeviceSession.readMemory flashDevice address size
  | writeMemory address data => DeviceSession.writeMemory flashDevice address data
  | eraseMemory address size => DeviceSession.eraseMemory flashDevice address size
  | resetDevice => DeviceSession.resetDevice flashDevice
  | readPartition name => DeviceSession.readPartition flashDevice name
  | writePartition name data => DeviceSession.writePartition flashDevice name data
  | erasePartition name => DeviceSession.erasePartition flashDevice name

def ReportedCall.plain {α : Type} : ReportedCall α → DeviceSession.Method W α
  | connect => DeviceSession.connect flashDevice
  | reconnect => DeviceSession.reconnect flashDevice
  | retry => DeviceSession.retry flashDevice
  | reset => DeviceSession.reset flashDevice
  | onDevice call => call.plain flashDevice

theorem DeviceCall.simulates (call : DeviceCall α) :
    Simulates WatchedSession.session (call.method (.quiet flashDevice))
      (call.plain flashDevice) := by
  cases flashDevice with
  | none => cases call <;> exact Simulates.fail ErrorCode.notSupported
  | some device => cases call <;> exact WatchedSession.execute_simulates (some device) _ rfl

/-- A call that nobody interferes with is the call of `DeviceSession`. -/
theorem ReportedCall.simulates (call : ReportedCall α) :
    Simulates WatchedSession.session (call.method (.quiet flashDevice))
      (call.plain flashDevice) := by
  cases call with
  | connect => exact WatchedSession.connect_simulates flashDevice
  | reconnect => exact WatchedSession.reconnect_simulates flashDevice
  | retry => exact WatchedSession.retry_simulates flashDevice
  | reset => exact WatchedSession.disconnect_simulates flashDevice
  | onDevice call => exact call.simulates flashDevice

end Quiet

end MBootCore.Session
