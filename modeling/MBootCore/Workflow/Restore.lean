import MBootCore.Session.DeviceSession
import MBootCore.Workflow.StockWorkflows

/-!
# Workflow — Restore

`FirmwareService::restore`: the session writes the data to the partition, and then
the stock workflow for restoring runs, whose steps do nothing. The step of
`WorkflowExecutor` that would write the partition again is not reached from here.
-/

namespace MBootCore.Workflow

open Session (DeviceSession SessionDevice)

/-! ## Calls of the device -/

inductive SessionDeviceCall where
  | openDevice
  | close
  | readMemory (address size : UInt64)
  | writeMemory (address : UInt64) (data : ByteBuffer)
  | eraseMemory (address size : UInt64)
  | readPartition (name : String)
  | writePartition (name : String) (data : ByteBuffer)
  | erasePartition (name : String)
  | reset
  | cancel
  deriving DecidableEq, Repr

/-- A device and the calls that were made of it, the latest one last. -/
structure RecordedDevice (τ : Type) where
  device : τ
  calls : List SessionDeviceCall := []

namespace RecordedDevice

variable {τ : Type}

def note (call : SessionDeviceCall) (d : RecordedDevice τ) : RecordedDevice τ :=
  { d with calls := d.calls ++ [call] }

def record {α : Type} (call : SessionDeviceCall) (operation : Program τ ErrorCode α) :
    Program (RecordedDevice τ) ErrorCode α := do
  Program.modify (note call)
  Program.zoom RecordedDevice.device (fun device d => { d with device }) operation

def methods (dev : SessionDevice τ) : SessionDevice (RecordedDevice τ) where
  openDevice := record .openDevice dev.openDevice
  close d := { d.note .close with device := dev.close d.device }
  readMemory address size := record (.readMemory address size) (dev.readMemory address size)
  writeMemory address data := record (.writeMemory address data) (dev.writeMemory address data)
  eraseMemory address size := record (.eraseMemory address size) (dev.eraseMemory address size)
  readPartition name := record (.readPartition name) (dev.readPartition name)
  writePartition name data := record (.writePartition name data) (dev.writePartition name data)
  erasePartition name := record (.erasePartition name) (dev.erasePartition name)
  reset := record .reset dev.reset
  cancel d := { d.note .cancel with device := dev.cancel d.device }

end RecordedDevice

/-! ## Restoring -/

/-- What `OperationContext` asks of the runtime. -/
structure RuntimeState where
  initialized : Bool := true
  cancelled : Bool := false
  deriving DecidableEq, Repr

/-- `Runtime::executeWorkflow`; `none` stands for a workflow that was not run. -/
def Runtime.executeWorkflow {τ : Type} (state : RuntimeState) (w : BuiltWorkflow τ) :
    Except ErrorCode Unit × Option (WorkflowEngine (WorkflowContext τ)) :=
  if !state.initialized then (.error .invalidState, none)
  else if state.cancelled then (.error .cancelled, none)
  else
    let (result, engine) := w.executeWorkflow
    (result, some engine)

/-- The session of the context is the same object; the device it ends with is its own. -/
def deviceAfter {τ : Type} (engine : Option (WorkflowEngine (WorkflowContext τ))) (device : τ) :
    τ :=
  ((engine.bind fun e => e.world.session).bind LoggedSession.flashDevice).getD device

def FirmwareService.restore {τ : Type} (state : RuntimeState) (dev : Option (SessionDevice τ))
    (activeSession : Option (DeviceSession τ)) (partition : String) (data : ByteBuffer) :
    Except ErrorCode Unit × Option (DeviceSession τ) :=
  match activeSession with
  | none => (.error .sessionNotConnected, none)
  | some session =>
    match DeviceSession.writePartition dev partition data session with
    | (.error e, session) => (.error e, some session)
    | (.ok (), session) =>
      let workflow := WorkflowFactory.createRestoreWorkflow
        (some { flashDevice := dev.map fun _ => session.device }) partition
      let (result, engine) := Runtime.executeWorkflow state workflow
      (result, some { session with device := deviceAfter engine session.device })

/-! ## What a restore does -/

/-- A successful write of a partition stores the data at its start and nothing else. -/
def StoresPartitions {τ : Type} (dev : SessionDevice τ) (content : τ → String → ByteBuffer) :
    Prop :=
  ∀ name data t t', dev.writePartition name data t = (.ok (), t') →
    content t' name = data ++ (content t name).drop data.length ∧
      ∀ other, other ≠ name → content t' other = content t other

variable {τ : Type}

/-- An operation of the session that succeeds made one call of the device. -/
theorem execute_ok {α : Type} {operation : Program τ ErrorCode α} {name : String}
    {busyState : Session.SessionState} {bytes : α → UInt64} {failedBytes : UInt64}
    {s s' : DeviceSession τ} {a : α}
    (h : DeviceSession.execute operation name busyState bytes failedBytes s = (.ok a, s')) :
    operation s.device = (.ok a, s'.device) := by
  rw [DeviceSession.execute] at h
  obtain ⟨_, s₁, hcancelled, h⟩ := Program.bind_eq_ok.mp h
  obtain rfl : s = s₁ := by
    rw [DeviceSession.checkCancelled] at hcancelled
    split at hcancelled
    · cases hcancelled
    · exact (Prod.mk.inj hcancelled).2
  obtain ⟨_, _, hconnected, h⟩ := Program.bind_eq_ok.mp h
  obtain ⟨-, rfl⟩ := Program.failIf_eq_ok.mp hconnected
  obtain ⟨_, _, hbusy, h⟩ := Program.bind_eq_ok.mp h
  obtain ⟨-, rfl⟩ := Program.failIf_eq_ok.mp hbusy
  rw [Program.run_bind, DeviceSession.setState, Program.run_modify] at h
  simp only [Program.run_bind, Program.run_attempt, DeviceSession.onDevice, Program.run_zoom] at h
  rcases hoperation : operation s.device with ⟨result, device⟩
  simp only [hoperation] at h
  cases result with
  | error e => cases h
  | ok b =>
    obtain ⟨hresult, hstate⟩ := Prod.mk.inj h
    obtain rfl := Except.ok.inj hresult
    rw [← hstate]
    dsimp only
    split <;> rfl

theorem record_ok {α : Type} {call : SessionDeviceCall} {operation : Program τ ErrorCode α}
    {d d' : RecordedDevice τ} {a : α} (h : RecordedDevice.record call operation d = (.ok a, d')) :
    operation d.device = (.ok a, d'.device) ∧ d'.calls = d.calls ++ [call] := by
  rw [RecordedDevice.record, Program.run_bind, Program.run_modify] at h
  obtain ⟨device, hoperation, rfl⟩ := Program.zoom_eq_ok.mp h
  exact ⟨hoperation, rfl⟩

/-- The workflow leaves the device to the session as it was. -/
theorem deviceAfter_executeWorkflow (state : RuntimeState) (dev : SessionDevice τ) (device : τ)
    (partition : String) :
    deviceAfter (Runtime.executeWorkflow state (WorkflowFactory.createRestoreWorkflow
      (some { flashDevice := (some dev).map fun _ => device }) partition)).2 device = device := by
  rw [Runtime.executeWorkflow]
  split
  · rfl
  split
  · rfl
  · rw [deviceAfter, Option.bind_some, (WorkflowFactory.stock_run _ (.restore partition)).2]
    rfl

/-- A restore that succeeds is one write of the data to the partition. -/
theorem restore_ok {state : RuntimeState} {dev : Option (SessionDevice τ)}
    {active : Option (DeviceSession τ)} {partition : String} {data : ByteBuffer}
    (h : (FirmwareService.restore state dev active partition data).1 = .ok ()) :
    ∃ device session session', dev = some device ∧ active = some session ∧
      (FirmwareService.restore state dev active partition data).2 = some session' ∧
        device.writePartition partition data session.device = (.ok (), session'.device) := by
  cases active with
  | none => cases h
  | some session =>
    cases dev with
    | none => cases h
    | some device =>
      rw [FirmwareService.restore] at h ⊢
      rcases hwrite : DeviceSession.writePartition (some device) partition data session
        with ⟨result, written⟩
      simp only [hwrite] at h ⊢
      cases result with
      | error e => cases h
      | ok u =>
        refine ⟨device, session, _, rfl, rfl, rfl, ?_⟩
        rw [deviceAfter_executeWorkflow]
        exact execute_ok hwrite

/-- Whatever device stores what is written to a partition has the data in it after
a restore, and nothing was asked of it but this one write. -/
theorem restore_writes (state : RuntimeState) {dev : SessionDevice τ}
    {content : τ → String → ByteBuffer} (hdev : StoresPartitions dev content)
    (session : DeviceSession (RecordedDevice τ)) (partition : String) (data : ByteBuffer)
    (h : (FirmwareService.restore state (some (RecordedDevice.methods dev)) (some session) partition
      data).1 = .ok ()) :
    ∃ session', (FirmwareService.restore state (some (RecordedDevice.methods dev)) (some session)
        partition data).2 = some session' ∧
      data <+: content session'.device.device partition ∧
      (∀ other, other ≠ partition →
        content session'.device.device other = content session.device.device other) ∧
      session'.device.calls = session.device.calls ++ [.writePartition partition data] := by
  obtain ⟨device, before, session', hdevice, hbefore, hafter, hwrite⟩ := restore_ok h
  obtain rfl := Option.some.inj hdevice
  obtain rfl := Option.some.inj hbefore
  obtain ⟨hstored, hcalls⟩ := record_ok hwrite
  obtain ⟨hcontent, hothers⟩ := hdev _ _ _ _ hstored
  refine ⟨session', hafter, ?_, hothers, hcalls⟩
  rw [hcontent]
  exact List.prefix_append _ _

/-- A device of partitions. -/
def partitionDevice : SessionDevice (String → ByteBuffer) where
  openDevice := pure ()
  close t := t
  readMemory _ _ := Program.fail .notSupported
  writeMemory _ _ := Program.fail .notSupported
  eraseMemory _ _ := Program.fail .notSupported
  readPartition name := Program.gets fun t => t name
  writePartition name data :=
    Program.modify fun t => Function.update t name (data ++ (t name).drop data.length)
  erasePartition name := Program.modify fun t => Function.update t name []
  reset := pure ()
  cancel t := t

theorem partitionDevice_stores : StoresPartitions partitionDevice fun t => t := by
  intro name data t t' h
  obtain ⟨-, rfl⟩ := Prod.mk.inj h
  exact ⟨Function.update_self .., fun other hother => Function.update_of_ne hother ..⟩

/-- A session on a device whose partitions are empty. -/
def readySession : DeviceSession (RecordedDevice (String → ByteBuffer)) where
  device := { device := fun _ => [] }
  state := .ready

theorem restore_writes_boot :
    ∃ session', (FirmwareService.restore {} (some (RecordedDevice.methods partitionDevice))
        (some readySession) "boot" [1, 2]).2 = some session' ∧
      [1, 2] <+: session'.device.device "boot" ∧
      (∀ other, other ≠ "boot" → session'.device.device other = []) ∧
      session'.device.calls = [.writePartition "boot" [1, 2]] :=
  restore_writes {} partitionDevice_stores readySession "boot" [1, 2] (by rfl)

end MBootCore.Workflow
