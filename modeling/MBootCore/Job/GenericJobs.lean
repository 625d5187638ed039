import MBootCore.Generic.FlashDevice
import MBootCore.Job.JobPipeline

/-!
# Job — GenericJobs

The jobs of `job/GenericJobs.cpp` on a device of any state. What a job keeps of
a partition for its rollback is part of the job; what it reads for its callers,
its progress and its result are left out. The context has a flash device, so
that the null checks of `prepare` do not fire.
-/

namespace MBootCore.Job

inductive JobKind where
  | flash (data : ByteBuffer)
  | backup
  | restore (restoreData : ByteBuffer)
  | read
  | erase
  | verify (expectedData : ByteBuffer)
  | gptUpdate
  | programmerUpload (programmerData : ByteBuffer)
  deriving DecidableEq, Repr

/-- A job; `originalData` is `m_originalPrimary` of a `GPTUpdateJob`. -/
structure GenericJob where
  kind : JobKind
  partitionName : String := ""
  /-- `canRollback` of the recovery policy, if there is one. -/
  recoveryPolicy : Option Bool := some true
  cancelled : Bool := false
  originalData : ByteBuffer := []
  backedUp : Bool := false
  deriving DecidableEq, Repr

namespace GenericJob

def cancel (job : GenericJob) : GenericJob := { job with cancelled := true }

def canRollback (job : GenericJob) : Bool := job.recoveryPolicy.getD false

end GenericJob

/-- The operations of `IFlashDevice` the jobs call. -/
structure JobDevice (τ : Type) where
  readPartition (name : String) : Program τ ErrorCode ByteBuffer
  writePartition (name : String) (data : ByteBuffer) : Program τ ErrorCode Unit
  erasePartition (name : String) : Program τ ErrorCode Unit
  readMemory (address size : UInt64) : Program τ ErrorCode ByteBuffer
  writeMemory (address : UInt64) (data : ByteBuffer) : Program τ ErrorCode Unit
  getStorageInfo : Program τ ErrorCode StorageInfo
  uploadLoader (data : ByteBuffer) : Program τ ErrorCode Unit

/-- The operations of `PartitionManager` the jobs call. -/
structure JobPartitionManager (τ : Type) where
  openTable : Program τ ErrorCode Unit
  refreshTable : Program τ ErrorCode Unit
  backupPartition (name : String) : Program τ ErrorCode ByteBuffer
  restorePartition (name : String) (data : ByteBuffer) : Program τ ErrorCode Unit

/-- The context, and what other threads ask of the pipeline. -/
structure JobContext (τ : Type) where
  flashDevice : JobDevice τ
  partitionManager : Option (JobPartitionManager τ) := none
  /-- What was asked while a method worked. -/
  asked : τ → List Request := fun _ => []
  between : τ → List Request × τ := fun t => ([], t)
  wake : τ → Wake × τ := fun t => (.resumed, t)

/-- A job at work. -/
structure AtWork (τ : Type) where
  job : GenericJob
  device : τ

abbrev Method (τ : Type) (α : Type) : Type := Program (AtWork τ) ErrorCode α

variable {τ : Type} (ctx : JobContext τ)

def onDevice {α : Type} (operation : Program τ ErrorCode α) : Method τ α :=
  Program.zoom AtWork.device (fun device s => { s with device }) operation

/-- `if (checkCancelled()) return ErrorCode::Cancelled;`. -/
def checkCancelled : Method τ Unit := Program.failIf (·.job.cancelled) .cancelled

def keepOriginal (data : ByteBuffer) : Method τ Unit :=
  Program.modify fun s => { s with job := { s.job with originalData := data, backedUp := true } }

/-- What the partition holds is kept, if it can be read. -/
def readOriginal (name : String) : Method τ Unit := do
  match ← Program.attempt (onDevice (ctx.flashDevice.readPartition name)) with
  | .ok data => keepOriginal data
  | .error _ => pure ()

/-- A job with data to send refuses to do so without. -/
def prepareData (data : ByteBuffer) : Method τ Unit :=
  if data = [] then Program.fail .invalidArgument else pure ()

/-! ## FlashJob -/

def FlashJob.execute (name : String) (data : ByteBuffer) : Method τ Unit := do
  checkCancelled
  if name ≠ "" then onDevice (ctx.flashDevice.writePartition name data)

/-- The rollback of a flash leaves the device as it is. -/
def FlashJob.rollback : Method τ Unit := pure ()

/-! ## BackupJob -/

def BackupJob.execute (name : String) : Method τ Unit := do
  checkCancelled
  match ctx.partitionManager with
  | some manager => Program.void (onDevice (manager.backupPartition name))
  | none => Program.void (onDevice (ctx.flashDevice.readPartition name))

def BackupJob.rollback : Method τ Unit := pure ()

/-! ## RestoreJob -/

def RestoreJob.write (name : String) (data : ByteBuffer) : Method τ Unit :=
  match ctx.partitionManager with
  | some manager => onDevice (manager.restorePartition name data)
  | none => onDevice (ctx.flashDevice.writePartition name data)

def RestoreJob.execute (name : String) (restoreData : ByteBuffer) : Method τ Unit := do
  checkCancelled
  readOriginal ctx name
  RestoreJob.write ctx name restoreData

def RestoreJob.rollback (job : GenericJob) : Method τ Unit :=
  if job.originalData ≠ [] then RestoreJob.write ctx job.partitionName job.originalData else pure ()

/-! ## ReadJob -/

def ReadJob.execute (name : String) : Method τ Unit := do
  checkCancelled
  Program.void (onDevice (ctx.flashDevice.readPartition name))

def ReadJob.rollback : Method τ Unit := pure ()

/-! ## EraseJob -/

def EraseJob.execute (name : String) : Method τ Unit := do
  checkCancelled
  readOriginal ctx name
  onDevice (ctx.flashDevice.erasePartition name)

def EraseJob.rollback (job : GenericJob) : Method τ Unit :=
  if job.backedUp = true ∧ job.originalData ≠ [] then
    onDevice (ctx.flashDevice.writePartition job.partitionName job.originalData)
  else pure ()

/-! ## VerifyJob -/

def VerifyJob.execute (name : String) (expectedData : ByteBuffer) : Method τ Unit := do
  checkCancelled
  let actual ← onDevice (ctx.flashDevice.readPartition name)
  if actual.length ≠ expectedData.length then Program.fail .jobDataMismatch
  else if actual ≠ expectedData then Program.fail .jobDataMismatch
  else pure ()

def VerifyJob.rollback : Method τ Unit := pure ()

/-! ## GPTUpdateJob -/

def GPTUpdateJob.execute : Method τ Unit := do
  checkCancelled
  match ctx.partitionManager with
  | some manager => onDevice manager.openTable
  | none => pure ()
  match ← Program.attempt (onDevice ctx.flashDevice.getStorageInfo) with
  | .ok info =>
    let sectorSize : UInt64 := if info.sectorSize > 0 then info.sectorSize.toUInt64 else 512
    let gptSize := (34 + 128 * 128 / sectorSize) * sectorSize
    match ← Program.attempt (onDevice (ctx.flashDevice.readMemory 0 gptSize)) with
    | .ok data => keepOriginal data
    | .error _ => pure ()
    let backupOffset := (info.numSectors - 1 - 33) * sectorSize
    -- the copy of the backup table is kept but never written back
    Program.void (Program.attempt (onDevice (ctx.flashDevice.readMemory backupOffset gptSize)))
  | .error _ => pure ()
  match ctx.partitionManager with
  | some manager => onDevice manager.refreshTable
  | none => pure ()

def GPTUpdateJob.rollback (job : GenericJob) : Method τ Unit :=
  if job.backedUp = true ∧ job.originalData ≠ [] then
    onDevice (ctx.flashDevice.writeMemory 0 job.originalData)
  else pure ()

/-! ## ProgrammerUploadJob -/

def ProgrammerUploadJob.execute (programmerData : ByteBuffer) : Method τ Unit := do
  checkCancelled
  onDevice (ctx.flashDevice.uploadLoader programmerData)

def ProgrammerUploadJob.rollback : Method τ Unit := pure ()

/-! ## The methods of a job -/

namespace GenericJob

def prepare (job : GenericJob) : Method τ Unit :=
  match job.kind with
  | .flash data | .restore data | .verify data | .programmerUpload data => prepareData data
  | .backup | .read | .erase | .gptUpdate => pure ()

def execute (job : GenericJob) : Method τ Unit :=
  match job.kind with
  | .flash data => FlashJob.execute ctx job.partitionName data
  | .backup => BackupJob.execute ctx job.partitionName
  | .restore data => RestoreJob.execute ctx job.partitionName data
  | .read => ReadJob.execute ctx job.partitionName
  | .erase => EraseJob.execute ctx job.partitionName
  | .verify data => VerifyJob.execute ctx job.partitionName data
  | .gptUpdate => GPTUpdateJob.execute ctx
  | .programmerUpload data => ProgrammerUploadJob.execute ctx data

def rollback (job : GenericJob) : Method τ Unit :=
  match job.kind with
  | .flash _ => FlashJob.rollback
  | .backup => BackupJob.rollback
  | .restore _ => RestoreJob.rollback ctx job
  | .read => ReadJob.rollback
  | .erase => EraseJob.rollback ctx job
  | .verify _ => VerifyJob.rollback
  | .gptUpdate => GPTUpdateJob.rollback ctx job
  | .programmerUpload _ => ProgrammerUploadJob.rollback

end GenericJob

/-! ## A pipeline of generic jobs -/

/-- The device and the jobs of a pipeline, by their places. -/
structure JobWorld (τ : Type) where
  device : τ
  jobs : Nat → GenericJob

def answer (method : GenericJob → Method τ Unit) (place : Nat) (world : JobWorld τ) :
    Answer (JobWorld τ) :=
  let (result, s) := method (world.jobs place) ⟨world.jobs place, world.device⟩
  { result
    requests := ctx.asked s.device
    world :=
      { device := s.device,
        jobs := fun other => if other = place then s.job else world.jobs other } }

def genericSurroundings : Surroundings Nat (JobWorld τ) where
  prepare := answer ctx GenericJob.prepare
  execute := answer ctx (GenericJob.execute ctx)
  rollback := answer ctx (GenericJob.rollback ctx)
  cancel place world :=
    { world with
      jobs := fun other => if other = place then (world.jobs other).cancel else world.jobs other }
  canRollback place world := (world.jobs place).canRollback
  recoveryPolicy place world := (world.jobs place).recoveryPolicy
  between world :=
    let (requests, device) := ctx.between world.device
    (requests, { world with device })
  wake world :=
    let (wake, device) := ctx.wake world.device
    (wake, { world with device })

/-- A pipeline with its jobs added. -/
def pipelineOf (jobs : List GenericJob) (device : τ) : JobPipeline Nat (JobWorld τ) where
  world := { device, jobs := fun place => jobs.getD place { kind := .read } }
  jobs := List.range jobs.length

end MBootCore.Job
