import MBootCore.Domain.Error
import MBootCore.Firmware.FlashPlan
import MBootCore.Support.Program
import Mathlib.Data.List.AList

/-!
# Workflow — Executor

The steps of `WorkflowExecutor` in `workflow/WorkflowExecutor.cpp` that ask the
flash device themselves: detecting, the upload of the loader, verifying and
reading the partition table. The device answers as it likes; the session keeps a
log of what it was asked and what it answered.

The steps that go through the boot pipeline, the jobs or the session's own
operations are left out.
-/

namespace MBootCore.Workflow

open Firmware (FirmwarePackage FirmwareImage)
open Firmware.FlashPlanGenerator (isPartitionImage targetPartition)

/-- A call of a method of the device, with its answer. -/
inductive DeviceEvent where
  | deviceInfo (result : Except ErrorCode Unit)
  | getStorageInfo (result : Except ErrorCode UInt32)
  | getPartitions (result : Except ErrorCode (List String))
  | readPartition (name : String) (result : Except ErrorCode ByteBuffer)
  | writePartition (name : String) (data : ByteBuffer) (result : Except ErrorCode Unit)
  | uploadLoader (programmerData : ByteBuffer) (result : Except ErrorCode Unit)

/-- The operations of `IFlashDevice` that the steps call: of a storage info only
its type is read, and of the partitions their names. -/
structure WorkflowDevice (τ : Type) where
  deviceInfo : Program τ ErrorCode Unit
  getStorageInfo : Program τ ErrorCode UInt32
  getPartitions : Program τ ErrorCode (List String)

/-- A session with its device, if it has one. -/
structure LoggedSession (τ : Type) where
  flashDevice : Option τ
  log : List DeviceEvent := []

/-- The loaders of the framework's repository by their names. -/
structure LoaderFramework where
  loaders : List (String × ByteBuffer)
  deriving DecidableEq, Repr

def LoaderFramework.listLoaders (framework : LoaderFramework) : List String :=
  framework.loaders.map Prod.fst

structure WorkflowContext (τ : Type) where
  session : Option (LoggedSession τ) := none
  firmwarePackage : Option FirmwarePackage := none
  loaderFramework : Option LoaderFramework := none
  properties : AList fun _ : String => String := ∅

namespace WorkflowContext

variable {τ : Type}

def isCancelled (c : WorkflowContext τ) : Bool := c.properties.lookup "cancelled" = some "true"

/-- `session && session->flashDevice()`. -/
def hasDevice (c : WorkflowContext τ) : Bool := (c.session.bind LoggedSession.flashDevice).isSome

def log (c : WorkflowContext τ) : List DeviceEvent := (c.session.map LoggedSession.log).getD []

def images (c : WorkflowContext τ) : List FirmwareImage :=
  (c.firmwarePackage.map FirmwarePackage.images).getD []

end WorkflowContext

structure WorkflowExecutor (τ : Type) where
  context : WorkflowContext τ
  executedSteps : Nat := 0
  failedSteps : Nat := 0

namespace WorkflowExecutor

variable {τ : Type}

abbrev Step (τ : Type) (α : Type) : Type := Program (WorkflowExecutor τ) ErrorCode α

def countExecuted : Step τ Unit :=
  Program.modify fun e => { e with executedSteps := e.executedSteps + 1 }

/-- `++m_failedSteps; return error;`. -/
def failStep {α : Type} (error : ErrorCode) : Step τ α := do
  Program.modify fun e => { e with failedSteps := e.failedSteps + 1 }
  Program.fail error

def requireDevice (missing : ErrorCode) : Step τ Unit :=
  Program.failIf (fun e => !e.context.hasDevice) missing

/-- A call of the device, which is there. -/
def ask {α : Type} (call : Program τ ErrorCode α) (event : Except ErrorCode α → DeviceEvent) :
    Step τ α := fun e =>
  match e.context.session with
  | some { flashDevice := some device, log } =>
    let (result, device) := call device
    (result, { e with context.session := some { flashDevice := some device
                                                log := log ++ [event result] } })
  | _ => (.error .deviceDisconnected, e)

variable (dev : WorkflowDevice τ)

def executeDetect : Step τ Unit := do
  requireDevice .deviceNotIdentified
  match ← Program.attempt (ask dev.deviceInfo .deviceInfo) with
  | .error error => failStep error
  | .ok () =>
    match ← Program.attempt (ask dev.getStorageInfo .getStorageInfo) with
    | .error _ => pure ()
    | .ok type =>
      Program.modify fun e =>
        { e with
          context.properties := e.context.properties.insert "storage_type" (toString type.toNat) }
    countExecuted

/-- The device is looked for and then left alone. -/
def executeUploadLoader : Step τ Unit := do
  requireDevice .deviceDisconnected
  match ← Program.gets fun e => e.context.loaderFramework.map LoaderFramework.listLoaders with
  | some [] => failStep .loaderNotFound
  | _ => countExecuted

/-- What verifying and the step for the partition table both do. -/
def listPartitions : Step τ Unit := do
  requireDevice .deviceDisconnected
  match ← Program.attempt (ask dev.getPartitions .getPartitions) with
  | .error error => failStep error
  | .ok _ => countExecuted

def executeVerify : Step τ Unit := listPartitions dev

def executeGPT : Step τ Unit := listPartitions dev

end WorkflowExecutor

/-! ## Truthful steps -/

section Truthful

variable {τ : Type}

/-- A loader of the framework was given to the device, which accepted it. -/
def LoaderUploaded (before after : WorkflowContext τ) : Prop :=
  ∃ framework, before.loaderFramework = some framework ∧
    ∃ loader ∈ framework.loaders, ∃ events, after.log = before.log ++ events ∧
      .uploadLoader loader.2 (.ok ()) ∈ events

/-- The bytes of every flashable image were read back from its partition. -/
def ImagesReadBack (before after : WorkflowContext τ) : Prop :=
  ∀ image ∈ before.images, isPartitionImage image = true →
    ∃ events, after.log = before.log ++ events ∧
      .readPartition (targetPartition image) (.ok image.data) ∈ events

/-- The step succeeds only with its effect. -/
def Truthful (step : WorkflowExecutor.Step τ Unit)
    (effect : WorkflowContext τ → WorkflowContext τ → Prop) (e : WorkflowExecutor τ) : Prop :=
  (step e).1 = .ok () → effect e.context (step e).2.context

end Truthful

namespace WorkflowExecutor

variable {τ : Type} {dev : WorkflowDevice τ} {e : WorkflowExecutor τ}

/-- The framework is there and has no loaders. -/
def LacksLoaders (c : WorkflowContext τ) : Prop :=
  ∃ framework, c.loaderFramework = some framework ∧ framework.loaders = []

/-- The device does not tell its partitions. -/
def RefusesPartitions (dev : WorkflowDevice τ) (c : WorkflowContext τ) : Prop :=
  ∀ session device, c.session = some session → session.flashDevice = some device →
    ∃ error, (dev.getPartitions device).1 = .error error

theorem requireDevice_run (missing : ErrorCode) (e : WorkflowExecutor τ) :
    (requireDevice missing : Step τ Unit) e
      = (if e.context.hasDevice then .ok () else .error missing, e) := by
  rw [requireDevice, Program.run_failIf]
  cases e.context.hasDevice <;> rfl

theorem log_append_self (c : WorkflowContext τ) {events : List DeviceEvent}
    (h : c.log = c.log ++ events) : events = [] := by
  simpa using h

/-- The upload of the loader succeeds with the device left alone. -/
theorem executeUploadLoader_run (hdevice : e.context.hasDevice = true) :
    ((executeUploadLoader e).1 = .ok () ↔ ¬ LacksLoaders e.context) ∧
      (executeUploadLoader e).2.context = e.context := by
  rw [executeUploadLoader, Program.run_bind, requireDevice_run, if_pos hdevice]
  simp only [Program.run_bind, Program.run_gets]
  cases hframework : e.context.loaderFramework with
  | none =>
    refine ⟨iff_of_true rfl ?_, rfl⟩
    rintro ⟨framework, hsome, -⟩
    rw [hframework] at hsome
    cases hsome
  | some framework =>
    rcases hloaders : framework.loaders with _ | ⟨loader, loaders⟩
    · simp only [Option.map_some, LoaderFramework.listLoaders, hloaders, List.map_nil]
      refine ⟨iff_of_false (fun hok => by cases hok) ?_, rfl⟩
      exact not_not_intro ⟨framework, hframework, hloaders⟩
    · simp only [Option.map_some, LoaderFramework.listLoaders, hloaders, List.map_cons]
      refine ⟨iff_of_true rfl ?_, rfl⟩
      rintro ⟨framework', hsome, hempty⟩
      rw [hframework] at hsome
      cases hsome
      rw [hloaders] at hempty
      cases hempty

theorem exists_device (hdevice : e.context.hasDevice = true) :
    ∃ device log, e.context.session = some { flashDevice := some device, log } := by
  rw [WorkflowContext.hasDevice, Option.isSome_iff_exists] at hdevice
  obtain ⟨device, hbind⟩ := hdevice
  obtain ⟨⟨flashDevice, log⟩, hsession, hsome⟩ := Option.bind_eq_some_iff.mp hbind
  cases (show flashDevice = some device from hsome)
  exact ⟨device, log, hsession⟩

/-- Verifying asks for the partitions, and succeeds when the device tells them. -/
theorem executeVerify_run (dev : WorkflowDevice τ) (hdevice : e.context.hasDevice = true) :
    ((executeVerify dev e).1 = .ok () ↔ ¬ RefusesPartitions dev e.context) ∧
      ∃ result, (executeVerify dev e).2.context.log = e.context.log ++ [.getPartitions result] := by
  obtain ⟨device, log, hsession⟩ := exists_device hdevice
  have hlog : e.context.log = log := by
    rw [WorkflowContext.log, hsession]
    rfl
  rw [executeVerify, listPartitions, Program.run_bind, requireDevice_run, if_pos hdevice]
  simp only [Program.run_bind, Program.run_attempt, ask, hsession]
  cases hanswer : (dev.getPartitions device).1 with
  | error error =>
    refine ⟨iff_of_false (fun hok => by cases hok) (not_not_intro ?_), .error error, by
      rw [hlog]; rfl⟩
    intro session device' hsession' hdevice'
    rw [hsession] at hsession'
    cases hsession'
    cases hdevice'
    exact ⟨error, hanswer⟩
  | ok partitions =>
    refine ⟨iff_of_true rfl ?_, .ok partitions, by rw [hlog]; rfl⟩
    intro hrefuses
    obtain ⟨error, herror⟩ := hrefuses _ device hsession rfl
    rw [hanswer] at herror
    cases herror

theorem run_without_device (h : e.context.hasDevice = false) (missing : ErrorCode)
    (step : Step τ Unit) : (requireDevice missing >>= fun _ => step) e = (.error missing, e) := by
  rw [Program.run_bind, requireDevice_run, h]
  rfl

/-- The upload of the loader is truthful when it fails. -/
theorem uploadLoader_truthful_iff (hdevice : e.context.hasDevice = true) :
    Truthful executeUploadLoader LoaderUploaded e ↔ LacksLoaders e.context := by
  have hrun := executeUploadLoader_run hdevice
  rw [Truthful, hrun.1, hrun.2]
  constructor
  · intro h
    by_contra hlacks
    obtain ⟨framework, -, loader, -, events, hlog, hmem⟩ := h hlacks
    rw [log_append_self _ hlog] at hmem
    cases hmem
  · intro hlacks hnot
    exact absurd hlacks hnot

/-- Verifying is truthful when it fails or has nothing to verify. -/
theorem verify_truthful_iff (hdevice : e.context.hasDevice = true) :
    Truthful (executeVerify dev) ImagesReadBack e ↔
      RefusesPartitions dev e.context ∨
        ∀ image ∈ e.context.images, isPartitionImage image = false := by
  obtain ⟨hok, result, hlog⟩ := executeVerify_run dev hdevice
  rw [Truthful, hok]
  constructor
  · intro h
    by_cases hrefuses : RefusesPartitions dev e.context
    · exact .inl hrefuses
    · refine .inr fun image himage => ?_
      by_contra hflashable
      obtain ⟨events, hevents, hmem⟩ := h hrefuses image himage (by simpa using hflashable)
      rw [hlog] at hevents
      -- the one event of the step is no read of a partition
      rw [← List.append_cancel_left hevents, List.mem_singleton] at hmem
      cases hmem
  · rintro (hrefuses | hnone) hnot
    · exact absurd hrefuses hnot
    · intro image himage hflashable
      rw [hnone image himage] at hflashable
      cases hflashable

/-- The two steps are truthful when they fail, or when there is nothing to verify. -/
theorem steps_truthful_iff (dev : WorkflowDevice τ) (e : WorkflowExecutor τ) :
    (Truthful executeUploadLoader LoaderUploaded e ∧
        Truthful (executeVerify dev) ImagesReadBack e) ↔
      (e.context.hasDevice = true →
        LacksLoaders e.context ∧
          (RefusesPartitions dev e.context ∨
            ∀ image ∈ e.context.images, isPartitionImage image = false)) := by
  by_cases hdevice : e.context.hasDevice = true
  · rw [uploadLoader_truthful_iff hdevice, verify_truthful_iff hdevice]
    exact ⟨fun h _ => h, fun h => h hdevice⟩
  · have hnone : e.context.hasDevice = false := by simpa using hdevice
    refine iff_of_true ⟨?_, ?_⟩ fun h => absurd h hdevice
    · intro hok
      rw [executeUploadLoader, run_without_device hnone] at hok
      cases hok
    · intro hok
      rw [executeVerify, listPartitions, run_without_device hnone] at hok
      cases hok

/-! ## Counting -/

/-- A step that succeeds is counted as executed; one that fails is counted as failed,
unless there was no device to begin with. -/
structure Counted (step : Step τ Unit) (e : WorkflowExecutor τ) : Prop where
  executed : (step e).2.executedSteps = e.executedSteps + if (step e).1 = .ok () then 1 else 0
  failed : (step e).2.failedSteps
    = e.failedSteps + if (step e).1 ≠ .ok () ∧ e.context.hasDevice = true then 1 else 0

/-- The counters are as they were until the step counts itself. -/
def EndsCounted (body : Step τ Unit) (e : WorkflowExecutor τ) : Prop :=
  ∃ e₁, e₁.executedSteps = e.executedSteps ∧ e₁.failedSteps = e.failedSteps ∧
    (body e = countExecuted e₁ ∨ ∃ error, body e = failStep error e₁)

theorem ask_counters {α : Type} (call : Program τ ErrorCode α)
    (event : Except ErrorCode α → DeviceEvent) (e : WorkflowExecutor τ) :
    (ask call event e).2.executedSteps = e.executedSteps ∧
      (ask call event e).2.failedSteps = e.failedSteps := by
  rw [ask]
  split <;> exact ⟨rfl, rfl⟩

theorem EndsCounted.counted {body : Step τ Unit} (h : EndsCounted body e) (missing : ErrorCode) :
    Counted (requireDevice missing >>= fun _ => body) e := by
  cases hdevice : e.context.hasDevice with
  | false =>
    have hrun := run_without_device hdevice missing body
    constructor
    · rw [hrun, if_neg (by rintro ⟨⟩)]
      rfl
    · rw [hrun, if_neg (by simp [hdevice])]
      rfl
  | true =>
    have hrun : (requireDevice missing >>= fun _ => body) e = body e := by
      rw [Program.run_bind, requireDevice_run, if_pos hdevice]
    obtain ⟨e₁, hexecuted, hfailed, hbody | ⟨error, hbody⟩⟩ := h
    · constructor
      · rw [hrun, hbody, if_pos (by rfl), ← hexecuted]
        rfl
      · rw [hrun, hbody, if_neg (fun hne => hne.1 rfl), ← hfailed]
        rfl
    · constructor
      · rw [hrun, hbody, if_neg (by rintro ⟨⟩), ← hexecuted]
        rfl
      · rw [hrun, hbody, if_pos ⟨by rintro ⟨⟩, hdevice⟩, ← hfailed]
        rfl

theorem detect_counted (dev : WorkflowDevice τ) (e : WorkflowExecutor τ) :
    Counted (executeDetect dev) e := by
  apply EndsCounted.counted
  have hinfo := ask_counters dev.deviceInfo .deviceInfo e
  rw [EndsCounted]
  simp only [Program.run_bind, Program.run_attempt]
  generalize ask dev.deviceInfo .deviceInfo e = asked at hinfo ⊢
  obtain ⟨error | ⟨⟩, e₁⟩ := asked
  · exact ⟨e₁, hinfo.1, hinfo.2, .inr ⟨error, rfl⟩⟩
  have hstorage := ask_counters dev.getStorageInfo .getStorageInfo e₁
  simp only [Program.run_bind, Program.run_attempt]
  generalize ask dev.getStorageInfo .getStorageInfo e₁ = asked at hstorage ⊢
  obtain ⟨error | type, e₂⟩ := asked
  · exact ⟨e₂, hstorage.1.trans hinfo.1, hstorage.2.trans hinfo.2, .inl rfl⟩
  · exact ⟨{ e₂ with
      context.properties := e₂.context.properties.insert "storage_type" (toString type.toNat) },
      hstorage.1.trans hinfo.1, hstorage.2.trans hinfo.2, .inl rfl⟩

theorem uploadLoader_counted (e : WorkflowExecutor τ) : Counted executeUploadLoader e := by
  apply EndsCounted.counted
  rw [EndsCounted]
  simp only [Program.run_bind, Program.run_gets]
  rcases e.context.loaderFramework.map LoaderFramework.listLoaders with _ | _ | ⟨loader, loaders⟩
  · exact ⟨e, rfl, rfl, .inl rfl⟩
  · exact ⟨e, rfl, rfl, .inr ⟨_, rfl⟩⟩
  · exact ⟨e, rfl, rfl, .inl rfl⟩

theorem listPartitions_counted (dev : WorkflowDevice τ) (e : WorkflowExecutor τ) :
    Counted (listPartitions dev) e := by
  apply EndsCounted.counted
  have hasked := ask_counters dev.getPartitions .getPartitions e
  rw [EndsCounted]
  simp only [Program.run_bind, Program.run_attempt]
  generalize ask dev.getPartitions .getPartitions e = asked at hasked ⊢
  obtain ⟨error | partitions, e₁⟩ := asked
  · exact ⟨e₁, hasked.1, hasked.2, .inr ⟨error, rfl⟩⟩
  · exact ⟨e₁, hasked.1, hasked.2, .inl rfl⟩

/-- Each of the steps counts itself. -/
theorem steps_counted (dev : WorkflowDevice τ) (e : WorkflowExecutor τ) :
    Counted (executeDetect dev) e ∧ Counted executeUploadLoader e ∧
      Counted (executeVerify dev) e ∧ Counted (executeGPT dev) e :=
  ⟨detect_counted dev e, uploadLoader_counted e, listPartitions_counted dev e,
    listPartitions_counted dev e⟩

/-- A device that answers everything with success. -/
def agreeing : WorkflowDevice Unit where
  deviceInfo := pure ()
  getStorageInfo := pure 0
  getPartitions := pure ["boot"]

/-- A package with one image is verified without a look at the partition, after
the upload of a loader that the device never saw. -/
theorem steps_untruthful :
    ¬ ∀ (dev : WorkflowDevice Unit) (e : WorkflowExecutor Unit),
        Truthful executeUploadLoader LoaderUploaded e ∧
          Truthful (executeVerify dev) ImagesReadBack e := by
  intro h
  let e : WorkflowExecutor Unit :=
    { context :=
        { session := some { flashDevice := some () }
          loaderFramework := some { loaders := [("prog", [1])] }
          firmwarePackage := some
            { images := [{ info := { name := "boot" }, dataLoaded := true, data := [1] }] } } }
  obtain ⟨events, hlog, hmem⟩ :=
    (h agreeing e).2 rfl _ (List.mem_singleton.mpr rfl) (by decide)
  have hevents : [DeviceEvent.getPartitions (.ok ["boot"])] = events := hlog
  rw [← hevents, List.mem_singleton] at hmem
  cases hmem

end WorkflowExecutor

end MBootCore.Workflow
