import MBootCore.Firmware.FirmwareValidator
import MBootCore.Workflow.Engine
import MBootCore.Workflow.Executor

/-!
# Workflow — StockWorkflows

`WorkflowBuilder`, the workflows that `WorkflowFactory` builds with it, and the
services that prepare and run them. The builder makes a `NamedStep` of every entry
that is no custom step, and a `NamedStep` returns success and does nothing: a stock
workflow completes, and the device is as it was.
-/

namespace MBootCore.Workflow

open Firmware (FirmwarePackage FirmwareValidator ValidationLevel)
open Firmware.FlashPlanGenerator (isPartitionImage targetPartition)

/-- An `IWorkflowStep`. -/
structure WorkflowStep (σ : Type) where
  name : String
  type : WorkflowStepType
  prepare : σ → Answer σ
  execute : σ → Answer σ
  rollback : σ → Answer σ

/-- `return {};`. -/
def nothing {σ : Type} (s : σ) : Answer σ := ⟨.ok (), [], s⟩

def namedStep {σ : Type} (name : String) (type : WorkflowStepType) : WorkflowStep σ :=
  { name, type, prepare := nothing, execute := nothing, rollback := nothing }

structure WorkflowBuilder.StepEntry (σ : Type) where
  type : WorkflowStepType
  customStep : Option (WorkflowStep σ) := none
  loaderPath : String := ""
  partition : String := ""

structure WorkflowBuilder (τ : Type) where
  steps : List (WorkflowBuilder.StepEntry (WorkflowContext τ)) := []
  options : WorkflowOptions := {}
  context : WorkflowContext τ := {}

/-- An engine with its steps. -/
structure BuiltWorkflow (τ : Type) where
  steps : List (WorkflowStep (WorkflowContext τ))
  engine : WorkflowEngine (WorkflowContext τ)

namespace WorkflowBuilder

variable {τ : Type} (b : WorkflowBuilder τ)

def push (entry : StepEntry (WorkflowContext τ)) : WorkflowBuilder τ :=
  { b with steps := b.steps ++ [entry] }

def connect : WorkflowBuilder τ := b.push { type := .connect }

def detect : WorkflowBuilder τ := b.push { type := .detect }

def negotiate : WorkflowBuilder τ := b.push { type := .negotiate }

def uploadLoader (loaderPath : String) : WorkflowBuilder τ :=
  b.push { type := .uploadLoader, loaderPath }

def flash : WorkflowBuilder τ := b.push { type := .flash }

def verify : WorkflowBuilder τ := b.push { type := .verify }

def gpt : WorkflowBuilder τ := b.push { type := .gpt }

def backup (partition : String) : WorkflowBuilder τ := b.push { type := .backup, partition }

def restore (partition : String) : WorkflowBuilder τ := b.push { type := .restore, partition }

def reboot : WorkflowBuilder τ := b.push { type := .reboot }

def disconnect : WorkflowBuilder τ := b.push { type := .disconnect }

def custom (step : WorkflowStep (WorkflowContext τ)) : WorkflowBuilder τ :=
  b.push { type := .custom, customStep := some step }

def setContext (context : WorkflowContext τ) : WorkflowBuilder τ := { b with context }

def stepName : WorkflowStepType → String
  | .connect => "connect"
  | .detect => "detect"
  | .negotiate => "negotiate"
  | .uploadLoader => "uploadLoader"
  | .flash => "flash"
  | .verify => "verify"
  | .gpt => "gpt"
  | .backup => "backup"
  | .restore => "restore"
  | .reboot => "reboot"
  | .disconnect => "disconnect"
  | .custom => "step"

def StepEntry.step {σ : Type} (entry : StepEntry σ) : WorkflowStep σ :=
  match entry.type, entry.customStep with
  | .custom, some step => step
  | type, _ => namedStep (stepName type) type

/-- A context without a session and without properties is not handed over. -/
def build : BuiltWorkflow τ where
  steps := b.steps.map StepEntry.step
  engine := WorkflowEngine.create
    (if !b.context.properties.keys.isEmpty || b.context.session.isSome then b.context else {})
    b.steps.length b.options

end WorkflowBuilder

namespace WorkflowFactory

variable {τ : Type} (session : Option (LoggedSession τ))

def createFlashWorkflow (package : Option FirmwarePackage) : BuiltWorkflow τ :=
  let builder : WorkflowBuilder τ := {}
  let builder := builder.connect.detect.negotiate.uploadLoader ""
  let builder := builder.flash.verify.reboot
  (builder.setContext { session, firmwarePackage := package }).build

def createBackupWorkflow (partition : String) : BuiltWorkflow τ :=
  let builder : WorkflowBuilder τ := {}
  ((builder.connect.detect.backup partition).setContext { session }).build

def createRestoreWorkflow (partition : String) : BuiltWorkflow τ :=
  let builder : WorkflowBuilder τ := {}
  ((builder.connect.detect.restore partition).setContext { session }).build

def createVerificationWorkflow : BuiltWorkflow τ :=
  let builder : WorkflowBuilder τ := {}
  (builder.connect.detect.verify.setContext { session }).build

def createRecoveryWorkflow : BuiltWorkflow τ :=
  let builder : WorkflowBuilder τ := {}
  ((builder.connect.detect.negotiate.uploadLoader "").setContext { session }).build

end WorkflowFactory

namespace BuiltWorkflow

variable {τ : Type} (w : BuiltWorkflow τ)

def perform (method : WorkflowStep (WorkflowContext τ) → WorkflowContext τ →
    Answer (WorkflowContext τ)) (index : Nat) (c : WorkflowContext τ) :
    Answer (WorkflowContext τ) :=
  match w.steps[index]? with
  | some step => method step c
  | none => ⟨.error .invalidArgument, [], c⟩

/-- The steps around the engine, which nobody else interrupts. -/
def surroundings : Surroundings (WorkflowContext τ) where
  prepare := w.perform WorkflowStep.prepare
  execute := w.perform WorkflowStep.execute
  rollback := w.perform WorkflowStep.rollback
  recovery index error c :=
    (((w.steps[index]?).map fun step => defaultDecide step.type error 0).getD .abort, c)
  between c := ([], c)
  wake c := (.resumed, c)
  contextCancelled := WorkflowContext.isCancelled

/-- `WorkflowService::executeWorkflow`. -/
def executeWorkflow : Except ErrorCode Unit × WorkflowEngine (WorkflowContext τ) :=
  match w.engine.prepare w.surroundings with
  | (.error error, e) => (.error error, e)
  | (.ok (), e) => e.run w.surroundings

end BuiltWorkflow

/-- `FirmwareService::flash` with an active session. -/
def FirmwareService.flash {τ : Type} (session : LoggedSession τ) (package : FirmwarePackage) :
    Except ErrorCode Unit × WorkflowEngine (WorkflowContext τ) :=
  (WorkflowFactory.createFlashWorkflow (some session) (some package)).executeWorkflow

/-! ## Steps that do nothing -/

namespace WorkflowEngine

variable {σ : Type} {w : Surroundings σ} {e : WorkflowEngine σ}

/-- The steps up to `size` succeed and do nothing, and nobody interrupts them. -/
structure Uneventful (w : Surroundings σ) (world : σ) (size : Nat) : Prop where
  prepare : ∀ index < size, w.prepare index world = nothing world
  execute : ∀ index < size, w.execute index world = nothing world
  between : w.between world = ([], world)
  contextCancelled : w.contextCancelled world = false

/-- Nothing has gone wrong and nothing was asked of the engine. -/
structure Undisturbed (e : WorkflowEngine σ) (world : σ) : Prop where
  world : e.world = world
  cancelled : e.cancelled = false
  paused : e.paused = false
  warnings : e.stats.warnings = 0

section Uneventful

variable {world : σ} {size : Nat}

theorem Uneventful.ask {method : Nat → σ → Answer σ} {index : Nat}
    (h : method index world = nothing world) (he : e.world = world) :
    WorkflowEngine.ask method index e = (.ok (), e) := by
  rw [WorkflowEngine.ask, he, h]
  show (Except.ok (), { e with world := world }) = (Except.ok (), e)
  rw [← he]

theorem Uneventful.listen (h : Uneventful w world size) (he : e.world = world) :
    e.listen w = e := by
  rw [WorkflowEngine.listen, he, h.between]
  show { e with world := world } = e
  rw [← he]

theorem Uneventful.checkCancelled (h : Uneventful w world size) (he : e.Undisturbed world) :
    e.checkCancelled w = false := by
  rw [WorkflowEngine.checkCancelled, he.cancelled, he.world, h.contextCancelled]
  rfl

theorem Uneventful.waitWhilePaused (he : e.Undisturbed world) : e.waitWhilePaused w = e := by
  rw [WorkflowEngine.waitWhilePaused, he.paused]
  rfl

theorem Uneventful.executeStep (h : Uneventful w world size) (he : e.Undisturbed world)
    {index : Nat} (hindex : index < size) :
    WorkflowEngine.executeStep w index e
      = (.ok (), (e.complete index).record (.executed index)) := by
  obtain ⟨left, hleft⟩ : ∃ left,
      (if e.options.retryCount > 0 then e.options.retryCount.toNat else 1) = left + 1 := by
    split
    · exact ⟨e.options.retryCount.toNat - 1, by omega⟩
    · exact ⟨0, rfl⟩
  rw [WorkflowEngine.executeStep, hleft, attempts]
  simp only [h.listen he.world, h.checkCancelled he, Bool.false_eq_true, if_false,
    Uneventful.ask (h.execute index hindex) he.world]

theorem Uneventful.finish (he : e.Undisturbed world) :
    e.finish.1 = .ok () ∧ e.finish.2.world = world := by
  rw [WorkflowEngine.finish, if_neg (by simp [he.warnings])]
  exact ⟨rfl, he.world⟩

theorem Uneventful.runSteps (h : Uneventful w world size) {steps : List Nat}
    (hsteps : ∀ index ∈ steps, index < size) (he : e.Undisturbed world) :
    (WorkflowEngine.runSteps w steps e).1 = .ok () ∧
      (WorkflowEngine.runSteps w steps e).2.world = world := by
  induction steps generalizing e with
  | nil => exact Uneventful.finish he
  | cons index rest ih =>
    have hcurrent : { e with currentStepIndex := index }.Undisturbed world :=
      ⟨he.world, he.cancelled, he.paused, he.warnings⟩
    have hstep := h.executeStep hcurrent (hsteps index List.mem_cons_self)
    rw [WorkflowEngine.runSteps]
    simp only [h.listen he.world, h.checkCancelled he, Uneventful.waitWhilePaused he,
      Bool.false_eq_true, if_false, hstep]
    apply ih
    · intro i hi
      exact hsteps i (List.mem_cons_of_mem _ hi)
    · exact ⟨he.world, he.cancelled, he.paused, he.warnings⟩

theorem Uneventful.prepareSteps (h : Uneventful w world size) {steps : List Nat}
    (hsteps : ∀ index ∈ steps, index < size) (he : e.world = world) :
    WorkflowEngine.prepareSteps w steps e = (.ok (), e) := by
  induction steps with
  | nil => rfl
  | cons index rest ih =>
    have hfirst := h.prepare index (hsteps index List.mem_cons_self)
    rw [WorkflowEngine.prepareSteps, Uneventful.ask hfirst he]
    exact ih fun i hi => hsteps i (List.mem_cons_of_mem _ hi)

theorem Uneventful.runPrepared (h : Uneventful w world size) (hready : e.state = .ready)
    (hsize : e.steps.length = size) (he : e.world = world) (hwarnings : e.stats.warnings = 0) :
    (WorkflowEngine.runPrepared w e).1 = .ok () ∧
      (WorkflowEngine.runPrepared w e).2.world = world := by
  rw [WorkflowEngine.runPrepared, if_neg (by simp [hready])]
  split
  · exact ⟨rfl, he⟩
  · refine h.runSteps ?_ ⟨he, rfl, rfl, hwarnings⟩
    intro index hindex
    have hmem := List.mem_range'_1.mp hindex
    show index < size
    omega

end Uneventful

end WorkflowEngine

namespace WorkflowBuilder

variable {τ : Type} {b : WorkflowBuilder τ}

theorem StepEntry.step_named {σ : Type} {entry : StepEntry σ} (h : entry.customStep = none) :
    entry.step = namedStep (stepName entry.type) entry.type := by
  rw [StepEntry.step]
  split
  · rename_i hsome
    rw [h] at hsome
    cases hsome
  · rfl

/-- Whatever is built without custom steps does nothing. -/
theorem uneventful_build (hnamed : ∀ entry ∈ b.steps, entry.customStep = none)
    (hcancelled : b.context.isCancelled = false) :
    WorkflowEngine.Uneventful b.build.surroundings b.build.engine.world b.steps.length := by
  have hperform : ∀ (method : WorkflowStep (WorkflowContext τ) → WorkflowContext τ →
      Answer (WorkflowContext τ)), (∀ name type c, method (namedStep name type) c = nothing c) →
      ∀ index < b.steps.length, ∀ c, b.build.perform method index c = nothing c := by
    intro method hmethod index hindex c
    have hentry := hnamed b.steps[index] (List.getElem_mem hindex)
    rw [BuiltWorkflow.perform, build, List.getElem?_map, List.getElem?_eq_getElem hindex]
    simp only [Option.map_some, StepEntry.step_named hentry]
    exact hmethod ..
  refine ⟨fun index hindex => ?_, fun index hindex => ?_, rfl, ?_⟩
  · exact hperform WorkflowStep.prepare (fun _ _ _ => rfl) index hindex _
  · exact hperform WorkflowStep.execute (fun _ _ _ => rfl) index hindex _
  · show WorkflowContext.isCancelled (ite _ b.context {}) = false
    split
    · exact hcancelled
    · rfl

/-- A workflow of named steps completes, and leaves its context as it was. -/
theorem executeWorkflow_named (hnamed : ∀ entry ∈ b.steps, entry.customStep = none)
    (hcancelled : b.context.isCancelled = false) :
    b.build.executeWorkflow.1 = .ok () ∧
      b.build.executeWorkflow.2.world = b.build.engine.world := by
  have huneventful := uneventful_build hnamed hcancelled
  have hsize : b.build.engine.steps.length = b.steps.length := List.length_replicate
  have hprepare : b.build.engine.prepare b.build.surroundings
      = (.ok (), { b.build.engine with state := .ready }) := by
    rw [WorkflowEngine.prepare, if_neg (by simp [build, WorkflowEngine.create])]
    apply huneventful.prepareSteps
    · intro index hindex
      exact hsize ▸ List.mem_range.mp hindex
    · rfl
  rw [BuiltWorkflow.executeWorkflow, hprepare]
  simp only
  rw [WorkflowEngine.run, if_neg (by simp)]
  exact huneventful.runPrepared rfl hsize rfl rfl

end WorkflowBuilder

namespace WorkflowBuilder

/-- The calls that add a step. -/
inductive BuilderCall (τ : Type) where
  | connect | detect | negotiate | flash | verify | gpt | reboot | disconnect
  | uploadLoader (loaderPath : String)
  | backup (partition : String)
  | restore (partition : String)
  | custom (step : WorkflowStep (WorkflowContext τ))

namespace BuilderCall

variable {τ : Type}

def run (b : WorkflowBuilder τ) : BuilderCall τ → WorkflowBuilder τ
  | connect => b.connect
  | detect => b.detect
  | negotiate => b.negotiate
  | flash => b.flash
  | verify => b.verify
  | gpt => b.gpt
  | reboot => b.reboot
  | disconnect => b.disconnect
  | uploadLoader loaderPath => b.uploadLoader loaderPath
  | backup partition => b.backup partition
  | restore partition => b.restore partition
  | custom step => b.custom step

def IsNamed (call : BuilderCall τ) : Prop := ∀ step, call ≠ custom step

/-- Each adds one step. -/
theorem run_eq (b : WorkflowBuilder τ) (call : BuilderCall τ) :
    ∃ entry, call.run b = b.push entry ∧ (call.IsNamed → entry.customStep = none) := by
  cases call with
  | custom step => exact ⟨_, rfl, fun hnamed => absurd rfl (hnamed step)⟩
  | _ => exact ⟨_, rfl, fun _ => rfl⟩

theorem foldl_run_named {b : WorkflowBuilder τ} {calls : List (BuilderCall τ)}
    (h : ∀ call ∈ calls, call.IsNamed) (hb : ∀ entry ∈ b.steps, entry.customStep = none) :
    ∀ entry ∈ (calls.foldl run b).steps, entry.customStep = none := by
  induction calls generalizing b with
  | nil => exact hb
  | cons call calls ih =>
    obtain ⟨hcall, hcalls⟩ := List.forall_mem_cons.mp h
    obtain ⟨entry, hpush, hentry⟩ := run_eq b call
    rw [List.foldl_cons, hpush]
    refine ih hcalls fun other hother => ?_
    rcases List.mem_append.mp hother with hold | hnew
    · exact hb other hold
    · rw [List.mem_singleton.mp hnew]
      exact hentry hcall

end BuilderCall

/-- Whatever is built without custom steps for a session succeeds, and leaves the session
as it was. -/
theorem executeWorkflow_calls {τ : Type} (session : LoggedSession τ)
    (package : Option FirmwarePackage) {calls : List (BuilderCall τ)}
    (h : ∀ call ∈ calls, call.IsNamed) :
    let w := ((calls.foldl BuilderCall.run {}).setContext
      { session := some session, firmwarePackage := package }).build
    w.executeWorkflow.1 = .ok () ∧ w.executeWorkflow.2.world.session = some session := by
  have hnamed := BuilderCall.foldl_run_named (b := {}) h (by simp)
  obtain ⟨hok, hworld⟩ := executeWorkflow_named
    (b := (calls.foldl BuilderCall.run {}).setContext
      { session := some session, firmwarePackage := package }) hnamed rfl
  refine ⟨hok, ?_⟩
  rw [hworld]
  rfl

end WorkflowBuilder

namespace WorkflowFactory

open WorkflowBuilder

variable {τ : Type}

/-- The workflows of the factory. -/
inductive Stock (session : Option (LoggedSession τ)) : BuiltWorkflow τ → Prop
  | flash (package : Option FirmwarePackage) : Stock session (createFlashWorkflow session package)
  | backup (partition : String) : Stock session (createBackupWorkflow session partition)
  | restore (partition : String) : Stock session (createRestoreWorkflow session partition)
  | verification : Stock session (createVerificationWorkflow session)
  | recovery : Stock session (createRecoveryWorkflow session)

theorem Stock.built {session : Option (LoggedSession τ)} {w : BuiltWorkflow τ}
    (h : Stock session w) : ∃ (calls : List (BuilderCall τ)) (package : Option FirmwarePackage),
      (∀ call ∈ calls, call.IsNamed) ∧ w = ((calls.foldl BuilderCall.run {}).setContext
        { session, firmwarePackage := package }).build := by
  cases h with
  | flash package =>
    exact ⟨[.connect, .detect, .negotiate, .uploadLoader "", .flash, .verify, .reboot], package,
      by simp [BuilderCall.IsNamed], rfl⟩
  | backup partition =>
    exact ⟨[.connect, .detect, .backup partition], none, by simp [BuilderCall.IsNamed], rfl⟩
  | restore partition =>
    exact ⟨[.connect, .detect, .restore partition], none, by simp [BuilderCall.IsNamed], rfl⟩
  | verification =>
    exact ⟨[.connect, .detect, .verify], none, by simp [BuilderCall.IsNamed], rfl⟩
  | recovery =>
    exact ⟨[.connect, .detect, .negotiate, .uploadLoader ""], none,
      by simp [BuilderCall.IsNamed], rfl⟩

/-- A stock workflow succeeds, and leaves the session as it was. -/
theorem stock_run (session : LoggedSession τ) {w : BuiltWorkflow τ}
    (h : Stock (some session) w) :
    w.executeWorkflow.1 = .ok () ∧ w.executeWorkflow.2.world.session = some session := by
  obtain ⟨calls, package, hnamed, rfl⟩ := h.built
  exact executeWorkflow_calls session package hnamed

end WorkflowFactory

/-! ## Flashing -/

/-- The workflow succeeds, and with it every flashable image of the package was
written to its partition. -/
def FlashesPackage {τ : Type} (session : LoggedSession τ) (package : FirmwarePackage) : Prop :=
  (FirmwareService.flash session package).1 = .ok () ∧
    ∀ image ∈ package.images, isPartitionImage image = true →
      ∃ events, (FirmwareService.flash session package).2.world.log = session.log ++ events ∧
        .writePartition (targetPartition image) image.data (.ok ()) ∈ events

/-- The stock workflow succeeds, and the device was asked nothing. -/
theorem flash_run {τ : Type} (session : LoggedSession τ) (package : FirmwarePackage) :
    (FirmwareService.flash session package).1 = .ok () ∧
      (FirmwareService.flash session package).2.world.log = session.log := by
  obtain ⟨hok, hsession⟩ := WorkflowFactory.stock_run session (.flash (some package))
  refine ⟨hok, ?_⟩
  rw [FirmwareService.flash, WorkflowContext.log, hsession]
  rfl

/-- The stock workflow flashes only what has nothing to flash. -/
theorem flashesPackage_iff {τ : Type} (session : LoggedSession τ) (package : FirmwarePackage) :
    FlashesPackage session package ↔
      ∀ image ∈ package.images, isPartitionImage image = false := by
  obtain ⟨hok, hlog⟩ := flash_run session package
  rw [FlashesPackage, hlog]
  constructor
  · rintro ⟨-, hwritten⟩ image himage
    by_contra hflashable
    obtain ⟨events, hevents, hmem⟩ := hwritten image himage (by simpa using hflashable)
    rw [List.self_eq_append_right.mp hevents] at hmem
    cases hmem
  · intro hnone
    refine ⟨hok, fun image himage hflashable => ?_⟩
    rw [hnone image himage] at hflashable
    cases hflashable

/-- A valid package with one image is reported as flashed and was not written. -/
theorem validPackage_not_flashed :
    ¬ ∀ (session : LoggedSession Unit) (package : FirmwarePackage) (level : ValidationLevel),
        (({} : FirmwareValidator).validate package level).valid = true →
          FlashesPackage session package := by
  intro h
  let package : FirmwarePackage :=
    { metadata := { vendor := "QUALCOMM", platform := "SM8450" }
      images := [{ info := { name := "boot", type := .boot, partitionName := "boot" }
                   dataLoaded := true, data := [1] }] }
  obtain ⟨-, hwritten⟩ := h { flashDevice := some () } package .strict (by decide)
  obtain ⟨events, hevents, hmem⟩ := hwritten _ (List.mem_singleton.mpr rfl) (by decide)
  rw [(flash_run _ package).2] at hevents
  rw [List.self_eq_append_right.mp hevents] at hmem
  cases hmem

end MBootCore.Workflow
