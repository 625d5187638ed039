import MBootCore.Firmware.PlanOrder
import MBootCore.Job.VerifiedRun

/-!
# Firmware — FirmwareExecutor

`FirmwareExecutor` of `firmware/FirmwareExecutor.cpp`: the jobs a plan is turned into, and the
jobs of a package. Progress and log messages are left out.

What such a pipeline leaves on the device: the verifications come last and change nothing, so a
run that succeeds with all of its jobs done ends with every image in its partition.
-/

namespace MBootCore.Firmware

open Job (GenericJob JobContext JobPipeline JobWorld)

/-- A job, under the name it is queued with. -/
structure QueuedJob where
  name : String
  job : GenericJob
  deriving DecidableEq, Repr

/-- What the executor asks of the context: `isCancelled` is asked again and again. -/
structure ExecutorContext where
  hasFlashDevice : Bool := true
  isCancelled : Nat → Bool := fun _ => false

structure FirmwareExecutor where
  createdJobs : Nat := 0
  failedSteps : Nat := 0
  deriving DecidableEq, Repr

namespace FirmwareExecutor

/-- What a plan comes to: the result, the counters and the pipeline. -/
structure Outcome where
  result : Except ErrorCode Unit
  executor : FirmwareExecutor
  pipeline : List QueuedJob
  deriving DecidableEq, Repr

def createJobForStep (ctx : ExecutorContext) (step : FlashStep) (pipeline : List QueuedJob) :
    Except ErrorCode Unit × List QueuedJob :=
  match step.type with
  | .flashProgrammer => (.ok (), pipeline)  -- no job yet
  | .updateGPT =>
    if ctx.hasFlashDevice then
      (.ok (), pipeline ++ [⟨"fw_gpt_update", { kind := .gptUpdate }⟩])
    else (.error .firmwareInvalidFormat, pipeline)
  | .flashPartition =>
    if ctx.hasFlashDevice ∧ step.data ≠ [] then
      (.ok (), pipeline ++
        [⟨"fw_flash_" ++ step.partitionName, Job.flashJob step.partitionName step.data⟩])
    else (.error .firmwareInvalidFormat, pipeline)
  | .verifyPartition =>
    if ctx.hasFlashDevice ∧ step.data ≠ [] then
      (.ok (), pipeline ++
        [⟨"fw_verify_" ++ step.partitionName, Job.verifyJob step.partitionName step.data⟩])
    else (.ok (), pipeline)
  | .erasePartition =>
    if ctx.hasFlashDevice then
      (.ok (), pipeline ++ [⟨"fw_erase_" ++ step.partitionName,
        { kind := .erase, partitionName := step.partitionName }⟩])
    else (.error .firmwareInvalidFormat, pipeline)
  | .reboot | .custom => (.ok (), pipeline)

/-- The loop over the steps; `asked` counts the questions whether the run is cancelled. -/
def executeSteps (ctx : ExecutorContext) :
    Nat → List FlashStep → FirmwareExecutor → List QueuedJob → Outcome
  | _, [], e, pipeline => ⟨.ok (), e, pipeline⟩
  | asked, step :: rest, e, pipeline =>
    if ctx.isCancelled asked then ⟨.error .cancelled, e, pipeline⟩
    else
      match createJobForStep ctx step pipeline with
      | (.ok (), pipeline) =>
        executeSteps ctx (asked + 1) rest { e with createdJobs := e.createdJobs + 1 } pipeline
      | (.error error, pipeline) =>
        if step.optional then
          executeSteps ctx (asked + 1) rest
            { createdJobs := e.createdJobs + 1, failedSteps := e.failedSteps + 1 } pipeline
        else ⟨.error error, { e with failedSteps := e.failedSteps + 1 }, pipeline⟩

def executePlan (ctx : ExecutorContext) (plan : FlashPlan) (pipeline : List QueuedJob) : Outcome :=
  if ctx.isCancelled 0 then ⟨.error .cancelled, {}, pipeline⟩
  else executeSteps ctx 1 plan.steps {} pipeline

def executePackage (ctx : ExecutorContext) (pkg : FirmwarePackage) (pipeline : List QueuedJob) :
    Outcome :=
  executePlan ctx (FlashPlanGenerator.generatePlan pkg) pipeline

/-! ## Plans -/

/-- What comes of a step. -/
def resultOf (ctx : ExecutorContext) (step : FlashStep) : Except ErrorCode Unit :=
  (createJobForStep ctx step []).1

/-- The job of a step, if it has one. -/
def jobsOf (ctx : ExecutorContext) (step : FlashStep) : List QueuedJob :=
  (createJobForStep ctx step []).2

variable {ctx : ExecutorContext} {plan : FlashPlan} {pkg : FirmwarePackage}

theorem createJobForStep_eq (step : FlashStep) (pipeline : List QueuedJob) :
    createJobForStep ctx step pipeline = (resultOf ctx step, pipeline ++ jobsOf ctx step) := by
  simp only [resultOf, jobsOf, createJobForStep]
  cases step.type <;> simp only [List.append_nil, List.nil_append] <;> split <;>
    simp only [List.append_nil]

/-- A step that cannot be made queues nothing. -/
theorem jobsOf_of_error {step : FlashStep} {error : ErrorCode}
    (h : resultOf ctx step = .error error) : jobsOf ctx step = [] := by
  revert h
  simp only [resultOf, jobsOf, createJobForStep]
  cases step.type <;> simp only <;> (try split) <;> simp

/-- Nobody cancels before the step, and it is made or not needed. -/
structure Passes (ctx : ExecutorContext) (asked : Nat) (step : FlashStep) : Prop where
  notCancelled : ctx.isCancelled asked = false
  made : resultOf ctx step = .ok () ∨ step.optional = true

/-- How many of the steps cannot be made. -/
def failures (ctx : ExecutorContext) (steps : List FlashStep) : Nat :=
  steps.countP fun step => !(resultOf ctx step).isOk

/-- How the loop ends after the first steps are done, and how many failed. -/
inductive Ended (ctx : ExecutorContext) (asked : Nat) (steps : List FlashStep) (done : Nat) :
    Except ErrorCode Unit → Nat → Prop
  | all (hdone : done = steps.length) : Ended ctx asked steps done (.ok ()) (failures ctx steps)
  | cancelled {step : FlashStep} (hstep : steps[done]? = some step)
      (hasked : ctx.isCancelled (asked + done) = true) :
      Ended ctx asked steps done (.error .cancelled) (failures ctx (steps.take done))
  | failed {step : FlashStep} {error : ErrorCode} (hstep : steps[done]? = some step)
      (hasked : ctx.isCancelled (asked + done) = false)
      (hfailed : resultOf ctx step = .error error) (hneeded : step.optional = false) :
      Ended ctx asked steps done (.error error) (failures ctx (steps.take done) + 1)

/-- The steps before the one that ends the loop are done in order, each once. -/
structure Makes (ctx : ExecutorContext) (asked : Nat) (steps : List FlashStep)
    (pipeline : List QueuedJob) (done failed : Nat) (o : Outcome) : Prop where
  within : done ≤ steps.length
  pipeline : o.pipeline = pipeline ++ (steps.take done).flatMap (jobsOf ctx)
  passes : ∀ i step, i < done → steps[i]? = some step → Passes ctx (asked + i) step
  ended : Ended ctx asked steps done o.result failed

/-- A step more, before the others. -/
theorem Ended.cons {step : FlashStep} {steps : List FlashStep} {asked done failed : Nat}
    {result : Except ErrorCode Unit} (h : Ended ctx (asked + 1) steps done result failed) :
    Ended ctx asked (step :: steps) (done + 1) result
      (failed + if (resultOf ctx step).isOk then 0 else 1) := by
  have hplace : asked + 1 + done = asked + (done + 1) := by omega
  have hcount (rest : List FlashStep) : failures ctx (step :: rest)
      = failures ctx rest + if (resultOf ctx step).isOk then 0 else 1 := by
    cases hok : (resultOf ctx step).isOk <;> simp [failures, hok]
  cases h with
  | all hdone =>
    rw [← hcount]
    exact .all (by rw [hdone, List.length_cons])
  | cancelled hstep hasked =>
    rw [← hcount]
    exact .cancelled hstep (hplace ▸ hasked)
  | failed hstep hasked hfailed hneeded =>
    rw [Nat.add_right_comm, ← hcount]
    exact .failed hstep (hplace ▸ hasked) hfailed hneeded

theorem Makes.cons {step : FlashStep} {steps : List FlashStep} {asked done failed : Nat}
    {pipeline : List QueuedJob} {o : Outcome} (hpasses : Passes ctx asked step)
    (h : Makes ctx (asked + 1) steps (pipeline ++ jobsOf ctx step) done failed o) :
    Makes ctx asked (step :: steps) pipeline (done + 1)
      (failed + if (resultOf ctx step).isOk then 0 else 1) o where
  within := Nat.succ_le_succ h.within
  pipeline := by rw [h.pipeline, List.take_succ_cons, List.flatMap_cons, List.append_assoc]
  passes i other hi hother := by
    cases i with
    | zero =>
      obtain rfl : step = other := Option.some.inj hother
      exact hpasses
    | succ i =>
      have hlater := h.passes i other (Nat.lt_of_succ_lt_succ hi) hother
      rwa [Nat.add_assoc, Nat.add_comm 1 i] at hlater
  ended := h.ended.cons

theorem passes_none {asked : Nat} {steps : List FlashStep} :
    ∀ i step, i < 0 → steps[i]? = some step → Passes ctx (asked + i) step :=
  fun _ _ hi => absurd hi (Nat.not_lt_zero _)

theorem executeSteps_makes (ctx : ExecutorContext) (asked : Nat) (steps : List FlashStep)
    (e : FirmwareExecutor) (pipeline : List QueuedJob) : ∃ done failed,
      (executeSteps ctx asked steps e pipeline).executor
        = ⟨e.createdJobs + done, e.failedSteps + failed⟩ ∧
      Makes ctx asked steps pipeline done failed (executeSteps ctx asked steps e pipeline) := by
  induction steps generalizing asked e pipeline with
  | nil => exact ⟨0, 0, rfl, Nat.le_refl 0, (List.append_nil _).symm, passes_none, .all rfl⟩
  | cons step rest ih =>
    rw [executeSteps, createJobForStep_eq]
    cases hasked : ctx.isCancelled asked with
    | true =>
      rw [if_pos rfl]
      exact ⟨0, 0, rfl, Nat.zero_le _, (List.append_nil _).symm, passes_none,
        .cancelled rfl hasked⟩
    | false =>
      rw [if_neg Bool.false_ne_true]
      rcases hresult : resultOf ctx step with error | _
      · simp only
        cases hneeded : step.optional with
        | true =>
          rw [if_pos rfl]
          obtain ⟨done, failed, hcounters, hmakes⟩ := ih (asked + 1)
            { createdJobs := e.createdJobs + 1, failedSteps := e.failedSteps + 1 }
            (pipeline ++ jobsOf ctx step)
          refine ⟨done + 1, failed + 1, ?_, ?_⟩
          · rw [hcounters]
            simp only [FirmwareExecutor.mk.injEq]
            omega
          · have hcons := hmakes.cons ⟨hasked, .inr hneeded⟩
            rwa [hresult] at hcons
        | false =>
          rw [if_neg Bool.false_ne_true]
          -- the error ends the loop before the step is counted as created
          refine ⟨0, 1, rfl, Nat.zero_le _, ?_, passes_none, .failed rfl hasked hresult hneeded⟩
          simp [jobsOf_of_error hresult]
      · obtain ⟨done, failed, hcounters, hmakes⟩ := ih (asked + 1)
          { e with createdJobs := e.createdJobs + 1 } (pipeline ++ jobsOf ctx step)
        refine ⟨done + 1, failed, ?_, ?_⟩
        · simp only [hcounters, FirmwareExecutor.mk.injEq, and_true]
          omega
        · have hcons := hmakes.cons ⟨hasked, .inl hresult⟩
          rwa [hresult] at hcons

/-- A plan is refused, or its steps are made up to the one that ends it. -/
theorem executePlan_makes (ctx : ExecutorContext) (plan : FlashPlan) (pipeline : List QueuedJob) :
    (ctx.isCancelled 0 = true ∧
      executePlan ctx plan pipeline = ⟨.error .cancelled, {}, pipeline⟩) ∨
    (ctx.isCancelled 0 = false ∧
      Makes ctx 1 plan.steps pipeline (executePlan ctx plan pipeline).executor.createdJobs
        (executePlan ctx plan pipeline).executor.failedSteps (executePlan ctx plan pipeline)) := by
  rw [executePlan]
  cases hasked : ctx.isCancelled 0 with
  | true => exact .inl ⟨rfl, if_pos rfl⟩
  | false =>
    rw [if_neg Bool.false_ne_true]
    obtain ⟨done, failed, hcounters, hmakes⟩ :=
      executeSteps_makes ctx 1 plan.steps {} pipeline
    refine .inr ⟨rfl, ?_⟩
    rw [hcounters, Nat.zero_add, Nat.zero_add]
    exact hmakes

/-! ## Packages -/

open FlashPlanGenerator

def gptJobs (pkg : FirmwarePackage) : List QueuedJob :=
  if (pkg.getImageByType .gpt).isSome then [⟨"fw_gpt_update", { kind := .gptUpdate }⟩] else []

def flashOf (img : FirmwareImage) : QueuedJob :=
  ⟨"fw_flash_" ++ targetPartition img, Job.flashJob (targetPartition img) img.data⟩

def verificationOf (img : FirmwareImage) : QueuedJob :=
  ⟨"fw_verify_" ++ targetPartition img, Job.verifyJob (targetPartition img) img.data⟩

/-- The jobs of a package. -/
def packageJobs (pkg : FirmwarePackage) : List QueuedJob :=
  gptJobs pkg ++ (partitionImages pkg).map flashOf ++ (partitionImages pkg).map verificationOf

section

variable (hdevice : ctx.hasFlashDevice = true)
include hdevice

theorem resultOf_flashStep (img : FirmwareImage) : resultOf ctx (flashStep img)
    = if img.data = [] then .error .firmwareInvalidFormat else .ok () := by
  by_cases hdata : img.data = [] <;> simp [resultOf, createJobForStep, flashStep, hdevice, hdata]

theorem jobsOf_flashStep {img : FirmwareImage} (hdata : img.data ≠ []) :
    jobsOf ctx (flashStep img) = [flashOf img] := by
  simp [jobsOf, createJobForStep, flashStep, flashOf, hdevice, hdata]

theorem jobsOf_verifyStep {img : FirmwareImage} (hdata : img.data ≠ []) :
    jobsOf ctx (verifyStep img) = [verificationOf img] := by
  simp [jobsOf, createJobForStep, verifyStep, verificationOf, hdevice, hdata]

/-- The steps before those for the images, which can all be made. -/
theorem steps_generatePlan (pkg : FirmwarePackage) : ∃ first : List FlashStep,
    (∀ step ∈ first, resultOf ctx step = .ok ()) ∧ first.flatMap (jobsOf ctx) = gptJobs pkg ∧
    (generatePlan pkg).steps = first ++ ((partitionImages pkg).map flashStep
      ++ (partitionImages pkg).map verifyStep) := by
  simp only [generatePlan, addVerifySteps, steps_addFlashSteps, List.append_assoc, gptJobs]
  refine ⟨_, ?_, ?_, rfl⟩
  · cases (pkg.getImageByType .programmer).isSome <;> cases (pkg.getImageByType .gpt).isSome <;>
      simp [addProgrammerStep, addGptStep, resultOf, createJobForStep, hdevice]
  · cases (pkg.getImageByType .programmer).isSome <;> cases (pkg.getImageByType .gpt).isSome <;>
      simp [addProgrammerStep, addGptStep, jobsOf, createJobForStep, hdevice]

/-- A package that is accepted has data for every image, and is queued as a whole. -/
theorem executePackage_ok {queued : List QueuedJob}
    (hok : (executePackage ctx pkg queued).result = .ok ()) :
    (∀ img ∈ partitionImages pkg, img.data ≠ []) ∧
      (executePackage ctx pkg queued).pipeline = queued ++ packageJobs pkg := by
  obtain ⟨first, -, hgpt, hsteps⟩ := steps_generatePlan hdevice pkg
  obtain ⟨done, failed, -, hmakes⟩ :=
    executeSteps_makes ctx 1 (generatePlan pkg).steps {} queued
  rw [hsteps] at hmakes
  rw [executePackage, executePlan, hsteps] at hok ⊢
  split at hok
  · cases hok
  rename_i hasked
  rw [if_neg hasked]
  have hended := hmakes.ended
  rw [hok] at hended
  cases hended with
  | all hdone =>
    have hpasses := hmakes.passes
    have hpipeline := hmakes.pipeline
    rw [hdone] at hpasses
    rw [hdone, List.take_length, List.flatMap_append, List.flatMap_append, hgpt,
      List.flatMap_map, List.flatMap_map] at hpipeline
    -- a flash step without data cannot be made, and none of them is optional
    have hdata : ∀ img ∈ partitionImages pkg, img.data ≠ [] := by
      intro img himg hempty
      obtain ⟨i, hi, hget⟩ := List.mem_iff_getElem.mp (List.mem_append_right first
        (List.mem_append_left ((partitionImages pkg).map verifyStep)
          (List.mem_map_of_mem (f := flashStep) himg)))
      rcases (hpasses i (flashStep img) hi (by rw [List.getElem?_eq_getElem hi, hget])).made
        with hmade | hoptional
      · rw [resultOf_flashStep hdevice, if_pos hempty] at hmade
        cases hmade
      · cases hoptional
    refine ⟨hdata, ?_⟩
    rw [hpipeline, packageJobs, List.append_assoc]
    have hflashes : (partitionImages pkg).flatMap (fun img => jobsOf ctx (flashStep img))
        = (partitionImages pkg).map flashOf := by
      rw [List.map_eq_flatMap]
      exact List.flatMap_congr fun img himg => jobsOf_flashStep hdevice (hdata img himg)
    have hverifications : (partitionImages pkg).flatMap (fun img => jobsOf ctx (verifyStep img))
        = (partitionImages pkg).map verificationOf := by
      rw [List.map_eq_flatMap]
      exact List.flatMap_congr fun img himg => jobsOf_verifyStep hdevice (hdata img himg)
    rw [hflashes, hverifications]

end

/-! ## What a package leaves on the device -/

section Device

variable {τ : Type} {jobs : JobContext τ} {memory : τ → ByteStore}
  {region : String → Option (Nat × Nat)}

/-- The jobs queued, as a pipeline on the device. -/
def pipelineFor (o : Outcome) (device : τ) : JobPipeline Nat (JobWorld τ) :=
  Job.pipelineOf (o.pipeline.map (·.job)) device

/-- A package that is accepted, behind whatever was queued before, and whose pipeline succeeds
with all of its jobs done: each of its images is in its partition at the end. -/
theorem executePackage_holds (hfaithful : Job.Faithful memory region jobs)
    (hdevice : ctx.hasFlashDevice = true) (pkg : FirmwarePackage) (queued : List QueuedJob)
    (device : τ) (hok : (executePackage ctx pkg queued).result = .ok ())
    (hrun : ((pipelineFor (executePackage ctx pkg queued) device).run
      (Job.genericSurroundings jobs)).1 = .ok ())
    (hall : ((pipelineFor (executePackage ctx pkg queued) device).run
      (Job.genericSurroundings jobs)).2.completedCount
        = (executePackage ctx pkg queued).pipeline.length) :
    ∀ img ∈ partitionImages pkg, Job.Holds memory region (targetPartition img) img.data
      ((pipelineFor (executePackage ctx pkg queued) device).run
        (Job.genericSurroundings jobs)).2.world.device := by
  obtain ⟨-, hpipeline⟩ := executePackage_ok hdevice hok
  have hsplit : (executePackage ctx pkg queued).pipeline.map (·.job)
      = (queued ++ (gptJobs pkg ++ (partitionImages pkg).map flashOf)).map (·.job)
        ++ (partitionImages pkg).map fun img => Job.verifyJob (targetPartition img) img.data := by
    rw [hpipeline, packageJobs, ← List.append_assoc, List.map_append]
    congr 1
    exact List.map_map
  have hlength := congrArg List.length hsplit
  rw [List.length_map] at hlength
  rw [hlength] at hall
  simp only [pipelineFor, hsplit] at hrun hall ⊢
  intro img himg
  refine Job.run_holds hfaithful _ _ device ?_ hrun hall
    (Job.verifyJob (targetPartition img) img.data) (List.mem_map_of_mem himg) img.data rfl
  intro job hjob
  obtain ⟨other, -, rfl⟩ := List.mem_map.mp hjob
  exact ⟨other.data, rfl⟩

/-- An image as long as its partition. -/
def bootImage : FirmwareImage where
  info := { name := "boot", type := .boot, size := 4 }
  data := [1, 2, 3, 4]

theorem executePackage_holds_boot :
    Job.Holds id Job.bootRegion "boot" [1, 2, 3, 4]
      ((pipelineFor (executePackage {} { images := [bootImage] } []) Job.blank).run
        (Job.genericSurroundings (Job.memoryContext Job.bootRegion))).2.world.device :=
  executePackage_holds (Job.faithful_memoryContext Job.bootRegion) rfl { images := [bootImage] } []
    Job.blank (by decide) rfl rfl bootImage (by decide)

end Device

end FirmwareExecutor

end MBootCore.Firmware
