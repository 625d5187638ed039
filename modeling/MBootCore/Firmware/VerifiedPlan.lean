import MBootCore.Firmware.FlashPlan

/-!
# Firmware — VerifiedPlan

Is everything that a plan flashes verified by the validator? An image that is
not loaded is not checked, and the warning about it does not leave the
validator; the plan flashes it all the same.
-/

namespace MBootCore.Firmware

/-! ## What a valid package is -/

namespace ValidationResult

variable (r : ValidationResult)

@[simp] theorem valid_errorIf (condition : Bool) (error : FirmwareError) (message : String) :
    (r.errorIf condition error message).valid = (r.valid && !condition) := by
  cases condition <;> simp [errorIf, addError]

@[simp] theorem valid_addWarning (message : String) : (r.addWarning message).valid = r.valid := rfl

@[simp] theorem valid_insertErrors (part : ValidationResult) :
    (r.insertErrors part).valid = (r.valid && part.valid) := by
  cases hpart : part.valid <;> simp [insertErrors, hpart]

/-- A check of every item of a list. -/
theorem valid_foldl {α : Type} {check : ValidationResult → α → ValidationResult} (ok : α → Bool)
    (hcheck : ∀ r a, (check r a).valid = (r.valid && ok a)) (items : List α) :
    (items.foldl check r).valid = (r.valid && items.all ok) := by
  induction items generalizing r with
  | nil => simp
  | cons a items ih => rw [List.foldl_cons, ih, hcheck, List.all_cons, Bool.and_assoc]

end ValidationResult

/-- The partitions that are named. -/
def FirmwarePackage.partitionNames (images : List FirmwareImage) : List String :=
  (images.map (·.info.partitionName)).filter (· ≠ "")

/-- What the validator asks of a package, apart from its hashes. -/
structure FirmwarePackage.WellFormed (pkg : FirmwarePackage) : Prop where
  vendor : pkg.metadata.vendor ≠ ""
  platform : pkg.metadata.platform ≠ ""
  names : ∀ img ∈ pkg.images, img.info.name ≠ ""
  partitions : (FirmwarePackage.partitionNames pkg.images).Nodup
  dependencies : ∀ dep ∈ pkg.dependencies, dep.required = true → dep.resolved = true

/-- The hash of the image is looked at. -/
def FirmwareImage.IsChecked (img : FirmwareImage) : Prop :=
  img.dataLoaded = true ∨ img.info.sourceFile = ""

namespace FirmwareValidator

open FirmwarePackage (partitionNames)

variable {v : FirmwareValidator} {pkg : FirmwarePackage}

theorem valid_checkPartition (images : List FirmwareImage) (seen : List String)
    (r : ValidationResult) : (images.foldl checkPartition (seen, r)).2.valid = true ↔
      r.valid = true ∧ (partitionNames images).Nodup ∧
        ∀ name ∈ partitionNames images, name ∉ seen := by
  induction images generalizing seen r with
  | nil => simp [partitionNames]
  | cons img images ih =>
    rw [List.foldl_cons, checkPartition]
    by_cases hempty : img.info.partitionName = ""
    · have hnames : partitionNames (img :: images) = partitionNames images := by
        simp [partitionNames, hempty]
      rw [hnames, if_pos hempty, ih]
    · have hnames : partitionNames (img :: images)
          = img.info.partitionName :: partitionNames images := by
        simp [partitionNames, hempty]
      rw [hnames, if_neg hempty, List.nodup_cons, List.forall_mem_cons]
      by_cases hseen : img.info.partitionName ∈ seen
      · simp only [if_pos hseen, ih, ValidationResult.addError]
        simp [hseen]
      · simp only [if_neg hseen, ih, List.mem_cons, not_or]
        constructor
        · rintro ⟨hvalid, hnodup, hfresh⟩
          exact ⟨hvalid, ⟨fun hmem => (hfresh _ hmem).1 rfl, hnodup⟩, hseen,
            fun name hname => (hfresh name hname).2⟩
        · rintro ⟨hvalid, ⟨hnot, hnodup⟩, -, hfresh⟩
          exact ⟨hvalid, hnodup, fun name hname =>
            ⟨fun heq => hnot (heq ▸ hname), hfresh name hname⟩⟩

theorem valid_validateManifest : (validateManifest pkg).valid = true ↔
    pkg.metadata.vendor ≠ "" ∧ pkg.metadata.platform ≠ "" ∧
      (∀ img ∈ pkg.images, img.info.name ≠ "") ∧ (partitionNames pkg.images).Nodup := by
  rw [validateManifest, valid_checkPartition, ValidationResult.valid_foldl _
    (fun img => !decide (img.info.name = "")) (by simp)]
  simp [and_assoc]

theorem valid_validateDependencies : (validateDependencies pkg).valid = true ↔
    ∀ dep ∈ pkg.dependencies, dep.required = true → dep.resolved = true := by
  rw [validateDependencies, ValidationResult.valid_foldl _
    (fun dep => !(dep.required && !dep.resolved)) (by simp)]
  simp [Decidable.imp_iff_not_or]

theorem valid_validateImages : (validateImages pkg).valid = true := by
  rw [validateImages, ValidationResult.valid_foldl _ (fun _ => true)]
  · simp
  · intro r img
    split <;> simp

theorem valid_validateIntegrity : (v.validateIntegrity pkg).valid = true ↔
    ∀ img ∈ pkg.images, img.IsChecked → v.verifyHash img = true := by
  rw [validateIntegrity, ValidationResult.valid_foldl _
    (fun img => (!img.dataLoaded && img.info.sourceFile ≠ "") || v.verifyHash img)]
  · simp only [Bool.true_and, List.all_eq_true, FirmwareImage.IsChecked]
    refine forall₂_congr fun img _ => ?_
    cases img.dataLoaded <;> simp [Decidable.imp_iff_not_or]
  · intro r img
    rw [checkIntegrity]
    cases hloaded : img.dataLoaded <;> by_cases hfile : img.info.sourceFile = "" <;> simp [hfile]

theorem valid_validate : (v.validate pkg .full).valid = true ↔
    pkg.WellFormed ∧ ∀ img ∈ pkg.images, img.IsChecked → v.verifyHash img = true := by
  have hlevels : (v.validate pkg .full).valid = true ↔ (validateManifest pkg).valid = true ∧
      (validateDependencies pkg).valid = true ∧ (v.validateIntegrity pkg).valid = true := by
    simp [validate, ValidationLevel.value, valid_validateImages, and_assoc]
  rw [hlevels, valid_validateManifest, valid_validateDependencies, valid_validateIntegrity]
  constructor
  · rintro ⟨⟨hvendor, hplatform, hnames, hpartitions⟩, hdependencies, hhashes⟩
    exact ⟨⟨hvendor, hplatform, hnames, hpartitions, hdependencies⟩, hhashes⟩
  · rintro ⟨⟨hvendor, hplatform, hnames, hpartitions, hdependencies⟩, hhashes⟩
    exact ⟨⟨hvendor, hplatform, hnames, hpartitions⟩, hdependencies, hhashes⟩

end FirmwareValidator

/-! ## What a plan flashes -/

namespace FlashPlanGenerator

variable {pkg : FirmwarePackage}

theorem steps_addFlashSteps (images : List FirmwareImage) (plan : FlashPlan) :
    (addFlashSteps images plan).steps
      = plan.steps ++ (images.filter isPartitionImage).map flashStep := by
  induction images generalizing plan with
  | nil => simp [addFlashSteps]
  | cons img images ih =>
    rw [addFlashSteps, List.foldl_cons]
    change (addFlashSteps images _).steps = _
    rw [ih]
    by_cases himage : isPartitionImage img = true <;> simp [himage]

/-- The steps before those for the images. -/
theorem steps_generatePlan (pkg : FirmwarePackage) :
    ∃ first, (∀ step ∈ first, step.type ≠ .flashPartition) ∧
    (generatePlan pkg).steps = first ++ (pkg.images.filter isPartitionImage).map flashStep
      ++ (pkg.images.filter isPartitionImage).map verifyStep := by
  simp only [generatePlan, addVerifySteps, steps_addFlashSteps]
  refine ⟨_, ?_, rfl⟩
  cases (pkg.getImageByType .programmer).isSome <;> cases (pkg.getImageByType .gpt).isSome <;>
    simp [addProgrammerStep, addGptStep]

theorem flashStep_of_mem {step : FlashStep} (hstep : step ∈ (generatePlan pkg).steps)
    (htype : step.type = .flashPartition) : ∃ img ∈ pkg.images, step = flashStep img := by
  obtain ⟨first, hfirst, hsteps⟩ := steps_generatePlan pkg
  rw [hsteps, List.mem_append, List.mem_append] at hstep
  rcases hstep with (hstep | hstep) | hstep
  · exact absurd htype (hfirst step hstep)
  · obtain ⟨img, himg, rfl⟩ := List.mem_map.mp hstep
    exact ⟨img, (List.mem_filter.mp himg).1, rfl⟩
  · obtain ⟨img, -, rfl⟩ := List.mem_map.mp hstep
    cases htype

end FlashPlanGenerator

/-! ## Nothing unverified is flashed -/

open FlashPlanGenerator

/-- The data of every step that flashes an image with a hash has that hash, and
an image that is not loaded, or whose hash cannot be checked, makes validation
fail. -/
structure NothingUnverified (v : FirmwareValidator) (pkg : FirmwarePackage) : Prop where
  flashed : (v.validate pkg .full).valid = true → ∀ step ∈ (generatePlan pkg).steps,
    step.type = .flashPartition → (∃ img ∈ pkg.images, step = flashStep img) ∧
      ∀ img ∈ pkg.images, step = flashStep img → img.info.expectedHash ≠ [] →
        v.checksum step.data img.info.expectedHash.length = img.info.expectedHash
  unloaded : ∀ img ∈ pkg.images,
    img.dataLoaded = false ∨ img.info.expectedHash ≠ [] ∧ img.data = [] →
      (v.validate pkg .full).valid = false

variable {v : FirmwareValidator} {pkg : FirmwarePackage}

theorem checksum_of_verifyHash {img : FirmwareImage} (hverified : v.verifyHash img = true)
    (hhash : img.info.expectedHash ≠ []) : img.data ≠ [] ∧
      v.checksum img.data img.info.expectedHash.length = img.info.expectedHash := by
  rw [FirmwareValidator.verifyHash, if_neg hhash] at hverified
  by_cases hdata : img.data = []
  · rw [if_pos hdata] at hverified
    cases hverified
  · rw [if_neg hdata] at hverified
    exact ⟨hdata, of_decide_eq_true hverified⟩

/-- Nothing unverified is flashed exactly when all images are loaded, or when
something else is wrong with the package. -/
theorem nothingUnverified_iff (v : FirmwareValidator) (pkg : FirmwarePackage) :
    NothingUnverified v pkg ↔ (∀ img ∈ pkg.images, img.dataLoaded = true) ∨ ¬ pkg.WellFormed ∨
      ∃ img ∈ pkg.images, img.IsChecked ∧ v.verifyHash img = false := by
  constructor
  · intro h
    by_cases hvalid : (v.validate pkg .full).valid = true
    · refine .inl fun img himg => ?_
      cases hloaded : img.dataLoaded with
      | true => rfl
      | false =>
        rw [h.unloaded img himg (.inl hloaded)] at hvalid
        cases hvalid
    · refine .inr (Classical.or_iff_not_imp_left.mpr fun hformed => ?_)
      rw [FirmwareValidator.valid_validate] at hvalid
      simpa [Classical.not_not.mp hformed] using hvalid
  · rintro (hloaded | hflawed)
    · have hchecked : (v.validate pkg .full).valid = true → ∀ img ∈ pkg.images,
          v.verifyHash img = true := fun hvalid img himg =>
        (FirmwareValidator.valid_validate.mp hvalid).2 img himg (.inl (hloaded img himg))
      refine ⟨fun hvalid step hstep htype => ⟨flashStep_of_mem hstep htype, ?_⟩, ?_⟩
      · rintro img himg rfl hhash
        exact (checksum_of_verifyHash (hchecked hvalid img himg) hhash).2
      · rintro img himg (hnot | ⟨hhash, hdata⟩)
        · rw [hloaded img himg] at hnot
          cases hnot
        · refine Bool.eq_false_iff.mpr fun hvalid => ?_
          exact (checksum_of_verifyHash (hchecked hvalid img himg) hhash).1 hdata
    · have hinvalid : (v.validate pkg .full).valid = false := by
        refine Bool.eq_false_iff.mpr fun hvalid => ?_
        obtain ⟨hformed, hhashes⟩ := FirmwareValidator.valid_validate.mp hvalid
        rcases hflawed with hnot | ⟨img, himg, hchecked, hwrong⟩
        · exact hnot hformed
        · rw [hhashes img himg hchecked] at hwrong
          cases hwrong
      refine ⟨fun hvalid => ?_, fun _ _ _ => hinvalid⟩
      rw [hinvalid] at hvalid
      cases hvalid

/-- An image with a hash that was never read from its file. -/
def unloadedPackage : FirmwarePackage where
  metadata := { vendor := "QUALCOMM", platform := "SM8450" }
  images :=
    [{ info := { name := "boot", type := .boot, partitionName := "boot", expectedHash := [0xAB],
                 sourceFile := "boot.img" } }]

/-- The package is valid, and its plan flashes data without that hash. -/
theorem unloadedPackage_unverified :
    (FirmwareValidator.validate {} unloadedPackage .full).valid = true ∧
      (generatePlan unloadedPackage).steps.map FlashStep.data = [[], []] ∧
      xorChecksum [] 1 = [0] ∧ ¬ NothingUnverified {} unloadedPackage := by
  have hvalid : (FirmwareValidator.validate {} unloadedPackage .full).valid = true := by decide
  refine ⟨hvalid, by decide, by decide, fun h => ?_⟩
  have hinvalid := h.unloaded _ List.mem_cons_self (.inl rfl)
  rw [hvalid] at hinvalid
  cases hinvalid

end MBootCore.Firmware
