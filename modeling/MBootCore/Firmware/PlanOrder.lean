import MBootCore.Firmware.VerifiedPlan
import Mathlib.Data.List.Forall2

/-!
# Firmware — PlanOrder

The shape of a plan: the programmer before the partition table, that before the
partitions, and those before what verifies them, with one step of each kind for
every image.

No two steps are to flash the same partition. An image without a partition name
is flashed to the partition named like the image, which the validator leaves out
when it looks for duplicates.
-/

namespace MBootCore.Firmware

/-- The steps of the first type stand before those of the second. -/
def Before (first second : FlashStepType) (steps : List FlashStep) : Prop :=
  steps.Pairwise fun a b => ¬ (a.type = second ∧ b.type = first)

def FlashPlan.stepsOf (plan : FlashPlan) (type : FlashStepType) : List FlashStep :=
  plan.steps.filter (·.type = type)

/-- The step works on the image. -/
structure FlashStep.IsFor (img : FirmwareImage) (step : FlashStep) : Prop where
  image : step.imageName = img.info.name
  size : step.size = img.info.size
  data : step.data = img.data

namespace FlashPlanGenerator

variable {pkg : FirmwarePackage} {plan : FlashPlan}

/-- The images to flash, in the order of the package. -/
def partitionImages (pkg : FirmwarePackage) : List FirmwareImage :=
  pkg.images.filter isPartitionImage

structure WellFormedPlan (pkg : FirmwarePackage) (plan : FlashPlan) : Prop where
  programmerFirst : Before .flashProgrammer .updateGPT plan.steps
  gptNext : Before .updateGPT .flashPartition plan.steps
  verifiedLast : Before .flashPartition .verifyPartition plan.steps
  flashed : List.Forall₂ FlashStep.IsFor (partitionImages pkg) (plan.stepsOf .flashPartition)
  verified : List.Forall₂ FlashStep.IsFor (partitionImages pkg) (plan.stepsOf .verifyPartition)
  targets : ((plan.stepsOf .flashPartition).map (·.partitionName)).Nodup

/-! ## The steps of a plan -/

/-- The place of a step among the others of its plan. -/
def rank : FlashStepType → Nat
  | .flashProgrammer => 0
  | .updateGPT => 1
  | .flashPartition => 2
  | _ => 3

theorem before_of_ranked {first second : FlashStepType} {steps : List FlashStep}
    (h : steps.Pairwise fun a b => rank a.type ≤ rank b.type) (hrank : rank first < rank second) :
    Before first second steps := by
  refine h.imp fun {a b} hle hboth => ?_
  rw [hboth.1, hboth.2] at hle
  exact absurd hrank (Nat.not_lt.mpr hle)

/-- The steps before those for the images: at most one for the programmer, and at
most one for the partition table behind it. -/
theorem steps_ranked (pkg : FirmwarePackage) : ∃ first : List FlashStep,
    (∀ step ∈ first, rank step.type < 2) ∧
    first.Pairwise (fun a b => rank a.type ≤ rank b.type) ∧
    (generatePlan pkg).steps = first ++ ((partitionImages pkg).map flashStep
      ++ (partitionImages pkg).map verifyStep) := by
  simp only [generatePlan, addVerifySteps, steps_addFlashSteps, List.append_assoc]
  refine ⟨_, ?_, ?_, rfl⟩
  · cases (pkg.getImageByType .programmer).isSome <;> cases (pkg.getImageByType .gpt).isSome <;>
      simp [addProgrammerStep, addGptStep, rank]
  · cases (pkg.getImageByType .programmer).isSome <;> cases (pkg.getImageByType .gpt).isSome <;>
      simp [addProgrammerStep, addGptStep, rank]

theorem ranked_generatePlan (pkg : FirmwarePackage) :
    (generatePlan pkg).steps.Pairwise fun a b => rank a.type ≤ rank b.type := by
  obtain ⟨first, hfirst, hordered, hsteps⟩ := steps_ranked pkg
  rw [hsteps, List.pairwise_append, List.pairwise_append, List.pairwise_map, List.pairwise_map]
  refine ⟨hordered, ⟨?_, ?_, ?_⟩, ?_⟩
  · exact List.pairwise_of_forall fun a b => Nat.le_refl 2
  · exact List.pairwise_of_forall fun a b => Nat.le_refl 3
  · intro a ha b hb
    obtain ⟨img, -, rfl⟩ := List.mem_map.mp ha
    obtain ⟨img', -, rfl⟩ := List.mem_map.mp hb
    exact Nat.le_succ 2
  · intro a ha b hb
    have hlt := hfirst a ha
    have hge : 2 ≤ rank b.type := by
      rcases List.mem_append.mp hb with hb | hb
      · obtain ⟨img, -, rfl⟩ := List.mem_map.mp hb
        exact Nat.le_refl 2
      · obtain ⟨img, -, rfl⟩ := List.mem_map.mp hb
        exact Nat.le_succ 2
    omega

/-- The steps for the images are behind all others. -/
theorem stepsOf_eq {type : FlashStepType} (htype : 2 ≤ rank type) (pkg : FirmwarePackage) :
    (generatePlan pkg).stepsOf type
      = ((partitionImages pkg).map flashStep).filter (·.type = type)
        ++ ((partitionImages pkg).map verifyStep).filter (·.type = type) := by
  obtain ⟨first, hfirst, -, hsteps⟩ := steps_ranked pkg
  have hnone : first.filter (·.type = type) = [] := by
    refine List.filter_eq_nil_iff.mpr fun step hstep heq => ?_
    have hlt := hfirst step hstep
    rw [of_decide_eq_true heq] at hlt
    exact Nat.not_lt.mpr htype hlt
  rw [FlashPlan.stepsOf, hsteps, List.filter_append, List.filter_append, hnone, List.nil_append]

theorem filter_map_all {make : FirmwareImage → FlashStep} {type : FlashStepType}
    (hmake : ∀ img, (make img).type = type) (images : List FirmwareImage) :
    (images.map make).filter (·.type = type) = images.map make := by
  refine List.filter_eq_self.mpr fun step hstep => ?_
  obtain ⟨img, -, rfl⟩ := List.mem_map.mp hstep
  exact decide_eq_true (hmake img)

theorem filter_map_none {make : FirmwareImage → FlashStep} {type : FlashStepType}
    (hmake : ∀ img, (make img).type ≠ type) (images : List FirmwareImage) :
    (images.map make).filter (·.type = type) = [] := by
  refine List.filter_eq_nil_iff.mpr fun step hstep heq => ?_
  obtain ⟨img, -, rfl⟩ := List.mem_map.mp hstep
  exact hmake img (of_decide_eq_true heq)

theorem stepsOf_flashPartition (pkg : FirmwarePackage) :
    (generatePlan pkg).stepsOf .flashPartition = (partitionImages pkg).map flashStep := by
  have hrank : 2 ≤ rank .flashPartition := Nat.le_refl 2
  have hflash (img : FirmwareImage) : (flashStep img).type = .flashPartition := rfl
  have hverify (img : FirmwareImage) : (verifyStep img).type ≠ .flashPartition := nofun
  rw [stepsOf_eq hrank, filter_map_all hflash, filter_map_none hverify, List.append_nil]

theorem stepsOf_verifyPartition (pkg : FirmwarePackage) :
    (generatePlan pkg).stepsOf .verifyPartition = (partitionImages pkg).map verifyStep := by
  have hrank : 2 ≤ rank .verifyPartition := Nat.le_succ 2
  have hflash (img : FirmwareImage) : (flashStep img).type ≠ .verifyPartition := nofun
  have hverify (img : FirmwareImage) : (verifyStep img).type = .verifyPartition := rfl
  rw [stepsOf_eq hrank, filter_map_none hflash, filter_map_all hverify, List.nil_append]

/-! ## The targets of a plan -/

/-- An image without a partition name has a target of its own. -/
def Separate (a b : FirmwareImage) : Prop :=
  a.info.partitionName = "" ∨ b.info.partitionName = "" → targetPartition a ≠ targetPartition b

theorem targetPartition_of_ne {img : FirmwareImage} (h : img.info.partitionName ≠ "") :
    targetPartition img = img.info.partitionName := if_neg h

/-- The validator keeps apart the images that have partition names. -/
theorem named_apart {images : List FirmwareImage}
    (h : (FirmwarePackage.partitionNames images).Nodup) :
    images.Pairwise fun a b => a.info.partitionName ≠ "" → b.info.partitionName ≠ "" →
      targetPartition a ≠ targetPartition b := by
  rw [FirmwarePackage.partitionNames, List.Nodup, List.pairwise_filter, List.pairwise_map] at h
  refine h.imp fun {a b} hne ha hb => ?_
  rw [targetPartition_of_ne ha, targetPartition_of_ne hb]
  exact hne (decide_eq_true ha) (decide_eq_true hb)

theorem nodup_targets_iff (h : (FirmwarePackage.partitionNames pkg.images).Nodup) :
    ((partitionImages pkg).map targetPartition).Nodup ↔
      (partitionImages pkg).Pairwise Separate := by
  have hnamed := (named_apart h).filter isPartitionImage
  rw [List.Nodup, List.pairwise_map]
  constructor
  · intro hnodup
    refine hnodup.imp fun {a b} hne => ?_
    exact fun _ => hne
  · intro hseparate
    refine (hseparate.and hnamed).imp fun {a b} hboth => ?_
    by_cases ha : a.info.partitionName = ""
    · exact hboth.1 (.inl ha)
    · by_cases hb : b.info.partitionName = ""
      · exact hboth.1 (.inr hb)
      · exact hboth.2 ha hb

theorem partitionNames_of_valid {v : FirmwareValidator} {level : ValidationLevel}
    (hvalid : (v.validate pkg level).valid = true) :
    (FirmwarePackage.partitionNames pkg.images).Nodup := by
  have hmanifest : (FirmwareValidator.validateManifest pkg).valid = true := by
    cases hmanifest : (FirmwareValidator.validateManifest pkg).valid with
    | true => rfl
    | false =>
      cases level <;>
        simp [FirmwareValidator.validate, ValidationLevel.value, hmanifest] at hvalid
  exact (FirmwareValidator.valid_validateManifest.mp hmanifest).2.2.2

/-- The plan of a valid package is well formed exactly when every image without
a partition name is flashed to a partition of its own. -/
theorem wellFormedPlan_iff (v : FirmwareValidator) (pkg : FirmwarePackage)
    (level : ValidationLevel) (hvalid : (v.validate pkg level).valid = true) :
    WellFormedPlan pkg (generatePlan pkg) ↔ (partitionImages pkg).Pairwise Separate := by
  have hranked := ranked_generatePlan pkg
  have htargets := nodup_targets_iff (partitionNames_of_valid hvalid)
  have hmap : ((generatePlan pkg).stepsOf .flashPartition).map (·.partitionName)
      = (partitionImages pkg).map targetPartition := by
    rw [stepsOf_flashPartition, List.map_map]
    rfl
  constructor
  · intro h
    have hnodup := h.targets
    rw [hmap] at hnodup
    exact htargets.mp hnodup
  · intro hseparate
    refine ⟨before_of_ranked hranked (by decide), before_of_ranked hranked (by decide),
      before_of_ranked hranked (by decide), ?_, ?_, ?_⟩
    · rw [stepsOf_flashPartition, List.forall₂_map_right_iff, List.forall₂_same]
      exact fun img _ => ⟨rfl, rfl, rfl⟩
    · rw [stepsOf_verifyPartition, List.forall₂_map_right_iff, List.forall₂_same]
      exact fun img _ => ⟨rfl, rfl, rfl⟩
    · rw [hmap]
      exact htargets.mpr hseparate

/-- A package of two images with the given names and partition names. -/
def packageOf (first second : String × String) : FirmwarePackage where
  metadata := { vendor := "QUALCOMM", platform := "SM8450" }
  images := [first, second].map fun img =>
    { info := { name := img.1, partitionName := img.2, type := .boot }, data := [0x7F] }

theorem wellFormedPlan_apart :
    (FirmwareValidator.validate {} (packageOf ("boot", "") ("modem", "modem_a")) .full).valid
        = true ∧
      WellFormedPlan (packageOf ("boot", "") ("modem", "modem_a"))
        (generatePlan (packageOf ("boot", "") ("modem", "modem_a"))) := by
  have hvalid : (FirmwareValidator.validate {} (packageOf ("boot", "") ("modem", "modem_a"))
    .full).valid = true := by decide
  refine ⟨hvalid, (wellFormedPlan_iff {} _ .full hvalid).mpr ?_⟩
  refine List.pairwise_pair.mpr fun _ => ?_
  decide

/-- One image is flashed to the partition named like it, and another one too. -/
theorem wellFormedPlan_shared :
    ¬ ∀ (v : FirmwareValidator) (pkg : FirmwarePackage) (level : ValidationLevel),
      (v.validate pkg level).valid = true → WellFormedPlan pkg (generatePlan pkg) := by
  intro h
  have hplan := h {} (packageOf ("boot", "") ("kernel", "boot")) .full (by decide)
  exact absurd hplan.targets (by decide)

end FlashPlanGenerator

end MBootCore.Firmware
