import MBootCore.Firmware.FirmwareValidator

/-!
# Firmware — FlashPlan

The plan `FlashPlanGenerator::generatePlan` of `firmware/FlashPlan.cpp` makes of
a package: the programmer, the partition table, and for every other image a step
that flashes it and one that verifies it. It always returns a plan.
-/

namespace MBootCore.Firmware

inductive FlashStepType where
  | flashProgrammer | updateGPT | flashPartition | verifyPartition | erasePartition | reboot
  | custom
  deriving DecidableEq, Repr

structure FlashStep where
  type : FlashStepType := .custom
  description : String := ""
  partitionName : String := ""
  imageName : String := ""
  offset : UInt64 := 0
  size : UInt64 := 0
  sectorSize : UInt64 := 512
  data : ByteBuffer := []
  originalData : ByteBuffer := []
  requireBackup : Bool := false
  optional : Bool := false
  deriving DecidableEq, Repr

structure FlashPlan where
  steps : List FlashStep := []
  requireProgrammer : Bool := false
  requireGptUpdate : Bool := false
  totalBytes : UInt64 := 0
  estimatedTimeMs : UInt64 := 0
  deriving DecidableEq, Repr

namespace FlashPlanGenerator

def addProgrammerStep (plan : FlashPlan) : FlashPlan :=
  let step : FlashStep :=
    { type := .flashProgrammer, description := "Upload programmer", imageName := "programmer" }
  { plan with steps := step :: plan.steps }

def addGptStep (plan : FlashPlan) : FlashPlan :=
  let step : FlashStep :=
    { type := .updateGPT, description := "Update GPT", requireBackup := true }
  { plan with steps := plan.steps.insertIdx (if plan.requireProgrammer then 1 else 0) step }

/-- The images that are flashed to a partition. -/
def isPartitionImage (img : FirmwareImage) : Bool :=
  img.info.type ≠ .programmer && img.info.type ≠ .gpt

def targetPartition (img : FirmwareImage) : String :=
  if img.info.partitionName = "" then img.info.name else img.info.partitionName

def flashStep (img : FirmwareImage) : FlashStep where
  type := .flashPartition
  partitionName := targetPartition img
  imageName := img.info.name
  offset := img.info.offset
  size := img.info.size
  data := img.data
  description := "Flash " ++ targetPartition img
  requireBackup := true

def verifyStep (img : FirmwareImage) : FlashStep where
  type := .verifyPartition
  partitionName := targetPartition img
  imageName := img.info.name
  size := img.info.size
  data := img.data
  description := "Verify " ++ targetPartition img
  optional := true

def addFlashSteps (images : List FirmwareImage) (plan : FlashPlan) : FlashPlan :=
  images.foldl (fun plan img =>
    if isPartitionImage img then
      { plan with
        steps := plan.steps ++ [flashStep img]
        totalBytes := plan.totalBytes + img.info.size }
    else plan) plan

def addVerifySteps (pkg : FirmwarePackage) (plan : FlashPlan) : FlashPlan :=
  { plan with steps := plan.steps ++ (pkg.images.filter isPartitionImage).map verifyStep }

def generatePlan (pkg : FirmwarePackage) : FlashPlan :=
  let plan : FlashPlan := {}
  let plan :=
    if (pkg.getImageByType .programmer).isSome then
      addProgrammerStep { plan with requireProgrammer := true }
    else plan
  let plan :=
    if (pkg.getImageByType .gpt).isSome then addGptStep { plan with requireGptUpdate := true }
    else plan
  let plan := addFlashSteps pkg.images plan
  let plan := addVerifySteps pkg plan
  { plan with estimatedTimeMs := plan.totalBytes / 1000 }

end FlashPlanGenerator

end MBootCore.Firmware
