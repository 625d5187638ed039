import MBootCore.Domain.Types

/-!
# Firmware — FirmwareValidator

`FirmwareValidator` of `firmware/FirmwareValidator.cpp`, on the packages of
`firmware/FirmwarePackage.cpp`. The checksum of `verifyHash` folds the bytes by
exclusive or and repeats the result; nothing else depends on which checksum it
is, so it is a parameter of the validator with that one as its default.
-/

namespace MBootCore.Firmware

inductive ImageType where
  | programmer | bootloader | gpt | boot | system | vendor | userdata | recovery | cache | custom
  deriving DecidableEq, Repr

structure FirmwareImageInfo where
  name : String := ""
  type : ImageType := .custom
  partitionName : String := ""
  offset : UInt64 := 0
  size : UInt64 := 0
  expectedHash : ByteBuffer := []
  sourceFile : String := ""
  deriving DecidableEq, Repr

structure FirmwareImage where
  info : FirmwareImageInfo := {}
  dataLoaded : Bool := false
  data : ByteBuffer := []
  deriving DecidableEq, Repr

structure FirmwareDependency where
  id : String
  required : Bool := true
  resolved : Bool := false
  deriving DecidableEq, Repr

structure PackageMetadata where
  vendor : String := ""
  platform : String := ""
  deriving DecidableEq, Repr

structure FirmwarePackage where
  metadata : PackageMetadata := {}
  dependencies : List FirmwareDependency := []
  images : List FirmwareImage := []
  deriving DecidableEq, Repr

def FirmwarePackage.getImageByType (pkg : FirmwarePackage) (type : ImageType) :
    Option FirmwareImage :=
  pkg.images.find? (·.info.type = type)

inductive FirmwareError where
  | hashMismatch | invalidManifest | dependencyConflict | duplicatePartition
  deriving DecidableEq, Repr

inductive ValidationLevel where
  | none | basic | full | strict
  deriving DecidableEq, Repr

/-- The value of the enumerator. -/
def ValidationLevel.value : ValidationLevel → Nat
  | .none => 0 | .basic => 1 | .full => 2 | .strict => 3

structure ValidationError where
  error : FirmwareError
  message : String
  deriving DecidableEq, Repr

structure ValidationResult where
  valid : Bool := true
  errors : List ValidationError := []
  warnings : List String := []
  deriving DecidableEq, Repr

namespace ValidationResult

def addError (error : FirmwareError) (message : String) (r : ValidationResult) :
    ValidationResult :=
  { r with valid := false, errors := r.errors ++ [{ error, message }] }

/-- `if (condition) { result.valid = false; result.errors.push_back(err); }`. -/
def errorIf (condition : Bool) (error : FirmwareError) (message : String) (r : ValidationResult) :
    ValidationResult :=
  if condition then r.addError error message else r

def addWarning (message : String) (r : ValidationResult) : ValidationResult :=
  { r with warnings := r.warnings ++ [message] }

/-- The errors of a part that is not valid are those of the whole. -/
def insertErrors (r part : ValidationResult) : ValidationResult :=
  if part.valid then r else { r with valid := false, errors := r.errors ++ part.errors }

end ValidationResult

/-- The checksum of `verifyHash`, as long as the hash to compare with. -/
def xorChecksum (data : ByteBuffer) (size : Nat) : ByteBuffer :=
  List.replicate size (data.foldl (· ^^^ ·) 0)

structure FirmwareValidator where
  checksum : ByteBuffer → Nat → ByteBuffer := xorChecksum

namespace FirmwareValidator

def validateDependencies (pkg : FirmwarePackage) : ValidationResult :=
  pkg.dependencies.foldl (fun result dep =>
    result.errorIf (dep.required && !dep.resolved) .dependencyConflict
      ("Required dependency not resolved: " ++ dep.id)) {}

/-- The partitions named so far, and the result. -/
def checkPartition (s : List String × ValidationResult) (img : FirmwareImage) :
    List String × ValidationResult :=
  let name := img.info.partitionName
  if name = "" then s
  else if name ∈ s.1 then
    (s.1, s.2.addError .duplicatePartition ("Duplicate partition: " ++ name))
  else (name :: s.1, s.2)

def validateManifest (pkg : FirmwarePackage) : ValidationResult :=
  let result : ValidationResult := {}
  let result := result.errorIf (pkg.metadata.vendor = "") .invalidManifest "Missing vendor"
  let result := result.errorIf (pkg.metadata.platform = "") .invalidManifest "Missing platform"
  let result := pkg.images.foldl (fun result img =>
    result.errorIf (img.info.name = "") .invalidManifest "Image with empty name") result
  (pkg.images.foldl checkPartition ([], result)).2

def validateImages (pkg : FirmwarePackage) : ValidationResult :=
  pkg.images.foldl (fun result img =>
    if img.data = [] ∧ img.info.sourceFile ≠ "" then
      result.addWarning ("Image has no data: " ++ img.info.name)
    else result) {}

variable (v : FirmwareValidator)

def verifyHash (image : FirmwareImage) : Bool :=
  if image.info.expectedHash = [] then true
  else if image.data = [] then false
  else v.checksum image.data image.info.expectedHash.length = image.info.expectedHash

/-- An image that is not loaded from its file is not checked. -/
def checkIntegrity (result : ValidationResult) (image : FirmwareImage) : ValidationResult :=
  if image.dataLoaded = false ∧ image.info.sourceFile ≠ "" then
    result.addWarning ("Image data not loaded: " ++ image.info.name)
  else
    result.errorIf (!v.verifyHash image) .hashMismatch
      ("Hash mismatch for image: " ++ image.info.name)

def validateIntegrity (pkg : FirmwarePackage) : ValidationResult :=
  pkg.images.foldl v.checkIntegrity {}

/-- Only the warnings of the dependencies are handed on. -/
def validate (pkg : FirmwarePackage) (level : ValidationLevel) : ValidationResult :=
  let result : ValidationResult := {}
  let result := result.insertErrors (validateManifest pkg)
  let result :=
    if ValidationLevel.basic.value ≤ level.value then
      let depResult := validateDependencies pkg
      let result := result.insertErrors depResult
      { result with warnings := result.warnings ++ depResult.warnings }
    else result
  if ValidationLevel.full.value ≤ level.value then
    (result.insertErrors (validateImages pkg)).insertErrors (v.validateIntegrity pkg)
  else result

end FirmwareValidator

end MBootCore.Firmware
