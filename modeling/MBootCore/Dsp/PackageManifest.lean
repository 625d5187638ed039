import MBootCore.Config.ConfigManager
import MBootCore.Dsp.Manager
import MBootCore.Domain.Types
import Mathlib.Data.List.DropRight

/-!
# Dsp — PackageManifest

The two readers of a `manifest.json`: `DSPManager::loadPackageManifest`, which
throws on a member of another type than it asks for, and
`DSPRepository::loadPackage`, which takes the default instead. Where the first
succeeds they agree on the id, the version and the dependencies.

`nlohmann::json` is a parameter. The dates are kept as the texts they are read
from.
-/

namespace MBootCore

open Config (Json)

/-- `parse`, `dump(2)`, and the cast of a floating-point number to `uint64_t`. -/
structure JsonBytes where
  parse : ByteBuffer → Option Json
  dumpIndented : Json → ByteBuffer
  truncate : String → UInt64

namespace DSPVersion

/-- The groups of a match with `(\d+)\.(\d+)\.(\d+)`. -/
def groups (text : List Char) : Option (List Char × List Char × List Char) :=
  match text.splitOn '.' with
  | [major, minor, patch] =>
    if [major, minor, patch].all fun part => !part.isEmpty && part.all Char.isDigit then
      some (major, minor, patch)
    else none
  | _ => none

/-- The parts of a version that are matched and in range replace the old ones. -/
def readInto (old : DSPVersion) (text : String) : DSPVersion :=
  match groups text.toList with
  | none => old
  | some (major, minor, patch) =>
    { major := (SafeParser.fromCharsUint32 major).getD old.major
      minor := (SafeParser.fromCharsUint32 minor).getD old.minor
      patch := (SafeParser.fromCharsUint32 patch).getD old.patch }

def isSpace (c : Char) : Bool :=
  c = ' ' || c = '\t' || c = '\n' || c = '\x0b' || c = '\x0c' || c = '\r'

/-- The groups of a match with `(\d+\.\d+\.\d+)\s*-\s*(\d+\.\d+\.\d+)`. -/
def range (text : List Char) : Option (List Char × List Char) :=
  match text.splitOn '-' with
  | [left, right] =>
    let minText := left.rdropWhile isSpace
    let maxText := right.dropWhile isSpace
    if (groups minText).isSome && (groups maxText).isSome then some (minText, maxText) else none
  | _ => none

end DSPVersion

def stringToVersion (text : String) : DSPVersion := DSPVersion.readInto {} text

/-- The manifest with the fields the package readers fill. -/
structure DSPManifestRecord extends DSPManifest where
  formatVersion : String := "1.0"
  name : String := ""
  vendor : String := ""
  description : String := ""
  license : String := ""
  minCoreVersion : String := ""
  maxCoreVersion : String := ""
  checksumAlgorithm : String := "none"
  signatureAlgorithm : String := ""
  fileSize : UInt64 := 0
  checksum : UInt32 := 0
  requiresSignature : Bool := false
  compressLoaders : Bool := false
  tags : List String := []
  authors : List String := []
  buildDate : String := ""
  releaseDate : String := ""
  signature : String := ""
  deriving DecidableEq, Repr

namespace PackageReader

variable (lib : JsonBytes)

def asUint64? : Json → Option UInt64
  | .unsigned n => some n
  | .integer n => some n.toUInt64
  | .float text => some (lib.truncate text)
  | _ => none

def asBool? : Json → Option Bool
  | .boolean b => some b
  | _ => none

/-- `j.value(key, default)`, which throws on a value of another type. -/
def value {α : Type} (read : Json → Option α) (default : α) (j : Json) (key : String) : Option α :=
  match j.member? key with
  | none => some default
  | some v => read v

def stringValue (j : Json) (key : String) : Option String := value Json.asString? "" j key

def uintValue (j : Json) (key : String) : Option UInt64 := value (asUint64? lib) 0 j key

def boolValue (j : Json) (key : String) : Option Bool := value asBool? false j key

/-- The strings of an array; nothing of any other value. -/
def strings : Option Json → List String
  | some (.array items) => items.filterMap Json.asString?
  | _ => []

/-- The members of an object. -/
def entries : Option Json → List (String × Json)
  | some (.object members) => members
  | _ => []

/-- The version text of a dependency; any other value counts as none. -/
def versionText (v : Json) : String := (Json.asString? v).getD ""

/-- A dependency as `loadPackageManifest` reads it. -/
def readDependency (key depVer : String) : DSPDependency :=
  let dep : DSPDependency := { packageId := key, name := key, required := true }
  if depVer.isEmpty then dep
  else
    match DSPVersion.range depVer.toList with
    | some (minText, maxText) =>
      { dep with
        minVersion := dep.minVersion.readInto (String.ofList minText)
        maxVersion := dep.maxVersion.readInto (String.ofList maxText) }
    | none =>
      if (DSPVersion.groups depVer.toList).isSome then
        { dep with
          minVersion := dep.minVersion.readInto depVer
          maxVersion := dep.minVersion.readInto depVer }
      else dep

/-- The manifest part of `loadPackageManifest`, into a record that may have been
filled before; `none` is an exception. -/
def readManifest (j : Json) (old : DSPManifestRecord) : Option DSPManifestRecord := do
  let formatVersion ← stringValue j "formatVersion"
  let packageId ← stringValue j "packageId"
  let name ← stringValue j "name"
  let vendor ← stringValue j "vendor"
  let description ← stringValue j "description"
  let license ← stringValue j "license"
  let minCoreVersion ← stringValue j "minCoreVersion"
  let maxCoreVersion ← stringValue j "maxCoreVersion"
  let checksumAlgorithm ← stringValue j "checksumAlgorithm"
  let signatureAlgorithm ← stringValue j "signatureAlgorithm"
  let fileSize ← uintValue lib j "fileSize"
  let checksum ← uintValue lib j "checksum"
  let requiresSignature ← boolValue j "requiresSignature"
  let compressLoaders ← boolValue j "compressLoaders"
  let versionStr ← stringValue j "version"
  let buildDate ← stringValue j "buildDate"
  let releaseDate ← stringValue j "releaseDate"
  let signature ← stringValue j "signature"
  return { packageId, formatVersion, name, vendor, description, license, minCoreVersion,
           maxCoreVersion, checksumAlgorithm, signatureAlgorithm, fileSize,
           checksum := checksum.toUInt32, requiresSignature, compressLoaders
           version := old.version.readInto versionStr
           tags := old.tags ++ strings (j.member? "tags")
           authors := old.authors ++ strings (j.member? "authors")
           dependencies :=
             old.dependencies ++ (entries (j.member? "dependencies")).map
               fun e => readDependency e.1 (versionText e.2)
           buildDate := if buildDate.isEmpty then old.buildDate else buildDate
           releaseDate := if releaseDate.isEmpty then old.releaseDate else releaseDate
           signature := if signature.isEmpty then old.signature else signature }

/-! ## The repository's reader -/

/-- `jStr`: a string, or none. -/
def jStr (j : Json) (key : String) : String := ((j.member? key).bind Json.asString?).getD ""

/-- A dependency as `loadPackage` reads it. -/
def loadDependency (key depVer : String) : DSPDependency :=
  let dep : DSPDependency := { packageId := key, name := key, required := true }
  if depVer.isEmpty then dep
  else
    match DSPVersion.range depVer.toList with
    | some (minText, maxText) =>
      { dep with
        minVersion := stringToVersion (String.ofList minText)
        maxVersion := stringToVersion (String.ofList maxText) }
    | none =>
      { dep with minVersion := stringToVersion depVer, maxVersion := stringToVersion depVer }

/-- What `loadPackage` reads of a manifest that the manager looks at. -/
def loadManifest (j : Json) : DSPManifest where
  packageId := jStr j "packageId"
  version :=
    if (jStr j "version").isEmpty then {} else stringToVersion (jStr j "version")
  dependencies := (entries (j.member? "dependencies")).map
    fun e => loadDependency e.1 (versionText e.2)

/-! ## Their agreement -/

theorem readInto_empty (old : DSPVersion) : old.readInto "" = old := rfl

theorem loadDependency_eq (key depVer : String) :
    loadDependency key depVer = readDependency key depVer := by
  rw [loadDependency, readDependency]
  split
  · rfl
  · cases hrange : DSPVersion.range depVer.toList with
    | some texts => rfl
    | none =>
      -- without a match both bounds keep their default
      cases hgroups : DSPVersion.groups depVer.toList with
      | some parts => rfl
      | none => simp [stringToVersion, DSPVersion.readInto, hgroups]

theorem jStr_of_stringValue {j : Json} {key text : String} (h : stringValue j key = some text) :
    jStr j key = text := by
  rw [stringValue, value] at h
  rw [jStr]
  split at h
  · rename_i hnone
    cases h
    simp [hnone]
  · rename_i v hv
    simp [hv, h]

/-- Where the manager reads a manifest into an empty record, the repository reads
the same id, version and dependencies. -/
theorem loadManifest_eq {j : Json} {record : DSPManifestRecord}
    (h : readManifest lib j { packageId := "" } = some record) :
    loadManifest j = record.toDSPManifest := by
  rw [readManifest] at h
  obtain ⟨_, -, h⟩ := Option.bind_eq_some_iff.mp h
  obtain ⟨id, hid, h⟩ := Option.bind_eq_some_iff.mp h
  iterate 12 obtain ⟨_, -, h⟩ := Option.bind_eq_some_iff.mp h
  obtain ⟨version, hversion, h⟩ := Option.bind_eq_some_iff.mp h
  iterate 3 obtain ⟨_, -, h⟩ := Option.bind_eq_some_iff.mp h
  cases h
  rw [loadManifest, jStr_of_stringValue hid, jStr_of_stringValue hversion]
  simp only [List.nil_append, stringToVersion, loadDependency_eq]
  split
  · rename_i hempty
    rw [String.isEmpty_iff.mp hempty, readInto_empty]
  · rfl

end PackageReader

end MBootCore
