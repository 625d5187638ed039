import MBootCore.Support.Decoder
import MBootCore.Dsp.DependencyGraph
import MBootCore.Domain.Error
import Mathlib.Logic.Function.Basic

/-!
# Dsp — Cache

The metadata cache of `dsp/DSPCache.cpp`: a package's record in a binary file that is named
after its id. A `std::string` is the list of its bytes.
-/

namespace MBootCore

/-- The fields of a chipset that the cache stores. -/
structure CachedChipset where
  vendor : List UInt8 := []
  family : List UInt8 := []
  variant : List UInt8 := []
  displayName : List UInt8 := []
  deriving DecidableEq, Repr

/-- The fields of a package that the cache stores. The two enumerations are over `uint32_t` and
hold any of its values. -/
structure CachedMetadata where
  packageId : List UInt8 := []
  name : List UInt8 := []
  vendor : List UInt8 := []
  description : List UInt8 := []
  version : DSPVersion := {}
  minCoreVersion : List UInt8 := []
  maxCoreVersion : List UInt8 := []
  state : UInt32 := 0
  origin : UInt32 := 1
  installPath : List UInt8 := []
  packageFileName : List UInt8 := []
  repository : List UInt8 := []
  chipsets : List CachedChipset := []
  deriving DecidableEq, Repr

/-- The files of the cache directory. -/
structure DSPCache where
  files : List UInt8 → Option (List UInt8) := fun _ => none

namespace DSPCache

open LittleEndian Decoder

/-- `".meta"` -/
def kMetaExt : List UInt8 := [0x2E, 0x6D, 0x65, 0x74, 0x61]

/-- `"DSPM"` -/
def kCacheFormatMagic : UInt32 := 0x4443504D

def cachedVersion : DSPVersion := ⟨1, 0, 0⟩

/-! ## File names -/

/-- `std::isalnum` of the "C" locale. -/
def isalnum (c : UInt8) : Bool :=
  (0x30 ≤ c && c ≤ 0x39) || (0x41 ≤ c && c ≤ 0x5A) || (0x61 ≤ c && c ≤ 0x7A)

/-- Letters, digits, `_`, `-` and `.` stay; any other byte becomes `_`. -/
def sanitizeId (id : List UInt8) : List UInt8 :=
  id.map fun c => if isalnum c || c == 0x5F || c == 0x2D || c == 0x2E then c else 0x5F

/-- Within the directory of the cache. -/
def cacheFilePathFor (id ext : List UInt8) : List UInt8 := id ++ ext

def metadataPath (packageId : List UInt8) : List UInt8 :=
  cacheFilePathFor (sanitizeId packageId) kMetaExt

/-! ## Writing -/

def serializeString (s : List UInt8) : List UInt8 :=
  let len := UInt32.ofNat s.length
  encode32 len ++ s.take len.toNat

def serializeVersion (v : DSPVersion) : List UInt8 :=
  encode32 v.major ++ (encode32 v.minor ++ encode32 v.patch)

def serializeChipset (cs : CachedChipset) : List UInt8 :=
  serializeString cs.vendor ++ (serializeString cs.family ++
    (serializeString cs.variant ++ serializeString cs.displayName))

/-- All that stands before the chipsets. -/
def serializeHeader (metadata : CachedMetadata) : List UInt8 :=
  encode32 kCacheFormatMagic ++ (serializeVersion cachedVersion ++
    (serializeString metadata.packageId ++ (serializeString metadata.name ++
    (serializeString metadata.vendor ++ (serializeString metadata.description ++
    (serializeVersion metadata.version ++ (serializeString metadata.minCoreVersion ++
    (serializeString metadata.maxCoreVersion ++ (encode32 metadata.state ++
    (encode32 metadata.origin ++ (serializeString metadata.installPath ++
    (serializeString metadata.packageFileName ++ (serializeString metadata.repository ++
    encode32 (UInt32.ofNat metadata.chipsets.length))))))))))))))

def serializeMetadata (metadata : CachedMetadata) : List UInt8 :=
  serializeHeader metadata ++ metadata.chipsets.flatMap serializeChipset

/-- When the file can be written. -/
def cacheMetadata (cache : DSPCache) (packageId : List UInt8) (metadata : CachedMetadata) :
    DSPCache :=
  { files := Function.update cache.files (metadataPath packageId)
      (some (serializeMetadata metadata)) }

/-! ## Reading -/

def deserializeString : Decoder UInt8 (List UInt8) := do
  let len ← word32
  take len.toNat

def deserializeVersion : Decoder UInt8 DSPVersion := do
  let major ← word32
  let minor ← word32
  let patch ← word32
  return ⟨major, minor, patch⟩

def deserializeChipset : Decoder UInt8 CachedChipset := do
  let vendor ← deserializeString
  let family ← deserializeString
  let variant ← deserializeString
  let displayName ← deserializeString
  return { vendor, family, variant, displayName }

/-- The record without its chipsets, and their count. -/
def deserializeHeader : Decoder UInt8 (CachedMetadata × UInt32) := do
  let magic ← word32
  guard (magic = kCacheFormatMagic)
  let _fmtVer ← deserializeVersion
  let packageId ← deserializeString
  let name ← deserializeString
  let vendor ← deserializeString
  let description ← deserializeString
  let version ← deserializeVersion
  let minCoreVersion ← deserializeString
  let maxCoreVersion ← deserializeString
  let state ← word32
  let origin ← word32
  let installPath ← deserializeString
  let packageFileName ← deserializeString
  let repository ← deserializeString
  let chipsetCount ← word32
  return ({ packageId, name, vendor, description, version, minCoreVersion, maxCoreVersion,
            state, origin, installPath, packageFileName, repository }, chipsetCount)

/-- The loop over the chipsets: one that cannot be read ends it, without an error. -/
def deserializeChipsets : Nat → List UInt8 → List CachedChipset
  | 0, _ => []
  | n + 1, data =>
    match deserializeChipset.run data with
    | none => []
    | some (cs, rest) => cs :: deserializeChipsets n rest

/-- What `loadMetadata` makes of the bytes of a file. -/
def deserializeMetadata (buf : List UInt8) : Except ErrorCode CachedMetadata :=
  if buf.isEmpty then .error .cacheMiss
  else
    match deserializeHeader.run buf with
    | none => .error .unknown
    | some ((metadata, chipsetCount), rest) =>
      .ok { metadata with chipsets := deserializeChipsets chipsetCount.toNat rest }

def loadMetadata (cache : DSPCache) (packageId : List UInt8) : Except ErrorCode CachedMetadata :=
  -- a file that is not there is read as an empty one
  deserializeMetadata ((cache.files (metadataPath packageId)).getD [])

end DSPCache

end MBootCore
