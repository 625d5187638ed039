import MBootCore.Domain.Error
import MBootCore.Dsp.PackageDigest
import MBootCore.Dsp.PackageManifest
import MBootCore.Support.PathTree

/-!
# Dsp — Builder

`DSPBuilder::build` of `dsp/DSPBuilder.cpp`: the source directory is copied to the
package directory, three of its files are written anew, and checksums, compressed
loaders and a checksum manifest are added.

The source and the package directory do not overlap, and no call of the file system
fails but for what lies in its way. zlib is a parameter, and so are the clock and
the table of `computeFileCrc32`.
-/

namespace MBootCore

open Config (Json)
open LexicalPath FileTree PathTree

/-- The contents of a package directory. -/
abbrev PackageTree : Type := PathTree.Tree ByteBuffer

structure BuildConfig where
  sourceDir : String := ""
  outputDir : String := ""
  packageId : String := ""
  name : String := ""
  vendor : String := ""
  version : String := ""
  description : String := ""
  authors : List String := []
  license : String := ""
  compressLoaders : Bool := false
  generateChecksum : Bool := true
  generateManifest : Bool := true
  generateChecksumManifest : Bool := false
  deriving DecidableEq, Repr

structure BuildHost where
  lib : JsonBytes
  nowIso : String
  /-- `compress2` at its best compression. -/
  deflate : ByteBuffer → Option ByteBuffer
  crc32 : ByteBuffer → UInt32

/-- An error code, or an exception that `build` does not catch. -/
inductive BuildFailure where
  | code (e : ErrorCode)
  | thrown
  deriving DecidableEq, Repr

def textBytes (text : String) : ByteBuffer := text.toUTF8.toList

/-- The path of a place below the package directory. -/
def relativePath (place : Place) : String := "/".intercalate place

namespace DSPBuilder

abbrev Build : Type := Except BuildFailure PackageTree

def writeFile (name : String) (contents : ByteBuffer) (tree : PackageTree) : Build :=
  match PathTree.write [name] contents tree with
  | none => .error (.code .invalidArgument)
  | some tree => .ok tree

def copyDirectory (source tree : PackageTree) : Build :=
  match copyEntries source.entries tree with
  | none => .error (.code .unknown)
  | some tree => .ok tree

section Manifest

variable (host : BuildHost) (cfg : BuildConfig)

def manifestJson : Json :=
  Json.ofMembers [
    ("formatVersion", .string "1.0"),
    ("packageId", .string cfg.packageId),
    ("name", .string cfg.name),
    ("vendor", .string cfg.vendor),
    ("description", .string cfg.description),
    ("version", .string cfg.version),
    ("authors", .ofList cfg.authors),
    ("license", .string cfg.license),
    ("buildDate", .string host.nowIso),
    ("compressLoaders", .boolean cfg.compressLoaders),
    ("checksumAlgorithm", .string "SHA256")]

def chipsetsJson : Json := Json.ofMembers [("chipsets", .array [])]

def vendorJson : Json :=
  Json.ofMembers [("vendor", .string cfg.vendor), ("name", .string cfg.name)]

def doGenerateManifest (tree : PackageTree) : Build :=
  writeFile "manifest.json" (host.lib.dumpIndented (manifestJson host cfg)) tree

end Manifest

/-! ## Copies of single directories -/

/-- The files that lie in a directory. -/
def filesIn (dir : String) (source : PackageTree) : Entries ByteBuffer :=
  source.entries.filter fun entry =>
    match entry with
    | ⟨[parent, _], .file _⟩ => parent = dir
    | _ => false

/-- Everything below a directory. -/
def entriesBelow (dir : String) (source : PackageTree) : Entries ByteBuffer :=
  source.entries.filter fun entry => decide (Below [dir] entry.1)

/-- A directory of the source is copied once more. -/
def copyAgain (dir : String) (entries : Entries ByteBuffer) (source tree : PackageTree) : Build :=
  match source.lookup [dir] with
  | none => .ok tree
  | some (.file _) => .error .thrown
  | some .directory =>
    match copyEntries entries tree with
    | none => .error .thrown
    | some tree => .ok tree

/-! ## Checksums -/

/-- The files with a line in `checksum.sha256`. -/
def checksummed (tree : PackageTree) : List (Place × ByteBuffer) :=
  (files tree.entries).filter fun file =>
    file.1 ≠ ["checksum.sha256"] && file.1 ≠ ["signature.sig"]

def checksumLine (file : Place × ByteBuffer) : String :=
  PackageDigest.sha256String file.2 ++ "  " ++ relativePath file.1 ++ "\n"

/-- The file is opened before the entries are read, and left out of them. -/
def doGenerateChecksums (tree : PackageTree) : Build :=
  writeFile "checksum.sha256" ((checksummed tree).flatMap fun file => textBytes (checksumLine file))
    tree

/-! ## Loaders -/

/-- `path::extension` of a file name. -/
def extension (name : String) : String :=
  let split := name.toList.reverse.span (· ≠ '.')
  match split.2 with
  | [] | [_] => ""
  | _ => String.ofList ('.' :: split.1.reverse)

def littleEndian32 (x : UInt32) : ByteBuffer :=
  [x.toUInt8, (x >>> 8).toUInt8, (x >>> 16).toUInt8, (x >>> 24).toUInt8]

/-- The compressed file, if zlib makes one. -/
def gzip (host : BuildHost) (data : ByteBuffer) : Option ByteBuffer :=
  (host.deflate data).map fun deflated =>
    [0x1F, 0x8B, 0x08, 0x00, 0x00, 0x00, 0x00, 0x00, 0x00, 0x03] ++ deflated ++
      littleEndian32 (host.crc32 data) ++ littleEndian32 data.length.toUInt32

/-- One file of the directory of the loaders. -/
def compressLoader (host : BuildHost) (tree : PackageTree) (name : String) (data : ByteBuffer) :
    PackageTree :=
  if extension name = ".gz" then tree
  else if data = [] then tree
  else
    match gzip host data with
    | none => tree
    | some compressed => (PathTree.write ["loaders", name ++ ".gz"] compressed tree).getD tree

/-- The files added on the way end in `.gz` and are passed over. -/
def compressEach (host : BuildHost) : Entries ByteBuffer → PackageTree → PackageTree
  | ⟨[_, name], .file data⟩ :: entries, tree =>
    compressEach host entries (compressLoader host tree name data)
  | _ :: entries, tree => compressEach host entries tree
  | [], tree => tree

def doCompressLoaders (host : BuildHost) (tree : PackageTree) : Build :=
  match tree.lookup ["loaders"] with
  | none => .ok tree
  | some (.file _) => .error .thrown
  | some .directory => .ok (compressEach host (filesIn "loaders" tree) tree)

/-! ## Checksum manifest -/

/-- Without checksums the digest is that of a directory, which cannot be read. -/
def checksumManifest (host : BuildHost) (cfg : BuildConfig) (tree : PackageTree) : String :=
  let digest :=
    match tree.lookup ["checksum.sha256"] with
    | some (.file contents) =>
      "SHA256 digest of checksum.sha256:\n" ++ PackageDigest.sha256String contents ++ "\n"
    | some .directory => "SHA256 digest of checksum.sha256:\n\n"
    | none => "SHA256 digest of package directory:\n\n"
  "-------------------------------------------------\n" ++
  "\n" ++
  "MBoot DSP Package\n" ++
  "\n" ++
  "Checksum Manifest\n" ++
  "\n" ++
  "Algorithm:\n" ++
  "SHA-256\n" ++
  "\n" ++
  "Purpose:\n" ++
  "Integrity verification only.\n" ++
  "This file is NOT a cryptographic signature.\n" ++
  "\n" ++
  "-------------------------------------------------\n" ++
  "\n" ++
  "Package: " ++ (components cfg.packageId).getLastD "" ++ "\n" ++
  "Generated: " ++ host.nowIso ++ "\n" ++
  "\n" ++ digest

def doGenerateChecksumManifest (host : BuildHost) (cfg : BuildConfig) (tree : PackageTree) :
    Build :=
  writeFile "signature.sig" (textBytes (checksumManifest host cfg tree)) tree

/-! ## Builds -/

/-- `if (condition) step`. -/
def whenSet (condition : Bool) (step : PackageTree → Build) (tree : PackageTree) : Build :=
  if condition then step tree else .ok tree

/-- The files of the package, before anything is derived from them. -/
def gather (host : BuildHost) (config : BuildConfig) (source tree : PackageTree) : Build := do
  let tree ← copyDirectory source tree
  let tree ← whenSet config.generateManifest (doGenerateManifest host config) tree
  let tree ← copyAgain "loaders" (filesIn "loaders" source) source tree
  let tree ← writeFile "chipsets.json" (host.lib.dumpIndented chipsetsJson) tree
  let tree ← writeFile "vendor.json" (host.lib.dumpIndented (vendorJson config)) tree
  let tree ← copyAgain "profiles" (entriesBelow "profiles" source) source tree
  copyAgain "quirks" (entriesBelow "quirks" source) source tree

/-- What is derived from the files of the package. -/
def derive (host : BuildHost) (config : BuildConfig) (tree : PackageTree) : Build := do
  let tree ← whenSet config.generateChecksum doGenerateChecksums tree
  let tree ← whenSet config.compressLoaders (doCompressLoaders host) tree
  whenSet config.generateChecksumManifest (doGenerateChecksumManifest host config) tree

/-- `build`, from the source directory if there is one, over what the package
directory holds. -/
def build (host : BuildHost) (config : BuildConfig) (source : Option PackageTree)
    (tree : PackageTree) : Build :=
  match source with
  | none => .error (.code .invalidArgument)
  | some source => gather host config source tree >>= derive host config

end DSPBuilder

end MBootCore
