import MBootCore.Elf.ElfParser
import Mathlib

/-!
# Elf — MemoryImageBuilder

`MemoryImageBuilder` of `elf/MemoryImageBuilder.cpp`: the loadable segments of
an ELF file, merged into one image. A vector may not get as large as the file
asks, and then an exception leaves the builder. `std::sort` leaves segments of
one address in any order; it is a parameter.
-/

namespace MBootCore.Elf

structure SegmentData where
  vaddr : UInt64 := 0
  paddr : UInt64 := 0
  filesz : UInt64 := 0
  memsz : UInt64 := 0
  flags : UInt32 := 0
  data : ByteBuffer := []
  deriving DecidableEq, Repr

structure MemoryImage where
  lowestAddr : UInt64
  highestAddr : UInt64
  totalFileSize : UInt64
  totalMemSize : UInt64
  entryPoint : UInt64
  image : ByteBuffer
  segments : List SegmentData
  deriving DecidableEq, Repr

/-- How large a vector of bytes can get: never beyond the largest `ptrdiff_t`. -/
structure Allocator where
  maxSize : Nat
  maxSize_lt : maxSize < 2 ^ 63

inductive Failure where
  | returned (error : ErrorCode)
  | outOfMemory
  deriving DecidableEq, Repr

def Allocator.resize (alloc : Allocator) (buffer : ByteBuffer) (size : Nat) :
    Except Failure ByteBuffer :=
  if size ≤ alloc.maxSize then .ok (buffer.resize size) else .error .outOfMemory

/-- What is known of `std::sort` by address. -/
structure IsSort (sort : List SegmentData → List SegmentData) : Prop where
  perm : ∀ segments, (sort segments).Perm segments
  sorted : ∀ segments, (sort segments).Pairwise (·.vaddr ≤ ·.vaddr)

/-- The options of the builder that `build` reads. -/
structure MemoryImageBuilder where
  requiredFlags : UInt32 := 0
  sortByVaddr : Bool := true
  deriving DecidableEq, Repr

namespace MemoryImageBuilder

def isSegmentRequired (b : MemoryImageBuilder) (ph : ProgramHeader) : Bool :=
  ph.isLoadable && (b.requiredFlags = 0 || ph.flags &&& b.requiredFlags = b.requiredFlags)

/-- The file data of a segment; none if they are not all in the file. -/
def fileData (rawData : ByteBuffer) (ph : ProgramHeader) : ByteBuffer :=
  if 0 < ph.filesz ∧ ph.filesz.toNat ≤ rawData.length ∧
      ph.offset.toNat ≤ rawData.length - ph.filesz.toNat then
    (rawData.drop ph.offset.toNat).take ph.filesz.toNat
  else []

def loadSegment (alloc : Allocator) (rawData : ByteBuffer) (ph : ProgramHeader) :
    Except Failure SegmentData := do
  let data := fileData rawData ph
  let data ←
    if data.length < ph.memsz.toNat then alloc.resize data ph.memsz.toNat else pure data
  pure
    { vaddr := ph.vaddr, paddr := ph.paddr, filesz := ph.filesz, memsz := ph.memsz,
      flags := ph.flags, data }

def highestAddr (segments : List SegmentData) : UInt64 :=
  segments.foldl (fun highest seg =>
    let segEnd := seg.vaddr + seg.memsz
    if highest < segEnd then segEnd else highest) 0

/-- One segment is copied; a copy that would not fit is left out. -/
def copySegment (lowestAddr totalSize : UInt64) (image : ByteBuffer) (seg : SegmentData) :
    ByteBuffer :=
  let offset := seg.vaddr - lowestAddr
  if offset + seg.data.length.toUInt64 ≤ totalSize then
    LittleEndian.patch image offset.toNat seg.data
  else image

def contiguousImage (alloc : Allocator) (lowestAddr highestAddr : UInt64) :
    List SegmentData → Except Failure ByteBuffer
  | [seg] => .ok seg.data
  | segments => do
    let totalSize := highestAddr - lowestAddr
    let image ← alloc.resize [] totalSize.toNat
    pure (segments.foldl (copySegment lowestAddr totalSize) image)

/-- The segments, in the order they are in, as one image. -/
def mergeSegments (alloc : Allocator) (entryPoint : UInt64) (segments : List SegmentData) :
    Except Failure MemoryImage := do
  let lowestAddr := (segments.headD {}).vaddr
  let highestAddr := highestAddr segments
  let image ← contiguousImage alloc lowestAddr highestAddr segments
  pure
    { lowestAddr, highestAddr, image, segments, entryPoint
      totalFileSize := (segments.map SegmentData.filesz).sum
      totalMemSize := (segments.map SegmentData.memsz).sum }

def build (alloc : Allocator) (sort : List SegmentData → List SegmentData)
    (b : MemoryImageBuilder) (elf : ElfFile) : Except Failure MemoryImage :=
  if !elf.isValid then .error (.returned .invalidElf)
  else do
    let segments ←
      (elf.programHeaders.filter b.isSegmentRequired).mapM (loadSegment alloc elf.rawData)
    if segments.isEmpty then .error (.returned .invalidElf)
    else
      mergeSegments alloc elf.header.entry (if b.sortByVaddr then sort segments else segments)

end MemoryImageBuilder

end MBootCore.Elf
