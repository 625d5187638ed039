import MBootCore.Elf.ExactLayout
import MBootCore.Support.Accesses

/-!
# Elf — ImageBounds

Which bytes `MemoryImageBuilder::build` copies. The file data of a segment are
guarded without a wrap; the place of a segment in the image is computed and
compared in 64 bits, from the address of the segment in front, so a segment below
that one, or one that reaches 2^64 above it, may be written outside of the image.
-/

namespace MBootCore.Elf

open MemoryImageBuilder

/-- The bytes taken of the file for a segment, as `fileData` takes them. -/
def fileAccesses (rawData : ByteBuffer) (ph : ProgramHeader) : List Access :=
  if 0 < ph.filesz ∧ ph.filesz.toNat ≤ rawData.length ∧
      ph.offset.toNat ≤ rawData.length - ph.filesz.toNat then
    [⟨rawData.length, ph.offset.toNat, ph.filesz.toNat⟩]
  else []

/-- A segment that `memcpy` writes into an image of this size. -/
structure ImageCopy where
  seg : SegmentData
  lowestAddr : UInt64
  imageSize : Nat
  deriving DecidableEq, Repr

namespace ImageCopy

def access (c : ImageCopy) : Access :=
  ⟨c.imageSize, (c.seg.vaddr - c.lowestAddr).toNat, c.seg.data.length⟩

/-- The copy stays inside of the image, and neither the offset nor the end of the
segment in the image is computed with a wrap. -/
structure Safe (c : ImageCopy) : Prop where
  inside : c.access.Inside
  offset : c.lowestAddr.toNat ≤ c.seg.vaddr.toNat
  sum : c.access.start + c.access.length < 2 ^ 64

end ImageCopy

/-- The size test of `copySegment`. -/
def isCopied (lowestAddr totalSize : UInt64) (seg : SegmentData) : Bool :=
  seg.vaddr - lowestAddr + seg.data.length.toUInt64 ≤ totalSize

/-- A single segment is the image itself. -/
def mergeCopies (alloc : Allocator) : List SegmentData → List ImageCopy
  | [_] => []
  | segments =>
    let lowestAddr := (segments.headD {}).vaddr
    let totalSize := highestAddr segments - lowestAddr
    if totalSize.toNat ≤ alloc.maxSize then
      (segments.filter (isCopied lowestAddr totalSize)).map (⟨·, lowestAddr, totalSize.toNat⟩)
    else []

def loadedSegments (alloc : Allocator) (sort : List SegmentData → List SegmentData)
    (b : MemoryImageBuilder) (elf : ElfFile) : List SegmentData :=
  if !elf.isValid then []
  else
    match (elf.programHeaders.filter b.isSegmentRequired).mapM (loadSegment alloc elf.rawData) with
    | .error _ => []
    | .ok segments => if b.sortByVaddr then sort segments else segments

/-- The copies into the image in a run of `build`. -/
def buildCopies (alloc : Allocator) (sort : List SegmentData → List SegmentData)
    (b : MemoryImageBuilder) (elf : ElfFile) : List ImageCopy :=
  mergeCopies alloc (loadedSegments alloc sort b elf)

/-- All that `build` copies is copied inside of its bounds: the data of the segments
are read so, and an image of more than one segment is zeros and what is copied into it. -/
structure CopiesInBounds (alloc : Allocator) (sort : List SegmentData → List SegmentData)
    (b : MemoryImageBuilder) (elf : ElfFile) : Prop where
  read : ∀ ph ∈ b.required elf, fileData elf.rawData ph
    = (fileAccesses elf.rawData ph).flatMap fun a => (elf.rawData.drop a.start).take a.length
  file : ∀ ph ∈ b.required elf, ∀ a ∈ fileAccesses elf.rawData ph,
    a.Inside ∧ a.start + a.length < 2 ^ 64
  made : ∀ mem, b.build alloc sort elf = .ok mem → (loadedSegments alloc sort b elf).length ≠ 1 →
    mem.image = (buildCopies alloc sort b elf).foldl
      (fun image c => LittleEndian.patch image c.access.start c.seg.data)
      (List.replicate (mem.highestAddr - mem.lowestAddr).toNat 0)
  image : ∀ c ∈ buildCopies alloc sort b elf, c.Safe

/-! ## The builder -/

variable {alloc : Allocator} {sort : List SegmentData → List SegmentData}
  {b : MemoryImageBuilder} {elf : ElfFile} {raw : ByteBuffer} {ph : ProgramHeader}
  {seg : SegmentData} {segments : List SegmentData} {mem : MemoryImage}

theorem fileData_accesses (raw : ByteBuffer) (ph : ProgramHeader) :
    fileData raw ph = (fileAccesses raw ph).flatMap fun a => (raw.drop a.start).take a.length := by
  rw [fileData, fileAccesses]
  split <;> simp

theorem copySegment_isCopied (lowestAddr totalSize : UInt64) (image : ByteBuffer)
    (seg : SegmentData) : copySegment lowestAddr totalSize image seg
      = if isCopied lowestAddr totalSize seg
        then LittleEndian.patch image (seg.vaddr - lowestAddr).toNat seg.data else image := by
  rw [copySegment, isCopied]
  simp only [decide_eq_true_eq]

theorem foldl_copySegment (lowestAddr totalSize : UInt64) (image : ByteBuffer) :
    segments.foldl (copySegment lowestAddr totalSize) image
      = (segments.filter (isCopied lowestAddr totalSize)).foldl (fun image seg =>
          LittleEndian.patch image (seg.vaddr - lowestAddr).toNat seg.data) image := by
  induction segments generalizing image with
  | nil => rfl
  | cons seg segments ih =>
    rw [List.foldl_cons, copySegment_isCopied, List.filter_cons]
    split
    · rw [List.foldl_cons, ih]
    · exact ih image

theorem mergeCopies_many (alloc : Allocator) (hmany : segments.length ≠ 1) :
    mergeCopies alloc segments
      = if (highestAddr segments - (segments.headD {}).vaddr).toNat ≤ alloc.maxSize then
          (segments.filter (isCopied (segments.headD {}).vaddr
            (highestAddr segments - (segments.headD {}).vaddr))).map
              (⟨·, (segments.headD {}).vaddr,
                (highestAddr segments - (segments.headD {}).vaddr).toNat⟩)
        else [] := by
  rw [mergeCopies.eq_def]
  split
  · exact absurd rfl hmany
  · rfl

/-- The image of more than one segment is made by the copies. -/
theorem contiguousImage_copies {image : ByteBuffer} (hmany : segments.length ≠ 1)
    (h : contiguousImage alloc (segments.headD {}).vaddr (highestAddr segments) segments
      = .ok image) :
    image = (mergeCopies alloc segments).foldl
      (fun image c => LittleEndian.patch image c.access.start c.seg.data)
      (List.replicate (highestAddr segments - (segments.headD {}).vaddr).toNat 0) := by
  have himage : contiguousImage alloc (segments.headD {}).vaddr (highestAddr segments) segments
      = (alloc.resize [] (highestAddr segments - (segments.headD {}).vaddr).toNat).map
          (segments.foldl (copySegment (segments.headD {}).vaddr
            (highestAddr segments - (segments.headD {}).vaddr))) := by
    rw [contiguousImage.eq_def]
    split
    · exact absurd rfl hmany
    · simp only [bind, pure, Except.bind, Except.pure]
      cases alloc.resize [] (highestAddr segments - (segments.headD {}).vaddr).toNat <;> rfl
  have hcopies := mergeCopies_many alloc hmany
  rw [himage, Allocator.resize] at h
  split at h
  · rename_i hsize
    rw [hcopies, if_pos hsize, List.foldl_map]
    cases h
    exact (foldl_copySegment ..).trans (by simp [ByteBuffer.resize, ImageCopy.access])
  · cases h

theorem build_loadedSegments (h : b.build alloc sort elf = .ok mem) :
    mergeSegments alloc elf.header.entry (loadedSegments alloc sort b elf) = .ok mem := by
  rw [build] at h
  rw [loadedSegments]
  cases hvalid : elf.isValid with
  | false =>
    rw [hvalid] at h
    cases h
  | true =>
    simp only [hvalid, Bool.not_true, Bool.false_eq_true, if_false] at h ⊢
    rcases hload : (elf.programHeaders.filter b.isSegmentRequired).mapM
      (loadSegment alloc elf.rawData) with error | segments <;> rw [hload] at h
    · cases h
    · cases hempty : segments.isEmpty with
      | true =>
        simp only [bind, Except.bind, hempty, if_true] at h
        cases h
      | false =>
        simp only [bind, Except.bind, hempty, Bool.false_eq_true, if_false] at h
        exact h

theorem build_copies (h : b.build alloc sort elf = .ok mem)
    (hmany : (loadedSegments alloc sort b elf).length ≠ 1) :
    mem.image = (buildCopies alloc sort b elf).foldl
      (fun image c => LittleEndian.patch image c.access.start c.seg.data)
      (List.replicate (mem.highestAddr - mem.lowestAddr).toNat 0) := by
  obtain ⟨hlowest, hhighest, himage⟩ := mergeSegments_ok (build_loadedSegments h)
  rw [hlowest, hhighest] at himage
  rw [hlowest, hhighest, buildCopies]
  exact contiguousImage_copies hmany himage

/-! ## Places -/

/-- Where the image ends, less where it begins. -/
def imageSize (segments : List SegmentData) : Nat :=
  (highestAddr segments - (segments.headD {}).vaddr).toNat

/-- The segment does not begin inside of the image, or does not end there, and
modulo 2^64 its end does not show it. -/
def Misplaced (lowestAddr size : Nat) (seg : SegmentData) : Prop :=
  let start := seg.vaddr.toNat
  let segEnd := start + seg.data.length
  if start < lowestAddr then
    lowestAddr ≤ segEnd ∧ segEnd ≤ lowestAddr + size ∨ 2 ^ 64 + segEnd ≤ lowestAddr + size
  else 2 ^ 64 + lowestAddr ≤ segEnd ∧ segEnd ≤ 2 ^ 64 + lowestAddr + size

/-- No segment of an image that is built from several ones is misplaced in it. -/
def WellPlaced (alloc : Allocator) (segments : List SegmentData) : Prop :=
  segments.length ≠ 1 → imageSize segments ≤ alloc.maxSize →
    ∀ seg ∈ segments, ¬ Misplaced (segments.headD {}).vaddr.toNat (imageSize segments) seg

theorem length_fileData_le (raw : ByteBuffer) (ph : ProgramHeader) :
    (fileData raw ph).length ≤ raw.length := by
  rw [fileData]
  split
  · rw [List.length_take, List.length_drop]
    omega
  · exact Nat.zero_le _

theorem loadSegment_length (hraw : raw.length < 2 ^ 63)
    (h : loadSegment alloc raw ph = .ok seg) : seg.data.length < 2 ^ 63 := by
  have hfile := length_fileData_le raw ph
  have hmax := alloc.maxSize_lt
  simp only [loadSegment, Allocator.resize, bind, Except.bind] at h
  by_cases hshort : (fileData raw ph).length < ph.memsz.toNat
  · by_cases hsize : ph.memsz.toNat ≤ alloc.maxSize
    · simp only [hshort, hsize, if_true] at h
      cases h
      rw [ByteBuffer.resize_length]
      omega
    · simp only [hshort, hsize, if_true, if_false] at h
      cases h
  · simp only [hshort, if_false] at h
    cases h
    simp only
    omega

theorem mapM_loadSegment_length (hraw : raw.length < 2 ^ 63) {phs : List ProgramHeader}
    (h : phs.mapM (loadSegment alloc raw) = .ok segments) :
    ∀ seg ∈ segments, seg.data.length < 2 ^ 63 := by
  induction phs generalizing segments with
  | nil =>
    cases h
    intro seg hseg
    cases hseg
  | cons ph phs ih =>
    rw [List.mapM_cons] at h
    rcases hload : loadSegment alloc raw ph with error | first <;> rw [hload] at h
    · cases h
    · rcases hrest : phs.mapM (loadSegment alloc raw) with error | rest <;> rw [hrest] at h
      · cases h
      · cases h
        intro seg hseg
        rcases List.mem_cons.mp hseg with rfl | hseg
        · exact loadSegment_length hraw hload
        · exact ih hrest seg hseg

theorem loadedSegments_length (hraw : elf.rawData.length < 2 ^ 63) (hs : IsSort sort) :
    ∀ seg ∈ loadedSegments alloc sort b elf, seg.data.length < 2 ^ 63 := by
  intro seg hseg
  rw [loadedSegments] at hseg
  split at hseg
  · cases hseg
  · split at hseg
    · cases hseg
    · rename_i segments hload
      have hlength := mapM_loadSegment_length hraw hload
      split at hseg
      · exact hlength seg ((hs.perm _).mem_iff.mp hseg)
      · exact hlength seg hseg

/-- The size test of the builder lets exactly the segments through that lie inside
of the image, and those that are misplaced. -/
theorem isCopied_safe_iff {lowestAddr totalSize : UInt64} (hlength : seg.data.length < 2 ^ 63)
    (htotal : totalSize.toNat < 2 ^ 63) :
    (isCopied lowestAddr totalSize seg = true →
        ImageCopy.Safe ⟨seg, lowestAddr, totalSize.toNat⟩) ↔
      ¬ Misplaced lowestAddr.toNat totalSize.toNat seg := by
  have hlow := lowestAddr.toNat_lt
  have hvaddr := seg.vaddr.toNat_lt
  have hsize : seg.data.length.toUInt64.toNat = seg.data.length := Nat.mod_eq_of_lt (by omega)
  have hcopied : isCopied lowestAddr totalSize seg = true ↔
      ((seg.vaddr - lowestAddr).toNat + seg.data.length) % 2 ^ 64 ≤ totalSize.toNat := by
    rw [isCopied, decide_eq_true_iff, UInt64.le_iff_toNat_le, UInt64.toNat_add, hsize]
  have hoffset : (seg.vaddr - lowestAddr).toNat
      = (2 ^ 64 - lowestAddr.toNat + seg.vaddr.toNat) % 2 ^ 64 := UInt64.toNat_sub _ _
  have hsafe : ImageCopy.Safe ⟨seg, lowestAddr, totalSize.toNat⟩ ↔
      (seg.vaddr - lowestAddr).toNat + seg.data.length ≤ totalSize.toNat ∧
        lowestAddr.toNat ≤ seg.vaddr.toNat := by
    constructor
    · exact fun h => ⟨h.inside, h.offset⟩
    · rintro ⟨hinside, hbelow⟩
      exact ⟨hinside, hbelow, by simp only [ImageCopy.access]; omega⟩
  rw [hcopied, hsafe, Misplaced]
  rcases Nat.lt_or_ge seg.vaddr.toNat lowestAddr.toNat with hbelow | hbelow
  · have hstart : (seg.vaddr - lowestAddr).toNat
        = 2 ^ 64 - lowestAddr.toNat + seg.vaddr.toNat := by
      rw [hoffset]
      exact Nat.mod_eq_of_lt (by omega)
    simp only [hstart, if_pos hbelow]
    omega
  · have hstart : (seg.vaddr - lowestAddr).toNat = seg.vaddr.toNat - lowestAddr.toNat := by
      rw [hoffset]
      omega
    simp only [hstart, if_neg (Nat.not_lt.mpr hbelow)]
    omega

theorem fileAccesses_inside (hraw : raw.length < 2 ^ 63) :
    ∀ a ∈ fileAccesses raw ph, a.Inside ∧ a.start + a.length < 2 ^ 64 := by
  intro a ha
  rw [fileAccesses] at ha
  split at ha
  · rename_i hguard
    obtain ⟨-, hsize, hoffset⟩ := hguard
    rw [List.mem_singleton.mp ha]
    simp only [Access.Inside]
    omega
  · cases ha

theorem mergeCopies_safe_iff (hlength : ∀ seg ∈ segments, seg.data.length < 2 ^ 63) :
    (∀ c ∈ mergeCopies alloc segments, c.Safe) ↔ WellPlaced alloc segments := by
  have hmax := alloc.maxSize_lt
  rw [mergeCopies.eq_def, WellPlaced]
  split
  · simp
  · rename_i hmany
    have hne : segments.length ≠ 1 := by
      intro h
      obtain ⟨seg, hseg⟩ := List.length_eq_one_iff.mp h
      exact hmany seg hseg
    by_cases hsize : imageSize segments ≤ alloc.maxSize
    · have hsize' : (highestAddr segments - (segments.headD {}).vaddr).toNat ≤ alloc.maxSize :=
        hsize
      simp only [hsize', hsize, hne, if_true, ne_eq, not_false_eq_true, true_implies,
        List.forall_mem_map, List.mem_filter, and_imp]
      refine forall₂_congr fun seg hseg => ?_
      exact isCopied_safe_iff (hlength seg hseg) (by omega)
    · have hsize' : ¬ (highestAddr segments - (segments.headD {}).vaddr).toNat ≤ alloc.maxSize :=
        hsize
      simp only [hsize', hsize, if_false, false_implies, implies_true, iff_true]
      intro c hc
      cases hc

/-- The builder copies inside of its bounds exactly when no segment is misplaced. -/
theorem copiesInBounds_iff (hraw : elf.rawData.length < 2 ^ 63) (hs : IsSort sort) :
    CopiesInBounds alloc sort b elf ↔ WellPlaced alloc (loadedSegments alloc sort b elf) := by
  rw [← mergeCopies_safe_iff (loadedSegments_length hraw hs)]
  constructor
  · intro h
    exact h.image
  · intro h
    exact
      { read := fun ph _ => fileData_accesses elf.rawData ph
        file := fun ph _ => fileAccesses_inside hraw
        made := fun mem hbuild hmany => build_copies hbuild hmany
        image := h }

/-- Two segments of 32 bytes, the second one right behind the first. -/
def adjacentElf : ElfFile where
  header := { elfClass := .elf64, elfVersion := 1 }
  programHeaders :=
    [{ type := .load, vaddr := 0x1000, memsz := 32 },
      { type := .load, vaddr := 0x1020, memsz := 32 }]
  rawData := []

theorem copiesInBounds_adjacent : CopiesInBounds sampleAllocator (sortLast {}) {} adjacentElf := by
  have hplaced : WellPlaced sampleAllocator
      (loadedSegments sampleAllocator (sortLast {}) {} adjacentElf) := by
    unfold WellPlaced Misplaced
    decide
  exact (copiesInBounds_iff (by decide) (isSort_sortLast _)).mpr hplaced

/-- The segment in front is not the lowest one, and the other one reaches into it. -/
def unsortedElf : ElfFile where
  header := { elfClass := .elf64, elfVersion := 1 }
  programHeaders :=
    [{ type := .load, vaddr := 0x1000, memsz := 64 },
      { type := .load, vaddr := 0xFF0, memsz := 32 }]
  rawData := []

/-- Without sorting, 32 bytes are written to an image of 64 from 2^64 - 16 on. -/
theorem copiesInBounds_unsorted :
    IsSort (sortLast {}) ∧
      (⟨64, 2 ^ 64 - 16, 32⟩ : Access) ∈ (buildCopies sampleAllocator (sortLast {})
        { sortByVaddr := false } unsortedElf).map ImageCopy.access ∧
      ¬ CopiesInBounds sampleAllocator (sortLast {}) { sortByVaddr := false } unsortedElf := by
  have hcopied : (⟨{ vaddr := 0xFF0, memsz := 32, data := List.replicate 32 0 }, 0x1000, 64⟩ :
      ImageCopy) ∈ buildCopies sampleAllocator (sortLast {}) { sortByVaddr := false }
        unsortedElf := by
    decide
  refine ⟨isSort_sortLast _, List.mem_map.mpr ⟨_, hcopied, by decide⟩, ?_⟩
  intro h
  have hbelow : (0x1000 : UInt64).toNat ≤ (0xFF0 : UInt64).toNat := (h.image _ hcopied).offset
  revert hbelow
  decide

end MBootCore.Elf
