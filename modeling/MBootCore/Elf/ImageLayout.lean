import MBootCore.Elf.MemoryImageBuilder
import MBootCore.Elf.ParserSpec
import MBootCore.Support.Layers
import Mathlib.Data.List.Basic
import Mathlib.Order.Bounds.Basic

/-!
# Elf — ImageLayout

Is every loadable segment where it belongs in the image? The parser only warns
of a segment with more bytes in the file than in memory. Such bytes may reach
past the highest address, where the builder leaves the whole segment out, or into
another segment; and addresses may wrap around. Files without any of this are
laid out exactly, and no others.
-/

namespace MBootCore.Elf

variable {alloc : Allocator} {sort sort' : List SegmentData → List SegmentData}
  {b : MemoryImageBuilder} {elf : ElfFile} {mem mem' : MemoryImage} {raw : ByteBuffer}
  {ph : ProgramHeader}

/-- The headers of the segments the builder loads. -/
def MemoryImageBuilder.required (b : MemoryImageBuilder) (elf : ElfFile) : List ProgramHeader :=
  elf.programHeaders.filter b.isSegmentRequired

/-- The image is the memory from the lowest to the highest address: the file data
of every segment in their places, and zeros. -/
structure LaidOut (b : MemoryImageBuilder) (elf : ElfFile) (mem : MemoryImage) : Prop where
  lowest : IsLeast {a | ∃ ph ∈ b.required elf, ph.vaddr.toNat = a} mem.lowestAddr.toNat
  highest : IsGreatest {a | ∃ ph ∈ b.required elf, ph.vaddr.toNat + ph.memsz.toNat = a}
    mem.highestAddr.toNat
  span : mem.image.length = mem.highestAddr.toNat - mem.lowestAddr.toNat
  bytes : ∀ ph ∈ b.required elf, ∀ k < ph.filesz.toNat,
    mem.image[ph.vaddr.toNat - mem.lowestAddr.toNat + k]? = elf.rawData[ph.offset.toNat + k]?
  zeros : ∀ i < mem.image.length, (∀ ph ∈ b.required elf, ∀ k < ph.filesz.toNat,
      ph.vaddr.toNat - mem.lowestAddr.toNat + k ≠ i) → mem.image[i]? = some 0

/-- Byte `k` of what is loaded of a segment: its file data, then zeros. -/
def segmentByte (raw : ByteBuffer) (ph : ProgramHeader) (k : Nat) : UInt8 :=
  if k < ph.filesz.toNat then raw.getD (ph.offset.toNat + k) 0 else 0

/-- How many bytes are loaded of a segment. -/
def ProgramHeader.loadedSize (ph : ProgramHeader) : Nat := max ph.filesz.toNat ph.memsz.toNat

/-- No segment ends beyond the last address, no file data reaches past the
highest address, and where file data of one segment meets another segment the
bytes are the same. -/
structure Placeable (phs : List ProgramHeader) (raw : ByteBuffer) : Prop where
  ends : ∀ ph ∈ phs, ph.vaddr.toNat + ph.memsz.toNat < 2 ^ 64
  fits : ∀ ph ∈ phs, ∃ other ∈ phs,
    ph.vaddr.toNat + ph.filesz.toNat ≤ other.vaddr.toNat + other.memsz.toNat
  agree : ∀ ph ∈ phs, ∀ other ∈ phs, ∀ k < ph.filesz.toNat, ∀ j < other.loadedSize,
    ph.vaddr.toNat + k = other.vaddr.toNat + j → segmentByte raw other j = segmentByte raw ph k

/-! ## Segments -/

/-- The file data of the segment are in the file. -/
def InFile (raw : ByteBuffer) (ph : ProgramHeader) : Prop :=
  ph.offset.toNat + ph.filesz.toNat ≤ raw.length

/-- The segment a header describes. -/
def segmentOf (raw : ByteBuffer) (ph : ProgramHeader) : SegmentData :=
  let data := MemoryImageBuilder.fileData raw ph
  { vaddr := ph.vaddr, paddr := ph.paddr, filesz := ph.filesz, memsz := ph.memsz,
    flags := ph.flags
    data := if data.length < ph.memsz.toNat then data.resize ph.memsz.toNat else data }

theorem loadSegment_ok {seg : SegmentData}
    (h : MemoryImageBuilder.loadSegment alloc raw ph = .ok seg) : seg = segmentOf raw ph := by
  simp only [MemoryImageBuilder.loadSegment, Allocator.resize, bind, Except.bind] at h
  simp only [segmentOf]
  by_cases hshort : (MemoryImageBuilder.fileData raw ph).length < ph.memsz.toNat
  · by_cases hsize : ph.memsz.toNat ≤ alloc.maxSize
    · simp only [hshort, hsize, if_true] at h ⊢
      cases h
      rfl
    · simp only [hshort, hsize, if_true, if_false] at h
      cases h
  · simp only [hshort, if_false] at h ⊢
    cases h
    rfl

theorem fileData_eq (hin : InFile raw ph) :
    MemoryImageBuilder.fileData raw ph
      = (raw.drop ph.offset.toNat).take ph.filesz.toNat := by
  rw [InFile] at hin
  rw [MemoryImageBuilder.fileData]
  split
  · rfl
  · rename_i h
    have hnone : ph.filesz.toNat = 0 := by
      have hpos : 0 < ph.filesz ↔ 0 < ph.filesz.toNat := UInt64.lt_iff_toNat_lt
      rw [hpos] at h
      omega
    rw [hnone, List.take_zero]

theorem length_fileData (hin : InFile raw ph) :
    (MemoryImageBuilder.fileData raw ph).length = ph.filesz.toNat := by
  rw [fileData_eq hin, List.length_take, List.length_drop]
  rw [InFile] at hin
  omega

theorem length_segmentOf (hin : InFile raw ph) :
    (segmentOf raw ph).data.length = ph.loadedSize := by
  simp only [segmentOf, length_fileData hin, ProgramHeader.loadedSize]
  split
  · rw [ByteBuffer.resize_length]
    omega
  · rw [length_fileData hin]
    omega

theorem getElem?_segmentOf (hin : InFile raw ph) {k : Nat} (hk : k < ph.loadedSize) :
    (segmentOf raw ph).data[k]? = some (segmentByte raw ph k) := by
  have hfile : ∀ k < ph.filesz.toNat, (MemoryImageBuilder.fileData raw ph)[k]?
      = some (raw.getD (ph.offset.toNat + k) 0) := by
    intro k hk
    have hlt : ph.offset.toNat + k < raw.length := by
      rw [InFile] at hin
      omega
    rw [fileData_eq hin, List.getElem?_take_of_lt hk, List.getElem?_drop,
      List.getElem?_eq_getElem hlt, List.getD_eq_getElem _ _ hlt]
  have hlength := length_fileData hin
  rw [ProgramHeader.loadedSize] at hk
  simp only [segmentOf, segmentByte]
  by_cases hfileByte : k < ph.filesz.toNat
  · rw [if_pos hfileByte, ← hfile k hfileByte]
    split
    · rw [ByteBuffer.resize, List.take_of_length_le (by omega),
        List.getElem?_append_left (by omega)]
    · rfl
  · rw [if_neg hfileByte, if_pos (by omega), ByteBuffer.resize,
      List.take_of_length_le (by omega), List.getElem?_append_right (by omega),
      List.getElem?_replicate, if_pos (by omega)]

/-! ## Runs of the builder -/

theorem mapM_ok {α β ε : Type} {f : α → Except ε β} {g : α → β}
    (hf : ∀ a b, f a = .ok b → b = g a) {as : List α} {bs : List β} (h : as.mapM f = .ok bs) :
    bs = as.map g := by
  induction as generalizing bs with
  | nil =>
    cases h
    rfl
  | cons a as ih =>
    rw [List.mapM_cons] at h
    rcases ha : f a with error | b <;> rw [ha] at h
    · cases h
    · rcases hrest : as.mapM f with error | bs' <;> rw [hrest] at h
      · cases h
      · cases h
        rw [hf a b ha, ih hrest]
        rfl

/-- The segments in the order in which they are written. -/
def sortedSegments (sort : List SegmentData → List SegmentData) (b : MemoryImageBuilder)
    (elf : ElfFile) : List SegmentData :=
  sort ((b.required elf).map (segmentOf elf.rawData))

theorem build_eq (hsort : b.sortByVaddr = true) (h : b.build alloc sort elf = .ok mem) :
    elf.isValid = true ∧ b.required elf ≠ [] ∧ ∀ sort', b.build alloc sort' elf
      = MemoryImageBuilder.mergeSegments alloc elf.header.entry (sortedSegments sort' b elf) := by
  rw [MemoryImageBuilder.build] at h
  cases hvalid : elf.isValid with
  | false =>
    rw [hvalid] at h
    cases h
  | true =>
    simp only [hvalid, Bool.not_true, Bool.false_eq_true, if_false] at h
    rcases hload : (elf.programHeaders.filter b.isSegmentRequired).mapM
      (MemoryImageBuilder.loadSegment alloc elf.rawData) with error | segments <;>
      rw [hload] at h
    · cases h
    · have hsegments : segments = (b.required elf).map (segmentOf elf.rawData) :=
        mapM_ok (fun _ _ => loadSegment_ok) hload
      cases hempty : segments.isEmpty with
      | true =>
        simp only [bind, Except.bind, hempty, if_true] at h
        cases h
      | false =>
        refine ⟨rfl, fun hnone => ?_, fun sort' => ?_⟩
        · rw [hsegments, hnone] at hempty
          cases hempty
        · rw [MemoryImageBuilder.build, hvalid, hload]
          simp only [Bool.not_true, Bool.false_eq_true, if_false, bind, Except.bind, hempty, hsort,
            if_true]
          rw [sortedSegments, hsegments]

/-! ## Extents -/

open MemoryImageBuilder

theorem mem_sortedSegments (hs : IsSort sort) {seg : SegmentData} :
    seg ∈ sortedSegments sort b elf ↔ ∃ ph ∈ b.required elf, segmentOf elf.rawData ph = seg := by
  rw [sortedSegments, (hs.perm _).mem_iff, List.mem_map]

theorem isLeast_lowestAddr (hs : IsSort sort) (hrequired : b.required elf ≠ []) :
    IsLeast {a | ∃ ph ∈ b.required elf, ph.vaddr.toNat = a}
      ((sortedSegments sort b elf).headD {}).vaddr.toNat := by
  have hmem : ∀ seg, seg ∈ sortedSegments sort b elf ↔
      ∃ ph ∈ b.required elf, segmentOf elf.rawData ph = seg := fun _ => mem_sortedSegments hs
  have hsorted : (sortedSegments sort b elf).Pairwise (·.vaddr ≤ ·.vaddr) := hs.sorted _
  cases hsegments : sortedSegments sort b elf with
  | nil =>
    obtain ⟨ph, hph⟩ := List.exists_mem_of_ne_nil _ hrequired
    have hnone := (hmem _).mpr ⟨ph, hph, rfl⟩
    rw [hsegments] at hnone
    cases hnone
  | cons first rest =>
    rw [hsegments] at hmem hsorted
    constructor
    · obtain ⟨ph, hph, hfirst⟩ := (hmem first).mp List.mem_cons_self
      exact ⟨ph, hph, by rw [← hfirst]; rfl⟩
    · rintro a ⟨ph, hph, rfl⟩
      rcases List.mem_cons.mp ((hmem _).mpr ⟨ph, hph, rfl⟩) with hfirst | hrest
      · rw [← hfirst]
        exact Nat.le_refl _
      · exact UInt64.le_iff_toNat_le.mp (List.rel_of_pairwise_cons hsorted hrest)

theorem highestAddr_foldl (segments : List SegmentData) (highest : UInt64) :
    IsGreatest {a | highest.toNat = a ∨ ∃ seg ∈ segments, (seg.vaddr + seg.memsz).toNat = a}
      (segments.foldl (fun highest seg =>
        let segEnd := seg.vaddr + seg.memsz
        if highest < segEnd then segEnd else highest) highest).toNat := by
  induction segments generalizing highest with
  | nil =>
    refine ⟨.inl rfl, ?_⟩
    rintro a (rfl | ⟨seg, hseg, -⟩)
    · exact Nat.le_refl _
    · cases hseg
  | cons seg segments ih =>
    have hlt : highest < seg.vaddr + seg.memsz ↔ highest.toNat < (seg.vaddr + seg.memsz).toNat :=
      UInt64.lt_iff_toNat_lt
    have hmax : (if highest < seg.vaddr + seg.memsz then seg.vaddr + seg.memsz else highest).toNat
        = max highest.toNat (seg.vaddr + seg.memsz).toNat := by
      split <;> rename_i h <;> rw [hlt] at h <;> omega
    obtain ⟨hreached, hbound⟩ := ih (if highest < seg.vaddr + seg.memsz then
      seg.vaddr + seg.memsz else highest)
    have hnext := hbound (.inl hmax)
    rw [List.foldl_cons]
    constructor
    · rcases hreached with hinit | ⟨other, hother, hend⟩
      · rcases Nat.le_total highest.toNat (seg.vaddr + seg.memsz).toNat with hle | hle
        · refine .inr ⟨seg, List.mem_cons_self, ?_⟩
          rw [← hinit, hmax, Nat.max_eq_right hle]
        · refine .inl ?_
          rw [← hinit, hmax, Nat.max_eq_left hle]
      · exact .inr ⟨other, List.mem_cons_of_mem _ hother, hend⟩
    · rintro a (rfl | ⟨other, hother, rfl⟩)
      · exact Nat.le_trans (Nat.le_max_left _ _) hnext
      · rcases List.mem_cons.mp hother with rfl | hother
        · exact Nat.le_trans (Nat.le_max_right _ _) hnext
        · exact hbound (.inr ⟨other, hother, rfl⟩)

theorem highestAddr_perm (hs : IsSort sort) (hs' : IsSort sort') :
    highestAddr (sortedSegments sort b elf) = highestAddr (sortedSegments sort' b elf) := by
  have hmem : ∀ seg, seg ∈ sortedSegments sort b elf ↔ seg ∈ sortedSegments sort' b elf :=
    fun seg => by rw [mem_sortedSegments hs, mem_sortedSegments hs']
  have hgreatest := highestAddr_foldl (sortedSegments sort b elf) 0
  simp only [hmem] at hgreatest
  exact UInt64.toNat_inj.mp (hgreatest.unique (highestAddr_foldl (sortedSegments sort' b elf) 0))

theorem isGreatest_highestAddr (hs : IsSort sort) (hrequired : b.required elf ≠ [])
    (hends : ∀ ph ∈ b.required elf, ph.vaddr.toNat + ph.memsz.toNat < 2 ^ 64) :
    IsGreatest {a | ∃ ph ∈ b.required elf, ph.vaddr.toNat + ph.memsz.toNat = a}
      (highestAddr (sortedSegments sort b elf)).toNat := by
  have hend : ∀ ph ∈ b.required elf, ((segmentOf elf.rawData ph).vaddr
      + (segmentOf elf.rawData ph).memsz).toNat = ph.vaddr.toNat + ph.memsz.toNat := by
    intro ph hph
    exact (UInt64.toNat_add _ _).trans (Nat.mod_eq_of_lt (hends ph hph))
  obtain ⟨hreached, hbound⟩ := highestAddr_foldl (sortedSegments sort b elf) 0
  have hupper : ∀ ph ∈ b.required elf,
      ph.vaddr.toNat + ph.memsz.toNat ≤ (highestAddr (sortedSegments sort b elf)).toNat := by
    intro ph hph
    rw [← hend ph hph]
    exact hbound (.inr ⟨_, (mem_sortedSegments hs).mpr ⟨ph, hph, rfl⟩, rfl⟩)
  refine ⟨?_, by rintro a ⟨ph, hph, rfl⟩; exact hupper ph hph⟩
  rcases hreached with hzero | ⟨seg, hseg, hsegEnd⟩
  · obtain ⟨ph, hph⟩ := List.exists_mem_of_ne_nil _ hrequired
    have hzero : (highestAddr (sortedSegments sort b elf)).toNat = 0 := hzero.symm
    exact ⟨ph, hph, by have := hupper ph hph; omega⟩
  · obtain ⟨ph, hph, rfl⟩ := (mem_sortedSegments hs).mp hseg
    exact ⟨ph, hph, by rw [← hend ph hph]; exact hsegEnd⟩

theorem contiguousImage_succeeds {lowest highest : UInt64} {segments : List SegmentData} :
    (∃ image, contiguousImage alloc lowest highest segments = .ok image) ↔
      segments.length = 1 ∨ (highest - lowest).toNat ≤ alloc.maxSize := by
  rw [contiguousImage.eq_def]
  split
  · simp
  · rename_i hmany
    have hlength : segments.length ≠ 1 := by
      intro h
      obtain ⟨seg, hseg⟩ := List.length_eq_one_iff.mp h
      exact hmany seg hseg
    by_cases hsize : (highest - lowest).toNat ≤ alloc.maxSize <;>
      simp [Allocator.resize, hsize, hlength, bind, Except.bind, pure, Except.pure]

theorem mergeSegments_ok {entry : UInt64} {segments : List SegmentData}
    (h : mergeSegments alloc entry segments = .ok mem) :
    mem.lowestAddr = (segments.headD {}).vaddr ∧ mem.highestAddr = highestAddr segments ∧
      contiguousImage alloc mem.lowestAddr mem.highestAddr segments = .ok mem.image := by
  simp only [mergeSegments] at h
  rcases himage : contiguousImage alloc (segments.headD {}).vaddr (highestAddr segments) segments
    with error | image <;> rw [himage] at h
  · cases h
  · cases h
    exact ⟨rfl, rfl, himage⟩

/-- The order of the segments does not decide whether there is an image. -/
theorem build_succeeds (hsort : b.sortByVaddr = true) (hs : IsSort sort) (hs' : IsSort sort')
    (h : b.build alloc sort elf = .ok mem) : ∃ mem', b.build alloc sort' elf = .ok mem' := by
  obtain ⟨-, hrequired, hmerge⟩ := build_eq hsort h
  rw [hmerge sort] at h
  obtain ⟨hlowest, hhighest, himage⟩ := mergeSegments_ok h
  have hlow : mem.lowestAddr = ((sortedSegments sort' b elf).headD {}).vaddr := by
    rw [hlowest]
    exact UInt64.toNat_inj.mp
      ((isLeast_lowestAddr hs hrequired).unique (isLeast_lowestAddr hs' hrequired))
  have hlength : (sortedSegments sort b elf).length = (sortedSegments sort' b elf).length :=
    ((hs.perm _).trans (hs'.perm _).symm).length_eq
  have hsize := contiguousImage_succeeds.mp ⟨_, himage⟩
  rw [hlength] at hsize
  obtain ⟨image, himage'⟩ := contiguousImage_succeeds.mpr hsize
  rw [hlow, hhighest, highestAddr_perm hs hs'] at himage'
  rw [hmerge sort', mergeSegments, himage']
  exact ⟨_, rfl⟩

/-! ## The image as layers -/

/-- A segment where it lies in an image from the lowest address on. -/
def layerOf (lowestAddr : UInt64) (seg : SegmentData) : Layer where
  offset := seg.vaddr.toNat - lowestAddr.toNat
  bytes := seg.data

theorem copySegment_eq {lowestAddr totalSize : UInt64} {image : ByteBuffer} {seg : SegmentData}
    (hlow : lowestAddr.toNat ≤ seg.vaddr.toNat)
    (hfits : (layerOf lowestAddr seg).Fits totalSize.toNat) :
    copySegment lowestAddr totalSize image seg = Layer.write image (layerOf lowestAddr seg) := by
  have hsize := totalSize.toNat_lt
  have hoffset : (seg.vaddr - lowestAddr).toNat = seg.vaddr.toNat - lowestAddr.toNat :=
    UInt64.toNat_sub_of_le _ _ (UInt64.le_iff_toNat_le.mpr hlow)
  simp only [Layer.Fits, layerOf] at hfits
  have hlength : seg.data.length.toUInt64.toNat = seg.data.length :=
    Nat.mod_eq_of_lt (by omega)
  have hinside : seg.vaddr - lowestAddr + seg.data.length.toUInt64 ≤ totalSize := by
    rw [UInt64.le_iff_toNat_le, UInt64.toNat_add, hoffset, hlength, Nat.mod_eq_of_lt (by omega)]
    exact hfits
  rw [copySegment, if_pos hinside, hoffset]
  rfl

/-- Segments that all lie between the two addresses are written one after another. -/
theorem contiguousImage_eq {lowest highest : UInt64} {segments : List SegmentData}
    {image : ByteBuffer} (hle : lowest.toNat ≤ highest.toNat)
    (hinside : ∀ seg ∈ segments, lowest.toNat ≤ seg.vaddr.toNat ∧
      seg.vaddr.toNat + seg.data.length ≤ highest.toNat)
    (hsingle : ∀ seg, segments = [seg] →
      seg.vaddr = lowest ∧ seg.data.length = highest.toNat - lowest.toNat)
    (h : contiguousImage alloc lowest highest segments = .ok image) :
    image = Layer.paint (segments.map (layerOf lowest))
      (List.replicate (highest.toNat - lowest.toNat) 0) := by
  have htotal : (highest - lowest).toNat = highest.toNat - lowest.toNat :=
    UInt64.toNat_sub_of_le _ _ (UInt64.le_iff_toNat_le.mpr hle)
  rw [contiguousImage.eq_def] at h
  split at h
  · rename_i seg
    cases h
    obtain ⟨hvaddr, hlength⟩ := hsingle seg rfl
    simp [layerOf, Layer.write, LittleEndian.patch, hvaddr, hlength]
  · by_cases hsize : (highest - lowest).toNat ≤ alloc.maxSize
    · simp only [Allocator.resize, hsize, if_true, bind, Except.bind] at h
      cases h
      rw [htotal]
      have hzeros : ByteBuffer.resize [] (highest.toNat - lowest.toNat)
          = List.replicate (highest.toNat - lowest.toNat) 0 := by
        simp [ByteBuffer.resize]
      rw [hzeros, Layer.paint, List.foldl_map]
      refine List.foldl_ext _ _ _ fun image seg hseg => ?_
      obtain ⟨hlow, hhigh⟩ := hinside seg hseg
      refine copySegment_eq hlow ?_
      rw [Layer.Fits, layerOf, htotal]
      simp only
      omega
    · simp only [Allocator.resize, hsize, if_false, bind, Except.bind] at h
      cases h

end MBootCore.Elf
