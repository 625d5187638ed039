import MBootCore.Elf.ImageLayout
import Mathlib.Data.List.Pairwise
import Mathlib.Data.List.Sort

/-!
# Elf — ExactLayout

The files whose images are laid out exactly. For one direction every segment
that covers an address has the same byte there, so the order does not matter. For
the other, segments that begin at one address may be sorted either way, and the
one whose byte differs is put last.
-/

namespace MBootCore.Elf

open MemoryImageBuilder

variable {alloc : Allocator} {sort : List SegmentData → List SegmentData}
  {b : MemoryImageBuilder} {elf : ElfFile} {mem : MemoryImage} {ph other : ProgramHeader}

/-- The image is its layers, all of them inside. -/
structure Painted (sort : List SegmentData → List SegmentData) (b : MemoryImageBuilder)
    (elf : ElfFile) (mem : MemoryImage) : Prop where
  lowest : IsLeast {a | ∃ ph ∈ b.required elf, ph.vaddr.toNat = a} mem.lowestAddr.toNat
  highest : IsGreatest {a | ∃ ph ∈ b.required elf, ph.vaddr.toNat + ph.memsz.toNat = a}
    mem.highestAddr.toNat
  inside : ∀ ph ∈ b.required elf, ph.vaddr.toNat + ph.loadedSize ≤ mem.highestAddr.toNat
  image : mem.image = Layer.paint ((sortedSegments sort b elf).map (layerOf mem.lowestAddr))
    (List.replicate (mem.highestAddr.toNat - mem.lowestAddr.toNat) 0)

theorem painted_of_build (hin : ∀ ph ∈ b.required elf, InFile elf.rawData ph)
    (hsort : b.sortByVaddr = true) (hs : IsSort sort)
    (hends : ∀ ph ∈ b.required elf, ph.vaddr.toNat + ph.memsz.toNat < 2 ^ 64)
    (hfits : ∀ ph ∈ b.required elf, ∃ other ∈ b.required elf,
      ph.vaddr.toNat + ph.filesz.toNat ≤ other.vaddr.toNat + other.memsz.toNat)
    (h : b.build alloc sort elf = .ok mem) : Painted sort b elf mem := by
  obtain ⟨-, hrequired, hmerge⟩ := build_eq hsort h
  rw [hmerge sort] at h
  obtain ⟨hlowest, hhighest, himage⟩ := mergeSegments_ok h
  have hleast := isLeast_lowestAddr hs hrequired
  have hgreatest := isGreatest_highestAddr hs hrequired hends
  rw [← hlowest] at hleast
  rw [← hhighest] at hgreatest
  have hinside : ∀ ph ∈ b.required elf,
      ph.vaddr.toNat + ph.loadedSize ≤ mem.highestAddr.toNat := by
    intro ph hph
    obtain ⟨other, hother, hle⟩ := hfits ph hph
    have hend := hgreatest.2 ⟨ph, hph, rfl⟩
    have hotherEnd := hgreatest.2 ⟨other, hother, rfl⟩
    rw [ProgramHeader.loadedSize]
    omega
  have hsegment : ∀ seg ∈ sortedSegments sort b elf, ∃ ph ∈ b.required elf,
      segmentOf elf.rawData ph = seg ∧ seg.data.length = ph.loadedSize := by
    intro seg hseg
    obtain ⟨ph, hph, rfl⟩ := (mem_sortedSegments hs).mp hseg
    exact ⟨ph, hph, rfl, length_segmentOf (hin ph hph)⟩
  refine ⟨hleast, hgreatest, hinside, contiguousImage_eq ?_ ?_ ?_ himage⟩
  · obtain ⟨ph, hph, hlow⟩ := hleast.1
    have hend := hinside ph hph
    omega
  · intro seg hseg
    obtain ⟨ph, hph, rfl, hlength⟩ := hsegment seg hseg
    rw [hlength]
    exact ⟨hleast.2 ⟨ph, hph, rfl⟩, hinside ph hph⟩
  · -- the only segment begins at the lowest and ends at the highest address
    intro seg hsingle
    have hlow : seg.vaddr = mem.lowestAddr := by
      rw [hlowest, hsingle]
      rfl
    obtain ⟨ph, hph, rfl, hlength⟩ := hsegment seg (by rw [hsingle]; exact List.mem_cons_self)
    obtain ⟨top, htop, hend⟩ := hgreatest.1
    have hsame : segmentOf elf.rawData top = segmentOf elf.rawData ph := by
      have hmem := (mem_sortedSegments hs).mpr ⟨top, htop, rfl⟩
      rwa [hsingle, List.mem_singleton] at hmem
    have hvaddr : top.vaddr = ph.vaddr := congrArg SegmentData.vaddr hsame
    have hmemsz : top.memsz = ph.memsz := congrArg SegmentData.memsz hsame
    have hph : ph.vaddr.toNat + ph.loadedSize ≤ mem.highestAddr.toNat := hinside ph hph
    rw [hvaddr, hmemsz] at hend
    rw [ProgramHeader.loadedSize] at hph hlength
    refine ⟨hlow, ?_⟩
    rw [hlength, ← hlow]
    change _ = _ - ph.vaddr.toNat
    omega

namespace Painted

theorem lowest_le (hp : Painted sort b elf mem) (hph : ph ∈ b.required elf) :
    mem.lowestAddr.toNat ≤ ph.vaddr.toNat := hp.lowest.2 ⟨ph, hph, rfl⟩

theorem fits (hp : Painted sort b elf mem) (hin : ∀ ph ∈ b.required elf, InFile elf.rawData ph)
    (hs : IsSort sort) : ∀ l ∈ (sortedSegments sort b elf).map (layerOf mem.lowestAddr),
      l.Fits (mem.highestAddr.toNat - mem.lowestAddr.toNat) := by
  rw [List.forall_mem_map]
  intro seg hseg
  obtain ⟨ph, hph, rfl⟩ := (mem_sortedSegments hs).mp hseg
  have hlow := hp.lowest_le hph
  have hhigh := hp.inside ph hph
  rw [Layer.Fits, layerOf, length_segmentOf (hin ph hph)]
  change ph.vaddr.toNat - _ + _ ≤ _
  omega

theorem length_image (hp : Painted sort b elf mem)
    (hin : ∀ ph ∈ b.required elf, InFile elf.rawData ph) (hs : IsSort sort) :
    mem.image.length = mem.highestAddr.toNat - mem.lowestAddr.toNat := by
  have hfits := hp.fits hin hs
  rw [hp.image, Layer.length_paint (by rwa [List.length_replicate]), List.length_replicate]

/-- The byte of an address is the one on which the segments written last agree,
those of `before` being written earlier. -/
theorem image_byte {i : Nat} {v : UInt8} (before after : List SegmentData)
    (hp : Painted sort b elf mem) (hin : ∀ ph ∈ b.required elf, InFile elf.rawData ph)
    (hs : IsSort sort) (hsplit : sortedSegments sort b elf = before ++ after)
    (hagree : ∀ ph ∈ b.required elf, segmentOf elf.rawData ph ∈ after → ∀ k < ph.loadedSize,
      ph.vaddr.toNat + k = mem.lowestAddr.toNat + i → segmentByte elf.rawData ph k = v)
    (hsome : before = [] ∧ v = 0 ∧ i < mem.image.length ∨
      ∃ ph ∈ b.required elf, segmentOf elf.rawData ph ∈ after ∧ ∃ k < ph.loadedSize,
        ph.vaddr.toNat + k = mem.lowestAddr.toNat + i) :
    mem.image[i]? = some v := by
  have hfits := hp.fits hin hs
  have hlength := hp.length_image hin hs
  have hmem : ∀ seg ∈ after, ∃ ph ∈ b.required elf, segmentOf elf.rawData ph = seg := by
    intro seg hseg
    refine (mem_sortedSegments hs).mp ?_
    rw [hsplit]
    exact List.mem_append_right _ hseg
  rw [hsplit, List.map_append, List.forall_mem_append] at hfits
  obtain ⟨hfitsBefore, hfitsAfter⟩ := hfits
  rw [hp.image, hsplit, List.map_append, Layer.paint_append]
  refine Layer.paint_agree ?_ ?_ ?_
  · rwa [Layer.length_paint (by rwa [List.length_replicate]), List.length_replicate]
  · rw [List.forall_mem_map]
    intro seg hseg hcovers
    obtain ⟨ph, hph, rfl⟩ := hmem seg hseg
    have hlow := hp.lowest_le hph
    obtain ⟨hfrom, hto⟩ := hcovers
    simp only [layerOf, length_segmentOf (hin ph hph)] at hfrom hto ⊢
    change ph.vaddr.toNat - _ ≤ _ at hfrom
    change _ < ph.vaddr.toNat - _ + _ at hto
    change (segmentOf elf.rawData ph).data[i - (ph.vaddr.toNat - _)]? = _
    rw [getElem?_segmentOf (hin ph hph) (by omega), hagree ph hph hseg _ (by omega) (by omega)]
  · rcases hsome with ⟨rfl, rfl, hi⟩ | ⟨ph, hph, hseg, k, hk, haddr⟩
    · refine .inl ?_
      rw [List.map_nil, Layer.paint_nil, List.getElem?_replicate, if_pos (by omega)]
    · refine .inr ⟨_, List.mem_map_of_mem hseg, ?_⟩
      have hlow := hp.lowest_le hph
      rw [Layer.Covers, layerOf, length_segmentOf (hin ph hph)]
      change ph.vaddr.toNat - _ ≤ _ ∧ _ < ph.vaddr.toNat - _ + _
      omega

end Painted

theorem rawByte_eq {raw : ByteBuffer} {k : Nat} (hin : InFile raw ph)
    (hk : k < ph.filesz.toNat) :
    raw[ph.offset.toNat + k]? = some (segmentByte raw ph k) := by
  have hlt : ph.offset.toNat + k < raw.length := by
    rw [InFile] at hin
    omega
  rw [segmentByte, if_pos hk, List.getD_eq_getElem _ _ hlt, List.getElem?_eq_getElem hlt]

/-! ## Laid out exactly -/

theorem laidOut_of_placeable (hin : ∀ ph ∈ b.required elf, InFile elf.rawData ph)
    (hs : IsSort sort) (hp : Painted sort b elf mem)
    (hplace : Placeable (b.required elf) elf.rawData) : LaidOut b elf mem where
  lowest := hp.lowest
  highest := hp.highest
  span := hp.length_image hin hs
  bytes := by
    intro ph hph k hk
    have hlow := hp.lowest_le hph
    rw [rawByte_eq (hin ph hph) hk]
    refine hp.image_byte [] _ hin hs rfl ?_
      (.inr ⟨ph, hph, (mem_sortedSegments hs).mpr ⟨ph, hph, rfl⟩, k, ?_, by omega⟩)
    · intro other hother _ j hj haddr
      exact hplace.agree ph hph other hother k hk j hj (by omega)
    · rw [ProgramHeader.loadedSize]
      omega
  zeros := by
    intro i hi hfree
    refine hp.image_byte [] _ hin hs rfl ?_ (.inl ⟨rfl, rfl, hi⟩)
    intro ph hph _ k _ haddr
    rw [segmentByte, if_neg]
    intro hk
    have hlow := hp.lowest_le hph
    exact hfree ph hph k hk (by omega)

/-! ## Ties -/

/-- By address; among the segments of one address, `last` is the last. -/
def LastOfAddress (last x y : SegmentData) : Prop :=
  x.vaddr < y.vaddr ∨ x.vaddr = y.vaddr ∧ (x = last → y = last)

instance (last x y : SegmentData) : Decidable (LastOfAddress last x y) :=
  inferInstanceAs (Decidable (_ ∨ _))

instance (last : SegmentData) : IsTrans SegmentData (LastOfAddress last) where
  trans x y z hxy hyz := by
    rw [LastOfAddress] at hxy hyz ⊢
    grind

instance (last : SegmentData) : Std.Total (LastOfAddress last) where
  total x y := by
    rw [LastOfAddress, LastOfAddress]
    grind

def sortLast (last : SegmentData) (segments : List SegmentData) : List SegmentData :=
  segments.insertionSort (LastOfAddress last)

theorem pairwise_sortLast (last : SegmentData) (segments : List SegmentData) :
    (sortLast last segments).Pairwise (LastOfAddress last) :=
  List.pairwise_insertionSort _ segments

theorem isSort_sortLast (last : SegmentData) : IsSort (sortLast last) where
  perm := List.perm_insertionSort _
  sorted := fun segments => (pairwise_sortLast last segments).imp fun h => by
    rcases h with hlt | ⟨heq, -⟩
    · exact UInt64.le_of_lt hlt
    · exact heq ▸ UInt64.le_refl _

theorem sortLast_split {last : SegmentData} {segments : List SegmentData}
    (hmem : last ∈ segments) : ∃ before after, sortLast last segments = before ++ last :: after ∧
      ∀ seg ∈ after, seg = last ∨ last.vaddr < seg.vaddr := by
  obtain ⟨before, after, hsplit⟩ :=
    List.append_of_mem ((isSort_sortLast last).perm segments |>.mem_iff.mpr hmem)
  refine ⟨before, after, hsplit, fun seg hseg => ?_⟩
  have hpairwise := pairwise_sortLast last segments
  rw [hsplit] at hpairwise
  have hle := List.rel_of_pairwise_cons (List.pairwise_append.mp hpairwise).2.1 hseg
  exact (Or.symm hle).imp (fun h => h.2 rfl) id

/-! ## Necessary -/

theorem apart_required (hchecked : Checked elf) (hph : ph ∈ b.required elf)
    (hother : other ∈ b.required elf) (hne : ph ≠ other) : overlaps ph other = false := by
  have hsymm : Std.Symm fun ph other => overlaps ph other = false :=
    ⟨fun ph other h => by rw [overlaps] at h ⊢; grind⟩
  exact (hchecked.apart.filter _).forall hph hother hne

/-- No other segment that begins above a segment covers an address of its memory. -/
theorem not_above (hchecked : Checked elf)
    (hends : ∀ ph ∈ b.required elf, ph.vaddr.toNat + ph.memsz.toNat < 2 ^ 64)
    (hph : ph ∈ b.required elf) (hother : other ∈ b.required elf) (addr : Nat)
    (hfrom : ph.vaddr.toNat ≤ addr) (hto : addr < other.vaddr.toNat + other.memsz.toNat) :
    ¬ other.vaddr < ph.vaddr := by
  intro habove
  have hne : ph ≠ other := by
    rintro rfl
    exact UInt64.lt_irrefl _ habove
  have happart := apart_required hchecked hph hother hne
  have hload : ∀ ph ∈ b.required elf, ph.isLoadable = true := by
    intro ph hph
    exact (Bool.and_eq_true_iff.mp (List.mem_filter.mp hph).2).1
  have hend : ∀ ph ∈ b.required elf, ph.endVaddr.toNat = ph.vaddr.toNat + ph.memsz.toNat := by
    intro ph hph
    exact (UInt64.toNat_add _ _).trans (Nat.mod_eq_of_lt (hends ph hph))
  rw [overlaps, hload ph hph, hload other hother] at happart
  simp only [Bool.true_and, Bool.and_eq_false_iff, decide_eq_false_iff_not, UInt64.lt_iff_toNat_lt,
    hend ph hph, hend other hother] at happart habove
  omega

theorem LaidOut.image_byte {k : Nat} (hlaid : LaidOut b elf mem) (hph : ph ∈ b.required elf)
    (hin : InFile elf.rawData ph) (hk : k < ph.filesz.toNat) :
    mem.image[ph.vaddr.toNat - mem.lowestAddr.toNat + k]?
      = some (segmentByte elf.rawData ph k) := by
  rw [hlaid.bytes ph hph k hk, rawByte_eq hin hk]

theorem LaidOut.ends (hlaid : LaidOut b elf mem) (hph : ph ∈ b.required elf) :
    ph.vaddr.toNat + ph.memsz.toNat < 2 ^ 64 :=
  Nat.lt_of_le_of_lt (hlaid.highest.2 ⟨ph, hph, rfl⟩) mem.highestAddr.toNat_lt

theorem LaidOut.fits (hlaid : LaidOut b elf mem) (hph : ph ∈ b.required elf)
    (hin : InFile elf.rawData ph) : ∃ other ∈ b.required elf,
      ph.vaddr.toNat + ph.filesz.toNat ≤ other.vaddr.toNat + other.memsz.toNat := by
  obtain ⟨top, htop, hend⟩ := hlaid.highest.1
  rcases Nat.eq_zero_or_pos ph.filesz.toNat with hnone | hpos
  · have hle := hlaid.highest.2 ⟨ph, hph, rfl⟩
    exact ⟨top, htop, by omega⟩
  · have hlast := hlaid.image_byte hph hin (Nat.sub_one_lt_of_lt hpos)
    obtain ⟨hlt, -⟩ := List.getElem?_eq_some_iff.mp hlast
    have hlow := hlaid.lowest.2 ⟨ph, hph, rfl⟩
    rw [hlaid.span] at hlt
    exact ⟨top, htop, by omega⟩

theorem placeable_of_laidOut (hchecked : Checked elf)
    (hin : ∀ ph ∈ b.required elf, InFile elf.rawData ph) (hsort : b.sortByVaddr = true)
    (hs : IsSort sort) (h : b.build alloc sort elf = .ok mem)
    (hall : ∀ sort, IsSort sort → ∀ mem, b.build alloc sort elf = .ok mem → LaidOut b elf mem) :
    Placeable (b.required elf) elf.rawData := by
  have hlaid := hall sort hs mem h
  have hends : ∀ ph ∈ b.required elf, ph.vaddr.toNat + ph.memsz.toNat < 2 ^ 64 :=
    fun _ hph => hlaid.ends hph
  have hfits : ∀ ph ∈ b.required elf, ∃ other ∈ b.required elf,
      ph.vaddr.toNat + ph.filesz.toNat ≤ other.vaddr.toNat + other.memsz.toNat :=
    fun ph hph => hlaid.fits hph (hin ph hph)
  refine ⟨hends, hfits, ?_⟩
  intro ph hph other hother k hk j hj haddr
  -- the builder with the other segment written last of those of its address
  have hs' := isSort_sortLast (segmentOf elf.rawData other)
  obtain ⟨mem', h'⟩ := build_succeeds hsort hs hs' h
  have hlaid' := hall _ hs' mem' h'
  have hp := painted_of_build hin hsort hs' hends hfits h'
  have hlow := hp.lowest_le hph
  have hlowOther := hp.lowest_le hother
  have hbyte := hlaid'.image_byte hph (hin ph hph) hk
  suffices hotherByte : mem'.image[ph.vaddr.toNat - mem'.lowestAddr.toNat + k]?
      = some (segmentByte elf.rawData other j) by
    rw [hotherByte] at hbyte
    exact Option.some.inj hbyte
  by_cases hfile : j < other.filesz.toNat
  · have hindex : ph.vaddr.toNat - mem'.lowestAddr.toNat + k
        = other.vaddr.toNat - mem'.lowestAddr.toNat + j := by omega
    rw [hindex]
    exact hlaid'.image_byte hother (hin other hother) hfile
  · have hmemory : j < other.memsz.toNat := by
      rw [ProgramHeader.loadedSize] at hj
      omega
    obtain ⟨before, after, hsplit, hafter⟩ := sortLast_split
      (List.mem_map_of_mem (f := segmentOf elf.rawData) hother)
    refine hp.image_byte before _ hin hs' hsplit ?_
      (.inr ⟨other, hother, List.mem_cons_self, j, hj, by omega⟩)
    intro q hq hqmem m hm hqaddr
    have hsame : segmentOf elf.rawData q = segmentOf elf.rawData other := by
      rcases List.mem_cons.mp hqmem with heq | hqafter
      · exact heq
      · rcases hafter _ hqafter with heq | habove
        · exact heq
        · refine absurd habove (not_above hchecked hends hq hother (ph.vaddr.toNat + k) ?_ ?_) <;>
            omega
    have hvaddr : q.vaddr = other.vaddr := congrArg SegmentData.vaddr hsame
    have hmj : m = j := by
      rw [hvaddr] at hqaddr
      omega
    have hqbyte := getElem?_segmentOf (hin q hq) hm
    rw [hsame, hmj, getElem?_segmentOf (hin other hother) hj] at hqbyte
    rw [hmj]
    exact (Option.some.inj hqbyte).symm

/-! ## Samples -/

open LittleEndian in
/-- A little-endian ELF32 file of two segments. -/
def sampleFile (first second payload : ByteBuffer) : ByteBuffer :=
  [0x7F, 0x45, 0x4C, 0x46, 1, 1, 1, 0] ++ List.replicate 8 0 ++ encode16 2 ++ encode16 40
    ++ encode32 1 ++ encode32 4 ++ encode32 52 ++ encode32 0 ++ encode32 0 ++ encode16 52
    ++ encode16 32 ++ encode16 2 ++ encode16 40 ++ encode16 0 ++ encode16 0
    ++ first ++ second ++ payload

open LittleEndian in
def sampleSegment (offset vaddr filesz memsz : UInt32) : ByteBuffer :=
  encode32 1 ++ encode32 offset ++ encode32 vaddr ++ encode32 0 ++ encode32 filesz
    ++ encode32 memsz ++ encode32 7 ++ encode32 0

def sampleElf (data : ByteBuffer) (programHeaders : List ProgramHeader)
    (warnings : List String) : ElfFile where
  header :=
    { elfClass := .elf32, endian := .little, version := 1, type := 2, machine := 40
      elfVersion := 1, entry := 4, phoff := 52, ehsize := 52, phentsize := 32, phnum := 2
      shentsize := 40 }
  programHeaders := programHeaders
  rawData := data
  validation := { warnings }

def sampleAllocator : Allocator := ⟨2 ^ 20, by decide⟩

/-- The second segment lies below the first, which ends in zeros. -/
def zeroed : ByteBuffer :=
  sampleFile (sampleSegment 120 8 2 4) (sampleSegment 116 0 4 4) [1, 2, 3, 4, 5, 6]

def zeroedElf : ElfFile :=
  sampleElf zeroed
    [{ type := .load, flags := 7, offset := 120, vaddr := 8, filesz := 2, memsz := 4 },
      { type := .load, flags := 7, offset := 116, vaddr := 0, filesz := 4, memsz := 4 }] []

def zeroedImage : MemoryImage where
  lowestAddr := 0
  highestAddr := 12
  totalFileSize := 6
  totalMemSize := 8
  entryPoint := 4
  image := [1, 2, 3, 4, 0, 0, 0, 0, 5, 6, 0, 0]
  segments :=
    [{ vaddr := 0, filesz := 4, memsz := 4, flags := 7, data := [1, 2, 3, 4] },
      { vaddr := 8, filesz := 2, memsz := 4, flags := 7, data := [5, 6, 0, 0] }]

/-- The second segment has three bytes in the file and two in memory. -/
def truncated : ByteBuffer :=
  sampleFile (sampleSegment 116 0 4 4) (sampleSegment 120 4 3 2) [1, 2, 3, 4, 5, 6, 7]

def truncatedElf : ElfFile :=
  sampleElf truncated
    [{ type := .load, flags := 7, offset := 116, vaddr := 0, filesz := 4, memsz := 4 },
      { type := .load, flags := 7, offset := 120, vaddr := 4, filesz := 3, memsz := 2 }]
    ["Segment 1 filesz > memsz (truncated in memory)"]

/-- Nothing of the second segment is in the image. -/
def truncatedImage : MemoryImage where
  lowestAddr := 0
  highestAddr := 6
  totalFileSize := 7
  totalMemSize := 6
  entryPoint := 4
  image := [1, 2, 3, 4, 0, 0]
  segments :=
    [{ vaddr := 0, filesz := 4, memsz := 4, flags := 7, data := [1, 2, 3, 4] },
      { vaddr := 4, filesz := 3, memsz := 2, flags := 7, data := [5, 6, 7] }]

/-! ## Files laid out exactly -/

/-- With every order that sorting may leave, the image is laid out exactly if and
only if the segments can be placed. -/
theorem build_laidOut_iff {data : ByteBuffer} (hparse : parse data = .ok elf)
    (hsort : b.sortByVaddr = true)
    (hbuilds : ∃ sort mem, IsSort sort ∧ b.build alloc sort elf = .ok mem) :
    (∀ sort, IsSort sort → ∀ mem, b.build alloc sort elf = .ok mem → LaidOut b elf mem) ↔
      Placeable (b.required elf) elf.rawData := by
  obtain ⟨sort, mem, hs, h⟩ := hbuilds
  have hchecked := checked_of_parse hparse (build_eq hsort h).1
  have hin : ∀ ph ∈ b.required elf, InFile elf.rawData ph := by
    intro ph hph
    obtain ⟨hmem, hrequired⟩ := List.mem_filter.mp hph
    have hload := (Bool.and_eq_true_iff.mp hrequired).1
    have hinside := hchecked.inside ph hmem (by
      intro hnull
      rw [ProgramHeader.isLoadable, hnull] at hload
      cases hload)
    rw [ProgramHeader.outsideFile, Bool.or_eq_false_iff, decide_eq_false_iff_not,
      decide_eq_false_iff_not] at hinside
    rw [InFile]
    omega
  constructor
  · exact placeable_of_laidOut hchecked hin hsort hs h
  · intro hplace sort hs mem h
    exact laidOut_of_placeable hin hs
      (painted_of_build hin hsort hs hplace.ends hplace.fits h) hplace

theorem build_zeroed : Placeable (MemoryImageBuilder.required {} zeroedElf) zeroed ∧
    ∀ sort, IsSort sort → ∀ mem, build sampleAllocator sort {} zeroedElf = .ok mem →
      LaidOut {} zeroedElf mem := by
  have hplace : Placeable (MemoryImageBuilder.required {} zeroedElf) zeroed :=
    ⟨by decide +kernel, by decide +kernel, by decide +kernel⟩
  have hparse : parse zeroed = .ok zeroedElf := by decide +kernel
  have hbuild : build sampleAllocator (sortLast {}) {} zeroedElf = .ok zeroedImage := by
    decide +kernel
  exact ⟨hplace,
    (build_laidOut_iff hparse rfl ⟨_, _, isSort_sortLast _, hbuild⟩).mpr hplace⟩

/-- The parser only warns of the second segment, and it is not in the image. -/
theorem build_truncated : parse truncated = .ok truncatedElf ∧ IsSort (sortLast {}) ∧
    build sampleAllocator (sortLast {}) {} truncatedElf = .ok truncatedImage ∧
    ¬ LaidOut {} truncatedElf truncatedImage := by
  refine ⟨by decide +kernel, isSort_sortLast _, by decide +kernel, fun hlaid => ?_⟩
  have hbyte := hlaid.bytes
    { type := .load, flags := 7, offset := 120, vaddr := 4, filesz := 3, memsz := 2 }
    (by decide +kernel) 0 (by decide)
  exact absurd hbyte (by decide +kernel)

end MBootCore.Elf
