import MBootCore.Elf.ProgramTable

/-!
# Elf — ElfValidator

`ElfValidator` of `elf/ElfValidator.cpp`, and where it differs from what the
parser says of the same file: it does not look at the file data of the segments,
and it asks where a table ends also if the table begins at offset 0, which the
parser takes for no table.
-/

namespace MBootCore.Elf

namespace ElfValidator

def checkMagic (data : ByteBuffer) : Bool := data.take 4 = [0x7F, 0x45, 0x4C, 0x46]

def checkVersion (hdr : ElfHeader) : Bool := hdr.elfVersion = 1

def checkMachine (hdr : ElfHeader) : Bool := hdr.machine ≠ 0

def checkEntryPoint (hdr : ElfHeader) : Bool := hdr.entry ≠ 0

def checkOffsets (hdr : ElfHeader) (dataSize : Nat) : Bool :=
  if 0 < hdr.phoff ∧ dataSize < hdr.phEnd.toNat then false
  else if 0 < hdr.shoff ∧ dataSize < hdr.shEnd.toNat then false
  else true

def checkNotTruncated (hdr : ElfHeader) (dataSize : Nat) : Bool :=
  if 0 < hdr.phnum ∧ dataSize < hdr.phEnd.toNat then false
  else if 0 < hdr.shnum ∧ dataSize < hdr.shEnd.toNat then false
  else true

def checkSupportedType (hdr : ElfHeader) : Bool := hdr.type = 2 ∨ hdr.type = 3 ∨ hdr.type = 1

def areSegmentsOverlapping (a b : ProgramHeader) : Bool :=
  if !a.isLoadable || !b.isLoadable then false
  else a.vaddr < b.endVaddr ∧ b.vaddr < a.endVaddr

def checkOverlappingSegments : List ProgramHeader → Bool
  | [] => true
  | ph :: rest =>
    if ph.isLoadable && rest.any (areSegmentsOverlapping ph) then false
    else checkOverlappingSegments rest

def checkAlignment (phs : List ProgramHeader) : Bool :=
  phs.all fun ph => !ph.isLoadable || ph.align ≤ 1 ||
    (ph.vaddr % ph.align = 0 && ph.offset % ph.align = 0)

def validate (elf : ElfFile) (rawData : ByteBuffer) : ElfValidation :=
  let v : ElfValidation := {}
  if !checkMagic rawData then v.addError "Invalid ELF magic"
  else
    v.errorIf (!checkVersion elf.header) "Invalid ELF version"
    |>.errorIf (!checkMachine elf.header) "Invalid or unsupported machine type"
    |>.warnIf (!checkEntryPoint elf.header) "Entry point is zero"
    |>.errorIf (!checkOffsets elf.header rawData.length) "Invalid or out-of-bounds offsets"
    |>.errorIf (!checkNotTruncated elf.header rawData.length) "File appears truncated"
    |>.warnIf (!checkSupportedType elf.header) "Unusual ELF type (not EXEC or DYN)"
    |>.errorIf (!checkOverlappingSegments elf.programHeaders)
      "Overlapping PT_LOAD segments detected"
    |>.warnIf (!checkAlignment elf.programHeaders) "Segment alignment issues detected"

end ElfValidator

/-! ## What the two say -/

variable {hdr : ElfHeader} {data : ByteBuffer} {elf : ElfFile} {dataSize : Nat}
  {phs : List ProgramHeader}

/-- A table that begins at offset 0 is larger than the file. -/
def ElfHeader.TruncatedAtZero (hdr : ElfHeader) (dataSize : Nat) : Prop :=
  hdr.phoff = 0 ∧ dataSize < hdr.phnum.toNat * hdr.phentsize.toNat ∨
    hdr.shoff = 0 ∧ dataSize < hdr.shnum.toNat * hdr.shentsize.toNat

/-- The file data of a segment are not all in the file. -/
def SomeOutside (data : ByteBuffer) (phs : List ProgramHeader) : Prop :=
  ∃ ph ∈ phs, ph.type ≠ .null ∧ data.length < ph.offset.toNat + ph.filesz.toNat

theorem outsideFile_iff (ph : ProgramHeader) :
    ph.outsideFile dataSize = true ↔ dataSize < ph.offset.toNat + ph.filesz.toNat := by
  rw [ProgramHeader.outsideFile, Bool.or_eq_true, decide_eq_true_eq, decide_eq_true_eq]
  omega

theorem areSegmentsOverlapping_eq (a b : ProgramHeader) :
    ElfValidator.areSegmentsOverlapping a b = overlaps a b := by
  rw [ElfValidator.areSegmentsOverlapping, overlaps]
  cases a.isLoadable <;> cases b.isLoadable <;> simp

theorem checkOverlappingSegments_iff : ElfValidator.checkOverlappingSegments phs = true ↔
    phs.Pairwise fun ph other => overlaps ph other = false := by
  induction phs with
  | nil => simp [ElfValidator.checkOverlappingSegments]
  | cons ph rest ih =>
    have hany : (ph.isLoadable && rest.any (ElfValidator.areSegmentsOverlapping ph)) = true ↔
        ∃ other ∈ rest, overlaps ph other = true := by
      simp only [Bool.and_eq_true, List.any_eq_true, areSegmentsOverlapping_eq]
      constructor
      · exact fun h => h.2
      · rintro ⟨other, hother, hoverlap⟩
        refine ⟨?_, other, hother, hoverlap⟩
        rw [overlaps] at hoverlap
        cases hload : ph.isLoadable with
        | true => rfl
        | false => simp [hload] at hoverlap
    rw [ElfValidator.checkOverlappingSegments, List.pairwise_cons, ← ih]
    split
    · rename_i hsome
      obtain ⟨other, hother, hoverlap⟩ := hany.mp hsome
      simp only [Bool.false_eq_true, false_iff, not_and]
      intro hnone
      rw [hnone other hother] at hoverlap
      cases hoverlap
    · rename_i hnone
      rw [hany] at hnone
      simp only [not_exists, not_and, Bool.not_eq_true] at hnone
      exact (and_iff_right hnone).symm

theorem Accepted.checkOffsets (h : Accepted hdr dataSize) :
    ElfValidator.checkOffsets hdr dataSize = true := by
  rw [ElfValidator.checkOffsets, if_neg, if_neg]
  · rintro ⟨hshoff, hlt⟩
    exact absurd (h.shEnd hshoff) (by omega)
  · rintro ⟨hphoff, hlt⟩
    exact absurd (h.phEnd hphoff) (by omega)

theorem tableEnd_zero (num entry : UInt16) :
    ((0 : UInt64) + num.toUInt64 * entry.toUInt64).toNat = num.toNat * entry.toNat := by
  have hnum := num.toNat_lt
  have hentry := entry.toNat_lt
  have hlt : num.toNat * entry.toNat < 2 ^ 64 :=
    calc num.toNat * entry.toNat ≤ 2 ^ 16 * 2 ^ 16 := Nat.mul_le_mul (by omega) (by omega)
      _ < 2 ^ 64 := by decide
  rw [UInt64.zero_add, UInt64.toNat_mul, UInt16.toNat_toUInt64, UInt16.toNat_toUInt64,
    Nat.mod_eq_of_lt hlt]

/-- A table that the parser has looked at is only found to be truncated if it
begins at offset 0. -/
theorem truncated_iff {off : UInt64} {num entry : UInt16}
    (hend : 0 < off → (off + num.toUInt64 * entry.toUInt64).toNat ≤ dataSize) :
    (0 < num ∧ dataSize < (off + num.toUInt64 * entry.toUInt64).toNat) ↔
      off = 0 ∧ dataSize < num.toNat * entry.toNat := by
  by_cases hzero : off = 0
  · rw [hzero, tableEnd_zero]
    simp only [true_and, and_iff_right_iff_imp]
    intro hlt
    rw [UInt16.lt_iff_toNat_lt]
    exact Nat.pos_of_ne_zero fun hnone => by rw [hnone] at hlt; omega
  · have hpos : 0 < off := by
      rw [UInt64.lt_iff_toNat_lt]
      exact Nat.pos_of_ne_zero fun hnone => hzero (UInt64.toNat_inj.mp hnone)
    have hle := hend hpos
    simp only [hzero, false_and, iff_false, not_and]
    omega

theorem Accepted.checkNotTruncated_iff (h : Accepted hdr dataSize) :
    ElfValidator.checkNotTruncated hdr dataSize = true ↔ ¬ hdr.TruncatedAtZero dataSize := by
  rw [ElfHeader.TruncatedAtZero, ← truncated_iff h.phEnd, ← truncated_iff h.shEnd,
    ElfValidator.checkNotTruncated, ElfHeader.phEnd, ElfHeader.shEnd]
  split_ifs with hph hsh
  · simp only [false_iff, not_not]
    exact .inl hph
  · simp only [false_iff, not_not]
    exact .inr hsh
  · simp only [true_iff, not_or]
    exact ⟨hph, hsh⟩

theorem Parsed.validate_iff (h : Parsed data elf) :
    (ElfValidator.validate elf data).valid = true ↔ ¬ elf.header.TruncatedAtZero data.length ∧
      elf.programHeaders.Pairwise fun ph other => overlaps ph other = false := by
  have hmagic : ElfValidator.checkMagic data = true := h.magic
  have hversion : ElfValidator.checkVersion elf.header = true :=
    decide_eq_true h.accepted.version
  have hmachine : ElfValidator.checkMachine elf.header = true :=
    decide_eq_true h.accepted.machine
  rw [ElfValidator.validate, hmagic, hversion, hmachine, h.accepted.checkOffsets]
  simp only [Bool.not_true, Bool.false_eq_true, if_false, ElfValidation.valid_warnIf,
    ElfValidation.valid_errorIf, Bool.not_false, Bool.and_true, Bool.true_and, Bool.not_not,
    Bool.and_eq_true, h.accepted.checkNotTruncated_iff, checkOverlappingSegments_iff]

/-! ## Agreement -/

/-- The parser and the validator agree on a file exactly when segments overlap, or
file data outside of the file and a truncated table at offset 0 come together. -/
theorem validators_agree_iff (hparse : parse data = .ok elf) :
    (elf.validation.valid = true ↔ (ElfValidator.validate elf data).valid = true) ↔
      ¬ (elf.programHeaders.Pairwise fun ph other => overlaps ph other = false) ∨
        (SomeOutside data elf.programHeaders ↔ elf.header.TruncatedAtZero data.length) := by
  have hparsed := parsed_of_parse hparse
  have hinside : (∀ ph ∈ elf.programHeaders, ph.type ≠ .null →
      ph.outsideFile data.length = false) ↔ ¬ SomeOutside data elf.programHeaders := by
    simp only [SomeOutside, ← outsideFile_iff, not_exists, not_and, Bool.not_eq_true]
  rw [hparsed.valid, hparsed.validate_iff, hinside]
  by_cases hapart : elf.programHeaders.Pairwise fun ph other => overlaps ph other = false
  · simp only [hapart, and_true, not_true_eq_false, false_or]
    exact not_iff_not
  · simp only [hapart, and_false, iff_self, not_false_eq_true, true_or]

theorem validators_agree_oneSegment :
    (oneSegmentElf.validation.valid = true ↔
      (ElfValidator.validate oneSegmentElf oneSegment).valid = true) ↔
      ¬ (oneSegmentElf.programHeaders.Pairwise fun ph other => overlaps ph other = false) ∨
        (SomeOutside oneSegment oneSegmentElf.programHeaders ↔
          oneSegmentElf.header.TruncatedAtZero oneSegment.length) :=
  validators_agree_iff (by decide +kernel)

/-- The file data of the segment would end at byte 4100. -/
def cutSegment : ByteBuffer := elf64File 64 0 1 0 (elf64Segment 4096 0 4 4)

def cutSegmentElf : ElfFile :=
  elf64Of cutSegment 64 0 1 0
    [{ type := .load, flags := 7, offset := 4096, filesz := 4, memsz := 4 }]
    { valid := false, errors := ["Segment 0 (file data) extends beyond file bounds"] }

/-- The validator does not notice that a segment is not in the file. -/
theorem validators_agree_cutSegment : ¬ ∀ (data : ByteBuffer) (elf : ElfFile),
    parse data = .ok elf →
      (elf.validation.valid = true ↔ (ElfValidator.validate elf data).valid = true) := by
  intro hall
  have hagree := hall cutSegment cutSegmentElf (by decide +kernel)
  revert hagree
  decide +kernel

end MBootCore.Elf
