import MBootCore.Elf.ParserSpec
import Mathlib.Data.List.TakeWhile

/-!
# Elf — ProgramTable

What the parser has checked of a header it accepts, and the program headers it
reads then. The end of the table is computed in 64 bits: a table that begins so
far out that this wraps around is accepted, and nothing of it is read.
-/

namespace MBootCore.Elf

/-- Where the program headers end, as the parser computes it. -/
def ElfHeader.phEnd (hdr : ElfHeader) : UInt64 :=
  hdr.phoff + hdr.phnum.toUInt64 * hdr.phentsize.toUInt64

def ElfHeader.shEnd (hdr : ElfHeader) : UInt64 :=
  hdr.shoff + hdr.shnum.toUInt64 * hdr.shentsize.toUInt64

/-- What `validateHeader` asks of a header. -/
structure Accepted (hdr : ElfHeader) (dataSize : Nat) : Prop where
  elfClass : hdr.elfClass ≠ .none
  endian : hdr.endian ≠ .none
  version : hdr.elfVersion = 1
  machine : hdr.machine ≠ 0
  phentsize : 0 < hdr.phnum → programHeaderSize hdr.elfClass ≤ hdr.phentsize.toNat
  shentsize : 0 < hdr.shnum → sectionHeaderSize hdr.elfClass ≤ hdr.shentsize.toNat
  phEnd : 0 < hdr.phoff → hdr.phEnd.toNat ≤ dataSize
  shEnd : 0 < hdr.shoff → hdr.shEnd.toNat ≤ dataSize

variable {hdr : ElfHeader} {data : ByteBuffer} {elf : ElfFile} {dataSize : Nat}

theorem accepted_of_validateHeader {v : ElfValidation}
    (h : (validateHeader hdr dataSize v).1 = true) : Accepted hdr dataSize := by
  simp only [validateHeader, apply_ite Prod.fst, ite_eq_iff, Bool.false_eq_true, and_false,
    false_or] at h
  obtain ⟨hclass, hendian, hversion, hmachine, hphent, hshent, -, hph, hsh, -⟩ := h
  constructor
  · exact hclass
  · exact hendian
  · exact not_not.mp hversion
  · exact hmachine
  · intro hphnum
    exact not_lt.mp fun hlt => hphent ⟨hphnum, hlt⟩
  · intro hshnum
    exact not_lt.mp fun hlt => hshent ⟨hshnum, hlt⟩
  · intro hphoff
    exact not_lt.mp fun hlt => hph ⟨hphoff, hlt⟩
  · intro hshoff
    exact not_lt.mp fun hlt => hsh ⟨hshoff, hlt⟩

theorem valid_validateHeader {v : ElfValidation} (h : (validateHeader hdr dataSize v).1 = true) :
    (validateHeader hdr dataSize v).2.valid = v.valid := by
  have hvalid : (validateHeader hdr dataSize v).2.valid
      = (v.valid && (validateHeader hdr dataSize v).1) := by
    simp only [validateHeader, apply_ite Prod.fst, apply_ite Prod.snd,
      apply_ite ElfValidation.valid, ElfValidation.addError, ElfValidation.valid_warnIf]
    simp only [apply_ite (v.valid && ·), Bool.and_false, Bool.and_true]
  rw [hvalid, h, Bool.and_true]

/-- The program headers are read from where the header says. -/
def ElfHeader.hasTable (hdr : ElfHeader) (dataSize : Nat) : Prop :=
  0 < hdr.phnum ∧ 0 < hdr.phentsize ∧ 0 < hdr.phoff ∧ hdr.phoff.toNat < dataSize

instance (hdr : ElfHeader) (dataSize : Nat) : Decidable (hdr.hasTable dataSize) :=
  inferInstanceAs (Decidable (_ ∧ _))

/-- How a file comes to be parsed. -/
structure Parsed (data : ByteBuffer) (elf : ElfFile) : Prop where
  magic : hasValidMagic data = true
  header : elf.header = readHeader data
  rawData : elf.rawData = data
  accepted : Accepted elf.header data.length
  programHeaders : elf.programHeaders =
    if elf.header.hasTable data.length then readProgramHeaders elf.header data else []
  valid : elf.validation.valid = true ↔
    (∀ ph ∈ elf.programHeaders, ph.type ≠ .null → ph.outsideFile data.length = false) ∧
      elf.programHeaders.Pairwise fun ph other => overlaps ph other = false

theorem parsed_of_parse (h : parse data = .ok elf) : Parsed data elf := by
  rw [parse] at h
  split at h
  · cases h
  · rename_i hmagic
    simp only at h
    split at h
    · cases h
    · rename_i haccepted
      have haccept : (validateHeader (readHeader data) data.length {}).1 = true := by
        simpa using haccepted
      split at h
      · rename_i htable
        cases h
        constructor
        · simpa using hmagic
        · rfl
        · rfl
        · exact accepted_of_validateHeader haccept
        · exact (if_pos htable).symm
        · show (validateProgramHeaders _ _ _).valid = true ↔ _
          rw [valid_validateProgramHeaders, valid_validateHeader haccept]
          simp
      · rename_i htable
        cases h
        constructor
        · simpa using hmagic
        · rfl
        · rfl
        · exact accepted_of_validateHeader haccept
        · exact (if_neg htable).symm
        · simp [valid_validateHeader haccept]

/-! ## The table -/

def readProgramHeader (elfClass : ElfClass) (data : ByteBuffer) (p : Nat) (endian : ElfEndian) :
    ProgramHeader :=
  if elfClass = .elf64 then readProgramHeader64 data p endian
  else readProgramHeader32 data p endian

/-- Where program header `i` begins. -/
def ElfHeader.entryAt (hdr : ElfHeader) (i : Nat) : Nat :=
  hdr.phoff.toNat + i * hdr.phentsize.toNat

/-- The table ends inside of the file, and every program header is decoded from
bytes of its own. -/
structure ExactTable (data : ByteBuffer) (elf : ElfFile) : Prop where
  inside : elf.header.entryAt elf.header.phnum.toNat ≤ data.length
  count : elf.programHeaders.length = elf.header.phnum.toNat
  own : ∀ i, elf.header.entryAt i + programHeaderSize elf.header.elfClass
    ≤ elf.header.entryAt (i + 1)
  decoded : ∀ i < elf.header.phnum.toNat, elf.programHeaders[i]? = some
    (readProgramHeader elf.header.elfClass data (elf.header.entryAt i) elf.header.endian)

theorem phEnd_toNat (h : hdr.entryAt hdr.phnum.toNat < 2 ^ 64) :
    hdr.phEnd.toNat = hdr.entryAt hdr.phnum.toNat := by
  rw [ElfHeader.entryAt] at h ⊢
  rw [ElfHeader.phEnd, UInt64.toNat_add, UInt64.toNat_mul, UInt16.toNat_toUInt64,
    UInt16.toNat_toUInt64, Nat.mod_eq_of_lt (by omega : _ * _ < 2 ^ 64), Nat.mod_eq_of_lt h]

theorem entryAt_mono {i j : Nat} (h : i ≤ j) : hdr.entryAt i ≤ hdr.entryAt j := by
  rw [ElfHeader.entryAt, ElfHeader.entryAt]
  exact Nat.add_le_add_left (Nat.mul_le_mul_right _ h) _

theorem entry_le_next {i : Nat} (h : programHeaderSize hdr.elfClass ≤ hdr.phentsize.toNat) :
    hdr.entryAt i + programHeaderSize hdr.elfClass ≤ hdr.entryAt (i + 1) := by
  rw [ElfHeader.entryAt, ElfHeader.entryAt, Nat.add_mul, Nat.one_mul]
  omega

theorem programHeaderSize_pos (elfClass : ElfClass) : 0 < programHeaderSize elfClass := by
  rw [programHeaderSize]
  split <;> decide

/-- Without a wrap around the loop reads all program headers. -/
theorem readProgramHeaders_exact (hentry : programHeaderSize hdr.elfClass ≤ hdr.phentsize.toNat)
    (hfits : hdr.entryAt hdr.phnum.toNat < 2 ^ 64)
    (hinside : hdr.entryAt hdr.phnum.toNat ≤ data.length) :
    readProgramHeaders hdr data = (List.range hdr.phnum.toNat).map fun i =>
      readProgramHeader hdr.elfClass data (hdr.entryAt i) hdr.endian := by
  have hoffset : ∀ i < hdr.phnum.toNat,
      (hdr.phoff + i.toUInt64 * hdr.phentsize.toUInt64).toNat = hdr.entryAt i ∧
        hdr.entryAt i + programHeaderSize hdr.elfClass ≤ hdr.entryAt hdr.phnum.toNat := by
    intro i hi
    have hnext := entry_le_next (i := i) hentry
    have hlast : hdr.entryAt (i + 1) ≤ hdr.entryAt hdr.phnum.toNat := entryAt_mono hi
    have hnum := hdr.phnum.toNat_lt
    refine ⟨?_, by omega⟩
    have hindex : i.toUInt64.toNat = i := Nat.mod_eq_of_lt (by omega)
    rw [UInt64.toNat_add, UInt64.toNat_mul, hindex, UInt16.toNat_toUInt64]
    have hle : hdr.entryAt i ≤ hdr.entryAt hdr.phnum.toNat := entryAt_mono (Nat.le_of_lt hi)
    rw [ElfHeader.entryAt] at hle ⊢
    rw [Nat.mod_eq_of_lt (by omega : _ * _ < 2 ^ 64), Nat.mod_eq_of_lt (by omega)]
  have hsize : (programHeaderSize hdr.elfClass).toUInt64.toNat
      = programHeaderSize hdr.elfClass := by
    rw [programHeaderSize]
    split <;> rfl
  rw [readProgramHeaders, List.takeWhile_eq_self_iff.mpr]
  · rw [List.map_map]
    apply List.map_congr_left
    intro i hi
    simp only [Function.comp, (hoffset i (List.mem_range.mp hi)).1, readProgramHeader]
  · intro off hoff
    obtain ⟨i, hi, rfl⟩ := List.mem_map.mp hoff
    obtain ⟨hat, hle⟩ := hoffset i (List.mem_range.mp hi)
    rw [decide_eq_true_eq, UInt64.toNat_add, hat, hsize, Nat.mod_eq_of_lt (by omega)]
    omega

/-! ## Samples -/

open LittleEndian in
/-- A little-endian ELF64 file. -/
def elf64File (phoff shoff : UInt64) (phnum shnum : UInt16) (rest : ByteBuffer) : ByteBuffer :=
  [0x7F, 0x45, 0x4C, 0x46, 2, 1, 1, 0] ++ List.replicate 8 0 ++ encode16 2 ++ encode16 183
    ++ encode32 1 ++ encode64 4 ++ encode64 phoff ++ encode64 shoff ++ encode32 0 ++ encode16 64
    ++ encode16 56 ++ encode16 phnum ++ encode16 64 ++ encode16 shnum ++ encode16 0 ++ rest

open LittleEndian in
def elf64Segment (offset vaddr filesz memsz : UInt64) : ByteBuffer :=
  encode32 1 ++ encode32 7 ++ encode64 offset ++ encode64 vaddr ++ encode64 0 ++ encode64 filesz
    ++ encode64 memsz ++ encode64 0

def elf64Of (data : ByteBuffer) (phoff shoff : UInt64) (phnum shnum : UInt16)
    (programHeaders : List ProgramHeader) (validation : ElfValidation) : ElfFile where
  header :=
    { elfClass := .elf64, endian := .little, version := 1, type := 2, machine := 183
      elfVersion := 1, entry := 4, phoff, shoff, ehsize := 64, phentsize := 56, phnum
      shentsize := 64, shnum }
  programHeaders := programHeaders
  rawData := data
  validation := validation

def oneSegment : ByteBuffer := elf64File 64 0 1 0 (elf64Segment 0 0 4 4)

def oneSegmentElf : ElfFile :=
  elf64Of oneSegment 64 0 1 0 [{ type := .load, flags := 7, filesz := 4, memsz := 4 }] {}

/-- The table begins 32 bytes before 2^64 and ends, in 64 bits, at byte 24. -/
def wrappedTable : ByteBuffer := elf64File 0xFFFFFFFFFFFFFFE0 0 1 0 []

def wrappedTableElf : ElfFile := elf64Of wrappedTable 0xFFFFFFFFFFFFFFE0 0 1 0 [] {}

/-! ## Tables read exactly -/

/-- The program headers of an accepted file are the table of its header exactly
when the end of the table does not wrap around. -/
theorem exactTable_iff (hdata : data.length < 2 ^ 63) (hparse : parse data = .ok elf)
    (hphoff : 0 < elf.header.phoff) (hphnum : 0 < elf.header.phnum) :
    ExactTable data elf ↔
      elf.header.phoff.toNat + elf.header.phnum.toNat * elf.header.phentsize.toNat < 2 ^ 64 := by
  have hparsed := parsed_of_parse hparse
  have hentry := hparsed.accepted.phentsize hphnum
  constructor
  · intro hexact
    have hinside := hexact.inside
    rw [ElfHeader.entryAt] at hinside
    omega
  · intro hfits
    have hend := hparsed.accepted.phEnd hphoff
    rw [phEnd_toNat hfits] at hend
    have hfirst : elf.header.entryAt 1 ≤ elf.header.entryAt elf.header.phnum.toNat :=
      entryAt_mono hphnum
    have hpos := programHeaderSize_pos elf.header.elfClass
    have htable : elf.header.hasTable data.length := by
      rw [ElfHeader.entryAt, Nat.one_mul] at hfirst
      refine ⟨hphnum, ?_, hphoff, by omega⟩
      show 0 < elf.header.phentsize.toNat
      omega
    have hheaders := hparsed.programHeaders
    rw [if_pos htable, readProgramHeaders_exact hentry hfits hend] at hheaders
    constructor
    · exact hend
    · simp [hheaders]
    · intro i
      exact entry_le_next hentry
    · intro i hi
      simp [hheaders, hi]

theorem exactTable_oneSegment : ExactTable oneSegment oneSegmentElf ↔
    oneSegmentElf.header.phoff.toNat + oneSegmentElf.header.phnum.toNat
      * oneSegmentElf.header.phentsize.toNat < 2 ^ 64 :=
  exactTable_iff (by decide +kernel) (by decide +kernel) (by decide) (by decide)

theorem exactTable_wrapped :
    ¬ ∀ (data : ByteBuffer) (elf : ElfFile), data.length < 2 ^ 63 → parse data = .ok elf →
      0 < elf.header.phoff → 0 < elf.header.phnum → ExactTable data elf := by
  intro hall
  have hexact := hall wrappedTable wrappedTableElf (by decide) (by decide)
    (by decide) (by decide)
  exact absurd hexact.count (by decide)

end MBootCore.Elf
