import MBootCore.Domain.Error
import MBootCore.Domain.Types
import MBootCore.Support.ByteStore

/-!
# Elf — ElfParser

`ElfParser` of `elf/ElfParser.cpp` and the models of `elf/ElfModels.hpp`: the
header and the program headers of an ELF file, of either class and byte order,
and what the parser says of them. Sections are left out; they change nothing
else.
-/

namespace MBootCore.Elf

inductive ElfClass where
  | none | elf32 | elf64
  | other (raw : UInt8)
  deriving DecidableEq, Repr

def ElfClass.ofRaw (raw : UInt8) : ElfClass :=
  if raw = 0 then .none else if raw = 1 then .elf32 else if raw = 2 then .elf64 else .other raw

inductive ElfEndian where
  | none | little | big
  | other (raw : UInt8)
  deriving DecidableEq, Repr

def ElfEndian.ofRaw (raw : UInt8) : ElfEndian :=
  if raw = 0 then .none else if raw = 1 then .little else if raw = 2 then .big else .other raw

inductive SegmentType where
  | null | load
  | other (raw : UInt32)
  deriving DecidableEq, Repr

def SegmentType.ofRaw (raw : UInt32) : SegmentType :=
  if raw = 0 then .null else if raw = 1 then .load else .other raw

/-- `type` and `machine` are the raw values of their enumerations. -/
structure ElfHeader where
  elfClass : ElfClass := .none
  endian : ElfEndian := .none
  version : UInt8 := 0
  osAbi : UInt8 := 0
  abiVersion : UInt8 := 0
  type : UInt16 := 0
  machine : UInt16 := 0
  elfVersion : UInt32 := 0
  entry : UInt64 := 0
  phoff : UInt64 := 0
  shoff : UInt64 := 0
  flags : UInt32 := 0
  ehsize : UInt16 := 0
  phentsize : UInt16 := 0
  phnum : UInt16 := 0
  shentsize : UInt16 := 0
  shnum : UInt16 := 0
  shstrndx : UInt16 := 0
  deriving DecidableEq, Repr

def ElfHeader.isValid (hdr : ElfHeader) : Bool := hdr.elfClass ≠ .none && hdr.elfVersion = 1

structure ProgramHeader where
  type : SegmentType := .null
  flags : UInt32 := 0
  offset : UInt64 := 0
  vaddr : UInt64 := 0
  paddr : UInt64 := 0
  filesz : UInt64 := 0
  memsz : UInt64 := 0
  align : UInt64 := 0
  deriving DecidableEq, Repr

namespace ProgramHeader

def isLoadable (ph : ProgramHeader) : Bool := ph.type = .load

def endVaddr (ph : ProgramHeader) : UInt64 := ph.vaddr + ph.memsz

end ProgramHeader

structure ElfValidation where
  valid : Bool := true
  warnings : List String := []
  errors : List String := []
  deriving DecidableEq, Repr

namespace ElfValidation

def addWarning (message : String) (v : ElfValidation) : ElfValidation :=
  { v with warnings := v.warnings ++ [message] }

def addError (message : String) (v : ElfValidation) : ElfValidation :=
  { v with errors := v.errors ++ [message], valid := false }

/-- `if (condition) v.addWarning(message);`. -/
def warnIf (condition : Bool) (message : String) (v : ElfValidation) : ElfValidation :=
  if condition then v.addWarning message else v

/-- `if (condition) v.addError(message);`. -/
def errorIf (condition : Bool) (message : String) (v : ElfValidation) : ElfValidation :=
  if condition then v.addError message else v

end ElfValidation

structure ElfFile where
  header : ElfHeader := {}
  programHeaders : List ProgramHeader := []
  rawData : ByteBuffer := []
  validation : ElfValidation := {}
  deriving DecidableEq, Repr

def ElfFile.isValid (elf : ElfFile) : Bool := elf.validation.valid && elf.header.isValid

/-! ## Endian-aware reads -/

open LittleEndian

def readU16 (data : ByteBuffer) (p : Nat) (endian : ElfEndian) : UInt16 :=
  if endian = .big then decode16 (data.getD (p + 1) 0) (data.getD p 0) else readLE16 data p

def readU32 (data : ByteBuffer) (p : Nat) (endian : ElfEndian) : UInt32 :=
  if endian = .big then
    decode32 (data.getD (p + 3) 0) (data.getD (p + 2) 0) (data.getD (p + 1) 0) (data.getD p 0)
  else readLE32 data p

def readU64 (data : ByteBuffer) (p : Nat) (endian : ElfEndian) : UInt64 :=
  if endian = .big then
    decode64 (data.getD (p + 7) 0) (data.getD (p + 6) 0) (data.getD (p + 5) 0)
      (data.getD (p + 4) 0) (data.getD (p + 3) 0) (data.getD (p + 2) 0) (data.getD (p + 1) 0)
      (data.getD p 0)
  else readLE64 data p

/-! ## Header -/

def hasValidMagic (data : ByteBuffer) : Bool := data.take 4 = [0x7F, 0x45, 0x4C, 0x46]

def readClass (data : ByteBuffer) : ElfClass :=
  if data.length < 5 then .none else .ofRaw (data.getD 4 0)

def readEndian (data : ByteBuffer) : ElfEndian :=
  if data.length < 6 then .none else .ofRaw (data.getD 5 0)

def readHeader (data : ByteBuffer) : ElfHeader :=
  if data.length < 52 then {}
  else
    let elfClass := readClass data
    let endian := readEndian data
    if elfClass = .none ∨ endian = .none then { elfClass, endian }
    else
      let hdr : ElfHeader :=
        { elfClass, endian, version := data.getD 6 0, osAbi := data.getD 7 0
          abiVersion := data.getD 8 0 }
      if elfClass = .elf64 ∧ 64 ≤ data.length then
        { hdr with
          type := readU16 data 16 endian
          machine := readU16 data 18 endian
          elfVersion := readU32 data 20 endian
          entry := readU64 data 24 endian
          phoff := readU64 data 32 endian
          shoff := readU64 data 40 endian
          flags := readU32 data 48 endian
          ehsize := readU16 data 52 endian
          phentsize := readU16 data 54 endian
          phnum := readU16 data 56 endian
          shentsize := readU16 data 58 endian
          shnum := readU16 data 60 endian
          shstrndx := readU16 data 62 endian }
      else if elfClass = .elf32 then
        { hdr with
          type := readU16 data 16 endian
          machine := readU16 data 18 endian
          elfVersion := readU32 data 20 endian
          entry := (readU32 data 24 endian).toUInt64
          phoff := (readU32 data 28 endian).toUInt64
          shoff := (readU32 data 32 endian).toUInt64
          flags := readU32 data 36 endian
          ehsize := readU16 data 40 endian
          phentsize := readU16 data 42 endian
          phnum := readU16 data 44 endian
          shentsize := readU16 data 46 endian
          shnum := readU16 data 48 endian
          shstrndx := readU16 data 50 endian }
      else hdr

/-! ## Program headers -/

def readProgramHeader32 (data : ByteBuffer) (p : Nat) (endian : ElfEndian) : ProgramHeader where
  type := .ofRaw (readU32 data p endian)
  offset := (readU32 data (p + 4) endian).toUInt64
  vaddr := (readU32 data (p + 8) endian).toUInt64
  paddr := (readU32 data (p + 12) endian).toUInt64
  filesz := (readU32 data (p + 16) endian).toUInt64
  memsz := (readU32 data (p + 20) endian).toUInt64
  flags := readU32 data (p + 24) endian
  align := (readU32 data (p + 28) endian).toUInt64

def readProgramHeader64 (data : ByteBuffer) (p : Nat) (endian : ElfEndian) : ProgramHeader where
  type := .ofRaw (readU32 data p endian)
  flags := readU32 data (p + 4) endian
  offset := readU64 data (p + 8) endian
  vaddr := readU64 data (p + 16) endian
  paddr := readU64 data (p + 24) endian
  filesz := readU64 data (p + 32) endian
  memsz := readU64 data (p + 40) endian
  align := readU64 data (p + 48) endian

def programHeaderSize (elfClass : ElfClass) : Nat := if elfClass = .elf64 then 56 else 32

def sectionHeaderSize (elfClass : ElfClass) : Nat := if elfClass = .elf64 then 64 else 40

/-- The loop stops at the first header that reaches beyond the data. -/
def readProgramHeaders (hdr : ElfHeader) (data : ByteBuffer) : List ProgramHeader :=
  let offsets := (List.range hdr.phnum.toNat).map fun i =>
    hdr.phoff + i.toUInt64 * hdr.phentsize.toUInt64
  let inside := offsets.takeWhile fun off =>
    (off + (programHeaderSize hdr.elfClass).toUInt64).toNat ≤ data.length
  inside.map fun off =>
    if hdr.elfClass = .elf64 then readProgramHeader64 data off.toNat hdr.endian
    else readProgramHeader32 data off.toNat hdr.endian

/-! ## Validation -/

/-- The result and what was noted on the way. -/
def validateHeader (hdr : ElfHeader) (dataSize : Nat) (v : ElfValidation) : Bool × ElfValidation :=
  if hdr.elfClass = .none then (false, v.addError "Invalid or unknown ELF class")
  else if hdr.endian = .none then (false, v.addError "Invalid or unknown endianness")
  else if hdr.elfVersion ≠ 1 then (false, v.addError "Invalid ELF version (expected 1)")
  else
    let v := v.warnIf (hdr.type ≠ 2 ∧ hdr.type ≠ 3 ∧ hdr.type ≠ 1)
      ("Unusual ELF type: " ++ toString hdr.type.toNat)
    if hdr.machine = 0 then (false, v.addError "No machine specified")
    else if 0 < hdr.phnum ∧ hdr.phentsize.toNat < programHeaderSize hdr.elfClass then
      (false, v.addError "Program header entry size below minimum")
    else if 0 < hdr.shnum ∧ hdr.shentsize.toNat < sectionHeaderSize hdr.elfClass then
      (false, v.addError "Section header entry size below minimum")
    else
      let v := v.warnIf (hdr.entry = 0) "Entry point is 0"
      let v := v.warnIf
        (0 < hdr.ehsize ∧ hdr.ehsize ≠ if hdr.elfClass = .elf64 then 64 else 52)
        ("Unusual ELF header size: " ++ toString hdr.ehsize.toNat)
      if 0 < hdr.phoff ∧ hdr.phoff < (if 0 < hdr.ehsize then hdr.ehsize.toUInt64 else 52) then
        (false, v.addError "Program header offset overlaps with ELF header")
      else if 0 < hdr.phoff ∧
          dataSize < (hdr.phoff + hdr.phnum.toUInt64 * hdr.phentsize.toUInt64).toNat then
        (false, v.addError "Program headers extend beyond file")
      else if 0 < hdr.shoff ∧
          dataSize < (hdr.shoff + hdr.shnum.toUInt64 * hdr.shentsize.toUInt64).toNat then
        (false, v.addError "Section headers extend beyond file")
      else (true, v)

/-- The bytes of the segment are not all in the file. -/
def ProgramHeader.outsideFile (ph : ProgramHeader) (dataSize : Nat) : Bool :=
  dataSize < ph.filesz.toNat || dataSize - ph.filesz.toNat < ph.offset.toNat

def validateSegment (dataSize i : Nat) (ph : ProgramHeader) (v : ElfValidation) : ElfValidation :=
  if ph.type = .null then v
  else
    let segment := "Segment " ++ toString i
    v.errorIf (ph.outsideFile dataSize) (segment ++ " (file data) extends beyond file bounds")
    |>.warnIf (ph.memsz < ph.filesz) (segment ++ " filesz > memsz (truncated in memory)")
    |>.warnIf (1 < ph.align ∧ ph.vaddr % ph.align ≠ 0) (segment ++ " vaddr not aligned to p_align")
    |>.warnIf (1 < ph.align ∧ ph.offset % ph.align ≠ 0)
      (segment ++ " offset not aligned to p_align")
    |>.warnIf (ph.type = .load ∧ ph.filesz = 0 ∧ 0 < ph.memsz)
      (segment ++ " BSS-only (filesz=0, memsz>0)")

def overlaps (ph other : ProgramHeader) : Bool :=
  ph.isLoadable && other.isLoadable && decide (ph.vaddr < other.endVaddr) &&
    decide (other.vaddr < ph.endVaddr)

/-- The segment `i` against those after it. -/
def validateAgainst (i : Nat) (ph : ProgramHeader) (rest : List (ProgramHeader × Nat))
    (v : ElfValidation) : ElfValidation :=
  rest.foldl (fun v other => v.errorIf (overlaps ph other.1)
    ("Overlapping PT_LOAD segments " ++ toString i ++ " and " ++ toString other.2)) v

def validateOverlaps : List (ProgramHeader × Nat) → ElfValidation → ElfValidation
  | [], v => v
  | (ph, i) :: rest, v => validateOverlaps rest (validateAgainst i ph rest v)

def validateProgramHeaders (dataSize : Nat) (phs : List ProgramHeader) (v : ElfValidation) :
    ElfValidation :=
  let v := phs.zipIdx.foldl (fun v ph => validateSegment dataSize ph.2 ph.1 v) v
  let v := validateOverlaps phs.zipIdx v
  v.warnIf (!phs.any ProgramHeader.isLoadable && !phs.isEmpty) "No PT_LOAD segments found"

/-! ## Parse -/

def parse (data : ByteBuffer) : Except ErrorCode ElfFile :=
  if !hasValidMagic data then .error .invalidElf
  else
    let header := readHeader data
    let (accepted, validation) := validateHeader header data.length {}
    if !accepted then .error .invalidElf
    else if 0 < header.phnum ∧ 0 < header.phentsize ∧ 0 < header.phoff ∧
        header.phoff.toNat < data.length then
      let programHeaders := readProgramHeaders header data
      .ok
        { header, programHeaders, rawData := data
          validation := validateProgramHeaders data.length programHeaders validation }
    else .ok { header, rawData := data, validation }

end MBootCore.Elf
