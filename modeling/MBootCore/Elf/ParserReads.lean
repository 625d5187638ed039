import MBootCore.Elf.ProgramTable
import MBootCore.Support.Accesses

/-!
# Elf — ParserReads

`ElfParser::parse` with the bytes it takes of the file, its sections included.
The functions have the names of the plain ones; apart from the sections they
compute the same.
-/

namespace MBootCore.Elf

/-- A name is the bytes up to the next zero. -/
structure SectionHeader where
  name : ByteBuffer := []
  nameIdx : UInt32 := 0
  type : UInt32 := 0
  flags : UInt64 := 0
  addr : UInt64 := 0
  offset : UInt64 := 0
  size : UInt64 := 0
  link : UInt32 := 0
  info : UInt32 := 0
  addralign : UInt64 := 0
  entsize : UInt64 := 0
  deriving DecidableEq, Repr

namespace Reading

open Logged

variable (data : ByteBuffer) (endian : ElfEndian)

def readU16 (p : Nat) : Logged UInt16 := taking data p 2 (Elf.readU16 data p endian)

def readU32 (p : Nat) : Logged UInt32 := taking data p 4 (Elf.readU32 data p endian)

def readU64 (p : Nat) : Logged UInt64 := taking data p 8 (Elf.readU64 data p endian)

/-- A 32-bit field that is kept in 64 bits. -/
def readWide (p : Nat) : Logged UInt64 := UInt32.toUInt64 <$> readU32 data endian p

/-! ## Header -/

def hasValidMagic : Logged Bool :=
  if data.length < 4 then pure false
  else do
    let magic ← range data 0 4
    pure (magic = [0x7F, 0x45, 0x4C, 0x46])

def readClass : Logged ElfClass :=
  if data.length < 5 then pure .none else ElfClass.ofRaw <$> byteAt data 4

def readEndian : Logged ElfEndian :=
  if data.length < 6 then pure .none else ElfEndian.ofRaw <$> byteAt data 5

/-- The fields from byte 16 on; an address has 64 bits in the one class and 32 in
the other. -/
def readFields64 (hdr : ElfHeader) : Logged ElfHeader := do
  let type ← readU16 data endian 16
  let machine ← readU16 data endian 18
  let elfVersion ← readU32 data endian 20
  let entry ← readU64 data endian 24
  let phoff ← readU64 data endian 32
  let shoff ← readU64 data endian 40
  let flags ← readU32 data endian 48
  let ehsize ← readU16 data endian 52
  let phentsize ← readU16 data endian 54
  let phnum ← readU16 data endian 56
  let shentsize ← readU16 data endian 58
  let shnum ← readU16 data endian 60
  let shstrndx ← readU16 data endian 62
  pure { hdr with type, machine, elfVersion, entry, phoff, shoff, flags, ehsize, phentsize, phnum,
                  shentsize, shnum, shstrndx }

def readFields32 (hdr : ElfHeader) : Logged ElfHeader := do
  let type ← readU16 data endian 16
  let machine ← readU16 data endian 18
  let elfVersion ← readU32 data endian 20
  let entry ← readWide data endian 24
  let phoff ← readWide data endian 28
  let shoff ← readWide data endian 32
  let flags ← readU32 data endian 36
  let ehsize ← readU16 data endian 40
  let phentsize ← readU16 data endian 42
  let phnum ← readU16 data endian 44
  let shentsize ← readU16 data endian 46
  let shnum ← readU16 data endian 48
  let shstrndx ← readU16 data endian 50
  pure { hdr with type, machine, elfVersion, entry, phoff, shoff, flags, ehsize, phentsize, phnum,
                  shentsize, shnum, shstrndx }

def readHeader : Logged ElfHeader :=
  if data.length < 52 then pure {}
  else do
    let elfClass ← readClass data
    let endian ← readEndian data
    if elfClass = .none ∨ endian = .none then pure { elfClass, endian }
    else
      let version ← byteAt data 6
      let osAbi ← byteAt data 7
      let abiVersion ← byteAt data 8
      let hdr : ElfHeader := { elfClass, endian, version, osAbi, abiVersion }
      if elfClass = .elf64 ∧ 64 ≤ data.length then readFields64 data endian hdr
      else if elfClass = .elf32 then readFields32 data endian hdr
      else pure hdr

/-! ## Program headers -/

def readProgramHeader32 (p : Nat) : Logged ProgramHeader := do
  let type ← SegmentType.ofRaw <$> readU32 data endian p
  let offset ← readWide data endian (p + 4)
  let vaddr ← readWide data endian (p + 8)
  let paddr ← readWide data endian (p + 12)
  let filesz ← readWide data endian (p + 16)
  let memsz ← readWide data endian (p + 20)
  let flags ← readU32 data endian (p + 24)
  let align ← readWide data endian (p + 28)
  pure { type, offset, vaddr, paddr, filesz, memsz, flags, align }

def readProgramHeader64 (p : Nat) : Logged ProgramHeader := do
  let type ← SegmentType.ofRaw <$> readU32 data endian p
  let flags ← readU32 data endian (p + 4)
  let offset ← readU64 data endian (p + 8)
  let vaddr ← readU64 data endian (p + 16)
  let paddr ← readU64 data endian (p + 24)
  let filesz ← readU64 data endian (p + 32)
  let memsz ← readU64 data endian (p + 40)
  let align ← readU64 data endian (p + 48)
  pure { type, offset, vaddr, paddr, filesz, memsz, flags, align }

end Reading

/-- The offsets of the entries of a table, up to the first entry that reaches
beyond the data. -/
def entryOffsets (dataSize entrySize : Nat) (off : UInt64) (num entsize : UInt16) : List UInt64 :=
  let offsets := (List.range num.toNat).map fun i => off + i.toUInt64 * entsize.toUInt64
  offsets.takeWhile fun off => (off + entrySize.toUInt64).toNat ≤ dataSize

namespace Reading

open Logged

variable (data : ByteBuffer) (endian : ElfEndian)

def readProgramHeaders (hdr : ElfHeader) : Logged (List ProgramHeader) :=
  each
    (fun off =>
      if hdr.elfClass = .elf64 then readProgramHeader64 data hdr.endian off.toNat
      else readProgramHeader32 data hdr.endian off.toNat)
    (entryOffsets data.length (programHeaderSize hdr.elfClass) hdr.phoff hdr.phnum hdr.phentsize)

/-! ## Sections -/

def readSectionHeader32 (p : Nat) : Logged SectionHeader := do
  let nameIdx ← readU32 data endian p
  let type ← readU32 data endian (p + 4)
  let flags ← readWide data endian (p + 8)
  let addr ← readWide data endian (p + 12)
  let offset ← readWide data endian (p + 16)
  let size ← readWide data endian (p + 20)
  let link ← readU32 data endian (p + 24)
  let info ← readU32 data endian (p + 28)
  let addralign ← readWide data endian (p + 32)
  let entsize ← readWide data endian (p + 36)
  pure { nameIdx, type, flags, addr, offset, size, link, info, addralign, entsize }

def readSectionHeader64 (p : Nat) : Logged SectionHeader := do
  let nameIdx ← readU32 data endian p
  let type ← readU32 data endian (p + 4)
  let flags ← readU64 data endian (p + 8)
  let addr ← readU64 data endian (p + 16)
  let offset ← readU64 data endian (p + 24)
  let size ← readU64 data endian (p + 32)
  let link ← readU32 data endian (p + 40)
  let info ← readU32 data endian (p + 44)
  let addralign ← readU64 data endian (p + 48)
  let entsize ← readU64 data endian (p + 56)
  pure { nameIdx, type, flags, addr, offset, size, link, info, addralign, entsize }

def readSectionHeaders (hdr : ElfHeader) : Logged (List SectionHeader) :=
  each
    (fun off =>
      if hdr.elfClass = .elf64 then readSectionHeader64 data hdr.endian off.toNat
      else readSectionHeader32 data hdr.endian off.toNat)
    (entryOffsets data.length (sectionHeaderSize hdr.elfClass) hdr.shoff hdr.shnum hdr.shentsize)

def readStringTable (offset : UInt64) (size : Nat) : Logged ByteBuffer :=
  if data.length ≤ offset.toNat ∨ size = 0 then pure []
  else range data offset.toNat (min size (data.length - offset.toNat))

/-- The name of a section in the string table. -/
def resolveName (strData : ByteBuffer) (sh : SectionHeader) : Logged SectionHeader :=
  if sh.nameIdx.toNat < strData.length then do
    let text ← range strData sh.nameIdx.toNat (strData.length - sh.nameIdx.toNat)
    pure { sh with name := text.takeWhile (· ≠ 0) }
  else pure sh

def resolveNames (hdr : ElfHeader) (sections : List SectionHeader) :
    Logged (List SectionHeader) :=
  match sections[hdr.shstrndx.toNat]? with
  | none => pure sections
  | some strtabHdr =>
    if strtabHdr.type = 3 ∧ strtabHdr.offset.toNat < data.length then do
      let strSize := min strtabHdr.size.toNat (data.length - strtabHdr.offset.toNat)
      let strData ← readStringTable data strtabHdr.offset strSize
      each (resolveName strData) sections
    else pure sections

def readSections (hdr : ElfHeader) : Logged (List SectionHeader) :=
  if 0 < hdr.shnum ∧ 0 < hdr.shentsize ∧ 0 < hdr.shoff ∧ hdr.shoff.toNat < data.length then do
    let sections ← readSectionHeaders data hdr
    resolveNames data hdr sections
  else pure []

/-! ## Parse -/

def parse : Logged (Except ErrorCode (ElfFile × List SectionHeader)) := do
  let magic ← hasValidMagic data
  if !magic then pure (.error .invalidElf)
  else
    let header ← readHeader data
    let (accepted, validation) := validateHeader header data.length {}
    if !accepted then pure (.error .invalidElf)
    else if 0 < header.phnum ∧ 0 < header.phentsize ∧ 0 < header.phoff ∧
        header.phoff.toNat < data.length then
      let programHeaders ← readProgramHeaders data header
      let sections ← readSections data header
      pure (.ok ({ header, programHeaders, rawData := data
                   validation := validateProgramHeaders data.length programHeaders validation },
        sections))
    else
      let sections ← readSections data header
      pure (.ok ({ header, rawData := data, validation }, sections))

/-! ## The plain parser -/

variable {data : ByteBuffer} {endian : ElfEndian}

theorem value_hasValidMagic : (hasValidMagic data).value = Elf.hasValidMagic data := by
  rw [hasValidMagic, Elf.hasValidMagic]
  split
  · rename_i hshort
    symm
    rw [value_pure, decide_eq_false_iff_not]
    intro hmagic
    have hlength := congrArg List.length hmagic
    rw [List.length_take, List.length_cons, List.length_cons, List.length_cons, List.length_cons,
      List.length_nil] at hlength
    omega
  · rfl

theorem value_readClass : (readClass data).value = Elf.readClass data := by
  rw [readClass, Elf.readClass, value_ite]
  rfl

theorem value_readEndian : (readEndian data).value = Elf.readEndian data := by
  rw [readEndian, Elf.readEndian, value_ite]
  rfl

theorem value_readHeader : (readHeader data).value = Elf.readHeader data := by
  rw [readHeader, Elf.readHeader, value_ite]
  split
  · rfl
  · simp only [value_bind, value_readClass, value_readEndian, value_ite]
    split
    · rfl
    · split
      · rfl
      · split <;> rfl

theorem value_readProgramHeaders (hdr : ElfHeader) :
    (readProgramHeaders data hdr).value = Elf.readProgramHeaders hdr data := by
  rw [readProgramHeaders, Elf.readProgramHeaders, value_each]
  apply List.map_congr_left
  intro off _
  rw [value_ite]
  rfl

/-- Apart from the sections this is the parser. -/
theorem value_parse : (parse data).value.map Prod.fst = Elf.parse data := by
  rw [parse, value_bind, value_hasValidMagic, Elf.parse]
  split
  · rfl
  · rw [value_bind, value_readHeader]
    simp only
    split
    · rfl
    · split
      · simp only [value_bind, value_readProgramHeaders, value_pure]
        rfl
      · rfl

/-! ## Safety -/

theorem safe_readU16 (p : Nat) : (readU16 data endian p).Safe ↔ p + 2 ≤ data.length :=
  safe_taking _ _ _ _

theorem safe_readU32 (p : Nat) : (readU32 data endian p).Safe ↔ p + 4 ≤ data.length :=
  safe_taking _ _ _ _

theorem safe_readU64 (p : Nat) : (readU64 data endian p).Safe ↔ p + 8 ≤ data.length :=
  safe_taking _ _ _ _

theorem safe_readWide (p : Nat) : (readWide data endian p).Safe ↔ p + 4 ≤ data.length := by
  rw [readWide, safe_map, safe_readU32]

theorem safe_hasValidMagic : (hasValidMagic data).Safe := by
  rw [hasValidMagic, safe_ite]
  simp only [safe_pure, safe_bind, safe_range, and_true, implies_true, true_and]
  omega

theorem safe_readClass : (readClass data).Safe := by
  rw [readClass, safe_ite]
  simp only [safe_pure, safe_map, safe_byteAt, implies_true, true_and]
  omega

theorem safe_readEndian : (readEndian data).Safe := by
  rw [readEndian, safe_ite]
  simp only [safe_pure, safe_map, safe_byteAt, implies_true, true_and]
  omega

theorem safe_readFields64 (hdr : ElfHeader) (h : 64 ≤ data.length) :
    (readFields64 data endian hdr).Safe := by
  simp only [readFields64, safe_bind, safe_pure, safe_readU16, safe_readU32, safe_readU64, and_true]
  omega

theorem safe_readFields32 (hdr : ElfHeader) (h : 52 ≤ data.length) :
    (readFields32 data endian hdr).Safe := by
  simp only [readFields32, safe_bind, safe_pure, safe_readU16, safe_readU32, safe_readWide,
    and_true]
  omega

theorem safe_readHeader : (readHeader data).Safe := by
  rw [readHeader, safe_ite]
  refine ⟨fun _ => safe_pure _, fun hlong => ?_⟩
  simp only [safe_bind, safe_ite, safe_byteAt, safe_pure]
  refine ⟨safe_readClass, safe_readEndian, fun _ => trivial, fun _ => ?_⟩
  refine ⟨by omega, by omega, by omega, fun hwide => ?_, fun _ => ⟨fun _ => ?_, fun _ => trivial⟩⟩
  · exact safe_readFields64 _ hwide.2
  · exact safe_readFields32 _ (by omega)

theorem safe_readProgramHeader32 {p : Nat} (h : p + 32 ≤ data.length) :
    (readProgramHeader32 data endian p).Safe := by
  simp only [readProgramHeader32, safe_bind, safe_map, safe_pure, safe_readU32, safe_readWide,
    and_true]
  omega

theorem safe_readProgramHeader64 {p : Nat} (h : p + 56 ≤ data.length) :
    (readProgramHeader64 data endian p).Safe := by
  simp only [readProgramHeader64, safe_bind, safe_map, safe_pure, safe_readU32, safe_readU64,
    and_true]
  omega

theorem safe_readSectionHeader32 {p : Nat} (h : p + 40 ≤ data.length) :
    (readSectionHeader32 data endian p).Safe := by
  simp only [readSectionHeader32, safe_bind, safe_pure, safe_readU32, safe_readWide, and_true]
  omega

theorem safe_readSectionHeader64 {p : Nat} (h : p + 64 ≤ data.length) :
    (readSectionHeader64 data endian p).Safe := by
  simp only [readSectionHeader64, safe_bind, safe_pure, safe_readU32, safe_readU64, and_true]
  omega

/-- In a table that begins inside of the data no offset wraps around, so an entry
that is read lies inside as well. -/
theorem entryOffsets_inside {dataSize entrySize : Nat} {off : UInt64} {num entsize : UInt16}
    (hdata : dataSize < 2 ^ 63) (hentry : entrySize < 2 ^ 16) (hoff : off.toNat < dataSize) :
    ∀ p ∈ entryOffsets dataSize entrySize off num entsize, p.toNat + entrySize ≤ dataSize := by
  intro p hp
  rw [entryOffsets] at hp
  have hinside := List.mem_takeWhile_imp hp
  obtain ⟨i, hi, rfl⟩ := List.mem_map.mp ((List.takeWhile_prefix _).subset hp)
  have hnum := num.toNat_lt
  have hentsize := entsize.toNat_lt
  have hi := List.mem_range.mp hi
  have hindex : i.toUInt64.toNat = i := Nat.mod_eq_of_lt (by omega)
  have hproduct : i * entsize.toNat ≤ 2 ^ 32 :=
    calc i * entsize.toNat ≤ 2 ^ 16 * 2 ^ 16 := Nat.mul_le_mul (by omega) (by omega)
      _ = 2 ^ 32 := by decide
  have hat : (off + i.toUInt64 * entsize.toUInt64).toNat = off.toNat + i * entsize.toNat := by
    rw [UInt64.toNat_add, UInt64.toNat_mul, hindex, UInt16.toNat_toUInt64,
      Nat.mod_eq_of_lt (by omega : i * entsize.toNat < 2 ^ 64), Nat.mod_eq_of_lt (by omega)]
  have hsize : entrySize.toUInt64.toNat = entrySize := Nat.mod_eq_of_lt (by omega)
  rw [decide_eq_true_eq, UInt64.toNat_add, hat, hsize, Nat.mod_eq_of_lt (by omega)] at hinside
  rwa [hat]

theorem safe_readProgramHeaders {hdr : ElfHeader} (hdata : data.length < 2 ^ 63)
    (hphoff : hdr.phoff.toNat < data.length) : (readProgramHeaders data hdr).Safe := by
  rw [readProgramHeaders, safe_each]
  have hsize : programHeaderSize hdr.elfClass < 2 ^ 16 := by
    rw [programHeaderSize]
    split <;> decide
  intro off hoff
  have hinside := entryOffsets_inside hdata hsize hphoff off hoff
  rw [programHeaderSize] at hinside
  split
  · rename_i hclass
    rw [if_pos hclass] at hinside
    exact safe_readProgramHeader64 hinside
  · rename_i hclass
    rw [if_neg hclass] at hinside
    exact safe_readProgramHeader32 hinside

theorem safe_readSectionHeaders {hdr : ElfHeader} (hdata : data.length < 2 ^ 63)
    (hshoff : hdr.shoff.toNat < data.length) : (readSectionHeaders data hdr).Safe := by
  rw [readSectionHeaders, safe_each]
  have hsize : sectionHeaderSize hdr.elfClass < 2 ^ 16 := by
    rw [sectionHeaderSize]
    split <;> decide
  intro off hoff
  have hinside := entryOffsets_inside hdata hsize hshoff off hoff
  rw [sectionHeaderSize] at hinside
  split
  · rename_i hclass
    rw [if_pos hclass] at hinside
    exact safe_readSectionHeader64 hinside
  · rename_i hclass
    rw [if_neg hclass] at hinside
    exact safe_readSectionHeader32 hinside

theorem safe_readStringTable (offset : UInt64) (size : Nat) :
    (readStringTable data offset size).Safe := by
  rw [readStringTable, safe_ite]
  simp only [safe_pure, safe_range, implies_true, true_and]
  omega

theorem safe_resolveName (strData : ByteBuffer) (sh : SectionHeader) :
    (resolveName strData sh).Safe := by
  rw [resolveName, safe_ite]
  simp only [safe_bind, safe_pure, safe_range, and_true, implies_true]
  omega

theorem safe_resolveNames (hdr : ElfHeader) (sections : List SectionHeader) :
    (resolveNames data hdr sections).Safe := by
  rw [resolveNames]
  split
  · exact safe_pure _
  · rw [safe_ite]
    refine ⟨fun _ => ?_, fun _ => safe_pure _⟩
    simp only [safe_bind, safe_each]
    exact ⟨safe_readStringTable _ _, fun _ _ => safe_resolveName _ _⟩

theorem safe_readSections (hdr : ElfHeader) (hdata : data.length < 2 ^ 63) :
    (readSections data hdr).Safe := by
  rw [readSections, safe_ite]
  refine ⟨fun htable => ?_, fun _ => safe_pure _⟩
  rw [safe_bind]
  exact ⟨safe_readSectionHeaders hdata htable.2.2.2, safe_resolveNames _ _⟩

theorem safe_parse (hdata : data.length < 2 ^ 63) : (parse data).Safe := by
  rw [parse, safe_bind, safe_ite, safe_bind]
  refine ⟨safe_hasValidMagic, fun _ => safe_pure _, fun _ => ⟨safe_readHeader, ?_⟩⟩
  simp only [safe_ite, safe_bind, safe_pure]
  refine ⟨fun _ => trivial, fun _ => ⟨fun htable => ?_, fun _ => ?_⟩⟩
  · exact ⟨safe_readProgramHeaders hdata htable.2.2.2, safe_readSections _ hdata, trivial⟩
  · exact ⟨safe_readSections _ hdata, trivial⟩

end Reading

/-- Every read of the parser lies inside of the file, and so do the segments of a
file it calls valid. -/
theorem parse_inBounds {data : ByteBuffer} (hdata : data.length < 2 ^ 63) :
    (Reading.parse data).value.map Prod.fst = parse data ∧ (Reading.parse data).Safe ∧
      ∀ elf, parse data = .ok elf → elf.validation.valid = true →
        ∀ ph ∈ elf.programHeaders, ph.type ≠ .null →
          ph.offset.toNat + ph.filesz.toNat ≤ data.length := by
  refine ⟨Reading.value_parse, Reading.safe_parse hdata, ?_⟩
  intro elf hparse hvalid ph hph hnull
  have hinside := ((parsed_of_parse hparse).valid.mp hvalid).1 ph hph hnull
  rw [ProgramHeader.outsideFile, Bool.or_eq_false_iff, decide_eq_false_iff_not,
    decide_eq_false_iff_not] at hinside
  omega

theorem parse_inBounds_oneSegment :
    (Reading.parse oneSegment).value.map Prod.fst = parse oneSegment ∧
      (Reading.parse oneSegment).Safe ∧
      ∀ elf, parse oneSegment = .ok elf → elf.validation.valid = true →
        ∀ ph ∈ elf.programHeaders, ph.type ≠ .null →
          ph.offset.toNat + ph.filesz.toNat ≤ oneSegment.length :=
  parse_inBounds (by decide)

end MBootCore.Elf
