import MBootCore.Elf.ProgramTable

/-!
# Loader — ElfInspector

The second reader of ELF headers, `ElfInspector.cpp`, against `ElfParser`. It
notes the byte order of a file and then reads every field in that of the host, and
so a big-endian header comes out with its bytes the wrong way round.
-/

namespace MBootCore

open LittleEndian

namespace Elf

/-! ## Fields that read the same backwards -/

/-- The `width` bytes at `off` are the same backwards. -/
def Mirrored (data : ByteBuffer) (off width : Nat) : Prop :=
  ∀ i < width, data.getD (off + i) 0 = data.getD (off + (width - 1 - i)) 0

instance (data : ByteBuffer) (off width : Nat) : Decidable (Mirrored data off width) :=
  inferInstanceAs (Decidable (∀ i < width, _))

variable {data : ByteBuffer} {p : Nat} {endian : ElfEndian}

theorem decode16_backwards (b0 b1 : UInt8) : decode16 b0 b1 = decode16 b1 b0 ↔ b0 = b1 := by
  constructor
  · intro heq
    have hbytes := congrArg encode16 heq
    simp only [encode16_decode16, List.cons.injEq] at hbytes
    exact hbytes.1
  · rintro rfl
    rfl

theorem decode32_backwards (b0 b1 b2 b3 : UInt8) :
    decode32 b0 b1 b2 b3 = decode32 b3 b2 b1 b0 ↔ b0 = b3 ∧ b1 = b2 := by
  constructor
  · intro heq
    have hbytes := congrArg encode32 heq
    simp only [encode32_decode32, List.cons.injEq] at hbytes
    exact ⟨hbytes.1, hbytes.2.1⟩
  · rintro ⟨rfl, rfl⟩
    rfl

theorem decode64_backwards (b0 b1 b2 b3 b4 b5 b6 b7 : UInt8) :
    decode64 b0 b1 b2 b3 b4 b5 b6 b7 = decode64 b7 b6 b5 b4 b3 b2 b1 b0 ↔
      b0 = b7 ∧ b1 = b6 ∧ b2 = b5 ∧ b3 = b4 := by
  constructor
  · intro heq
    have hbytes := congrArg encode64 heq
    simp only [encode64_decode64, List.cons.injEq] at hbytes
    exact ⟨hbytes.1, hbytes.2.1, hbytes.2.2.1, hbytes.2.2.2.1⟩
  · rintro ⟨rfl, rfl, rfl, rfl⟩
    rfl

theorem mirrored_two :
    Mirrored data p 2 ↔ data.getD p 0 = data.getD (p + 1) 0 := by
  constructor
  · intro h
    exact h 0 (by decide)
  · intro h i hi
    obtain rfl | rfl : i = 0 ∨ i = 1 := by omega
    · exact h
    · exact h.symm

theorem mirrored_four : Mirrored data p 4 ↔
    data.getD p 0 = data.getD (p + 3) 0 ∧ data.getD (p + 1) 0 = data.getD (p + 2) 0 := by
  constructor
  · intro h
    exact ⟨h 0 (by decide), h 1 (by decide)⟩
  · rintro ⟨h0, h1⟩ i hi
    obtain rfl | rfl | rfl | rfl : i = 0 ∨ i = 1 ∨ i = 2 ∨ i = 3 := by omega
    · exact h0
    · exact h1
    · exact h1.symm
    · exact h0.symm

theorem mirrored_eight : Mirrored data p 8 ↔
    data.getD p 0 = data.getD (p + 7) 0 ∧ data.getD (p + 1) 0 = data.getD (p + 6) 0 ∧
      data.getD (p + 2) 0 = data.getD (p + 5) 0 ∧ data.getD (p + 3) 0 = data.getD (p + 4) 0 := by
  constructor
  · intro h
    exact ⟨h 0 (by decide), h 1 (by decide), h 2 (by decide), h 3 (by decide)⟩
  · rintro ⟨h0, h1, h2, h3⟩ i hi
    obtain rfl | rfl | rfl | rfl | rfl | rfl | rfl | rfl :
      i = 0 ∨ i = 1 ∨ i = 2 ∨ i = 3 ∨ i = 4 ∨ i = 5 ∨ i = 6 ∨ i = 7 := by omega
    · exact h0
    · exact h1
    · exact h2
    · exact h3
    · exact h3.symm
    · exact h2.symm
    · exact h1.symm
    · exact h0.symm

/-! A field read in the order of the host, against the parser's. -/

theorem readLE16_iff (h : p + 2 ≤ data.length) :
    readLE16 data p = readU16 data p endian ↔ (endian = .big → Mirrored data p 2) := by
  by_cases hbig : endian = .big
  · rw [readU16, if_pos hbig, readLE16, if_neg (by omega), decode16_backwards, mirrored_two]
    exact ⟨fun h _ => h, fun h => h hbig⟩
  · rw [readU16, if_neg hbig]
    exact iff_of_true rfl fun h => absurd h hbig

theorem readLE32_iff (h : p + 4 ≤ data.length) :
    readLE32 data p = readU32 data p endian ↔ (endian = .big → Mirrored data p 4) := by
  by_cases hbig : endian = .big
  · rw [readU32, if_pos hbig, readLE32, if_neg (by omega), decode32_backwards, mirrored_four]
    exact ⟨fun h _ => h, fun h => h hbig⟩
  · rw [readU32, if_neg hbig]
    exact iff_of_true rfl fun h => absurd h hbig

theorem readLE64_iff (h : p + 8 ≤ data.length) :
    readLE64 data p = readU64 data p endian ↔ (endian = .big → Mirrored data p 8) := by
  by_cases hbig : endian = .big
  · rw [readU64, if_pos hbig, readLE64, if_neg (by omega), decode64_backwards, mirrored_eight]
    exact ⟨fun h _ => h, fun h => h hbig⟩
  · rw [readU64, if_neg hbig]
    exact iff_of_true rfl fun h => absurd h hbig

/-- A word of 32 bits put into 64. -/
theorem readLE32_wide_iff (h : p + 4 ≤ data.length) :
    (readLE32 data p).toUInt64 = (readU32 data p endian).toUInt64 ↔
      (endian = .big → Mirrored data p 4) := by
  rw [← readLE32_iff h, ← UInt64.toNat_inj, UInt32.toNat_toUInt64, UInt32.toNat_toUInt64,
    UInt32.toNat_inj]

end Elf

/-! ## The inspector -/

open Elf (hasValidMagic Mirrored)

structure ElfHeaderInfo where
  type : UInt16 := 0
  machine : UInt16 := 0
  version : UInt32 := 0
  entry : UInt64 := 0
  phoff : UInt64 := 0
  shoff : UInt64 := 0
  flags : UInt32 := 0
  ehsize : UInt16 := 0
  phentsize : UInt16 := 0
  phnum : UInt16 := 0
  shentsize : UInt16 := 0
  shnum : UInt16 := 0
  shstrndx : UInt16 := 0
  is64Bit : Bool := false
  isLittleEndian : Bool := true
  deriving DecidableEq, Repr

/-- The segments and sections are never filled in. -/
structure ElfInspectionResult where
  header : ElfHeaderInfo := {}
  architecture : String := ""
  hasProgramHeaders : Bool := false
  hasSectionHeaders : Bool := false
  deriving DecidableEq, Repr

namespace ElfInspector

def entryPoint (data : ByteBuffer) : UInt64 :=
  if !hasValidMagic data ∨ data.length < 24 then 0
  else if data.getD 4 0 = 1 then
    if data.length < 28 then 0 else (readLE32 data 24).toUInt64
  else if data.length < 32 then 0
  else readLE64 data 24

def architectureName (machine : UInt16) : String :=
  if machine = 0x00 then "No specific instruction set"
  else if machine = 0x02 then "SPARC"
  else if machine = 0x03 then "x86"
  else if machine = 0x08 then "MIPS"
  else if machine = 0x14 then "PowerPC"
  else if machine = 0x28 then "ARM"
  else if machine = 0x2A then "SuperH"
  else if machine = 0x32 then "IA-64"
  else if machine = 0x3E then "x86-64"
  else if machine = 0xB7 then "AArch64"
  else if machine = 0xF3 then "RISC-V"
  else "Unknown (0x" ++ String.ofList (Nat.toDigits 16 machine.toNat) ++ ")"

def architecture (data : ByteBuffer) : String :=
  if !hasValidMagic data ∨ data.length < 19 then "Unknown"
  else architectureName (readLE16 data 18)

def readHeader64 (data : ByteBuffer) (header : ElfHeaderInfo) : ElfHeaderInfo :=
  { header with
    type := readLE16 data 16
    machine := readLE16 data 18
    entry := readLE64 data 24
    phoff := readLE64 data 32
    shoff := readLE64 data 40
    flags := readLE32 data 48
    ehsize := readLE16 data 52
    phentsize := readLE16 data 54
    phnum := readLE16 data 56
    shentsize := readLE16 data 58
    shnum := readLE16 data 60
    shstrndx := readLE16 data 62 }

def readHeader32 (data : ByteBuffer) (header : ElfHeaderInfo) : ElfHeaderInfo :=
  { header with
    type := readLE16 data 16
    machine := readLE16 data 18
    entry := (readLE32 data 24).toUInt64
    phoff := (readLE32 data 28).toUInt64
    shoff := (readLE32 data 32).toUInt64
    flags := readLE32 data 36
    ehsize := readLE16 data 40
    phentsize := readLE16 data 42
    phnum := readLE16 data 44
    shentsize := readLE16 data 46
    shnum := readLE16 data 48
    shstrndx := readLE16 data 50 }

def inspect (data : ByteBuffer) : Except ErrorCode ElfInspectionResult :=
  if !hasValidMagic data then .error .invalidElf
  else if data.length < 7 then .error .invalidElf
  else
    let ident : ElfHeaderInfo :=
      { is64Bit := data.getD 4 0 = 2
        isLittleEndian := data.getD 5 0 = 1
        version := (data.getD 6 0).toUInt32 }
    let header :=
      if ident.is64Bit ∧ 64 ≤ data.length then readHeader64 data ident
      else if !ident.is64Bit ∧ 52 ≤ data.length then readHeader32 data ident
      else ident
    .ok
      { header
        architecture := architecture data
        hasProgramHeaders := 0 < header.phnum ∧ 0 < header.phentsize
        hasSectionHeaders := 0 < header.shnum ∧ 0 < header.shentsize }

/-! ## The two readers -/

/-- What both readers report of a header. -/
structure SameHeader (info : ElfHeaderInfo) (hdr : Elf.ElfHeader) : Prop where
  elfClass : info.is64Bit = true ↔ hdr.elfClass = .elf64
  endian : info.isLittleEndian = true ↔ hdr.endian = .little
  type : info.type = hdr.type
  machine : info.machine = hdr.machine
  entry : info.entry = hdr.entry
  phoff : info.phoff = hdr.phoff
  shoff : info.shoff = hdr.shoff
  ehsize : info.ehsize = hdr.ehsize
  phentsize : info.phentsize = hdr.phentsize
  phnum : info.phnum = hdr.phnum
  shentsize : info.shentsize = hdr.shentsize
  shnum : info.shnum = hdr.shnum

structure Agrees (data : ByteBuffer) (hdr : Elf.ElfHeader) : Prop where
  inspected : ∃ result, inspect data = .ok result ∧ SameHeader result.header hdr
  entryPoint : entryPoint data = hdr.entry

/-- Where the fields are that both report, and how wide. -/
def headerFields (elfClass : UInt8) : List (Nat × Nat) :=
  if elfClass = 2 then
    [(16, 2), (18, 2), (24, 8), (32, 8), (40, 8), (52, 2), (54, 2), (56, 2), (58, 2), (60, 2)]
  else
    [(16, 2), (18, 2), (24, 4), (28, 4), (32, 4), (40, 2), (42, 2), (44, 2), (46, 2), (48, 2)]

/-! ### Headers of either class -/

section Classes

variable {data : ByteBuffer}

open Elf (readU16 readU32 readU64 readEndian readClass)

theorem readClass_of_byte (hlength : 52 ≤ data.length) :
    readClass data = .ofRaw (data.getD 4 0) := by
  rw [readClass, if_neg (by omega)]

theorem readEndian_of_byte (hlength : 52 ≤ data.length) :
    readEndian data = .ofRaw (data.getD 5 0) := by
  rw [readEndian, if_neg (by omega)]

theorem ofRaw_big {raw : UInt8} : Elf.ElfEndian.ofRaw raw = .big ↔ raw = 2 := by
  rw [Elf.ElfEndian.ofRaw]
  constructor
  · intro h
    split at h
    · cases h
    split at h
    · cases h
    split at h
    · assumption
    · cases h
  · rintro rfl
    rfl

theorem ofRaw_little {raw : UInt8} : Elf.ElfEndian.ofRaw raw = .little ↔ raw = 1 := by
  rw [Elf.ElfEndian.ofRaw]
  constructor
  · intro h
    split at h
    · cases h
    split at h
    · assumption
    split at h <;> cases h
  · rintro rfl
    rfl

/-- The header of a 64-bit file, as the parser reads it. -/
theorem readHeader_elf64 (hlength : 64 ≤ data.length) (hclass : data.getD 4 0 = 2)
    (hendian : readEndian data ≠ .none) :
    Elf.readHeader data =
      { elfClass := .elf64
        endian := readEndian data
        version := data.getD 6 0
        osAbi := data.getD 7 0
        abiVersion := data.getD 8 0
        type := readU16 data 16 (readEndian data)
        machine := readU16 data 18 (readEndian data)
        elfVersion := readU32 data 20 (readEndian data)
        entry := readU64 data 24 (readEndian data)
        phoff := readU64 data 32 (readEndian data)
        shoff := readU64 data 40 (readEndian data)
        flags := readU32 data 48 (readEndian data)
        ehsize := readU16 data 52 (readEndian data)
        phentsize := readU16 data 54 (readEndian data)
        phnum := readU16 data 56 (readEndian data)
        shentsize := readU16 data 58 (readEndian data)
        shnum := readU16 data 60 (readEndian data)
        shstrndx := readU16 data 62 (readEndian data) } := by
  have hcls : readClass data = .elf64 := by
    rw [readClass_of_byte (by omega), hclass]
    rfl
  rw [Elf.readHeader, if_neg (by omega)]
  simp only [hcls]
  rw [if_neg (by simp [hendian]), if_pos ⟨trivial, hlength⟩]

theorem readHeader_elf32 (hlength : 52 ≤ data.length) (hclass : data.getD 4 0 = 1)
    (hendian : readEndian data ≠ .none) :
    Elf.readHeader data =
      { elfClass := .elf32
        endian := readEndian data
        version := data.getD 6 0
        osAbi := data.getD 7 0
        abiVersion := data.getD 8 0
        type := readU16 data 16 (readEndian data)
        machine := readU16 data 18 (readEndian data)
        elfVersion := readU32 data 20 (readEndian data)
        entry := (readU32 data 24 (readEndian data)).toUInt64
        phoff := (readU32 data 28 (readEndian data)).toUInt64
        shoff := (readU32 data 32 (readEndian data)).toUInt64
        flags := readU32 data 36 (readEndian data)
        ehsize := readU16 data 40 (readEndian data)
        phentsize := readU16 data 42 (readEndian data)
        phnum := readU16 data 44 (readEndian data)
        shentsize := readU16 data 46 (readEndian data)
        shnum := readU16 data 48 (readEndian data)
        shstrndx := readU16 data 50 (readEndian data) } := by
  have hcls : readClass data = .elf32 := by
    rw [readClass_of_byte (by omega), hclass]
    rfl
  rw [Elf.readHeader, if_neg (by omega)]
  simp only [hcls]
  rw [if_neg (by simp [hendian]), if_neg (by simp), if_pos trivial]

theorem agrees_elf64 (hmagic : hasValidMagic data = true) (hlength : 64 ≤ data.length)
    (hclass : data.getD 4 0 = 2) (hendian : readEndian data ≠ .none) :
    Agrees data (Elf.readHeader data) ↔
      (readEndian data = .big → ∀ field ∈ headerFields 2, Mirrored data field.1 field.2) := by
  have hinspect : ∃ result, inspect data = .ok result ∧ result.header
      = readHeader64 data
          { is64Bit := true
            isLittleEndian := data.getD 5 0 = 1
            version := (data.getD 6 0).toUInt32 } := by
    rw [inspect, if_neg (by simp [hmagic]), if_neg (by omega)]
    simp only [hclass, decide_true, hlength, and_self, if_true]
    exact ⟨_, rfl, rfl⟩
  obtain ⟨result, hresult, hinfo⟩ := hinspect
  rw [readHeader_elf64 hlength hclass hendian]
  constructor
  · rintro ⟨⟨other, hother, hsame⟩, -⟩ hbig field hfield
    obtain rfl := Except.ok.inj (hresult.symm.trans hother)
    rw [hinfo] at hsame
    simp only [headerFields, if_true, List.mem_cons, List.not_mem_nil, or_false] at hfield
    rcases hfield with rfl | rfl | rfl | rfl | rfl | rfl | rfl | rfl | rfl | rfl
    · exact (Elf.readLE16_iff (by omega)).mp hsame.type hbig
    · exact (Elf.readLE16_iff (by omega)).mp hsame.machine hbig
    · exact (Elf.readLE64_iff (by omega)).mp hsame.entry hbig
    · exact (Elf.readLE64_iff (by omega)).mp hsame.phoff hbig
    · exact (Elf.readLE64_iff (by omega)).mp hsame.shoff hbig
    · exact (Elf.readLE16_iff (by omega)).mp hsame.ehsize hbig
    · exact (Elf.readLE16_iff (by omega)).mp hsame.phentsize hbig
    · exact (Elf.readLE16_iff (by omega)).mp hsame.phnum hbig
    · exact (Elf.readLE16_iff (by omega)).mp hsame.shentsize hbig
    · exact (Elf.readLE16_iff (by omega)).mp hsame.shnum hbig
  · intro hmirrored
    have hfield (off width : Nat) (hmem : (off, width) ∈ headerFields 2) :
        readEndian data = .big → Mirrored data off width := fun hbig => hmirrored hbig _ hmem
    have hentry := (Elf.readLE64_iff (by omega)).mpr (hfield 24 8 (by decide))
    refine ⟨⟨result, hresult, ?_⟩, ?_⟩
    · rw [hinfo]
      constructor
      · exact iff_of_true rfl rfl
      · show decide (data.getD 5 0 = 1) = true ↔ readEndian data = .little
        rw [decide_eq_true_iff, readEndian_of_byte (by omega), ofRaw_little]
      · exact (Elf.readLE16_iff (by omega)).mpr (hfield 16 2 (by decide))
      · exact (Elf.readLE16_iff (by omega)).mpr (hfield 18 2 (by decide))
      · exact hentry
      · exact (Elf.readLE64_iff (by omega)).mpr (hfield 32 8 (by decide))
      · exact (Elf.readLE64_iff (by omega)).mpr (hfield 40 8 (by decide))
      · exact (Elf.readLE16_iff (by omega)).mpr (hfield 52 2 (by decide))
      · exact (Elf.readLE16_iff (by omega)).mpr (hfield 54 2 (by decide))
      · exact (Elf.readLE16_iff (by omega)).mpr (hfield 56 2 (by decide))
      · exact (Elf.readLE16_iff (by omega)).mpr (hfield 58 2 (by decide))
      · exact (Elf.readLE16_iff (by omega)).mpr (hfield 60 2 (by decide))
    · rw [entryPoint, if_neg (by simp [hmagic]; omega), if_neg (by rw [hclass]; decide),
        if_neg (by omega)]
      exact hentry

theorem agrees_elf32 (hmagic : hasValidMagic data = true) (hlength : 52 ≤ data.length)
    (hclass : data.getD 4 0 = 1) (hendian : readEndian data ≠ .none) :
    Agrees data (Elf.readHeader data) ↔
      (readEndian data = .big → ∀ field ∈ headerFields 1, Mirrored data field.1 field.2) := by
  have hinspect : ∃ result, inspect data = .ok result ∧ result.header
      = readHeader32 data
          { is64Bit := false
            isLittleEndian := data.getD 5 0 = 1
            version := (data.getD 6 0).toUInt32 } := by
    rw [inspect, if_neg (by simp [hmagic]), if_neg (by omega)]
    have hne : ¬ (1 : UInt8) = 2 := by decide
    simp only [hclass, hne, decide_false, Bool.false_eq_true, false_and, if_false, Bool.not_false,
      hlength, and_self, if_true]
    exact ⟨_, rfl, rfl⟩
  obtain ⟨result, hresult, hinfo⟩ := hinspect
  rw [readHeader_elf32 hlength hclass hendian]
  constructor
  · rintro ⟨⟨other, hother, hsame⟩, -⟩ hbig field hfield
    obtain rfl := Except.ok.inj (hresult.symm.trans hother)
    rw [hinfo] at hsame
    rw [headerFields, if_neg (by decide)] at hfield
    simp only [List.mem_cons, List.not_mem_nil, or_false] at hfield
    rcases hfield with rfl | rfl | rfl | rfl | rfl | rfl | rfl | rfl | rfl | rfl
    · exact (Elf.readLE16_iff (by omega)).mp hsame.type hbig
    · exact (Elf.readLE16_iff (by omega)).mp hsame.machine hbig
    · exact (Elf.readLE32_wide_iff (by omega)).mp hsame.entry hbig
    · exact (Elf.readLE32_wide_iff (by omega)).mp hsame.phoff hbig
    · exact (Elf.readLE32_wide_iff (by omega)).mp hsame.shoff hbig
    · exact (Elf.readLE16_iff (by omega)).mp hsame.ehsize hbig
    · exact (Elf.readLE16_iff (by omega)).mp hsame.phentsize hbig
    · exact (Elf.readLE16_iff (by omega)).mp hsame.phnum hbig
    · exact (Elf.readLE16_iff (by omega)).mp hsame.shentsize hbig
    · exact (Elf.readLE16_iff (by omega)).mp hsame.shnum hbig
  · intro hmirrored
    have hfield (off width : Nat) (hmem : (off, width) ∈ headerFields 1) :
        readEndian data = .big → Mirrored data off width := fun hbig => hmirrored hbig _ hmem
    have hentry := (Elf.readLE32_wide_iff (by omega)).mpr (hfield 24 4 (by decide))
    refine ⟨⟨result, hresult, ?_⟩, ?_⟩
    · rw [hinfo]
      constructor
      · exact iff_of_false (by simp [readHeader32]) (by simp)
      · show decide (data.getD 5 0 = 1) = true ↔ readEndian data = .little
        rw [decide_eq_true_iff, readEndian_of_byte hlength, ofRaw_little]
      · exact (Elf.readLE16_iff (by omega)).mpr (hfield 16 2 (by decide))
      · exact (Elf.readLE16_iff (by omega)).mpr (hfield 18 2 (by decide))
      · exact hentry
      · exact (Elf.readLE32_wide_iff (by omega)).mpr (hfield 28 4 (by decide))
      · exact (Elf.readLE32_wide_iff (by omega)).mpr (hfield 32 4 (by decide))
      · exact (Elf.readLE16_iff (by omega)).mpr (hfield 40 2 (by decide))
      · exact (Elf.readLE16_iff (by omega)).mpr (hfield 42 2 (by decide))
      · exact (Elf.readLE16_iff (by omega)).mpr (hfield 44 2 (by decide))
      · exact (Elf.readLE16_iff (by omega)).mpr (hfield 46 2 (by decide))
      · exact (Elf.readLE16_iff (by omega)).mpr (hfield 48 2 (by decide))
    · rw [entryPoint, if_neg (by simp [hmagic]; omega), if_pos hclass, if_neg (by omega)]
      exact hentry

/-- A header with its version has been read in full. -/
theorem readHeader_version (h : (Elf.readHeader data).elfVersion = 1) :
    52 ≤ data.length ∧ (data.getD 4 0 = 2 ∧ 64 ≤ data.length ∨ data.getD 4 0 = 1) := by
  rw [Elf.readHeader] at h
  split at h
  · cases h
  · rename_i hlength
    have hlength : 52 ≤ data.length := by omega
    refine ⟨hlength, ?_⟩
    simp only [readClass_of_byte hlength] at h
    split at h
    · cases h
    split at h
    · rename_i hclass
      left
      refine ⟨?_, hclass.2⟩
      have hraw := hclass.1
      rw [Elf.ElfClass.ofRaw] at hraw
      split at hraw
      · cases hraw
      split at hraw
      · cases hraw
      split at hraw
      · assumption
      · cases hraw
    split at h
    · rename_i hclass
      right
      rw [Elf.ElfClass.ofRaw] at hclass
      split at hclass
      · cases hclass
      split at hclass
      · assumption
      split at hclass <;> cases hclass
    · cases h

end Classes

/-- The two readers agree on an accepted file unless it is big-endian and one of the
fields reads differently backwards. -/
theorem agrees_iff {data : ByteBuffer} {elf : Elf.ElfFile} (h : Elf.parse data = .ok elf) :
    Agrees data elf.header ↔
      (data.getD 5 0 = 2 →
        ∀ field ∈ headerFields (data.getD 4 0), Mirrored data field.1 field.2) := by
  have hparsed := Elf.parsed_of_parse h
  have haccepted := hparsed.accepted
  rw [hparsed.header] at haccepted ⊢
  obtain ⟨hlength, hclass⟩ := readHeader_version haccepted.version
  have hendian : Elf.readEndian data ≠ .none := by
    intro hnone
    apply haccepted.endian
    rw [Elf.readHeader, if_neg (by omega)]
    simp [hnone]
  have hbig : Elf.readEndian data = .big ↔ data.getD 5 0 = 2 := by
    rw [readEndian_of_byte hlength, ofRaw_big]
  rcases hclass with ⟨hclass, hlong⟩ | hclass
  · rw [agrees_elf64 hparsed.magic hlong hclass hendian, hbig, hclass]
  · rw [agrees_elf32 hparsed.magic hlength hclass hendian, hbig, hclass]

/-- A 32-bit header of 52 bytes without tables, in either byte order. -/
def plainHeader (order : UInt8) (half : UInt8 → List UInt8) (word : UInt8 → List UInt8) :
    ByteBuffer :=
  [0x7F, 0x45, 0x4C, 0x46, 1, order, 1, 0, 0, 0, 0, 0, 0, 0, 0, 0] ++ half 2 ++ half 8 ++
    word 1 ++ word 64 ++ word 0 ++ word 0 ++ word 0 ++ half 52 ++ half 0 ++ half 0 ++ half 0 ++
    half 0 ++ half 0

def littleHeader : ByteBuffer := plainHeader 1 (fun b => [b, 0]) fun b => [b, 0, 0, 0]

def bigHeader : ByteBuffer := plainHeader 2 (fun b => [0, b]) fun b => [0, 0, 0, b]

/-- What the parser makes of a file without tables. -/
def plainFile (data : ByteBuffer) : Elf.ElfFile where
  header := Elf.readHeader data
  rawData := data

theorem agrees_iff_little : Agrees littleHeader (Elf.readHeader littleHeader) := by
  have hparse : Elf.parse littleHeader = .ok (plainFile littleHeader) := by decide
  exact (agrees_iff hparse).mpr (by decide)

/-- The entry point of a big-endian file comes out with its bytes reversed. -/
theorem agrees_fails : ¬ ∀ data elf, Elf.parse data = .ok elf → Agrees data elf.header := by
  intro hall
  have hparse : Elf.parse bigHeader = .ok (plainFile bigHeader) := by decide
  have hentry := (hall bigHeader _ hparse).entryPoint
  have hdiffers : entryPoint bigHeader ≠ (plainFile bigHeader).header.entry := by decide
  exact hdiffers hentry

end ElfInspector

end MBootCore
