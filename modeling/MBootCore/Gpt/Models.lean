import MBootCore.Domain.Types
import Mathlib

/-!
# GPT — Models

`gpt/GPTModels.hpp` and `gpt/Guid.hpp`: headers, entries, tables and layouts,
with the methods the parser and the partition manager use.
-/

namespace MBootCore

structure Guid where
  data1 : UInt32 := 0
  data2 : UInt16 := 0
  data3 : UInt16 := 0
  data4 : Vector UInt8 8 := Vector.replicate 8 0
  deriving DecidableEq, Repr

def Guid.isNull (guid : Guid) : Bool := guid = {}

/-! ## Header -/

structure GPTHeader where
  signature : UInt64 := 0
  revision : UInt32 := 0
  headerSize : UInt32 := 0
  headerCrc32 : UInt32 := 0
  reserved : UInt32 := 0
  myLBA : UInt64 := 0
  alternateLBA : UInt64 := 0
  firstUsableLBA : UInt64 := 0
  lastUsableLBA : UInt64 := 0
  diskGUID : Guid := {}
  partitionEntryLBA : UInt64 := 0
  numberOfPartitionEntries : UInt32 := 0
  sizeOfPartitionEntry : UInt32 := 0
  partitionEntriesCRC32 : UInt32 := 0
  deriving DecidableEq, Repr

namespace GPTHeader

/-- `"EFI PART"`. -/
def Signature : UInt64 := 0x5452415020494645

def MinHeaderSize : UInt32 := 92

def hasValidSignature (header : GPTHeader) : Bool := header.signature = Signature

end GPTHeader

/-! ## Entries -/

structure PartitionEntry where
  partitionTypeGUID : Guid := {}
  uniquePartitionGUID : Guid := {}
  firstLBA : UInt64 := 0
  lastLBA : UInt64 := 0
  attributes : UInt64 := 0
  name : Vector UInt16 36 := Vector.replicate 36 0
  deriving DecidableEq, Repr

namespace PartitionEntry

def isUsed (entry : PartitionEntry) : Bool := !entry.partitionTypeGUID.isNull

/-- Zero when the two ends coincide as well. -/
def sizeInLBAs (entry : PartitionEntry) : UInt64 :=
  if entry.lastLBA ≤ entry.firstLBA then 0 else entry.lastLBA - entry.firstLBA + 1

/-- In sectors of 512 bytes, whatever the disk's are. -/
def sizeInBytes (entry : PartitionEntry) : UInt64 :=
  if entry.sizeInLBAs > UInt64.ofNat (2 ^ 64 - 1) / 512 then 0 else entry.sizeInLBAs * 512

def leadByte (mark cp : UInt32) : UInt8 := (mark ||| cp).toUInt8

def continuationByte (cp : UInt32) : UInt8 := leadByte 0x80 (cp &&& 0x3F)

/-- The bytes one code point is written in. -/
def codePointToUtf8 (cp : UInt32) : ByteBuffer :=
  if cp < 0x80 then [cp.toUInt8]
  else if cp < 0x800 then [leadByte 0xC0 (cp >>> 6), continuationByte cp]
  else if cp < 0x10000 then
    [leadByte 0xE0 (cp >>> 12), continuationByte (cp >>> 6), continuationByte cp]
  else
    [leadByte 0xF0 (cp >>> 18), continuationByte (cp >>> 12), continuationByte (cp >>> 6),
      continuationByte cp]

/-- A surrogate that is not half of a pair is written as a code point of its
own. -/
def utf16ToUtf8 : List UInt16 → ByteBuffer
  | [] => []
  | [unit] => codePointToUtf8 unit.toUInt32
  | unit :: low :: rest =>
    if 0xD800 ≤ unit ∧ unit ≤ 0xDBFF ∧ 0xDC00 ≤ low ∧ low ≤ 0xDFFF then
      let cp := (0x10000 : UInt32) + ((unit.toUInt32 - 0xD800) <<< 10) + (low.toUInt32 - 0xDC00)
      codePointToUtf8 cp ++ utf16ToUtf8 rest
    else codePointToUtf8 unit.toUInt32 ++ utf16ToUtf8 (low :: rest)

/-- A `std::string` is its bytes. -/
def nameToString (entry : PartitionEntry) : ByteBuffer :=
  utf16ToUtf8 (entry.name.toList.takeWhile fun unit => unit ≠ 0)

end PartitionEntry

/-! ## Tables -/

structure GPTLayout where
  totalSectors : UInt64 := 0
  sectorSize : UInt32 := 512
  primaryHeaderLBA : UInt64 := 1
  firstUsableLBA : UInt64 := 34
  lastUsableLBA : UInt64 := 0
  backupEntriesLBA : UInt64 := 0
  backupHeaderLBA : UInt64 := 0
  deriving DecidableEq, Repr

structure GPTTable where
  primaryHeader : GPTHeader := {}
  backupHeader : GPTHeader := {}
  entries : List PartitionEntry := []
  entryCount : UInt64 := 0
  entrySize : UInt64 := 0
  primaryValid : Bool := false
  backupValid : Bool := false
  entriesValid : Bool := false
  hasValidProtectiveMBR : Bool := false
  diskSizeInSectors : UInt64 := 0
  sectorSize : UInt32 := 512
  deriving DecidableEq, Repr

structure PartitionInfo where
  typeGUID : Guid := {}
  uniqueGUID : Guid := {}
  name : ByteBuffer := []
  firstLBA : UInt64 := 0
  lastLBA : UInt64 := 0
  byteOffset : UInt64 := 0
  byteLength : UInt64 := 0
  attributes : UInt64 := 0
  isUsed : Bool := false
  deriving DecidableEq, Repr

structure ProtectiveMBREntry where
  bootIndicator : UInt8 := 0
  startingCHS : Vector UInt8 3 := Vector.replicate 3 0
  partitionType : UInt8 := 0
  endingCHS : Vector UInt8 3 := Vector.replicate 3 0
  startingLBA : UInt32 := 0
  sizeInLBA : UInt32 := 0
  deriving DecidableEq, Repr

def ProtectiveMBREntry.isProtective (entry : ProtectiveMBREntry) : Bool :=
  entry.partitionType = 0xEE

/-! ## Overflow-safe arithmetic -/

def mulOverflows (a b : UInt64) : Bool :=
  if a = 0 ∨ b = 0 then false else a > UInt64.ofNat (2 ^ 64 - 1) / b

/-- `none` on overflow. -/
def safeMul (a b : UInt64) : Option UInt64 :=
  if mulOverflows a b then none else some (a * b)

theorem mulOverflows_iff (a b : UInt64) :
    mulOverflows a b = true ↔ 2 ^ 64 ≤ a.toNat * b.toNat := by
  have hmax : (UInt64.ofNat (2 ^ 64 - 1)).toNat = 2 ^ 64 - 1 := rfl
  unfold mulOverflows
  split
  · rename_i h
    have hzero : a.toNat * b.toNat = 0 := by rcases h with rfl | rfl <;> simp
    simp [hzero]
  · rename_i h
    rw [not_or] at h
    have hb : 0 < b.toNat := Nat.pos_of_ne_zero fun hb => h.2 (UInt64.toNat_inj.mp hb)
    rw [decide_eq_true_iff, gt_iff_lt, UInt64.lt_iff_toNat_lt, UInt64.toNat_div, hmax,
      Nat.div_lt_iff_lt_mul hb]
    omega

theorem safeMul_eq_some {a b c : UInt64} :
    safeMul a b = some c ↔ c.toNat = a.toNat * b.toNat := by
  have hc := c.toNat_lt
  unfold safeMul
  split
  · rename_i h
    rw [mulOverflows_iff] at h
    simp only [reduceCtorEq, false_iff]
    omega
  · rename_i h
    rw [mulOverflows_iff] at h
    rw [Option.some.injEq, ← UInt64.toNat_inj, UInt64.toNat_mul, Nat.mod_eq_of_lt (by omega)]
    exact eq_comm

theorem safeMul_eq_none {a b : UInt64} : safeMul a b = none ↔ 2 ^ 64 ≤ a.toNat * b.toNat := by
  rw [← mulOverflows_iff, safeMul]
  split <;> simp_all

end MBootCore
