import MBootCore.Generic.FlashDevice
import MBootCore.Gpt.Codec

/-!
# GPT — Parser

`GPTParser::parse`, `GPTParser::parsePrimary` and `GPTParser::parseBackup`. The
header block and the entry block stand in each of them, once for each copy, with the same
statements; here they are `checkHeader` and `loadEntries`, and the callers
say what becomes of the table.

CRC-32 is a parameter, and so are the bytes that lie past the end of a
buffer: the CRC runs over `headerSize` bytes of a sector that may be shorter.
-/

namespace MBootCore

open LittleEndian

structure GPTEnv where
  /-- zlib's `crc32(0, data, size)`. -/
  crc32 : ByteBuffer → UInt32
  /-- What a read past the end of a buffer finds there. -/
  pastEnd : ByteBuffer → ByteBuffer

structure ParserResult where
  table : GPTTable := {}
  warnings : List ErrorCode := []
  errors : List ErrorCode := []
  deriving DecidableEq, Repr

structure GPTParser where
  layout : GPTLayout := {}
  hasValidMBR : Bool := false
  deriving DecidableEq, Repr

namespace GPTParser

def kMaxPartitionEntries : UInt32 := 4096

def kMinEntrySize : UInt32 := 128

def kMaxEntrySize : UInt32 := 512

def validateEntryFields (numEntries entrySize : UInt32) : Bool :=
  if numEntries = 0 ∨ numEntries > kMaxPartitionEntries then false
  else if entrySize < kMinEntrySize ∨ entrySize > kMaxEntrySize then false
  else true

def readProtectiveMBR (sector : ByteBuffer) : ProtectiveMBREntry :=
  if sector.length < 512 then {}
  else if readLE16 sector 510 ≠ 0xAA55 then {}
  else
    { bootIndicator := sector.getD 446 0
      startingCHS := readArray 3 sector 447
      partitionType := sector.getD 450 0
      endingCHS := readArray 3 sector 451
      startingLBA := readLE32 sector 454
      sizeInLBA := readLE32 sector 458 }

/-- The CRC of the entries as they would be written. -/
def computeEntryCRC32 (env : GPTEnv) (entries : List PartitionEntry) (count entrySize : UInt64) :
    UInt32 :=
  match safeMul count entrySize with
  | none => 0
  | some _ => env.crc32 (entryImage entries count.toNat entrySize.toNat)

/-! ## One header copy -/

structure HeaderCheck where
  header : GPTHeader := {}
  valid : Bool := false
  warnings : List ErrorCode := []
  deriving DecidableEq, Repr

/-- The bytes the header CRC is computed over. -/
def crcInput (env : GPTEnv) (data : ByteBuffer) (headerSize : UInt32) : ByteBuffer :=
  let headerCopy := patch data 16 [0, 0, 0, 0]
  (headerCopy ++ env.pastEnd headerCopy).take (min headerSize 512).toNat

def checkHeader (env : GPTEnv) (data : ByteBuffer) (missing : ErrorCode) : HeaderCheck :=
  if data.length ≥ 92 then
    let header := readHeader data
    if header.hasValidSignature ∧ header.headerSize ≥ GPTHeader.MinHeaderSize then
      if env.crc32 (crcInput env data header.headerSize) = header.headerCrc32 then
        { header := header, valid := true }
      else { header := header, warnings := [.gptCrcMismatch] }
    else { header := header, warnings := [.gptInvalidHeader] }
  else { warnings := [missing] }

/-! ## Reading -/

/-- A method of the parser: it works on the device it refers to and on its
own fields. -/
abbrev Method (σ α : Type) : Type := Program (σ × GPTParser) ErrorCode α

variable {σ : Type}

def onDevice {α : Type} (p : Program σ ErrorCode α) : Method σ α :=
  Program.zoom Prod.fst (fun device s => (device, s.2)) p

def setHasValidMBR (valid : Bool) : Method σ Unit :=
  Program.modify fun s => (s.1, { s.2 with hasValidMBR := valid })

def updateLayout (f : GPTLayout → GPTLayout) : Method σ Unit :=
  Program.modify fun s => (s.1, { s.2 with layout := f s.2.layout })

@[simp] theorem run_setHasValidMBR (valid : Bool) (s : σ × GPTParser) :
    setHasValidMBR valid s = (.ok (), (s.1, { s.2 with hasValidMBR := valid })) := rfl

@[simp] theorem run_updateLayout (f : GPTLayout → GPTLayout) (s : σ × GPTParser) :
    updateLayout f s = (.ok (), (s.1, { s.2 with layout := f s.2.layout })) := rfl

/-- The buffer, or an empty one when the read failed. -/
def readBuffer (dev : FlashDevice σ) (address size : UInt64) : Method σ ByteBuffer := do
  match ← Program.attempt (onDevice (dev.readMemory address size)) with
  | .ok data => pure data
  | .error _ => pure []

def readSectors (dev : FlashDevice σ) (lba count : UInt64) : Method σ ByteBuffer := do
  let sectorSize ← Program.gets fun s => s.2.layout.sectorSize
  match safeMul sectorSize.toUInt64 count with
  | none => pure []
  | some bytes =>
    match safeMul lba sectorSize.toUInt64 with
    | none => pure []
    | some byteOffset => readBuffer dev byteOffset bytes

def readSector (dev : FlashDevice σ) (lba : UInt64) : Method σ ByteBuffer := do
  let sectorSize ← Program.gets fun s => s.2.layout.sectorSize
  match safeMul lba sectorSize.toUInt64 with
  | none => pure []
  | some byteOffset => readBuffer dev byteOffset sectorSize.toUInt64

/-! ## One entry array -/

inductive EntryCheck where
  | badFields
  | unreadable
  | decoded (entries : List PartitionEntry) (crcMatches : Bool)
  deriving DecidableEq, Repr

namespace EntryCheck

/-- The entries that get into the table. -/
def entries : EntryCheck → List PartitionEntry
  | decoded entries _ => entries
  | _ => []

def isValid : EntryCheck → Bool
  | decoded _ crcMatches => crcMatches
  | _ => false

end EntryCheck

/-- What is made of the bytes read for an entry array. -/
def decodeEntries (env : GPTEnv) (header : GPTHeader) (totalEntryBytes : UInt64)
    (entryData : ByteBuffer) : EntryCheck :=
  if entryData.length ≥ totalEntryBytes.toNat then
    let entries := readEntries entryData header.numberOfPartitionEntries.toNat
      header.sizeOfPartitionEntry.toNat
    .decoded entries (computeEntryCRC32 env entries header.numberOfPartitionEntries.toUInt64
      header.sizeOfPartitionEntry.toUInt64 = header.partitionEntriesCRC32)
  else .unreadable

def loadEntries (env : GPTEnv) (dev : FlashDevice σ) (header : GPTHeader) :
    Method σ EntryCheck := do
  if validateEntryFields header.numberOfPartitionEntries header.sizeOfPartitionEntry then
    match safeMul header.numberOfPartitionEntries.toUInt64
        header.sizeOfPartitionEntry.toUInt64 with
    | none => pure .badFields
    | some totalEntryBytes =>
      let sectorSize ← Program.gets fun s => s.2.layout.sectorSize.toUInt64
      let entrySectors := (totalEntryBytes + sectorSize - 1) / sectorSize
      let entryData ← readSectors dev header.partitionEntryLBA entrySectors
      pure (decodeEntries env header totalEntryBytes entryData)
  else pure .badFields

/-- The table and the warnings after the entry array of `header` was loaded. -/
def storeEntries (header : GPTHeader) (tooShort : List ErrorCode) (result : ParserResult) :
    EntryCheck → ParserResult
  | .badFields => { result with warnings := result.warnings ++ [.gptInvalidHeader] }
  | .unreadable => { result with warnings := result.warnings ++ tooShort }
  | .decoded entries crcMatches =>
    { result with
      table := { result.table with
        entries := entries
        entryCount := header.numberOfPartitionEntries.toUInt64
        entrySize := header.sizeOfPartitionEntry.toUInt64
        entriesValid := crcMatches }
      warnings := result.warnings ++ if crcMatches then [] else [.gptCrcMismatch] }

/-! ## parse -/

def withStorageInfo (info : StorageInfo) (layout : GPTLayout) : GPTLayout :=
  { layout with
    sectorSize := effectiveSectorSize info.sectorSize, totalSectors := info.numSectors }

/-- Without storage info `parse` falls back to 512-byte sectors and keeps the
sector count it has. -/
def identify (info : Except ErrorCode StorageInfo) (layout : GPTLayout) : GPTLayout :=
  match info with
  | .ok info => withStorageInfo info layout
  | .error _ => { layout with sectorSize := 512 }

def computeLayout (layout : GPTLayout) : GPTLayout :=
  { layout with
    lastUsableLBA := if layout.totalSectors > 34 then layout.totalSectors - 34 - 1 else 0
    backupEntriesLBA := if layout.totalSectors > 34 then layout.totalSectors - 33 else 0
    backupHeaderLBA := if layout.totalSectors > 0 then layout.totalSectors - 1 else 0 }

def adoptUsableRange (header : GPTHeader) (layout : GPTLayout) : GPTLayout :=
  { layout with
    firstUsableLBA := header.firstUsableLBA, lastUsableLBA := header.lastUsableLBA }

def readBackupHeader (env : GPTEnv) (dev : FlashDevice σ) (backupHeaderLBA : UInt64) :
    Method σ HeaderCheck := do
  if backupHeaderLBA > 0 then
    let backupData ← readSector dev backupHeaderLBA
    pure (checkHeader env backupData .gptBackupMissing)
  else pure {}

/-- The last part of `parse`: the array of the primary copy if its header is
valid, else that of the backup. -/
def readPartitionEntries (env : GPTEnv) (dev : FlashDevice σ) (result : ParserResult) :
    Method σ ParserResult := do
  let table := result.table
  if table.primaryValid then
    let check ← loadEntries env dev table.primaryHeader
    if check = .badFields then
      -- returns with the flag cleared, the backup is not tried
      pure (storeEntries table.primaryHeader [] { result with
        table := { table with primaryValid := false } } check)
    else
      updateLayout (adoptUsableRange table.primaryHeader)
      pure (storeEntries table.primaryHeader [.gptInvalidEntry] result check)
  else if table.backupValid then
    let check ← loadEntries env dev table.backupHeader
    if check = .badFields then
      pure (storeEntries table.backupHeader [] { result with
        table := { table with backupValid := false } } check)
    else pure (storeEntries table.backupHeader [] result check)
  else pure result

def parse (env : GPTEnv) (dev : FlashDevice σ) : Method σ ParserResult := do
  setHasValidMBR false
  let info ← Program.attempt (onDevice dev.getStorageInfo)
  updateLayout (identify info)
  let mbrData ← readSector dev 0
  if mbrData = [] then pure { errors := [.transportReadFailed] }
  else
    let mbr := readProtectiveMBR mbrData
    setHasValidMBR mbr.isProtective
    updateLayout computeLayout
    let layout ← Program.gets fun s => s.2.layout
    let primaryData ← readSector dev layout.primaryHeaderLBA
    let primary := checkHeader env primaryData .gptPrimaryMissing
    let backup ← readBackupHeader env dev layout.backupHeaderLBA
    readPartitionEntries env dev
      { table :=
          { primaryHeader := primary.header
            backupHeader := backup.header
            primaryValid := primary.valid
            backupValid := backup.valid
            hasValidProtectiveMBR := mbr.isProtective
            diskSizeInSectors := layout.totalSectors
            sectorSize := layout.sectorSize }
        warnings := primary.warnings ++ backup.warnings }

/-! ## parseBackup -/

def identifyBackup (info : Except ErrorCode StorageInfo) (layout : GPTLayout) : GPTLayout :=
  match info with
  | .ok info => withStorageInfo info layout
  | .error _ => { layout with sectorSize := effectiveSectorSize layout.sectorSize }

/-- The reserved sectors are placed from 34 sectors on here, from 35 in
`parse`. -/
def computeBackupLayout (layout : GPTLayout) : GPTLayout :=
  { layout with
    backupHeaderLBA := if layout.totalSectors > 0 then layout.totalSectors - 1 else 0
    backupEntriesLBA := if layout.totalSectors > 33 then layout.totalSectors - 33 else 0 }

/-- The entry block is that of `parse` for a table without a primary copy. -/
def parseBackup (env : GPTEnv) (dev : FlashDevice σ) : Method σ ParserResult := do
  let info ← Program.attempt (onDevice dev.getStorageInfo)
  updateLayout (identifyBackup info)
  updateLayout computeBackupLayout
  let layout ← Program.gets fun s => s.2.layout
  if layout.backupHeaderLBA = 0 then pure { errors := [.gptBackupMissing] }
  else
    let backupData ← readSector dev layout.backupHeaderLBA
    let backup := checkHeader env backupData .gptBackupMissing
    readPartitionEntries env dev
      { table := { backupHeader := backup.header, backupValid := backup.valid }
        warnings := backup.warnings }

/-! ## parsePrimary -/

/-- The entry block of `parsePrimary` leaves the layout alone. -/
def readPrimaryEntries (env : GPTEnv) (dev : FlashDevice σ) (result : ParserResult) :
    Method σ ParserResult := do
  let table := result.table
  if table.primaryValid then
    let check ← loadEntries env dev table.primaryHeader
    if check = .badFields then
      pure (storeEntries table.primaryHeader [] { result with
        table := { table with primaryValid := false } } check)
    else pure (storeEntries table.primaryHeader [.gptInvalidEntry] result check)
  else pure result

def parsePrimary (env : GPTEnv) (dev : FlashDevice σ) : Method σ ParserResult := do
  setHasValidMBR false
  let info ← Program.attempt (onDevice dev.getStorageInfo)
  updateLayout (identifyBackup info)
  let mbrData ← readSector dev 0
  if mbrData = [] then pure { errors := [.transportReadFailed] }
  else
    let mbr := readProtectiveMBR mbrData
    setHasValidMBR mbr.isProtective
    let layout ← Program.gets fun s => s.2.layout
    let primaryData ← readSector dev layout.primaryHeaderLBA
    let primary := checkHeader env primaryData .gptPrimaryMissing
    readPrimaryEntries env dev
      { table :=
          { primaryHeader := primary.header
            primaryValid := primary.valid
            hasValidProtectiveMBR := mbr.isProtective }
        warnings := primary.warnings }

end GPTParser

end MBootCore
