import MBootCore.Gpt.Parser

/-!
# GPT — Writer

`GPTWriter`. The layout is computed once, by the constructor, and never
again. `arrays` is not a field of the class: it records the entries of every
array the writer set out to write.
-/

namespace MBootCore

structure GPTWriter where
  layout : GPTLayout := {}
  arrays : List (List PartitionEntry) := []
  deriving DecidableEq, Repr

namespace GPTWriter

abbrev Method (σ α : Type) : Type := Program (σ × GPTWriter) ErrorCode α

variable {σ : Type}

def onDevice {α : Type} (p : Program σ ErrorCode α) : Method σ α :=
  Program.zoom Prod.fst (fun device s => (device, s.2)) p

/-- The layout the constructor computes. Unlike the parser's it reserves the
backup array from 34 sectors on. -/
def initialLayout (info : Except ErrorCode StorageInfo) : GPTLayout :=
  let layout : GPTLayout := match info with
    | .ok info => GPTParser.withStorageInfo info {}
    | .error _ => {}
  { layout with
    lastUsableLBA := if layout.totalSectors > 34 then layout.totalSectors - 34 - 1 else 0
    backupEntriesLBA := if layout.totalSectors > 33 then layout.totalSectors - 33 else 0
    backupHeaderLBA := if layout.totalSectors > 0 then layout.totalSectors - 1 else 0 }

/-- The constructor. -/
def create (dev : FlashDevice σ) (device : σ) : σ × GPTWriter :=
  ((dev.getStorageInfo device).2, { layout := initialLayout (dev.getStorageInfo device).1 })

/-! ## CRCs -/

def computeHeaderCRC (env : GPTEnv) (header : GPTHeader) : Except ErrorCode UInt32 :=
  if header.headerSize < GPTHeader.MinHeaderSize then .error .invalidArgument
  else
    let data := LittleEndian.patch (serializeHeader header) 16 [0, 0, 0, 0]
    .ok (env.crc32 (data.take (min header.headerSize 512).toNat))

def updateHeaderCRC (env : GPTEnv) (header : GPTHeader) : Except ErrorCode GPTHeader :=
  match computeHeaderCRC env header with
  | .error e => .error e
  | .ok crc => .ok { header with headerCrc32 := crc }

def computeEntryCRC (env : GPTEnv) (entries : List PartitionEntry) (count entrySize : UInt64) :
    UInt32 :=
  let data := serializeEntries entries count entrySize
  if data = [] then 0 else env.crc32 data

/-! ## Writing -/

/-- `writeSector` and `writeSectors`, which have the same body. -/
def writeSectors (dev : FlashDevice σ) (lba : UInt64) (data : ByteBuffer) : Method σ Unit := do
  let sectorSize ← Program.gets fun s => s.2.layout.sectorSize
  match safeMul lba sectorSize.toUInt64 with
  | none => Program.fail .invalidArgument
  | some byteOffset => onDevice (dev.writeMemory byteOffset data)

def writePrimaryHeader (dev : FlashDevice σ) (header : GPTHeader) : Method σ Unit := do
  let layout ← Program.gets fun s => s.2.layout
  writeSectors dev layout.primaryHeaderLBA (serializeHeader header)

/-- The header written at the end of the disk for `header`. -/
def backupOf (layout : GPTLayout) (header : GPTHeader) : GPTHeader :=
  { header with
    myLBA := layout.backupHeaderLBA
    alternateLBA := layout.primaryHeaderLBA
    partitionEntryLBA := layout.backupEntriesLBA }

def writeBackupHeader (env : GPTEnv) (dev : FlashDevice σ) (header : GPTHeader) :
    Method σ Unit := do
  let layout ← Program.gets fun s => s.2.layout
  let backupHdr ← Program.ofExcept (updateHeaderCRC env (backupOf layout header))
  writeSectors dev layout.backupHeaderLBA (serializeHeader backupHdr)

def recordArray (entries : List PartitionEntry) : Method σ Unit :=
  Program.modify fun s => (s.1, { s.2 with arrays := s.2.arrays ++ [entries] })

def writePartitionEntries (dev : FlashDevice σ) (header : GPTHeader)
    (entries : List PartitionEntry) : Method σ Unit := do
  let data := serializeEntries entries header.numberOfPartitionEntries.toUInt64
    header.sizeOfPartitionEntry.toUInt64
  if data = [] then Program.fail .invalidArgument
  else
    recordArray entries
    writeSectors dev header.partitionEntryLBA data

def writePrimaryAndBackup (env : GPTEnv) (dev : FlashDevice σ) (header : GPTHeader)
    (entries : List PartitionEntry) : Method σ Unit := do
  writePartitionEntries dev header entries
  writePrimaryHeader dev header
  writeBackupHeader env dev header
  let backupData := serializeEntries entries header.numberOfPartitionEntries.toUInt64
    header.sizeOfPartitionEntry.toUInt64
  if backupData = [] then pure ()
  else
    let layout ← Program.gets fun s => s.2.layout
    recordArray entries
    writeSectors dev layout.backupEntriesLBA backupData

end GPTWriter

end MBootCore
