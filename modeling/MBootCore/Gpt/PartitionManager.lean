import MBootCore.Gpt.Parser
import MBootCore.Gpt.Writer

/-!
# GPT — PartitionManager

`PartitionManager`: the table it caches, lookups, byte-level access to
partitions and the recovery of a damaged copy. The manager, its parser and
its writer each keep a layout of their own; only `refreshTable` copies the
parser's into the manager's.

`accesses` is not a field of the class: it records what the methods of the
manager itself ask of the device, as opposed to its parser and its writer.
-/

namespace MBootCore

inductive FlashAccess where
  | read (address size : UInt64)
  | write (address : UInt64) (data : ByteBuffer)
  | erase (address size : UInt64)
  deriving DecidableEq, Repr

structure PartitionManager (σ : Type) where
  device : σ
  parser : GPTParser := {}
  writer : GPTWriter
  table : GPTTable := {}
  layout : GPTLayout := {}
  isOpen : Bool := false
  accesses : List FlashAccess := []

namespace PartitionManager

abbrev Method (σ α : Type) : Type := Program (PartitionManager σ) ErrorCode α

variable {σ α : Type}

/-- The constructor: the parser's does not touch the device, the writer's
asks for the storage info. -/
def create (dev : FlashDevice σ) (device : σ) : PartitionManager σ where
  device := (GPTWriter.create dev device).1
  writer := (GPTWriter.create dev device).2

def onDevice (p : Program σ ErrorCode α) : Method σ α :=
  Program.zoom (fun m => m.device) (fun device m => { m with device := device }) p

def onParser (p : GPTParser.Method σ α) : Method σ α :=
  Program.zoom (fun m => (m.device, m.parser))
    (fun s m => { m with device := s.1, parser := s.2 }) p

def onWriter (p : GPTWriter.Method σ α) : Method σ α :=
  Program.zoom (fun m => (m.device, m.writer))
    (fun s m => { m with device := s.1, writer := s.2 }) p

/-- Ask the device and record it. -/
def access (a : FlashAccess) (p : Program σ ErrorCode α) : Method σ α := do
  Program.modify fun m => { m with accesses := m.accesses ++ [a] }
  onDevice p

/-! ## Table -/

def openIfClosed (dev : FlashDevice σ) : Method σ Unit := do
  let isOpen ← Program.gets fun m => m.isOpen
  if isOpen then pure ()
  else
    onDevice dev.openDevice
    Program.modify fun m => { m with isOpen := true }

def refreshTable (env : GPTEnv) (dev : FlashDevice σ) : Method σ GPTTable := do
  openIfClosed dev
  let parserResult ← onParser (GPTParser.parse env dev)
  Program.modify fun m => { m with table := parserResult.table, layout := m.parser.layout }
  match parserResult.errors with
  | [] => pure parserResult.table
  | error :: _ => Program.fail error

/-- `open`. -/
def openManager (env : GPTEnv) (dev : FlashDevice σ) : Method σ Unit := do
  onDevice dev.openDevice
  Program.modify fun m => { m with isOpen := true }
  Program.void (refreshTable env dev)

/-- What every lookup starts with. -/
def loadIfEmpty (env : GPTEnv) (dev : FlashDevice σ) : Method σ Unit := do
  let entries ← Program.gets fun m => m.table.entries
  if entries = [] then Program.void (refreshTable env dev) else pure ()

/-! ## Lookups -/

/-- An offset that overflows becomes 0. -/
def entryToInfo (layout : GPTLayout) (entry : PartitionEntry) : PartitionInfo where
  typeGUID := entry.partitionTypeGUID
  uniqueGUID := entry.uniquePartitionGUID
  name := entry.nameToString
  firstLBA := entry.firstLBA
  lastLBA := entry.lastLBA
  byteOffset := (safeMul entry.firstLBA layout.sectorSize.toUInt64).getD 0
  byteLength := entry.sizeInBytes
  attributes := entry.attributes
  isUsed := entry.isUsed

def listPartitions (env : GPTEnv) (dev : FlashDevice σ) : Method σ (List PartitionInfo) := do
  loadIfEmpty env dev
  Program.gets fun m => (m.table.entries.filter fun entry => entry.isUsed).map
    (entryToInfo m.layout)

/-- The first entry `match` accepts. -/
def findEntry (env : GPTEnv) (dev : FlashDevice σ) (accept : PartitionEntry → Bool) :
    Method σ PartitionInfo := do
  loadIfEmpty env dev
  let found ← Program.gets fun m => (m.table.entries.find? accept).map (entryToInfo m.layout)
  match found with
  | some info => pure info
  | none => Program.fail .partitionNotFound

def hasName (name : ByteBuffer) (entry : PartitionEntry) : Bool :=
  entry.isUsed && entry.nameToString = name

def hasGUID (guid : Guid) (entry : PartitionEntry) : Bool :=
  entry.isUsed && entry.uniquePartitionGUID = guid

def findByName (env : GPTEnv) (dev : FlashDevice σ) (name : ByteBuffer) :
    Method σ PartitionInfo :=
  findEntry env dev (hasName name)

def findByGUID (env : GPTEnv) (dev : FlashDevice σ) (guid : Guid) : Method σ PartitionInfo :=
  findEntry env dev (hasGUID guid)

def findByType (env : GPTEnv) (dev : FlashDevice σ) (typeGUID : Guid) :
    Method σ (List PartitionInfo) := do
  loadIfEmpty env dev
  Program.gets fun m => (m.table.entries.filter fun entry =>
    entry.partitionTypeGUID = typeGUID).map (entryToInfo m.layout)

/-! ## Partition data -/

def readPartition (env : GPTEnv) (dev : FlashDevice σ) (name : ByteBuffer) :
    Method σ ByteBuffer := do
  let info ← findByName env dev name
  access (.read info.byteOffset info.byteLength) (dev.readMemory info.byteOffset info.byteLength)

def writePartition (env : GPTEnv) (dev : FlashDevice σ) (name data : ByteBuffer) :
    Method σ Unit := do
  let info ← findByName env dev name
  if data.length > info.byteLength.toNat then Program.fail .imageTooLarge
  else access (.write info.byteOffset data) (dev.writeMemory info.byteOffset data)

def erasePartition (env : GPTEnv) (dev : FlashDevice σ) (name : ByteBuffer) : Method σ Unit := do
  let info ← findByName env dev name
  access (.erase info.byteOffset info.byteLength)
    (dev.eraseMemory info.byteOffset info.byteLength)

def trimPartition (env : GPTEnv) (dev : FlashDevice σ) (name : ByteBuffer) : Method σ Unit := do
  let info ← findByName env dev name
  access (.erase info.byteOffset info.byteLength)
    (dev.eraseMemory info.byteOffset info.byteLength)

def verifyPartition (env : GPTEnv) (dev : FlashDevice σ) (name expected : ByteBuffer) :
    Method σ Bool := do
  let actual ← readPartition env dev name
  pure (actual = expected)

/-! ## Recovery -/

/-- The header written to LBA 1 from the backup's. The header CRC is taken
before the entry CRC is put in. -/
def primaryFromBackup (env : GPTEnv) (layout : GPTLayout) (table : GPTTable) :
    Except ErrorCode GPTHeader :=
  let newPrimary : GPTHeader := { table.backupHeader with
    myLBA := 1, alternateLBA := layout.backupHeaderLBA, partitionEntryLBA := 2 }
  match GPTWriter.computeHeaderCRC env newPrimary with
  | .error e => .error e
  | .ok crcVal => .ok { newPrimary with
      headerCrc32 := crcVal
      partitionEntriesCRC32 := GPTWriter.computeEntryCRC env table.entries
        newPrimary.numberOfPartitionEntries.toUInt64 newPrimary.sizeOfPartitionEntry.toUInt64 }

def recoverPrimary (env : GPTEnv) (dev : FlashDevice σ) (layout : GPTLayout) (table : GPTTable) :
    Method σ Unit := do
  let newPrimary ← Program.ofExcept (primaryFromBackup env layout table)
  onWriter (GPTWriter.writePartitionEntries dev newPrimary table.entries)
  onWriter (GPTWriter.writePrimaryHeader dev newPrimary)
  Program.void (refreshTable env dev)

def recoverBackup (env : GPTEnv) (dev : FlashDevice σ) (layout : GPTLayout) (table : GPTTable) :
    Method σ Unit := do
  let primary := table.primaryHeader
  onWriter (GPTWriter.writeBackupHeader env dev primary)
  let backupHdr : GPTHeader := { primary with
    myLBA := layout.backupHeaderLBA, partitionEntryLBA := layout.backupEntriesLBA }
  onWriter (GPTWriter.writePartitionEntries dev backupHdr table.entries)
  let updatedPrimary ← Program.ofExcept (GPTWriter.updateHeaderCRC env { primary with
    alternateLBA := layout.backupHeaderLBA })
  onWriter (GPTWriter.writePrimaryHeader dev updatedPrimary)
  Program.void (refreshTable env dev)

/-- The direction of the recovery is read off the flags the parse left. -/
def recoverWith (env : GPTEnv) (dev : FlashDevice σ) (layout : GPTLayout) (table : GPTTable) :
    Method σ Unit :=
  if table.primaryValid ∧ table.backupValid then pure ()
  else if table.backupValid ∧ ¬ table.primaryValid then recoverPrimary env dev layout table
  else if table.primaryValid ∧ ¬ table.backupValid then recoverBackup env dev layout table
  else Program.fail .gptCorrupted

/-- The manager's table follows the parse, its layout does not. -/
def recoverFromBackup (env : GPTEnv) (dev : FlashDevice σ) : Method σ Unit := do
  let parserResult ← onParser (GPTParser.parse env dev)
  Program.modify fun m => { m with table := parserResult.table }
  let layout ← Program.gets fun m => m.layout
  recoverWith env dev layout parserResult.table

/-! ## Runs -/

/-- The methods that touch the device or change the manager. `backupPartition`,
`restorePartition` and `comparePartition` call `readPartition`,
`writePartition` and `verifyPartition`, and `exists` calls `findByName`. -/
inductive Call where
  | openManager
  | refreshTable
  | listPartitions
  | findByName (name : ByteBuffer)
  | findByGUID (guid : Guid)
  | findByType (typeGUID : Guid)
  | readPartition (name : ByteBuffer)
  | writePartition (name data : ByteBuffer)
  | erasePartition (name : ByteBuffer)
  | trimPartition (name : ByteBuffer)
  | verifyPartition (name expected : ByteBuffer)
  | recoverFromBackup
  deriving DecidableEq, Repr

/-- A call without the value it returns. -/
def run (env : GPTEnv) (dev : FlashDevice σ) : Call → Method σ Unit
  | .openManager => openManager env dev
  | .refreshTable => Program.void (refreshTable env dev)
  | .listPartitions => Program.void (listPartitions env dev)
  | .findByName name => Program.void (findByName env dev name)
  | .findByGUID guid => Program.void (findByGUID env dev guid)
  | .findByType typeGUID => Program.void (findByType env dev typeGUID)
  | .readPartition name => Program.void (readPartition env dev name)
  | .writePartition name data => writePartition env dev name data
  | .erasePartition name => erasePartition env dev name
  | .trimPartition name => trimPartition env dev name
  | .verifyPartition name expected => Program.void (verifyPartition env dev name expected)
  | .recoverFromBackup => recoverFromBackup env dev

/-- What may happen to a manager: a method is called, or the device changes
under it. -/
inductive Event (σ : Type) where
  | call (call : Call)
  | deviceChange (device : σ)

/-- One call of a run: what it found and how it ended. -/
structure Record (σ : Type) where
  call : Call
  before : PartitionManager σ
  result : Except ErrorCode Unit
  after : PartitionManager σ

/-- The calls of a run, whatever they return. -/
def records (env : GPTEnv) (dev : FlashDevice σ) :
    List (Event σ) → PartitionManager σ → List (Record σ)
  | [], _ => []
  | .call call :: events, m =>
    let outcome := run env dev call m
    ⟨call, m, outcome.1, outcome.2⟩ :: records env dev events outcome.2
  | .deviceChange device :: events, m => records env dev events { m with device := device }

/-- A record is of a run of its call. -/
theorem records_run {env : GPTEnv} {dev : FlashDevice σ} {events : List (Event σ)}
    {m : PartitionManager σ} {r : Record σ} (h : r ∈ records env dev events m) :
    run env dev r.call r.before = (r.result, r.after) := by
  induction events generalizing m with
  | nil => cases h
  | cons event events ih =>
    cases event with
    | deviceChange device => exact ih h
    | call call =>
      rcases List.mem_cons.mp h with rfl | h
      · rfl
      · exact ih h

/-- What the constructor establishes and every method and every change of the
device keeps holds before each call of a run. -/
theorem records_invariant {env : GPTEnv} {dev : FlashDevice σ} (I : PartitionManager σ → Prop)
    (hcall : ∀ call m, I m → I (run env dev call m).2)
    (hchange : ∀ device m, I m → I { m with device := device })
    {events : List (Event σ)} {m : PartitionManager σ} (hm : I m) {r : Record σ}
    (h : r ∈ records env dev events m) : I r.before := by
  induction events generalizing m with
  | nil => cases h
  | cons event events ih =>
    cases event with
    | deviceChange device => exact ih (hchange device m hm) h
    | call call =>
      rcases List.mem_cons.mp h with rfl | h
      · exact hm
      · exact ih (hcall call m hm) h

end PartitionManager

end MBootCore
