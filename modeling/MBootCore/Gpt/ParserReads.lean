import MBootCore.Gpt.ParserSpec
import MBootCore.Support.Accesses
import MBootCore.Support.Traced

/-!
# GPT — ParserReads

The parser with the bytes it takes of its buffers. All of them are guarded but
one range: the CRC of a header is computed over `headerSize` bytes, up to 512, of a
sector of which only 92 bytes are known to be there.
-/

namespace MBootCore.GPTParser

namespace Reading

open Logged

variable (data : ByteBuffer)

def readProtectiveMBR : Logged ProtectiveMBREntry :=
  if data.length < 512 then pure {}
  else do
    let signature ← word16 data 510
    if signature ≠ 0xAA55 then pure {}
    else
      let bootIndicator ← byteAt data 446
      let startingCHS ← array data 3 447
      let partitionType ← byteAt data 450
      let endingCHS ← array data 3 451
      let startingLBA ← word32 data 454
      let sizeInLBA ← word32 data 458
      pure { bootIndicator, startingCHS, partitionType, endingCHS, startingLBA, sizeInLBA }

def readGuid (off : Nat) : Logged Guid := do
  let data1 ← word32 data off
  let data2 ← word16 data (off + 4)
  let data3 ← word16 data (off + 6)
  let data4 ← array data 8 (off + 8)
  pure { data1, data2, data3, data4 }

def readHeader : Logged GPTHeader :=
  if data.length < 92 then pure {}
  else do
    let signature ← word64 data 0
    let revision ← word32 data 8
    let headerSize ← word32 data 12
    let headerCrc32 ← word32 data 16
    let reserved ← word32 data 20
    let myLBA ← word64 data 24
    let alternateLBA ← word64 data 32
    let firstUsableLBA ← word64 data 40
    let lastUsableLBA ← word64 data 48
    let diskGUID ← readGuid data 56
    let partitionEntryLBA ← word64 data 72
    let numberOfPartitionEntries ← word32 data 80
    let sizeOfPartitionEntry ← word32 data 84
    let partitionEntriesCRC32 ← word32 data 88
    pure { signature, revision, headerSize, headerCrc32, reserved, myLBA, alternateLBA,
           firstUsableLBA, lastUsableLBA, diskGUID, partitionEntryLBA, numberOfPartitionEntries,
           sizeOfPartitionEntry, partitionEntriesCRC32 }

/-- The CRC field is cleared in a copy of the sector, and the header is cut from it. -/
def checkHeader (env : GPTEnv) (missing : ErrorCode) : Logged HeaderCheck :=
  if data.length ≥ 92 then do
    let header ← readHeader data
    if header.hasValidSignature ∧ header.headerSize ≥ GPTHeader.MinHeaderSize then
      taking data 16 4 ()
      let truncated ← taking data 0 (min header.headerSize 512).toNat
        (crcInput env data header.headerSize)
      if env.crc32 truncated = header.headerCrc32 then pure { header := header, valid := true }
      else pure { header := header, warnings := [.gptCrcMismatch] }
    else pure { header := header, warnings := [.gptInvalidHeader] }
  else pure { warnings := [missing] }

/-! ## Entries -/

/-- The readers of `readEntries` take nothing that is not there. -/
def guarded {α : Type} (size off : Nat) (none : α) (read : Logged α) : Logged α :=
  if off + (size - 1) ≥ data.length then pure none else read

def readEntryGuid (off : Nat) : Logged Guid := do
  let data1 ← guarded data 4 off 0 (word32 data off)
  let data2 ← guarded data 2 (off + 4) 0 (word16 data (off + 4))
  let data3 ← guarded data 2 (off + 6) 0 (word16 data (off + 6))
  let data4 ← array data 8 (off + 8)
  pure { data1, data2, data3, data4 }

def readEntry (off : Nat) : Logged PartitionEntry := do
  let partitionTypeGUID ← readEntryGuid data off
  let uniquePartitionGUID ← readEntryGuid data (off + 16)
  let firstLBA ← guarded data 8 (off + 32) 0 (word64 data (off + 32))
  let lastLBA ← guarded data 8 (off + 40) 0 (word64 data (off + 40))
  let attributes ← guarded data 8 (off + 48) 0 (word64 data (off + 48))
  let name ← each (fun j => guarded data 2 (off + 56 + j * 2) 0 (word16 data (off + 56 + j * 2)))
    (List.range 36)
  pure { partitionTypeGUID, uniquePartitionGUID, firstLBA, lastLBA, attributes
         name := Vector.ofFn fun j => name.getD j 0 }

def readEntriesFrom (entrySize : Nat) : Nat → Nat → Logged (List PartitionEntry)
  | _, 0 => pure []
  | i, remaining + 1 =>
    if i * entrySize + entrySize > data.length then pure []
    else do
      let entry ← readEntry data (i * entrySize)
      let entries ← readEntriesFrom entrySize (i + 1) remaining
      pure (entry :: entries)

/-- Where the fields of an entry are written, and their sizes. -/
def entryLayout : List (Nat × Nat) :=
  [(0, 4), (4, 2), (6, 2), (8, 8), (16, 4), (20, 2), (22, 2), (24, 8), (32, 8), (40, 8), (48, 8)] ++
    (List.range 36).map fun j => (56 + j * 2, 2)

/-- The entries are written one after another into an array of their own. -/
def computeEntryCRC32 (env : GPTEnv) (entries : List PartitionEntry) (count entrySize : UInt64) :
    Logged UInt32 where
  value := GPTParser.computeEntryCRC32 env entries count entrySize
  log :=
    match safeMul count entrySize with
    | none => []
    | some totalBytes => (List.range (min count.toNat entries.length)).flatMap fun i =>
        entryLayout.map fun (off, size) => ⟨totalBytes.toNat, i * entrySize.toNat + off, size⟩

def decodeEntries (env : GPTEnv) (header : GPTHeader) (totalEntryBytes : UInt64) :
    Logged EntryCheck :=
  if data.length ≥ totalEntryBytes.toNat then do
    let entries ← readEntriesFrom data header.sizeOfPartitionEntry.toNat 0
      header.numberOfPartitionEntries.toNat
    let crc ← computeEntryCRC32 env entries header.numberOfPartitionEntries.toUInt64
      header.sizeOfPartitionEntry.toUInt64
    pure (.decoded entries (crc = header.partitionEntriesCRC32))
  else pure .unreadable

/-! ## What is computed, and whether it is taken from inside -/

@[simp] theorem value_readProtectiveMBR :
    (readProtectiveMBR data).value = GPTParser.readProtectiveMBR data := by
  rw [readProtectiveMBR, GPTParser.readProtectiveMBR, value_ite]
  split
  · rfl
  · rw [value_bind, value_word16, value_ite]
    split <;> rfl

@[simp] theorem safe_readProtectiveMBR : (readProtectiveMBR data).Safe := by
  rw [readProtectiveMBR, safe_ite]
  refine ⟨fun _ => safe_pure _, fun hlength => ?_⟩
  simp only [safe_bind, safe_word16, safe_ite, safe_pure, safe_byteAt, safe_array, safe_word32,
    implies_true, and_true, true_and]
  omega

@[simp] theorem value_readGuid (off : Nat) :
    (readGuid data off).value = MBootCore.readGuid data off := rfl

@[simp] theorem value_readHeader : (readHeader data).value = MBootCore.readHeader data := by
  simp [readHeader, MBootCore.readHeader, value_ite]

@[simp] theorem safe_readHeader : (readHeader data).Safe := by
  rw [readHeader, safe_ite]
  refine ⟨fun _ => safe_pure _, fun hlength => ?_⟩
  simp only [readGuid, safe_bind, safe_word16, safe_word32, safe_word64, safe_array, safe_pure,
    and_true]
  omega

/-- A sector that is long enough for the fields of a header, but not for as much of
it as the header says. -/
def ShortHeader (data : ByteBuffer) : Prop :=
  let header := MBootCore.readHeader data
  92 ≤ data.length ∧ header.hasValidSignature = true ∧
    header.headerSize ≥ GPTHeader.MinHeaderSize ∧
    data.length < (min header.headerSize 512).toNat

@[simp] theorem value_checkHeader (env : GPTEnv) (missing : ErrorCode) :
    (checkHeader data env missing).value = GPTParser.checkHeader env data missing := by
  simp only [checkHeader, GPTParser.checkHeader, value_ite, value_bind, value_readHeader,
    value_pure]
  rfl

theorem safe_checkHeader (env : GPTEnv) (missing : ErrorCode) :
    (checkHeader data env missing).Safe ↔ ¬ ShortHeader data := by
  simp only [checkHeader, ShortHeader, safe_ite, safe_bind, safe_readHeader, value_readHeader,
    safe_taking, safe_pure, implies_true, and_true, true_and, Nat.zero_add]
  constructor
  · rintro h ⟨hlength, hsignature, hsize, hshort⟩
    have hinside := (h hlength ⟨hsignature, hsize⟩).2
    omega
  · intro h hlength hheader
    refine ⟨by omega, ?_⟩
    by_contra hshort
    exact h ⟨hlength, hheader.1, hheader.2, by omega⟩

theorem value_guarded {α : Type} (size off : Nat) (none : α) (read : Logged α) :
    (guarded data size off none read).value
      = if off + (size - 1) ≥ data.length then none else read.value := by
  rw [guarded, value_ite]
  rfl

theorem safe_guarded {α : Type} {size off : Nat} (none : α) {read : Logged α} (hsize : 0 < size)
    (h : read.Safe ↔ off + size ≤ data.length) : (guarded data size off none read).Safe := by
  rw [guarded, safe_ite, h]
  refine ⟨fun _ => safe_pure _, fun hinside => ?_⟩
  omega

theorem value_guarded16 (off : Nat) :
    (guarded data 2 off 0 (word16 data off)).value = LittleEndian.readLE16 data off := by
  rw [value_guarded, value_word16]
  split
  · rename_i h
    exact (if_pos h).symm
  · rfl

theorem value_guarded32 (off : Nat) :
    (guarded data 4 off 0 (word32 data off)).value = LittleEndian.readLE32 data off := by
  rw [value_guarded, value_word32]
  split
  · rename_i h
    exact (if_pos h).symm
  · rfl

theorem value_guarded64 (off : Nat) :
    (guarded data 8 off 0 (word64 data off)).value = LittleEndian.readLE64 data off := by
  rw [value_guarded, value_word64]
  split
  · rename_i h
    exact (if_pos h).symm
  · rfl

theorem value_readEntryGuid (off : Nat) :
    (readEntryGuid data off).value = MBootCore.readGuid data off := by
  simp only [readEntryGuid, MBootCore.readGuid, value_bind, value_pure, value_array,
    value_guarded16, value_guarded32]

/-- The units of a name, read one after another. -/
theorem ofFn_getD_range {n : Nat} (f : Nat → UInt16) :
    (Vector.ofFn fun j : Fin n => ((List.range n).map f).getD j 0) = Vector.ofFn fun j => f j := by
  congr 1
  funext j
  simp [List.getD_eq_getElem?_getD]

theorem value_readEntry (off : Nat) :
    (readEntry data off).value = MBootCore.readEntry data off := by
  have hname : (each (fun j => guarded data 2 (off + 56 + j * 2) 0
      (word16 data (off + 56 + j * 2))) (List.range 36)).value
      = (List.range 36).map fun j => LittleEndian.readLE16 data (off + 56 + j * 2) := by
    simp only [value_each, value_guarded16]
  rw [readEntry, value_bind, value_bind, value_bind, value_bind, value_bind, value_bind, value_pure,
    hname, ofFn_getD_range, value_readEntryGuid, value_readEntryGuid, value_guarded64,
    value_guarded64, value_guarded64]
  rfl

theorem safe_readEntryGuid {off : Nat} (h : off + 16 ≤ data.length) :
    (readEntryGuid data off).Safe := by
  simp only [readEntryGuid, safe_bind, safe_pure, safe_array, and_true]
  exact ⟨safe_guarded data 0 (by decide) (safe_word32 _ _),
    safe_guarded data 0 (by decide) (safe_word16 _ _),
    safe_guarded data 0 (by decide) (safe_word16 _ _), by omega⟩

theorem safe_readEntry {off : Nat} (h : off + 128 ≤ data.length) : (readEntry data off).Safe := by
  have hword : ∀ off, (guarded data 8 off 0 (word64 data off)).Safe := fun off =>
    safe_guarded data 0 (by decide) (safe_word64 _ _)
  simp only [readEntry, safe_bind, safe_pure, safe_each, hword, and_true, true_and]
  exact ⟨safe_readEntryGuid data (by omega), safe_readEntryGuid data (by omega),
    fun j _ => safe_guarded data 0 (by decide) (safe_word16 _ _)⟩

theorem value_readEntriesFrom (entrySize i remaining : Nat) :
    (readEntriesFrom data entrySize i remaining).value
      = MBootCore.readEntriesFrom data entrySize i remaining := by
  induction remaining generalizing i with
  | zero => rfl
  | succ remaining ih =>
    rw [readEntriesFrom, MBootCore.readEntriesFrom, value_ite]
    split
    · rfl
    · rw [value_bind, value_bind, value_readEntry, ih]
      rfl

theorem safe_readEntriesFrom {entrySize : Nat} (hsize : 128 ≤ entrySize) (i remaining : Nat) :
    (readEntriesFrom data entrySize i remaining).Safe := by
  induction remaining generalizing i with
  | zero => exact safe_pure _
  | succ remaining ih =>
    rw [readEntriesFrom, safe_ite]
    refine ⟨fun _ => safe_pure _, fun hinside => ?_⟩
    simp only [safe_bind, safe_pure, and_true]
    exact ⟨safe_readEntry data (by omega), ih (i + 1)⟩

theorem safe_computeEntryCRC32 (env : GPTEnv) (entries : List PartitionEntry) (count : UInt64)
    {entrySize : UInt64} (hsize : 128 ≤ entrySize.toNat) :
    (computeEntryCRC32 env entries count entrySize).Safe := by
  have hlayout : ∀ field ∈ entryLayout, field.1 + field.2 ≤ 128 := by decide
  intro access haccess
  simp only [computeEntryCRC32] at haccess
  cases htotal : safeMul count entrySize with
  | none =>
    rw [htotal] at haccess
    cases haccess
  | some totalBytes =>
    rw [htotal, List.mem_flatMap] at haccess
    obtain ⟨i, hi, haccess⟩ := haccess
    obtain ⟨⟨off, size⟩, hfield, rfl⟩ := List.mem_map.mp haccess
    have hslot : i < count.toNat := by
      rw [List.mem_range] at hi
      omega
    have hwithin : off + size ≤ 128 := hlayout _ hfield
    have hend : (i + 1) * entrySize.toNat ≤ count.toNat * entrySize.toNat :=
      Nat.mul_le_mul_right _ hslot
    rw [Nat.succ_mul] at hend
    rw [Access.Inside, safeMul_eq_some.mp htotal]
    simp only
    omega

theorem value_decodeEntries (env : GPTEnv) (header : GPTHeader) (totalEntryBytes : UInt64) :
    (decodeEntries data env header totalEntryBytes).value
      = GPTParser.decodeEntries env header totalEntryBytes data := by
  rw [decodeEntries, GPTParser.decodeEntries, value_ite]
  split
  · rw [value_bind, value_bind, value_readEntriesFrom]
    rfl
  · rfl

theorem safe_decodeEntries (env : GPTEnv) {header : GPTHeader} (totalEntryBytes : UInt64)
    (hsize : 128 ≤ header.sizeOfPartitionEntry.toNat) :
    (decodeEntries data env header totalEntryBytes).Safe := by
  rw [decodeEntries, safe_ite]
  refine ⟨fun _ => ?_, fun _ => safe_pure _⟩
  simp only [safe_bind, safe_pure, and_true]
  refine ⟨safe_readEntriesFrom data hsize 0 _, safe_computeEntryCRC32 env _ _ ?_⟩
  rw [UInt32.toNat_toUInt64]
  exact hsize

end Reading

/-! ## Runs -/

/-- A header sector that is read, and what is taken of the buffers. -/
inductive ReadEvent where
  | headerSector (data : ByteBuffer)
  | access (a : Access)
  deriving DecidableEq, Repr

abbrev TracedMethod (σ α : Type) : Type := Traced (σ × GPTParser) ReadEvent ErrorCode α

namespace Tracing

open Traced

variable {σ : Type} (env : GPTEnv) (dev : FlashDevice σ)

def reads {α : Type} (x : Logged α) : TracedMethod σ α := do
  note (x.log.map .access)
  pure x.value

def checkHeader (data : ByteBuffer) (missing : ErrorCode) : TracedMethod σ HeaderCheck := do
  note [.headerSector data]
  reads (Reading.checkHeader data env missing)

def loadEntries (header : GPTHeader) : TracedMethod σ EntryCheck := do
  if validateEntryFields header.numberOfPartitionEntries header.sizeOfPartitionEntry then
    match safeMul header.numberOfPartitionEntries.toUInt64
        header.sizeOfPartitionEntry.toUInt64 with
    | none => pure .badFields
    | some totalEntryBytes =>
      let sectorSize ← quiet (Program.gets fun s => s.2.layout.sectorSize.toUInt64)
      let entrySectors := (totalEntryBytes + sectorSize - 1) / sectorSize
      let entryData ← quiet (readSectors dev header.partitionEntryLBA entrySectors)
      reads (Reading.decodeEntries entryData env header totalEntryBytes)
  else pure .badFields

def readBackupHeader (backupHeaderLBA : UInt64) : TracedMethod σ HeaderCheck := do
  if backupHeaderLBA > 0 then
    let backupData ← quiet (readSector dev backupHeaderLBA)
    checkHeader env backupData .gptBackupMissing
  else pure {}

def readPartitionEntries (result : ParserResult) : TracedMethod σ ParserResult := do
  let table := result.table
  if table.primaryValid then
    let check ← loadEntries env dev table.primaryHeader
    if check = .badFields then
      pure (storeEntries table.primaryHeader [] { result with
        table := { table with primaryValid := false } } check)
    else
      quiet (updateLayout (adoptUsableRange table.primaryHeader))
      pure (storeEntries table.primaryHeader [.gptInvalidEntry] result check)
  else if table.backupValid then
    let check ← loadEntries env dev table.backupHeader
    if check = .badFields then
      pure (storeEntries table.backupHeader [] { result with
        table := { table with backupValid := false } } check)
    else pure (storeEntries table.backupHeader [] result check)
  else pure result

def parse : TracedMethod σ ParserResult := do
  quiet (setHasValidMBR false)
  let info ← quiet (Program.attempt (onDevice dev.getStorageInfo))
  quiet (updateLayout (identify info))
  let mbrData ← quiet (readSector dev 0)
  if mbrData = [] then pure { errors := [.transportReadFailed] }
  else
    let mbr ← reads (Reading.readProtectiveMBR mbrData)
    quiet (setHasValidMBR mbr.isProtective)
    quiet (updateLayout computeLayout)
    let layout ← quiet (Program.gets fun s => s.2.layout)
    let primaryData ← quiet (readSector dev layout.primaryHeaderLBA)
    let primary ← checkHeader env primaryData .gptPrimaryMissing
    let backup ← readBackupHeader env dev layout.backupHeaderLBA
    readPartitionEntries env dev
      { table :=
          { primaryHeader := primary.header
            backupHeader := backup.header
            primaryValid := primary.valid
            backupValid := backup.valid
            hasValidProtectiveMBR := mbr.isProtective
            diskSizeInSectors := layout.totalSectors
            sectorSize := layout.sectorSize }
        warnings := primary.warnings ++ backup.warnings }

def readPrimaryEntries (result : ParserResult) : TracedMethod σ ParserResult := do
  let table := result.table
  if table.primaryValid then
    let check ← loadEntries env dev table.primaryHeader
    if check = .badFields then
      pure (storeEntries table.primaryHeader [] { result with
        table := { table with primaryValid := false } } check)
    else pure (storeEntries table.primaryHeader [.gptInvalidEntry] result check)
  else pure result

def parsePrimary : TracedMethod σ ParserResult := do
  quiet (setHasValidMBR false)
  let info ← quiet (Program.attempt (onDevice dev.getStorageInfo))
  quiet (updateLayout (identifyBackup info))
  let mbrData ← quiet (readSector dev 0)
  if mbrData = [] then pure { errors := [.transportReadFailed] }
  else
    let mbr ← reads (Reading.readProtectiveMBR mbrData)
    quiet (setHasValidMBR mbr.isProtective)
    let layout ← quiet (Program.gets fun s => s.2.layout)
    let primaryData ← quiet (readSector dev layout.primaryHeaderLBA)
    let primary ← checkHeader env primaryData .gptPrimaryMissing
    readPrimaryEntries env dev
      { table :=
          { primaryHeader := primary.header
            primaryValid := primary.valid
            hasValidProtectiveMBR := mbr.isProtective }
        warnings := primary.warnings }

def parseBackup : TracedMethod σ ParserResult := do
  let info ← quiet (Program.attempt (onDevice dev.getStorageInfo))
  quiet (updateLayout (identifyBackup info))
  quiet (updateLayout computeBackupLayout)
  let layout ← quiet (Program.gets fun s => s.2.layout)
  if layout.backupHeaderLBA = 0 then pure { errors := [.gptBackupMissing] }
  else
    let backupData ← quiet (readSector dev layout.backupHeaderLBA)
    let backup ← checkHeader env backupData .gptBackupMissing
    readPartitionEntries env dev
      { table := { backupHeader := backup.header, backupValid := backup.valid }
        warnings := backup.warnings }

/-! ## The plain parser -/

section

variable {env dev}

theorem erases_reads {α : Type} {x : Logged α} {a : α} (h : x.value = a) :
    Erases (reads x : TracedMethod σ α) (pure a) := by
  rw [← h]
  exact Erases.note_bind _ (Erases.pure _)

/-- A computation on a buffer goes on with what it computes. -/
theorem erases_reads_bind {α β : Type} {x : Logged α} {k : α → TracedMethod σ β} {q : Method σ β}
    (h : Erases (k x.value) q) : Erases (reads x >>= k) q :=
  Erases.note_bind _ h

theorem erases_checkHeader_bind {β : Type} {data : ByteBuffer} {missing : ErrorCode}
    {k : HeaderCheck → TracedMethod σ β} {q : Method σ β}
    (h : Erases (k (GPTParser.checkHeader env data missing)) q) :
    Erases (checkHeader env data missing >>= k) q := by
  rw [← Reading.value_checkHeader] at h
  exact Erases.note_bind _ (Erases.note_bind _ h)

theorem erases_loadEntries (header : GPTHeader) :
    Erases (loadEntries env dev header) (GPTParser.loadEntries env dev header) := by
  refine Erases.ite (fun _ => ?_) fun _ => Erases.pure _
  cases safeMul header.numberOfPartitionEntries.toUInt64
      header.sizeOfPartitionEntry.toUInt64 with
  | none => exact Erases.pure _
  | some totalEntryBytes =>
    refine Erases.bind (Erases.quiet _) fun sectorSize => ?_
    refine Erases.bind (Erases.quiet _) fun entryData => ?_
    exact erases_reads (Reading.value_decodeEntries entryData env header totalEntryBytes)

theorem erases_readBackupHeader (lba : UInt64) :
    Erases (readBackupHeader env dev lba) (GPTParser.readBackupHeader env dev lba) := by
  refine Erases.ite (fun _ => ?_) fun _ => Erases.pure _
  refine Erases.bind (Erases.quiet _) fun data => ?_
  exact Erases.note_bind _ (erases_reads (Reading.value_checkHeader data env _))

theorem erases_readPartitionEntries (result : ParserResult) :
    Erases (readPartitionEntries env dev result)
      (GPTParser.readPartitionEntries env dev result) := by
  refine Erases.ite (fun _ => ?_) fun _ => Erases.ite (fun _ => ?_) fun _ => Erases.pure _
  · refine Erases.bind (erases_loadEntries _) fun check => ?_
    refine Erases.ite (fun _ => Erases.pure _) fun _ => ?_
    exact Erases.bind (Erases.quiet _) fun _ => Erases.pure _
  · refine Erases.bind (erases_loadEntries _) fun check => ?_
    exact Erases.ite (fun _ => Erases.pure _) fun _ => Erases.pure _

theorem erases_readPrimaryEntries (result : ParserResult) :
    Erases (readPrimaryEntries env dev result) (GPTParser.readPrimaryEntries env dev result) := by
  refine Erases.ite (fun _ => ?_) fun _ => Erases.pure _
  refine Erases.bind (erases_loadEntries _) fun check => ?_
  exact Erases.ite (fun _ => Erases.pure _) fun _ => Erases.pure _

theorem erases_parse : Erases (parse env dev) (GPTParser.parse env dev) := by
  refine Erases.bind (Erases.quiet _) fun _ => ?_
  refine Erases.bind (Erases.quiet _) fun info => ?_
  refine Erases.bind (Erases.quiet _) fun _ => ?_
  refine Erases.bind (Erases.quiet _) fun mbrData => ?_
  refine Erases.ite (fun _ => Erases.pure _) fun _ => ?_
  refine erases_reads_bind ?_
  rw [Reading.value_readProtectiveMBR]
  refine Erases.bind (Erases.quiet _) fun _ => ?_
  refine Erases.bind (Erases.quiet _) fun _ => ?_
  refine Erases.bind (Erases.quiet _) fun layout => ?_
  refine Erases.bind (Erases.quiet _) fun primaryData => ?_
  refine erases_checkHeader_bind ?_
  refine Erases.bind (erases_readBackupHeader _) fun backup => ?_
  exact erases_readPartitionEntries _

theorem erases_parsePrimary : Erases (parsePrimary env dev) (GPTParser.parsePrimary env dev) := by
  refine Erases.bind (Erases.quiet _) fun _ => ?_
  refine Erases.bind (Erases.quiet _) fun info => ?_
  refine Erases.bind (Erases.quiet _) fun _ => ?_
  refine Erases.bind (Erases.quiet _) fun mbrData => ?_
  refine Erases.ite (fun _ => Erases.pure _) fun _ => ?_
  refine erases_reads_bind ?_
  rw [Reading.value_readProtectiveMBR]
  refine Erases.bind (Erases.quiet _) fun _ => ?_
  refine Erases.bind (Erases.quiet _) fun layout => ?_
  refine Erases.bind (Erases.quiet _) fun primaryData => ?_
  refine erases_checkHeader_bind ?_
  exact erases_readPrimaryEntries _

theorem erases_parseBackup : Erases (parseBackup env dev) (GPTParser.parseBackup env dev) := by
  refine Erases.bind (Erases.quiet _) fun info => ?_
  refine Erases.bind (Erases.quiet _) fun _ => ?_
  refine Erases.bind (Erases.quiet _) fun _ => ?_
  refine Erases.bind (Erases.quiet _) fun layout => ?_
  refine Erases.ite (fun _ => Erases.pure _) fun _ => ?_
  refine Erases.bind (Erases.quiet _) fun backupData => ?_
  refine erases_checkHeader_bind ?_
  exact erases_readPartitionEntries _

end

/-! ## Inside of the buffers -/

/-- All accesses are inside of their buffers exactly if no header sector is short. -/
def Exact (events : List ReadEvent) : Prop :=
  (∀ a, .access a ∈ events → a.Inside) ↔
    ∀ data, .headerSector data ∈ events → ¬ Reading.ShortHeader data

theorem additive_exact : Additive Exact where
  nil := by simp [Exact]
  append := by
    intro new new' h h'
    simp only [Exact, List.mem_append, or_imp, forall_and] at h h' ⊢
    rw [h, h']

section

variable {env dev}

theorem exact_reads {α : Type} {x : Logged α} (h : x.Safe) :
    Adds Exact (reads x : TracedMethod σ α) := by
  refine Adds.bind additive_exact (Adds.note ?_) fun _ => Adds.pure additive_exact _
  have hsafe : ∀ a, ReadEvent.access a ∈ x.log.map .access → a.Inside := by
    intro a ha
    obtain ⟨a', ha', heq⟩ := List.mem_map.mp ha
    cases heq
    exact h _ ha'
  have hnone : ∀ data, ReadEvent.headerSector data ∉ x.log.map .access := by
    intro data hdata
    obtain ⟨a, -, heq⟩ := List.mem_map.mp hdata
    cases heq
  exact iff_of_true hsafe fun data hdata => absurd hdata (hnone data)

/-- The accesses to a header sector are inside of it if it is not short. -/
theorem exact_checkHeader (data : ByteBuffer) (missing : ErrorCode) :
    Adds Exact (checkHeader env data missing : TracedMethod σ HeaderCheck) := by
  intro s
  refine ⟨.headerSector data :: (Reading.checkHeader data env missing).log.map .access, ?_, ?_⟩
  · show (s.2 ++ [ReadEvent.headerSector data]) ++ _ = _
    rw [List.append_assoc]
    rfl
  · have hsafe := Reading.safe_checkHeader data env missing
    rw [Logged.Safe] at hsafe
    simp [Exact, hsafe]

theorem exact_loadEntries (header : GPTHeader) :
    Adds Exact (loadEntries env dev header : TracedMethod σ EntryCheck) := by
  have hP : Additive Exact := additive_exact
  refine Adds.ite (fun hfields => ?_) fun _ => Adds.pure hP _
  obtain ⟨-, hsize, -⟩ := (validateEntryFields_iff _ _).mp hfields
  cases safeMul header.numberOfPartitionEntries.toUInt64
      header.sizeOfPartitionEntry.toUInt64 with
  | none => exact Adds.pure hP _
  | some totalEntryBytes =>
    refine Adds.bind hP (Adds.quiet hP _) fun sectorSize => ?_
    refine Adds.bind hP (Adds.quiet hP _) fun entryData => ?_
    exact exact_reads (Reading.safe_decodeEntries entryData env totalEntryBytes hsize)

theorem exact_readBackupHeader (lba : UInt64) :
    Adds Exact (readBackupHeader env dev lba : TracedMethod σ HeaderCheck) := by
  have hP : Additive Exact := additive_exact
  refine Adds.ite (fun _ => ?_) fun _ => Adds.pure hP _
  exact Adds.bind hP (Adds.quiet hP _) fun data => exact_checkHeader data _

theorem exact_readPartitionEntries (result : ParserResult) :
    Adds Exact (readPartitionEntries env dev result : TracedMethod σ ParserResult) := by
  have hP : Additive Exact := additive_exact
  refine Adds.ite (fun _ => ?_) fun _ => Adds.ite (fun _ => ?_) fun _ => Adds.pure hP _
  · refine Adds.bind hP (exact_loadEntries _) fun check => ?_
    refine Adds.ite (fun _ => Adds.pure hP _) fun _ => ?_
    exact Adds.bind hP (Adds.quiet hP _) fun _ => Adds.pure hP _
  · refine Adds.bind hP (exact_loadEntries _) fun check => ?_
    exact Adds.ite (fun _ => Adds.pure hP _) fun _ => Adds.pure hP _

theorem exact_readPrimaryEntries (result : ParserResult) :
    Adds Exact (readPrimaryEntries env dev result : TracedMethod σ ParserResult) := by
  have hP : Additive Exact := additive_exact
  refine Adds.ite (fun _ => ?_) fun _ => Adds.pure hP _
  refine Adds.bind hP (exact_loadEntries _) fun check => ?_
  exact Adds.ite (fun _ => Adds.pure hP _) fun _ => Adds.pure hP _

theorem exact_parse : Adds Exact (parse env dev : TracedMethod σ ParserResult) := by
  have hP : Additive Exact := additive_exact
  refine Adds.bind hP (Adds.quiet hP _) fun _ => ?_
  refine Adds.bind hP (Adds.quiet hP _) fun info => ?_
  refine Adds.bind hP (Adds.quiet hP _) fun _ => ?_
  refine Adds.bind hP (Adds.quiet hP _) fun mbrData => ?_
  refine Adds.ite (fun _ => Adds.pure hP _) fun _ => ?_
  refine Adds.bind hP (exact_reads (Reading.safe_readProtectiveMBR mbrData)) fun mbr => ?_
  refine Adds.bind hP (Adds.quiet hP _) fun _ => ?_
  refine Adds.bind hP (Adds.quiet hP _) fun _ => ?_
  refine Adds.bind hP (Adds.quiet hP _) fun layout => ?_
  refine Adds.bind hP (Adds.quiet hP _) fun primaryData => ?_
  refine Adds.bind hP (exact_checkHeader primaryData _) fun primary => ?_
  refine Adds.bind hP (exact_readBackupHeader _) fun backup => ?_
  exact exact_readPartitionEntries _

theorem exact_parsePrimary : Adds Exact (parsePrimary env dev : TracedMethod σ ParserResult) := by
  have hP : Additive Exact := additive_exact
  refine Adds.bind hP (Adds.quiet hP _) fun _ => ?_
  refine Adds.bind hP (Adds.quiet hP _) fun info => ?_
  refine Adds.bind hP (Adds.quiet hP _) fun _ => ?_
  refine Adds.bind hP (Adds.quiet hP _) fun mbrData => ?_
  refine Adds.ite (fun _ => Adds.pure hP _) fun _ => ?_
  refine Adds.bind hP (exact_reads (Reading.safe_readProtectiveMBR mbrData)) fun mbr => ?_
  refine Adds.bind hP (Adds.quiet hP _) fun _ => ?_
  refine Adds.bind hP (Adds.quiet hP _) fun layout => ?_
  refine Adds.bind hP (Adds.quiet hP _) fun primaryData => ?_
  refine Adds.bind hP (exact_checkHeader primaryData _) fun primary => ?_
  exact exact_readPrimaryEntries _

theorem exact_parseBackup : Adds Exact (parseBackup env dev : TracedMethod σ ParserResult) := by
  have hP : Additive Exact := additive_exact
  refine Adds.bind hP (Adds.quiet hP _) fun info => ?_
  refine Adds.bind hP (Adds.quiet hP _) fun _ => ?_
  refine Adds.bind hP (Adds.quiet hP _) fun _ => ?_
  refine Adds.bind hP (Adds.quiet hP _) fun layout => ?_
  refine Adds.ite (fun _ => Adds.pure hP _) fun _ => ?_
  refine Adds.bind hP (Adds.quiet hP _) fun backupData => ?_
  refine Adds.bind hP (exact_checkHeader backupData _) fun backup => ?_
  exact exact_readPartitionEntries _

end

end Tracing

/-! ## Entry points -/

inductive EntryPoint where
  | parse
  | parsePrimary
  | parseBackup
  deriving DecidableEq, Repr

namespace EntryPoint

variable {σ : Type}

def plain (env : GPTEnv) (dev : FlashDevice σ) : EntryPoint → Method σ ParserResult
  | parse => GPTParser.parse env dev
  | parsePrimary => GPTParser.parsePrimary env dev
  | parseBackup => GPTParser.parseBackup env dev

def traced (env : GPTEnv) (dev : FlashDevice σ) : EntryPoint → TracedMethod σ ParserResult
  | parse => Tracing.parse env dev
  | parsePrimary => Tracing.parsePrimary env dev
  | parseBackup => Tracing.parseBackup env dev

theorem erases_traced (env : GPTEnv) (dev : FlashDevice σ) (entry : EntryPoint) :
    Traced.Erases (entry.traced env dev) (entry.plain env dev) := by
  cases entry with
  | parse => exact Tracing.erases_parse
  | parsePrimary => exact Tracing.erases_parsePrimary
  | parseBackup => exact Tracing.erases_parseBackup

/-- The header sectors that the device returns in a run. -/
def HeaderSector (env : GPTEnv) (dev : FlashDevice σ) (entry : EntryPoint) (s : σ × GPTParser)
    (data : ByteBuffer) : Prop :=
  .headerSector data ∈ Traced.events (entry.traced env dev) s

/-- A run of the parser takes everything from inside of its buffers. -/
def InBounds (env : GPTEnv) (dev : FlashDevice σ) (entry : EntryPoint) (s : σ × GPTParser) :
    Prop :=
  ∀ a, .access a ∈ Traced.events (entry.traced env dev) s → a.Inside

end EntryPoint

/-- Parsing stays inside of the buffers exactly when no header sector is shorter
than what its header says. -/
theorem inBounds_iff {σ : Type} (env : GPTEnv) (dev : FlashDevice σ) (entry : EntryPoint)
    (s : σ × GPTParser) :
    entry.InBounds env dev s ↔
      ∀ data, entry.HeaderSector env dev s data → ¬ Reading.ShortHeader data := by
  have hexact : Traced.Adds Tracing.Exact (entry.traced env dev) := by
    cases entry with
    | parse => exact Tracing.exact_parse
    | parsePrimary => exact Tracing.exact_parsePrimary
    | parseBackup => exact Tracing.exact_parseBackup
  exact hexact.events s

/-- Sectors of 128 bytes, each with a header that claims 512. -/
def smallSectors : FlashContent where
  info := .ok { numSectors := 8, sectorSize := 128 }
  read _ _ := .ok (ByteBuffer.resize
    (headerFields { signature := GPTHeader.Signature, headerSize := 512 }) 128)

def noCrc : GPTEnv where
  crc32 _ := 0
  pastEnd _ := []

theorem inBounds_smallSectors :
    .access ⟨128, 0, 512⟩ ∈
        Traced.events (EntryPoint.parse.traced noCrc FlashContent.device) (smallSectors, {}) ∧
      ¬ EntryPoint.parse.InBounds noCrc FlashContent.device (smallSectors, {}) := by
  have hat : (Traced.events (EntryPoint.parse.traced noCrc FlashContent.device)
      (smallSectors, {}))[19]? = some (.access ⟨128, 0, 512⟩) := by
    decide +kernel
  have htaken := List.mem_of_getElem? hat
  have houtside : ¬ Access.Inside ⟨128, 0, 512⟩ := by decide
  exact ⟨htaken, fun h => houtside (h ⟨128, 0, 512⟩ htaken)⟩

end MBootCore.GPTParser
