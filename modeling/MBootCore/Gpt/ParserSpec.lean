import MBootCore.Gpt.Parser

/-!
# GPT — ParserSpec

What `parse` and `parseBackup` make of a device with stable reads, as a
function of its content. Each is first run on the content itself, where
reading changes nothing, and then carried to the device by the simulation
the stable reads give.
-/

namespace MBootCore

open GPTParser

namespace FlashContent

def buffer (c : FlashContent) (address size : UInt64) : ByteBuffer :=
  match c.read address size with
  | .ok data => data
  | .error _ => []

def sectors (c : FlashContent) (sectorSize : UInt32) (lba count : UInt64) : ByteBuffer :=
  match safeMul sectorSize.toUInt64 count with
  | none => []
  | some bytes =>
    match safeMul lba sectorSize.toUInt64 with
    | none => []
    | some byteOffset => c.buffer byteOffset bytes

def sector (c : FlashContent) (sectorSize : UInt32) (lba : UInt64) : ByteBuffer :=
  match safeMul lba sectorSize.toUInt64 with
  | none => []
  | some byteOffset => c.buffer byteOffset sectorSize.toUInt64

/-- The header copy at an LBA. -/
def headerAt (env : GPTEnv) (c : FlashContent) (sectorSize : UInt32) (lba : UInt64)
    (missing : ErrorCode) : HeaderCheck :=
  checkHeader env (c.sector sectorSize lba) missing

/-- The entry array a header points to. -/
def entriesOf (env : GPTEnv) (c : FlashContent) (sectorSize : UInt32) (header : GPTHeader) :
    EntryCheck :=
  if validateEntryFields header.numberOfPartitionEntries header.sizeOfPartitionEntry then
    match safeMul header.numberOfPartitionEntries.toUInt64
        header.sizeOfPartitionEntry.toUInt64 with
    | none => .badFields
    | some totalEntryBytes =>
      decodeEntries env header totalEntryBytes (c.sectors sectorSize header.partitionEntryLBA
        ((totalEntryBytes + sectorSize.toUInt64 - 1) / sectorSize.toUInt64))
  else .badFields

/-- The layout `parse` works with, from the one the parser has. -/
def layout (c : FlashContent) (known : GPTLayout) : GPTLayout :=
  computeLayout (identify c.info known)

def mbr (c : FlashContent) (known : GPTLayout) : ByteBuffer :=
  c.sector (c.layout known).sectorSize 0

def primary (env : GPTEnv) (c : FlashContent) (known : GPTLayout) : HeaderCheck :=
  c.headerAt env (c.layout known).sectorSize (c.layout known).primaryHeaderLBA .gptPrimaryMissing

def backup (env : GPTEnv) (c : FlashContent) (known : GPTLayout) : HeaderCheck :=
  if (c.layout known).backupHeaderLBA > 0 then
    c.headerAt env (c.layout known).sectorSize (c.layout known).backupHeaderLBA .gptBackupMissing
  else {}

/-- A result after the entry array of the copy it names is loaded. -/
def withEntries (env : GPTEnv) (c : FlashContent) (sectorSize : UInt32) (result : ParserResult) :
    ParserResult :=
  let table := result.table
  if table.primaryValid then
    let check := c.entriesOf env sectorSize table.primaryHeader
    if check = .badFields then
      storeEntries table.primaryHeader [] { result with
        table := { table with primaryValid := false } } check
    else storeEntries table.primaryHeader [.gptInvalidEntry] result check
  else if table.backupValid then
    let check := c.entriesOf env sectorSize table.backupHeader
    if check = .badFields then
      storeEntries table.backupHeader [] { result with
        table := { table with backupValid := false } } check
    else storeEntries table.backupHeader [] result check
  else result

/-- The result of `parse`. -/
def parsed (env : GPTEnv) (c : FlashContent) (known : GPTLayout) : ParserResult :=
  if c.mbr known = [] then { errors := [.transportReadFailed] }
  else c.withEntries env (c.layout known).sectorSize
    { table :=
        { primaryHeader := (c.primary env known).header
          backupHeader := (c.backup env known).header
          primaryValid := (c.primary env known).valid
          backupValid := (c.backup env known).valid
          hasValidProtectiveMBR := (readProtectiveMBR (c.mbr known)).isProtective
          diskSizeInSectors := (c.layout known).totalSectors
          sectorSize := (c.layout known).sectorSize }
      warnings := (c.primary env known).warnings ++ (c.backup env known).warnings }

/-- The layout `parseBackup` works with. -/
def backupLayout (c : FlashContent) (known : GPTLayout) : GPTLayout :=
  computeBackupLayout (identifyBackup c.info known)

/-- The result of `parseBackup`. -/
def parsedBackup (env : GPTEnv) (c : FlashContent) (known : GPTLayout) : ParserResult :=
  let layout := c.backupLayout known
  let backup := c.headerAt env layout.sectorSize layout.backupHeaderLBA .gptBackupMissing
  if layout.backupHeaderLBA = 0 then { errors := [.gptBackupMissing] }
  else c.withEntries env layout.sectorSize
    { table := { backupHeader := backup.header, backupValid := backup.valid }
      warnings := backup.warnings }

end FlashContent

/-! ## Running on a content -/

section Content

variable (env : GPTEnv) (c : FlashContent) (p : GPTParser)

theorem readBuffer_content (address size : UInt64) :
    readBuffer FlashContent.device address size (c, p) = (.ok (c.buffer address size), (c, p)) := by
  have hattempt : Program.attempt (onDevice (FlashContent.device.readMemory address size)) (c, p)
      = (.ok (c.read address size), (c, p)) := rfl
  rw [readBuffer, Program.run_bind_ok hattempt, FlashContent.buffer]
  cases c.read address size <;> rfl

theorem readSector_content (lba : UInt64) :
    readSector FlashContent.device lba (c, p)
      = (.ok (c.sector p.layout.sectorSize lba), (c, p)) := by
  rw [readSector, Program.run_bind_ok (Program.run_gets _ _), FlashContent.sector]
  cases safeMul lba p.layout.sectorSize.toUInt64 with
  | none => rfl
  | some byteOffset => exact readBuffer_content c p byteOffset _

theorem readSectors_content (lba count : UInt64) :
    readSectors FlashContent.device lba count (c, p)
      = (.ok (c.sectors p.layout.sectorSize lba count), (c, p)) := by
  rw [readSectors, Program.run_bind_ok (Program.run_gets _ _), FlashContent.sectors]
  cases safeMul p.layout.sectorSize.toUInt64 count with
  | none => rfl
  | some bytes =>
    cases safeMul lba p.layout.sectorSize.toUInt64 with
    | none => rfl
    | some byteOffset => exact readBuffer_content c p byteOffset bytes

theorem loadEntries_content (header : GPTHeader) :
    loadEntries env FlashContent.device header (c, p)
      = (.ok (c.entriesOf env p.layout.sectorSize header), (c, p)) := by
  rw [loadEntries, FlashContent.entriesOf]
  split
  · cases safeMul header.numberOfPartitionEntries.toUInt64
      header.sizeOfPartitionEntry.toUInt64 with
    | none => rfl
    | some totalEntryBytes =>
      show (Program.gets _ >>= _ : Method FlashContent EntryCheck) (c, p) = _
      rw [Program.run_bind_ok (Program.run_gets _ _),
        Program.run_bind_ok (readSectors_content c p _ _)]
      rfl
  · rfl

theorem readBackupHeader_content (lba : UInt64) :
    readBackupHeader env FlashContent.device lba (c, p)
      = (.ok (if lba > 0 then c.headerAt env p.layout.sectorSize lba .gptBackupMissing else {}),
          (c, p)) := by
  rw [readBackupHeader]
  split
  · rw [Program.run_bind_ok (readSector_content c p lba)]
    rfl
  · rfl

theorem readPartitionEntries_content (result : ParserResult) :
    ∃ p', readPartitionEntries env FlashContent.device result (c, p)
      = (.ok (c.withEntries env p.layout.sectorSize result), (c, p')) := by
  simp only [readPartitionEntries, FlashContent.withEntries]
  split
  · rw [Program.run_bind_ok (loadEntries_content env c p _)]
    split
    · exact ⟨_, rfl⟩
    · exact ⟨_, rfl⟩
  · split
    · rw [Program.run_bind_ok (loadEntries_content env c p _)]
      split
      · exact ⟨_, rfl⟩
      · exact ⟨_, rfl⟩
    · exact ⟨_, rfl⟩

theorem getStorageInfo_content :
    Program.attempt (onDevice FlashContent.device.getStorageInfo) (c, p)
      = (.ok c.info, (c, p)) := rfl

theorem parse_content :
    ∃ p', parse env FlashContent.device (c, p) = (.ok (c.parsed env p.layout), (c, p')) := by
  rw [parse, Program.run_bind_ok (run_setHasValidMBR _ _),
    Program.run_bind_ok (getStorageInfo_content _ _), Program.run_bind_ok (run_updateLayout _ _),
    Program.run_bind_ok (readSector_content _ _ _), FlashContent.parsed]
  change ∃ p', (if c.mbr p.layout = [] then _ else _ : Method FlashContent ParserResult) _ = _
  by_cases hmbr : c.mbr p.layout = []
  · rw [if_pos hmbr, if_pos hmbr]
    exact ⟨_, rfl⟩
  · rw [if_neg hmbr, if_neg hmbr, Program.run_bind_ok (run_setHasValidMBR _ _),
      Program.run_bind_ok (run_updateLayout _ _), Program.run_bind_ok (Program.run_gets _ _),
      Program.run_bind_ok (readSector_content _ _ _),
      Program.run_bind_ok (readBackupHeader_content _ _ _ _)]
    exact readPartitionEntries_content env c _ _

theorem parseBackup_content :
    ∃ p', parseBackup env FlashContent.device (c, p)
      = (.ok (c.parsedBackup env p.layout), (c, p')) := by
  rw [parseBackup, Program.run_bind_ok (getStorageInfo_content _ _),
    Program.run_bind_ok (run_updateLayout _ _), Program.run_bind_ok (run_updateLayout _ _),
    Program.run_bind_ok (Program.run_gets _ _), FlashContent.parsedBackup]
  change ∃ p', (if (c.backupLayout p.layout).backupHeaderLBA = 0 then _ else _ :
    Method FlashContent ParserResult) _ = _
  by_cases hlba : (c.backupLayout p.layout).backupHeaderLBA = 0
  · rw [if_pos hlba, if_pos hlba]
    exact ⟨_, rfl⟩
  · rw [if_neg hlba, if_neg hlba, Program.run_bind_ok (readSector_content _ _ _)]
    exact readPartitionEntries_content env c _ _

end Content

/-! ## Devices with stable reads -/

section StableReads

variable {σ : Type} {dev : FlashDevice σ} {content : σ → FlashContent}

/-- The parser's state with the device's content for the device. -/
def contentOf (content : σ → FlashContent) (s : σ × GPTParser) : FlashContent × GPTParser :=
  (content s.1, s.2)

theorem simulates_onDevice {α : Type} {p : Program σ ErrorCode α}
    {q : Program FlashContent ErrorCode α} (h : Program.Simulates content p q) :
    Program.Simulates (contentOf content) (onDevice p) (onDevice q) := by
  intro s
  simp only [onDevice, Program.run_zoom, contentOf, h s.1]

theorem simulates_readBuffer (h : StableReads dev content) (address size : UInt64) :
    Program.Simulates (contentOf content) (readBuffer dev address size)
      (readBuffer FlashContent.device address size) := by
  refine .bind (.attempt (simulates_onDevice (h.readMemory address size))) fun outcome => ?_
  cases outcome with
  | ok data => exact .pure data
  | error _ => exact .pure []

theorem simulates_readSector (h : StableReads dev content) (lba : UInt64) :
    Program.Simulates (contentOf content) (readSector dev lba)
      (readSector FlashContent.device lba) := by
  refine .bind (.gets fun _ => rfl) fun sectorSize => ?_
  cases safeMul lba sectorSize.toUInt64 with
  | none => exact .pure []
  | some byteOffset => exact simulates_readBuffer h byteOffset _

theorem simulates_readSectors (h : StableReads dev content) (lba count : UInt64) :
    Program.Simulates (contentOf content) (readSectors dev lba count)
      (readSectors FlashContent.device lba count) := by
  refine .bind (.gets fun _ => rfl) fun sectorSize => ?_
  cases safeMul sectorSize.toUInt64 count with
  | none => exact .pure []
  | some bytes =>
    cases safeMul lba sectorSize.toUInt64 with
    | none => exact .pure []
    | some byteOffset => exact simulates_readBuffer h byteOffset bytes

variable (env : GPTEnv)

theorem simulates_loadEntries (h : StableReads dev content) (header : GPTHeader) :
    Program.Simulates (contentOf content) (loadEntries env dev header)
      (loadEntries env FlashContent.device header) := by
  rw [loadEntries, loadEntries]
  split
  · cases safeMul header.numberOfPartitionEntries.toUInt64
      header.sizeOfPartitionEntry.toUInt64 with
    | none => exact .pure _
    | some totalEntryBytes =>
      refine .bind (.gets fun _ => rfl) fun sectorSize => ?_
      exact .bind (simulates_readSectors h _ _) fun entryData => .pure _
  · exact .pure _

theorem simulates_readBackupHeader (h : StableReads dev content) (lba : UInt64) :
    Program.Simulates (contentOf content) (readBackupHeader env dev lba)
      (readBackupHeader env FlashContent.device lba) := by
  rw [readBackupHeader, readBackupHeader]
  split
  · exact .bind (simulates_readSector h lba) fun backupData => .pure _
  · exact .pure _

theorem simulates_updateLayout (f : GPTLayout → GPTLayout) :
    Program.Simulates (contentOf content) (updateLayout f) (updateLayout f) :=
  .modify fun _ => rfl

theorem simulates_readPartitionEntries (h : StableReads dev content) (result : ParserResult) :
    Program.Simulates (contentOf content) (readPartitionEntries env dev result)
      (readPartitionEntries env FlashContent.device result) := by
  simp only [readPartitionEntries]
  split
  · refine .bind (simulates_loadEntries env h _) fun check => ?_
    split
    · exact .pure _
    · exact .bind (simulates_updateLayout _) fun _ => .pure _
  · split
    · refine .bind (simulates_loadEntries env h _) fun check => ?_
      split
      · exact .pure _
      · exact .pure _
    · exact .pure _

theorem simulates_parse (h : StableReads dev content) :
    Program.Simulates (contentOf content) (parse env dev) (parse env FlashContent.device) := by
  refine .bind (.modify fun _ => rfl) fun _ => ?_
  refine .bind (.attempt (simulates_onDevice h.getStorageInfo)) fun info => ?_
  refine .bind (simulates_updateLayout _) fun _ => ?_
  refine .bind (simulates_readSector h 0) fun mbrData => ?_
  split
  · exact .pure _
  · refine .bind (.modify fun _ => rfl) fun _ => ?_
    refine .bind (simulates_updateLayout _) fun _ => ?_
    refine .bind (.gets fun _ => rfl) fun layout => ?_
    refine .bind (simulates_readSector h _) fun primaryData => ?_
    refine .bind (simulates_readBackupHeader env h _) fun backup => ?_
    exact simulates_readPartitionEntries env h _

theorem simulates_parseBackup (h : StableReads dev content) :
    Program.Simulates (contentOf content) (parseBackup env dev)
      (parseBackup env FlashContent.device) := by
  refine .bind (.attempt (simulates_onDevice h.getStorageInfo)) fun info => ?_
  refine .bind (simulates_updateLayout _) fun _ => ?_
  refine .bind (simulates_updateLayout _) fun _ => ?_
  refine .bind (.gets fun _ => rfl) fun layout => ?_
  split
  · exact .pure _
  · refine .bind (simulates_readSector h _) fun backupData => ?_
    exact simulates_readPartitionEntries env h _

/-- `parse` returns what the content says and keeps the content. -/
theorem parse_run (h : StableReads dev content) (s : σ) (p : GPTParser) :
    ∃ s' p', parse env dev (s, p) = (.ok ((content s).parsed env p.layout), (s', p')) ∧
      content s' = content s := by
  obtain ⟨p', hcontent⟩ := parse_content env (content s) p
  obtain ⟨⟨s', q⟩, hrun, hs'⟩ := (simulates_parse env h).run (s := (s, p)) hcontent
  exact ⟨s', q, hrun, (Prod.mk.inj hs').1⟩

theorem parseBackup_run (h : StableReads dev content) (s : σ) (p : GPTParser) :
    ∃ s' p', parseBackup env dev (s, p)
      = (.ok ((content s).parsedBackup env p.layout), (s', p')) ∧ content s' = content s := by
  obtain ⟨p', hcontent⟩ := parseBackup_content env (content s) p
  obtain ⟨⟨s', q⟩, hrun, hs'⟩ := (simulates_parseBackup env h).run (s := (s, p)) hcontent
  exact ⟨s', q, hrun, (Prod.mk.inj hs').1⟩

end StableReads

/-! ## The parsed table -/

theorem safeMul_toUInt64 (a b : UInt32) :
    safeMul a.toUInt64 b.toUInt64 = some (a.toUInt64 * b.toUInt64) ∧
      (a.toUInt64 * b.toUInt64).toNat = a.toNat * b.toNat := by
  have hlt : a.toNat * b.toNat < 2 ^ 64 := by
    calc a.toNat * b.toNat < 2 ^ 32 * 2 ^ 32 := Nat.mul_lt_mul'' a.toNat_lt b.toNat_lt
      _ = 2 ^ 64 := by decide
  have hmul : (a.toUInt64 * b.toUInt64).toNat = a.toNat * b.toNat := by
    rw [UInt64.toNat_mul, UInt32.toNat_toUInt64, UInt32.toNat_toUInt64, Nat.mod_eq_of_lt hlt]
  refine ⟨safeMul_eq_some.mpr ?_, hmul⟩
  rw [hmul, UInt32.toNat_toUInt64, UInt32.toNat_toUInt64]

theorem validateEntryFields_iff (numEntries entrySize : UInt32) :
    validateEntryFields numEntries entrySize = true ↔
      (0 < numEntries.toNat ∧ numEntries.toNat ≤ 4096) ∧
        128 ≤ entrySize.toNat ∧ entrySize.toNat ≤ 512 := by
  have hzero : numEntries = 0 ↔ numEntries.toNat = 0 := UInt32.toNat_inj.symm
  simp only [validateEntryFields, kMaxPartitionEntries, kMinEntrySize, kMaxEntrySize, gt_iff_lt,
    UInt32.lt_iff_toNat_lt, hzero, UInt32.reduceToNat]
  split
  · simp only [Bool.false_eq_true, false_iff]
    omega
  · split
    · simp only [Bool.false_eq_true, false_iff]
      omega
    · simp only [true_iff]
      omega

namespace FlashContent

variable {env : GPTEnv} {c : FlashContent} {sectorSize : UInt32} {header : GPTHeader}

/-- The bytes read for the array of `header`: all sectors it reaches into. -/
def arrayOf (c : FlashContent) (sectorSize : UInt32) (header : GPTHeader) : ByteBuffer :=
  let totalEntryBytes :=
    header.numberOfPartitionEntries.toUInt64 * header.sizeOfPartitionEntry.toUInt64
  c.sectors sectorSize header.partitionEntryLBA
    ((totalEntryBytes + sectorSize.toUInt64 - 1) / sectorSize.toUInt64)

theorem entriesOf_eq (h : validateEntryFields header.numberOfPartitionEntries
    header.sizeOfPartitionEntry = true) :
    c.entriesOf env sectorSize header = decodeEntries env header
      (header.numberOfPartitionEntries.toUInt64 * header.sizeOfPartitionEntry.toUInt64)
      (c.arrayOf sectorSize header) := by
  rw [entriesOf, if_pos h, (safeMul_toUInt64 _ _).1, arrayOf]

theorem entriesOf_badFields : c.entriesOf env sectorSize header = .badFields ↔
    validateEntryFields header.numberOfPartitionEntries header.sizeOfPartitionEntry = false := by
  by_cases h : validateEntryFields header.numberOfPartitionEntries
      header.sizeOfPartitionEntry = true
  · rw [entriesOf_eq h, h, decodeEntries]
    split <;> simp
  · rw [entriesOf, if_neg h]
    simpa using h

/-- A decoded array has the entries the header promises, at least one. -/
theorem entriesOf_length {entries : List PartitionEntry} {crcMatches : Bool}
    (h : c.entriesOf env sectorSize header = .decoded entries crcMatches) :
    entries.length = header.numberOfPartitionEntries.toNat ∧ entries ≠ [] := by
  have hfields : validateEntryFields header.numberOfPartitionEntries
      header.sizeOfPartitionEntry = true := by
    rw [← Bool.not_eq_false,
      ← (entriesOf_badFields : c.entriesOf env sectorSize header = .badFields ↔ _), h]
    exact EntryCheck.noConfusion
  rw [entriesOf_eq hfields, decodeEntries, (safeMul_toUInt64 _ _).2] at h
  split at h
  · rename_i hlength
    injection h with hentries _
    have hlen := readEntries_length hlength
    rw [hentries] at hlen
    refine ⟨hlen, ?_⟩
    rintro rfl
    have hpos := ((validateEntryFields_iff _ _).mp hfields).1.1
    rw [← hlen] at hpos
    exact Nat.lt_irrefl 0 hpos
  · cases h

end FlashContent

section Table

variable {env : GPTEnv} {c : FlashContent} {known : GPTLayout}

/-- A table with these headers and flags and with the entries of `check`. -/
structure TableIs (table : GPTTable) (primaryHeader backupHeader : GPTHeader)
    (primaryValid backupValid : Bool) (check : EntryCheck) : Prop where
  primaryHeader : table.primaryHeader = primaryHeader
  backupHeader : table.backupHeader = backupHeader
  primaryValid : table.primaryValid = primaryValid
  backupValid : table.backupValid = backupValid
  entries : table.entries = check.entries
  entriesValid : table.entriesValid = check.isValid

theorem storeEntries_table {result : ParserResult} {primaryHeader backupHeader : GPTHeader}
    {primaryValid backupValid : Bool}
    (h : TableIs result.table primaryHeader backupHeader primaryValid backupValid .unreadable)
    (header : GPTHeader) (tooShort : List ErrorCode) (check : EntryCheck) :
    TableIs (storeEntries header tooShort result check).table primaryHeader backupHeader
      primaryValid backupValid check := by
  obtain ⟨h₁, h₂, h₃, h₄, h₅, h₆⟩ := h
  cases check with
  | badFields => exact ⟨h₁, h₂, h₃, h₄, h₅, h₆⟩
  | unreadable => exact ⟨h₁, h₂, h₃, h₄, h₅, h₆⟩
  | decoded entries crcMatches => exact ⟨h₁, h₂, h₃, h₄, rfl, rfl⟩

/-- A valid primary header decides: its array is taken, or the table is left
without a primary copy. -/
theorem withEntries_primary {sectorSize : UInt32} {result : ParserResult}
    {primaryHeader backupHeader : GPTHeader} {backupValid : Bool}
    (h : TableIs result.table primaryHeader backupHeader true backupValid .unreadable) :
    TableIs (c.withEntries env sectorSize result).table primaryHeader backupHeader
      (c.entriesOf env sectorSize primaryHeader ≠ .badFields) backupValid
      (c.entriesOf env sectorSize primaryHeader) := by
  simp only [FlashContent.withEntries, if_pos h.primaryValid, h.primaryHeader]
  split
  · rename_i hbad
    apply storeEntries_table
    obtain ⟨-, h₂, -, h₄, h₅, h₆⟩ := h
    exact ⟨rfl, h₂, by simp [hbad], h₄, h₅, h₆⟩
  · rename_i hgood
    apply storeEntries_table
    obtain ⟨h₁, h₂, h₃, h₄, h₅, h₆⟩ := h
    exact ⟨h₁, h₂, by simp [hgood, h₃], h₄, h₅, h₆⟩

theorem withEntries_backup {sectorSize : UInt32} {result : ParserResult}
    {primaryHeader backupHeader : GPTHeader}
    (h : TableIs result.table primaryHeader backupHeader false true .unreadable) :
    TableIs (c.withEntries env sectorSize result).table primaryHeader backupHeader false
      (c.entriesOf env sectorSize backupHeader ≠ .badFields)
      (c.entriesOf env sectorSize backupHeader) := by
  have hprimary : ¬ result.table.primaryValid = true := by simp [h.primaryValid]
  simp only [FlashContent.withEntries, if_neg hprimary, if_pos h.backupValid, h.backupHeader]
  split
  · rename_i hbad
    apply storeEntries_table
    obtain ⟨h₁, -, h₃, -, h₅, h₆⟩ := h
    exact ⟨h₁, rfl, h₃, by simp [hbad], h₅, h₆⟩
  · rename_i hgood
    apply storeEntries_table
    obtain ⟨h₁, h₂, h₃, h₄, h₅, h₆⟩ := h
    exact ⟨h₁, h₂, h₃, by simp [hgood, h₄], h₅, h₆⟩

theorem withEntries_none {sectorSize : UInt32} {result : ParserResult}
    {primaryHeader backupHeader : GPTHeader}
    (h : TableIs result.table primaryHeader backupHeader false false .unreadable) :
    TableIs (c.withEntries env sectorSize result).table primaryHeader backupHeader false false
      .unreadable := by
  have hprimary : ¬ result.table.primaryValid = true := by simp [h.primaryValid]
  have hbackup : ¬ result.table.backupValid = true := by simp [h.backupValid]
  simp only [FlashContent.withEntries, if_neg hprimary, if_neg hbackup]
  exact h

theorem parsed_unreadable (h : c.mbr known = []) : (c.parsed env known).table = {} := by
  rw [FlashContent.parsed, if_pos h]

theorem parsed_primary (hmbr : c.mbr known ≠ []) (h : (c.primary env known).valid = true) :
    TableIs (c.parsed env known).table (c.primary env known).header (c.backup env known).header
      (c.entriesOf env (c.layout known).sectorSize (c.primary env known).header ≠ .badFields)
      (c.backup env known).valid
      (c.entriesOf env (c.layout known).sectorSize (c.primary env known).header) := by
  rw [FlashContent.parsed, if_neg hmbr]
  exact withEntries_primary ⟨rfl, rfl, h, rfl, rfl, rfl⟩

theorem parsed_backup (hmbr : c.mbr known ≠ []) (hprimary : (c.primary env known).valid = false)
    (h : (c.backup env known).valid = true) :
    TableIs (c.parsed env known).table (c.primary env known).header (c.backup env known).header
      false
      (c.entriesOf env (c.layout known).sectorSize (c.backup env known).header ≠ .badFields)
      (c.entriesOf env (c.layout known).sectorSize (c.backup env known).header) := by
  rw [FlashContent.parsed, if_neg hmbr]
  exact withEntries_backup ⟨rfl, rfl, hprimary, h, rfl, rfl⟩

theorem parsed_none (hmbr : c.mbr known ≠ []) (hprimary : (c.primary env known).valid = false)
    (h : (c.backup env known).valid = false) :
    TableIs (c.parsed env known).table (c.primary env known).header (c.backup env known).header
      false false .unreadable := by
  rw [FlashContent.parsed, if_neg hmbr]
  exact withEntries_none ⟨rfl, rfl, hprimary, h, rfl, rfl⟩

theorem parsedBackup_valid
    (hlba : (c.backupLayout known).backupHeaderLBA ≠ 0)
    (h : (c.headerAt env (c.backupLayout known).sectorSize (c.backupLayout known).backupHeaderLBA
      .gptBackupMissing).valid = true) :
    let header := (c.headerAt env (c.backupLayout known).sectorSize
      (c.backupLayout known).backupHeaderLBA .gptBackupMissing).header
    TableIs (c.parsedBackup env known).table {} header false
      (c.entriesOf env (c.backupLayout known).sectorSize header ≠ .badFields)
      (c.entriesOf env (c.backupLayout known).sectorSize header) := by
  intro header
  rw [FlashContent.parsedBackup, if_neg hlba]
  exact withEntries_backup ⟨rfl, rfl, rfl, h, rfl, rfl⟩

end Table

end MBootCore
