import MBootCore.Gpt.PartitionManager

/-!
# GPT — ManagerFrame

What the methods leave alone. Loading the table changes neither the writer
nor the record of accesses. Recovery sets out to write arrays of the table's
entries and no others. And no method at all changes the writer's layout or
where the parser looks for the primary header, so these are what the
constructor made them for the life of the manager.
-/

namespace MBootCore

open Program (Preserves Steps)

variable {σ : Type} (env : GPTEnv) (dev : FlashDevice σ)

namespace GPTParser

theorem onDevice_keepsParser {α : Type} (p : Program σ ErrorCode α) :
    Preserves Prod.snd (onDevice p) :=
  fun _ => rfl

theorem readBuffer_keepsParser (address size : UInt64) :
    Preserves Prod.snd (readBuffer dev address size) := by
  refine .bind (.attempt (onDevice_keepsParser _)) fun outcome => ?_
  cases outcome with
  | ok data => exact .pure data
  | error _ => exact .pure []

theorem readSector_keepsParser (lba : UInt64) : Preserves Prod.snd (readSector dev lba) := by
  refine .bind (.gets _) fun sectorSize => ?_
  cases safeMul lba sectorSize.toUInt64 with
  | none => exact .pure []
  | some byteOffset => exact readBuffer_keepsParser dev byteOffset _

theorem readSectors_keepsParser (lba count : UInt64) :
    Preserves Prod.snd (readSectors dev lba count) := by
  refine .bind (.gets _) fun sectorSize => ?_
  cases safeMul sectorSize.toUInt64 count with
  | none => exact .pure []
  | some bytes =>
    cases safeMul lba sectorSize.toUInt64 with
    | none => exact .pure []
    | some byteOffset => exact readBuffer_keepsParser dev byteOffset bytes

theorem loadEntries_keepsParser (header : GPTHeader) :
    Preserves Prod.snd (loadEntries env dev header) := by
  unfold loadEntries
  split
  · cases safeMul header.numberOfPartitionEntries.toUInt64
      header.sizeOfPartitionEntry.toUInt64 with
    | none => exact .pure _
    | some totalEntryBytes =>
      refine .bind (.gets _) fun sectorSize => ?_
      exact .bind (readSectors_keepsParser dev _ _) fun entryData => .pure _
  · exact .pure _

theorem readBackupHeader_keepsParser (lba : UInt64) :
    Preserves Prod.snd (readBackupHeader env dev lba) := by
  unfold readBackupHeader
  split
  · exact .bind (readSector_keepsParser dev lba) fun backupData => .pure _
  · exact .pure _

/-- The disk as the parser sees it: its sectors and the primary header's place. -/
def geometry (s : σ × GPTParser) : UInt32 × UInt64 :=
  (s.2.layout.sectorSize, s.2.layout.primaryHeaderLBA)

theorem geometry_of_keeps {α : Type} {p : Method σ α} (h : Preserves Prod.snd p) :
    Preserves geometry p :=
  h.map fun parser : GPTParser => (parser.layout.sectorSize, parser.layout.primaryHeaderLBA)

theorem readPartitionEntries_geometry (result : ParserResult) :
    Preserves geometry (readPartitionEntries env dev result) := by
  simp only [readPartitionEntries]
  split
  · refine .bind (geometry_of_keeps (loadEntries_keepsParser env dev _)) fun check => ?_
    split
    · exact .pure _
    · exact .bind (.modify fun _ => rfl) fun _ => .pure _
  · split
    · refine .bind (geometry_of_keeps (loadEntries_keepsParser env dev _)) fun check => ?_
      split
      · exact .pure _
      · exact .pure _
    · exact .pure _

/-- Where the parser looks for the primary header. -/
def primaryLBA (s : σ × GPTParser) : UInt64 := s.2.layout.primaryHeaderLBA

theorem primaryLBA_of_keeps {α : Type} {p : Method σ α} (h : Preserves Prod.snd p) :
    Preserves primaryLBA p :=
  h.map fun parser : GPTParser => parser.layout.primaryHeaderLBA

theorem identify_primaryHeaderLBA (info : Except ErrorCode StorageInfo) (layout : GPTLayout) :
    (identify info layout).primaryHeaderLBA = layout.primaryHeaderLBA := by
  cases info <;> rfl

theorem parse_primaryLBA : Preserves primaryLBA (parse env dev) := by
  refine .bind (.modify fun _ => rfl) fun _ => ?_
  refine .bind (.attempt (primaryLBA_of_keeps (onDevice_keepsParser _))) fun info => ?_
  refine .bind (.modify fun s => identify_primaryHeaderLBA info s.2.layout) fun _ => ?_
  refine .bind (primaryLBA_of_keeps (readSector_keepsParser dev 0)) fun mbrData => ?_
  split
  · exact .pure _
  · refine .bind (.modify fun _ => rfl) fun _ => ?_
    refine .bind (.modify fun _ => rfl) fun _ => ?_
    refine .bind (.gets _) fun layout => ?_
    refine .bind (primaryLBA_of_keeps (readSector_keepsParser dev _)) fun primaryData => ?_
    refine .bind (primaryLBA_of_keeps (readBackupHeader_keepsParser env dev _)) fun backup => ?_
    exact (readPartitionEntries_geometry env dev _).map Prod.snd

theorem storeEntries_sectorSize (header : GPTHeader) (tooShort : List ErrorCode)
    (result : ParserResult) (check : EntryCheck) :
    (storeEntries header tooShort result check).table.sectorSize = result.table.sectorSize := by
  cases check <;> rfl

variable {env dev}

theorem readPartitionEntries_sectorSize {result result' : ParserResult} {s s' : σ × GPTParser}
    (h : readPartitionEntries env dev result s = (.ok result', s')) :
    result'.table.sectorSize = result.table.sectorSize := by
  simp only [readPartitionEntries] at h
  split at h
  · obtain ⟨check, s₁, -, h⟩ := Program.bind_eq_ok.mp h
    split at h
    · cases h
      rw [storeEntries_sectorSize]
    · obtain ⟨⟨⟩, s₂, -, h⟩ := Program.bind_eq_ok.mp h
      cases h
      rw [storeEntries_sectorSize]
  · split at h
    · obtain ⟨check, s₁, -, h⟩ := Program.bind_eq_ok.mp h
      split at h <;>
      · cases h
        rw [storeEntries_sectorSize]
    · cases h
      rfl

theorem readPartitionEntries_layout {result result' : ParserResult} {s s' : σ × GPTParser}
    (h : readPartitionEntries env dev result s = (.ok result', s')) :
    s'.2.layout.sectorSize = s.2.layout.sectorSize := by
  have hgeometry := readPartitionEntries_geometry env dev result s
  rw [h] at hgeometry
  exact congrArg Prod.fst hgeometry

/-- A table with entries has the sector size of the parser's layout. -/
theorem parse_sectorSize {result : ParserResult} {s s' : σ × GPTParser}
    (h : parse env dev s = (.ok result, s')) (hentries : result.table.entries ≠ []) :
    result.table.sectorSize = s'.2.layout.sectorSize := by
  obtain ⟨⟨⟩, s₁, -, h⟩ := Program.bind_eq_ok.mp h
  obtain ⟨info, s₂, -, h⟩ := Program.bind_eq_ok.mp h
  obtain ⟨⟨⟩, s₃, -, h⟩ := Program.bind_eq_ok.mp h
  obtain ⟨mbrData, s₄, -, h⟩ := Program.bind_eq_ok.mp h
  split at h
  · cases h
    exact absurd rfl hentries
  · obtain ⟨⟨⟩, s₅, -, h⟩ := Program.bind_eq_ok.mp h
    obtain ⟨⟨⟩, s₆, -, h⟩ := Program.bind_eq_ok.mp h
    obtain ⟨layout, s₇, hlayout, h⟩ := Program.bind_eq_ok.mp h
    obtain ⟨primaryData, s₈, hprimary, h⟩ := Program.bind_eq_ok.mp h
    obtain ⟨backup, s₉, hbackup, hload⟩ := Program.bind_eq_ok.mp h
    -- from where the layout is read, the parser's sector size stays
    have h₈ := readSector_keepsParser dev layout.primaryHeaderLBA s₇
    have h₉ := readBackupHeader_keepsParser env dev layout.backupHeaderLBA s₈
    rw [hprimary] at h₈
    rw [hbackup] at h₉
    cases hlayout
    rw [readPartitionEntries_sectorSize hload, readPartitionEntries_layout hload, h₉, h₈]

end GPTParser

namespace GPTWriter

/-- The writer's layout stays, and only arrays of these entries are set out
to be written. -/
structure Writes (entries : List PartitionEntry) (s s' : σ × GPTWriter) : Prop where
  layout : s'.2.layout = s.2.layout
  arrays : ∃ k, s'.2.arrays = s.2.arrays ++ List.replicate k entries

variable {entries : List PartitionEntry}

theorem Writes.refl (s : σ × GPTWriter) : Writes entries s s := ⟨rfl, 0, by simp⟩

theorem Writes.trans ⦃a b c : σ × GPTWriter⦄ (h : Writes entries a b) (h' : Writes entries b c) :
    Writes entries a c := by
  obtain ⟨hl, k, hk⟩ := h
  obtain ⟨hl', k', hk'⟩ := h'
  exact ⟨hl'.trans hl, k + k', by rw [hk', hk, List.append_assoc, List.replicate_append_replicate]⟩

theorem onDevice_writes {α : Type} (p : Program σ ErrorCode α) :
    Steps (Writes entries) (onDevice p) :=
  fun s => ⟨rfl, 0, by simp [onDevice, Program.run_zoom]⟩

theorem writeSectors_writes (lba : UInt64) (data : ByteBuffer) :
    Steps (Writes entries) (writeSectors dev lba data) := by
  refine Steps.bind Writes.trans (Steps.gets Writes.refl _) fun sectorSize => ?_
  cases safeMul lba sectorSize.toUInt64 with
  | none => exact Steps.fail Writes.refl _
  | some byteOffset => exact onDevice_writes _

theorem writePrimaryHeader_writes (header : GPTHeader) :
    Steps (Writes entries) (writePrimaryHeader dev header) :=
  Steps.bind Writes.trans (Steps.gets Writes.refl _) fun _ => writeSectors_writes dev _ _

theorem writeBackupHeader_writes (header : GPTHeader) :
    Steps (Writes entries) (writeBackupHeader env dev header) := by
  refine Steps.bind Writes.trans (Steps.gets Writes.refl _) fun layout => ?_
  refine Steps.bind Writes.trans (Steps.ofExcept Writes.refl _) fun backupHdr => ?_
  exact writeSectors_writes dev _ _

theorem writePartitionEntries_writes (header : GPTHeader) :
    Steps (Writes entries) (writePartitionEntries dev header entries) := by
  simp only [writePartitionEntries]
  split
  · exact Steps.fail Writes.refl _
  · refine Steps.bind Writes.trans (Steps.modify fun s => ?_) fun _ => writeSectors_writes dev _ _
    exact ⟨rfl, 1, rfl⟩

end GPTWriter

namespace PartitionManager

variable {α : Type}

/-- What loading the table keeps. -/
def beyondTable (m : PartitionManager σ) : GPTWriter × List FlashAccess × UInt64 :=
  (m.writer, m.accesses, m.parser.layout.primaryHeaderLBA)

theorem onDevice_beyondTable (p : Program σ ErrorCode α) : Preserves beyondTable (onDevice p) :=
  fun _ => rfl

theorem parse_beyondTable : Preserves beyondTable (onParser (GPTParser.parse env dev)) := by
  refine .zoom (fun m s h => ?_) (GPTParser.parse_primaryLBA env dev)
  have hlba : s.2.layout.primaryHeaderLBA = m.parser.layout.primaryHeaderLBA := h
  simp only [beyondTable, hlba]

theorem refreshTable_beyondTable : Preserves beyondTable (refreshTable env dev) := by
  refine .bind (.bind (.gets _) fun isOpen => ?_) fun _ => ?_
  · split
    · exact .pure ()
    · exact .bind (onDevice_beyondTable _) fun _ => .modify fun _ => rfl
  · refine .bind (parse_beyondTable env dev) fun parserResult => ?_
    refine .bind (.modify fun _ => rfl) fun _ => ?_
    split
    · exact .pure _
    · exact .fail _

theorem loadIfEmpty_beyondTable : Preserves beyondTable (loadIfEmpty env dev) := by
  refine .bind (.gets _) fun entries => ?_
  split
  · exact .void (refreshTable_beyondTable env dev)
  · exact .pure ()

theorem findEntry_beyondTable (accept : PartitionEntry → Bool) :
    Preserves beyondTable (findEntry env dev accept) := by
  refine .bind (loadIfEmpty_beyondTable env dev) fun _ => .bind (.gets _) fun found => ?_
  cases found with
  | some info => exact .pure info
  | none => exact .fail _

/-! ## Recovery -/

/-- What recovery with these entries does to the rest of the manager. -/
structure Recovers (entries : List PartitionEntry) (m m' : PartitionManager σ) : Prop where
  writes : GPTWriter.Writes entries (m.device, m.writer) (m'.device, m'.writer)
  accesses : m'.accesses = m.accesses
  primaryHeaderLBA : m'.parser.layout.primaryHeaderLBA = m.parser.layout.primaryHeaderLBA

variable {entries : List PartitionEntry}

theorem Recovers.refl (m : PartitionManager σ) : Recovers entries m m :=
  ⟨GPTWriter.Writes.refl _, rfl, rfl⟩

theorem Recovers.trans ⦃a b c : PartitionManager σ⦄ (h : Recovers entries a b)
    (h' : Recovers entries b c) : Recovers entries a c :=
  ⟨h.writes.trans h'.writes, h'.accesses.trans h.accesses,
    h'.primaryHeaderLBA.trans h.primaryHeaderLBA⟩

theorem recovers_of_beyondTable {p : Method σ α} (h : Preserves beyondTable p) :
    Steps (Recovers entries) p := by
  intro m
  obtain ⟨hwriter, haccesses, hlba⟩ : _ ∧ _ ∧ _ := by
    simpa only [beyondTable, Prod.mk.injEq] using h m
  exact ⟨⟨by rw [hwriter], 0, by rw [hwriter]; simp⟩, haccesses, hlba⟩

theorem onWriter_recovers {p : GPTWriter.Method σ α} (h : Steps (GPTWriter.Writes entries) p) :
    Steps (Recovers entries) (onWriter p) :=
  fun m => ⟨h (m.device, m.writer), rfl, rfl⟩

theorem refresh_recovers : Steps (Recovers entries) (Program.void (refreshTable env dev)) :=
  recovers_of_beyondTable (.void (refreshTable_beyondTable env dev))

theorem recoverPrimary_recovers (layout : GPTLayout) (table : GPTTable) :
    Steps (Recovers table.entries) (recoverPrimary env dev layout table) := by
  refine Steps.bind Recovers.trans (Steps.ofExcept Recovers.refl _) fun newPrimary => ?_
  refine Steps.bind Recovers.trans
    (onWriter_recovers (GPTWriter.writePartitionEntries_writes dev newPrimary)) fun _ => ?_
  refine Steps.bind Recovers.trans
    (onWriter_recovers (GPTWriter.writePrimaryHeader_writes dev newPrimary)) fun _ => ?_
  exact refresh_recovers env dev

theorem recoverBackup_recovers (layout : GPTLayout) (table : GPTTable) :
    Steps (Recovers table.entries) (recoverBackup env dev layout table) := by
  refine Steps.bind Recovers.trans
    (onWriter_recovers (GPTWriter.writeBackupHeader_writes env dev _)) fun _ => ?_
  refine Steps.bind Recovers.trans
    (onWriter_recovers (GPTWriter.writePartitionEntries_writes dev _)) fun _ => ?_
  refine Steps.bind Recovers.trans (Steps.ofExcept Recovers.refl _) fun updatedPrimary => ?_
  refine Steps.bind Recovers.trans
    (onWriter_recovers (GPTWriter.writePrimaryHeader_writes dev updatedPrimary)) fun _ => ?_
  exact refresh_recovers env dev

theorem recoverWith_recovers (layout : GPTLayout) (table : GPTTable) :
    Steps (Recovers table.entries) (recoverWith env dev layout table) := by
  unfold recoverWith
  split
  · exact Steps.pure Recovers.refl ()
  · split
    · exact recoverPrimary_recovers env dev layout table
    · split
      · exact recoverBackup_recovers env dev layout table
      · exact Steps.fail Recovers.refl _

/-! ## Every method -/

/-- What is settled when the manager is created. -/
def settled (m : PartitionManager σ) : GPTLayout × UInt64 :=
  (m.writer.layout, m.parser.layout.primaryHeaderLBA)

theorem settled_of_beyondTable {p : Method σ α} (h : Preserves beyondTable p) :
    Preserves settled p := by
  intro m
  obtain ⟨hwriter, -, hlba⟩ : _ ∧ _ ∧ _ := by
    simpa only [beyondTable, Prod.mk.injEq] using h m
  simp only [settled, hwriter, hlba]

theorem settled_of_recovers {p : Method σ α} (h : Steps (Recovers entries) p) :
    Preserves settled p := by
  intro m
  have hlayout : (p m).2.writer.layout = m.writer.layout := (h m).writes.layout
  simp only [settled, hlayout, (h m).primaryHeaderLBA]

theorem access_settled (a : FlashAccess) (p : Program σ ErrorCode α) :
    Preserves settled (access a p) :=
  .bind (.modify fun _ => rfl) fun _ _ => rfl

theorem recoverFromBackup_settled : Preserves settled (recoverFromBackup env dev) := by
  refine .bind (settled_of_beyondTable (parse_beyondTable env dev)) fun parserResult => ?_
  refine .bind (.modify fun _ => rfl) fun _ => .bind (.gets _) fun layout => ?_
  exact settled_of_recovers (recoverWith_recovers env dev layout _)

theorem findByName_settled (name : ByteBuffer) : Preserves settled (findByName env dev name) :=
  settled_of_beyondTable (findEntry_beyondTable env dev _)

theorem readPartition_settled (name : ByteBuffer) :
    Preserves settled (readPartition env dev name) :=
  .bind (findByName_settled env dev name) fun _ => access_settled _ _

/-- No method changes what was settled when the manager was created. -/
theorem run_settled (call : Call) : Preserves settled (run env dev call) := by
  have hload := settled_of_beyondTable (loadIfEmpty_beyondTable env dev)
  cases call with
  | openManager =>
    refine .bind (settled_of_beyondTable (onDevice_beyondTable _)) fun _ => ?_
    refine .bind (.modify fun _ => rfl) fun _ => ?_
    exact .void (settled_of_beyondTable (refreshTable_beyondTable env dev))
  | refreshTable => exact .void (settled_of_beyondTable (refreshTable_beyondTable env dev))
  | listPartitions => exact .void (.bind hload fun _ => .gets _)
  | findByName name => exact .void (findByName_settled env dev name)
  | findByGUID guid => exact .void (settled_of_beyondTable (findEntry_beyondTable env dev _))
  | findByType typeGUID => exact .void (.bind hload fun _ => .gets _)
  | readPartition name => exact .void (readPartition_settled env dev name)
  | writePartition name data =>
    refine .bind (findByName_settled env dev name) fun info => ?_
    split
    · exact .fail _
    · exact access_settled _ _
  | erasePartition name =>
    exact .bind (findByName_settled env dev name) fun info => access_settled _ _
  | trimPartition name =>
    exact .bind (findByName_settled env dev name) fun info => access_settled _ _
  | verifyPartition name expected =>
    exact .void (.bind (readPartition_settled env dev name) fun _ => .pure _)
  | recoverFromBackup => exact recoverFromBackup_settled env dev

end PartitionManager

end MBootCore
