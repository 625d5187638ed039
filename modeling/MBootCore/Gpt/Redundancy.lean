import MBootCore.Gpt.DiskWrites
import MBootCore.Gpt.ManagerFrame
import MBootCore.Gpt.MockDisk
import MBootCore.Gpt.VerifiedRecovery
import Mathlib

/-!
# GPT — Redundancy

When a recovery that succeeds has restored the lost copy. The new header says
where its array is by the writer's layout; the array is written where the
manager's layout says, or to sector 2. These need not agree, and the array
may land on the copy it was taken from. `recover_redundant` says, for every
recovery in every run of a manager on a faithful device, which starting
states rule that out.
-/

namespace MBootCore

open GPTParser ByteStore PartitionManager
open FaithfulDevice (InRange ArrayInRange)

/-! ## Arrays after a write -/

section Arrays

variable {env : GPTEnv} {info : StorageInfo} {store : ByteStore} {header : GPTHeader}
  {entries : List PartitionEntry}

theorem HeaderCopy.overlay {lba : Nat} (h : HeaderCopy env info store lba header) {a : Nat}
    {data : ByteBuffer}
    (hapart : Apart (lba * info.sectorBytes) info.sectorBytes a data.length) :
    HeaderCopy env info (store.overlay a data) lba header :=
  h.congr (slice_overlay_apart hapart)

theorem ArrayCopy.overlay (h : ArrayCopy env info store header entries) {a : Nat}
    {data : ByteBuffer}
    (hapart : Apart (header.partitionEntryLBA.toNat * info.sectorBytes) header.arrayBytes a
      data.length) : ArrayCopy env info (store.overlay a data) header entries :=
  h.congr (slice_overlay_apart hapart)

/-- An array copy is one for every header that says the same of it. -/
theorem ArrayCopy.of_header (h : ArrayCopy env info store header entries) {other : GPTHeader}
    (hlba : other.partitionEntryLBA = header.partitionEntryLBA)
    (hcount : other.numberOfPartitionEntries = header.numberOfPartitionEntries)
    (hsize : other.sizeOfPartitionEntry = header.sizeOfPartitionEntry)
    (hcrc : other.partitionEntriesCRC32 = header.partitionEntriesCRC32) :
    ArrayCopy env info store other entries := by
  obtain ⟨hfields, ⟨haddress, hinside⟩, hdecodes, hentryCRC⟩ := h
  rw [← hcount, ← hsize] at hfields hentryCRC hdecodes
  rw [GPTHeader.arrayBytes, ← hcount, ← hsize] at hinside hdecodes
  rw [← hlba] at haddress hinside hdecodes
  rw [← hcrc] at hentryCRC
  exact ⟨hfields, ⟨haddress, hinside⟩, hdecodes, hentryCRC⟩

/-- After the entries are written to `target`, an array is there if it was
before and is apart from the target, or is the target. -/
theorem ArrayCopy.overlay_image (store : ByteStore) {target : Nat}
    (hfields : validateEntryFields header.numberOfPartitionEntries
      header.sizeOfPartitionEntry = true)
    (hlength : entries.length = header.numberOfPartitionEntries.toNat)
    (hcrc : env.crc32 (entryImage entries header.numberOfPartitionEntries.toNat
      header.sizeOfPartitionEntry.toNat) = header.partitionEntriesCRC32)
    (haddress : target * info.sectorBytes < 2 ^ 64)
    (hinside : target * info.sectorBytes + header.arrayBytes ≤ info.capacity)
    (h : header.partitionEntryLBA.toNat = target ∨
      (ArrayCopy env info store header entries ∧
        Apart (header.partitionEntryLBA.toNat * info.sectorBytes) header.arrayBytes
          (target * info.sectorBytes) header.arrayBytes)) :
    ArrayCopy env info (store.overlay (target * info.sectorBytes)
      (entryImage entries header.numberOfPartitionEntries.toNat
        header.sizeOfPartitionEntry.toNat)) header entries := by
  have himage := GPTWriter.image_length hfields entries
  obtain ⟨-, hsize, -⟩ := (validateEntryFields_iff _ _).mp hfields
  rcases h with rfl | ⟨hcopy, hapart⟩
  · have hread := readEntries_image hsize entries header.numberOfPartitionEntries.toNat []
    rw [List.append_nil, padEntries_of_length hlength] at hread
    refine ⟨hfields, ⟨haddress, hinside⟩, ?_, hcrc⟩
    rw [← himage, slice_overlay, hread]
  · exact hcopy.overlay (by rwa [himage])

end Arrays

/-! ## Loading the table -/

section Loading

variable {σ : Type} {env : GPTEnv} {dev : FlashDevice σ} {info : StorageInfo}
  {bytes : σ → ByteStore} {content : σ → FlashContent}

/-- What both parses find depends on the content only. -/
theorem Redundant.of_content (h : FaithfulDevice dev info bytes content) {s s' : σ}
    {entries : List PartitionEntry} (hsame : content s' = content s)
    (hredundant : Redundant env dev s entries) : Redundant env dev s' entries := by
  constructor
  · intro p hp
    obtain ⟨result, t, hrun, hfound⟩ := hredundant.parse p hp
    obtain ⟨t₁, p₁, hparse, -⟩ := parse_run env h.stable s p
    obtain ⟨t₂, p₂, hparse', -⟩ := parse_run env h.stable s' p
    rw [hrun, Prod.mk.injEq, Except.ok.injEq] at hparse
    rw [hsame, ← hparse.1] at hparse'
    exact ⟨result, _, hparse', hfound⟩
  · intro p
    obtain ⟨result, t, hrun, hfound⟩ := hredundant.parseBackup p
    obtain ⟨t₁, p₁, hparse, -⟩ := parseBackup_run env h.stable s p
    obtain ⟨t₂, p₂, hparse', -⟩ := parseBackup_run env h.stable s' p
    rw [hrun, Prod.mk.injEq, Except.ok.injEq] at hparse
    rw [hsame, ← hparse.1] at hparse'
    exact ⟨result, _, hparse', hfound⟩

namespace PartitionManager

/-- Loading the table changes no byte. -/
theorem refreshTable_content (env : GPTEnv) (h : FaithfulDevice dev info bytes content) :
    Program.Preserves (fun m : PartitionManager σ => content m.device) (refreshTable env dev) := by
  refine .bind (.bind (.gets _) fun isOpen => ?_) fun _ => ?_
  · split
    · exact .pure ()
    · exact .bind (fun m => h.open_content m.device) fun _ => .modify fun _ => rfl
  · refine .bind (fun m => ?_) fun parserResult => .bind (.modify fun _ => rfl) fun _ => ?_
    · obtain ⟨s, p, hrun, hcontent⟩ := onParser_parse_run env h.stable m
      rw [hrun]
      exact hcontent
    · split
      · exact .pure _
      · exact .fail _

/-- A step of the writer, as a step of the manager. -/
theorem onWriter_ok {α : Type} {p : GPTWriter.Method σ α} {m m' : PartitionManager σ} {a : α}
    (hrun : onWriter p m = (.ok a, m')) :
    p (m.device, m.writer) = (.ok a, (m'.device, m'.writer)) ∧ m'.layout = m.layout := by
  rw [onWriter, Program.run_zoom, Prod.mk.injEq] at hrun
  obtain ⟨hok, rfl⟩ := hrun
  exact ⟨Prod.ext hok rfl, rfl⟩

end PartitionManager

end Loading

/-! ## Where recovery writes -/

namespace PartitionManager

variable {σ : Type}

/-- The array a recovery writes at `target`, the new header's pointer `named`
and the surviving copy's own array do not get into each other's way. -/
structure Undisturbed (env : GPTEnv) (info : StorageInfo) (c : FlashContent)
    (header : GPTHeader) (target named : UInt64) : Prop where
  /-- The new header points to the new array, or to an old one that reads the
  same and is left alone. -/
  pointer : named = target ∨
    (c.entriesOf env (effectiveSectorSize info.sectorSize)
        { header with partitionEntryLBA := named }
      = c.entriesOf env (effectiveSectorSize info.sectorSize) header ∧
    Apart (named.toNat * info.sectorBytes) header.arrayBytes
      (target.toNat * info.sectorBytes) header.arrayBytes)
  source : header.partitionEntryLBA = target ∨
    Apart (header.partitionEntryLBA.toNat * info.sectorBytes) header.arrayBytes
      (target.toNat * info.sectorBytes) header.arrayBytes
  target_lastSector : Apart (info.lastLBA.toNat * info.sectorBytes) info.sectorBytes
    (target.toNat * info.sectorBytes) header.arrayBytes
  named_lastSector : Apart (named.toNat * info.sectorBytes) header.arrayBytes
    (info.lastLBA.toNat * info.sectorBytes) info.sectorBytes
  named_primaryHeader : Apart (named.toNat * info.sectorBytes) header.arrayBytes
    info.sectorBytes 512
  source_primaryHeader : Apart (header.partitionEntryLBA.toNat * info.sectorBytes)
    header.arrayBytes info.sectorBytes 512

/-- The state before a recovery that restores redundancy. -/
structure Restorable (env : GPTEnv) (info : StorageInfo) (c : FlashContent)
    (m : PartitionManager σ) : Prop where
  primary : (c.primary env m.parser.layout).valid = true →
    c.Reencodes env m.parser.layout (c.primary env m.parser.layout).header ∧
      Undisturbed env info c (c.primary env m.parser.layout).header m.layout.backupEntriesLBA
        m.writer.layout.backupEntriesLBA ∧
      Apart ((c.primary env m.parser.layout).header.partitionEntryLBA.toNat * info.sectorBytes)
        (c.primary env m.parser.layout).header.arrayBytes
        (info.lastLBA.toNat * info.sectorBytes) info.sectorBytes
  backup : (c.backup env m.parser.layout).valid = true →
    c.Reencodes env m.parser.layout (c.backup env m.parser.layout).header ∧
      Undisturbed env info c (c.backup env m.parser.layout).header 2 2

/-! ## The two directions -/

section Directions

variable {env : GPTEnv} {dev : FlashDevice σ} {info : StorageInfo} {bytes : σ → ByteStore}
  {content : σ → FlashContent} {layout : GPTLayout} {table : GPTTable} {m m' : PartitionManager σ}

/-- The header written to LBA 1 is sealed: the entry CRC put in last is the
one its header CRC was taken with. -/
theorem primaryFromBackup_ok {newPrimary : GPTHeader}
    (hsignature : table.backupHeader.hasValidSignature = true)
    (hfields : validateEntryFields table.backupHeader.numberOfPartitionEntries
      table.backupHeader.sizeOfPartitionEntry = true)
    (hcrc : env.crc32 (entryImage table.entries table.backupHeader.numberOfPartitionEntries.toNat
      table.backupHeader.sizeOfPartitionEntry.toNat) = table.backupHeader.partitionEntriesCRC32)
    (hnew : primaryFromBackup env layout table = .ok newPrimary) :
    HeaderSealed env newPrimary ∧ newPrimary = { table.backupHeader with
      myLBA := 1, alternateLBA := layout.backupHeaderLBA, partitionEntryLBA := 2,
      headerCrc32 := newPrimary.headerCrc32 } := by
  simp only [primaryFromBackup, GPTWriter.computeEntryCRC_eq hfields, hcrc] at hnew
  split at hnew
  · cases hnew
  · rename_i crc hheaderCRC
    cases hnew
    have hsignature' : ({ table.backupHeader with
        myLBA := 1, alternateLBA := layout.backupHeaderLBA,
        partitionEntryLBA := 2 } : GPTHeader).hasValidSignature = true := hsignature
    exact ⟨sealed_of_crc hsignature' hheaderCRC, rfl⟩

/-- Both recoveries end by writing a header to LBA 1. -/
theorem redundant_of_primaryHeader (h : FaithfulDevice dev info bytes content) {s : σ}
    {store : ByteStore} {new other : GPTHeader} {entries : List PartitionEntry}
    (hbytes : bytes s = store.overlay info.sectorBytes (serializeHeader new))
    (hsealed : HeaderSealed env new) (hsize : 512 ≤ info.sectorBytes)
    (hlast : 2 ≤ info.lastLBA.toNat) (harray : ArrayCopy env info store new entries)
    (hother : GptCopy env info store info.lastLBA.toNat other entries)
    (hnewApart : Apart (new.partitionEntryLBA.toNat * info.sectorBytes) new.arrayBytes
      info.sectorBytes 512)
    (hotherApart : Apart (other.partitionEntryLBA.toNat * info.sectorBytes) other.arrayBytes
      info.sectorBytes 512) : Redundant env dev s entries := by
  have hheader := serializeHeader_length new
  have htwo := Nat.mul_le_mul_right info.sectorBytes hlast
  have hrange : InRange info 1 := by
    obtain ⟨hinside, haddress⟩ := hother.sector.inRange
    exact ⟨by omega, by omega⟩
  have hsector : HeaderCopy env info (bytes s) 1 new := by
    refine hsealed.copy hrange hsize ?_
    rw [hbytes, Nat.one_mul, ← hheader, slice_overlay]
  have hlastApart : Apart (info.lastLBA.toNat * info.sectorBytes) info.sectorBytes
      info.sectorBytes (serializeHeader new).length := .inr (by omega)
  rw [hbytes] at hsector
  have hprimary : GptCopy env info (store.overlay info.sectorBytes (serializeHeader new)) 1 new
      entries := ⟨hsector, harray.overlay (by rwa [hheader])⟩
  have hbackup : GptCopy env info (store.overlay info.sectorBytes (serializeHeader new))
      info.lastLBA.toNat other entries :=
    ⟨hother.sector.overlay hlastApart, hother.array.overlay (by rwa [hheader])⟩
  rw [← hbytes] at hprimary hbackup
  exact redundant_of_copies h hprimary hbackup

/-- Loading the table at the end of a recovery keeps what it restored. -/
theorem Redundant.of_refresh (h : FaithfulDevice dev info bytes content)
    {entries : List PartitionEntry} (hredundant : Redundant env dev m.device entries)
    (hload : Program.void (refreshTable env dev) m = (.ok (), m')) :
    Redundant env dev m'.device entries := by
  have hsame := Program.Preserves.void (refreshTable_content env h) m
  rw [hload] at hsame
  exact hredundant.of_content h hsame

/-- A successful recovery of the primary copy. -/
theorem recoverPrimary_redundant (h : FaithfulDevice dev info bytes content)
    (hwriter : m.writer.layout = GPTWriter.initialLayout (.ok info))
    (hcopy : GptCopy env info (bytes m.device) info.lastLBA.toNat table.backupHeader table.entries)
    (hlength : table.entries.length = table.backupHeader.numberOfPartitionEntries.toNat)
    (hundisturbed : Undisturbed env info (content m.device) table.backupHeader 2 2)
    (hrun : recoverPrimary env dev layout table m = (.ok (), m')) :
    Redundant env dev m'.device table.entries := by
  obtain ⟨newPrimary, m₁, hnew, hrest₁⟩ := Program.bind_eq_ok.mp hrun
  obtain ⟨hnewPrimary, rfl⟩ := Prod.mk.inj hnew
  obtain ⟨⟨⟩, m₂, hwrite₂, hrest₂⟩ := Program.bind_eq_ok.mp hrest₁
  obtain ⟨⟨⟩, m₃, hwrite₃, hload⟩ := Program.bind_eq_ok.mp hrest₂
  have hfields := hcopy.array.fields
  obtain ⟨hsealed, hsame⟩ := primaryFromBackup_ok hcopy.sector.signature hfields
    hcopy.array.entryCRC hnewPrimary
  obtain ⟨hlba, hcount, hsize, hcrc⟩ : newPrimary.partitionEntryLBA = 2 ∧
      newPrimary.numberOfPartitionEntries = table.backupHeader.numberOfPartitionEntries ∧
      newPrimary.sizeOfPartitionEntry = table.backupHeader.sizeOfPartitionEntry ∧
      newPrimary.partitionEntriesCRC32 = table.backupHeader.partitionEntriesCRC32 := by
    rw [hsame]
    exact ⟨rfl, rfl, rfl, rfl⟩
  have hfields' : validateEntryFields newPrimary.numberOfPartitionEntries
      newPrimary.sizeOfPartitionEntry = true := by rwa [hcount, hsize]
  -- the two writes
  have hwrote₂ := GPTWriter.writePartitionEntries_ok h hwriter hfields' (onWriter_ok hwrite₂).1
  have hwrote₃ := GPTWriter.writePrimaryHeader_ok h (hwrote₂.layout.trans hwriter)
    (onWriter_ok hwrite₃).1
  have hbytes := hwrote₃.bytes_eq
  have haddress := hwrote₂.addressable
  have hinside := hwrote₂.inside
  rw [hwrote₂.bytes_eq] at hbytes
  rw [hlba, show (1 : UInt64).toNat = 1 from rfl, Nat.one_mul, hcount, hsize] at hbytes
  rw [hlba] at haddress
  rw [hlba, hcount, hsize, GPTWriter.image_length hfields] at hinside
  have hlast : 2 ≤ info.lastLBA.toNat := by
    have hpos := GPTHeader.arrayBytes_pos hfields
    have hlt : 2 < info.numSectors.toNat :=
      Nat.lt_of_mul_lt_mul_right (a := info.sectorBytes) (Nat.lt_of_lt_of_le (by
        rw [show (2 : UInt64).toNat = 2 from rfl]
        omega) hinside)
    rw [info.lastLBA_toNat]
    omega
  have hsectorSize : 512 ≤ info.sectorBytes := by
    have hpos := GPTHeader.arrayBytes_pos hfields
    rcases hundisturbed.named_primaryHeader with hbefore | hbehind
    · rw [show (2 : UInt64).toNat = 2 from rfl] at hbefore
      omega
    · rw [show (2 : UInt64).toNat = 2 from rfl] at hbehind
      omega
  have harray : ArrayCopy env info _ { table.backupHeader with partitionEntryLBA := 2 }
      table.entries := ArrayCopy.overlay_image (bytes m.device) hfields hlength hcopy.array.entryCRC
    haddress hinside (.inl rfl)
  have hotherArray := ArrayCopy.overlay_image (bytes m.device) hfields hlength
    hcopy.array.entryCRC haddress hinside
    (hundisturbed.source.imp (congrArg UInt64.toNat) fun happart => ⟨hcopy.array, happart⟩)
  have hother : GptCopy env info _ info.lastLBA.toNat table.backupHeader table.entries :=
    ⟨hcopy.sector.overlay (by
      rw [GPTWriter.image_length hfields]
      exact hundisturbed.target_lastSector), hotherArray⟩
  refine Redundant.of_refresh h (redundant_of_primaryHeader h hbytes hsealed hsectorSize hlast
    (harray.of_header hlba hcount hsize hcrc) hother ?_ hundisturbed.source_primaryHeader) hload
  rw [hlba, GPTHeader.arrayBytes, hcount, hsize]
  exact hundisturbed.named_primaryHeader

/-- A successful recovery of the backup copy. -/
theorem recoverBackup_redundant (h : FaithfulDevice dev info bytes content)
    (hwriter : m.writer.layout = GPTWriter.initialLayout (.ok info))
    (hcopy : GptCopy env info (bytes m.device) 1 table.primaryHeader table.entries)
    (hlength : table.entries.length = table.primaryHeader.numberOfPartitionEntries.toNat)
    (hlast : 2 ≤ info.lastLBA.toNat)
    (hundisturbed : Undisturbed env info (content m.device) table.primaryHeader
      layout.backupEntriesLBA m.writer.layout.backupEntriesLBA)
    (hsource : Apart (table.primaryHeader.partitionEntryLBA.toNat * info.sectorBytes)
      table.primaryHeader.arrayBytes (info.lastLBA.toNat * info.sectorBytes) info.sectorBytes)
    (hrun : recoverBackup env dev layout table m = (.ok (), m')) :
    Redundant env dev m'.device table.entries := by
  obtain ⟨⟨⟩, m₁, hwrite₁, hrest₁⟩ := Program.bind_eq_ok.mp hrun
  obtain ⟨⟨⟩, m₂, hwrite₂, hrest₂⟩ := Program.bind_eq_ok.mp hrest₁
  obtain ⟨updated, m₃, hupdate, hrest₃⟩ := Program.bind_eq_ok.mp hrest₂
  obtain ⟨hupdated, rfl⟩ := Prod.mk.inj hupdate
  obtain ⟨⟨⟩, m₄, hwrite₄, hload⟩ := Program.bind_eq_ok.mp hrest₃
  have hfields := hcopy.array.fields
  have hsignature := hcopy.sector.signature
  have hcrc := hcopy.array.entryCRC
  -- the three writes
  obtain ⟨backupHdr, hbackupHdr, hwrote₁⟩ :=
    GPTWriter.writeBackupHeader_ok h hwriter (onWriter_ok hwrite₁).1
  have hlayout₁ := hwrote₁.layout.trans hwriter
  have hwrote₂ : Wrote info bytes layout.backupEntriesLBA _ _ _ :=
    GPTWriter.writePartitionEntries_ok h hlayout₁ (by exact hfields) (onWriter_ok hwrite₂).1
  have hwrote₄ := GPTWriter.writePrimaryHeader_ok h (hwrote₂.layout.trans hlayout₁)
    (onWriter_ok hwrite₄).1
  have hbytes := hwrote₄.bytes_eq
  have haddress := hwrote₂.addressable
  have hinside := hwrote₂.inside
  rw [hwrote₂.bytes_eq, hwrote₁.bytes_eq] at hbytes
  rw [show (1 : UInt64).toNat = 1 from rfl, Nat.one_mul] at hbytes
  rw [GPTWriter.image_length hfields] at hinside
  have hsectorSize : 512 ≤ info.sectorBytes := by
    have hheader := hwrote₁.inside
    have hcapacity : info.capacity = info.lastLBA.toNat * info.sectorBytes + info.sectorBytes := by
      rw [← Nat.succ_mul, info.lastLBA_toNat, StorageInfo.capacity]
      congr 1
      have := info.lastLBA_toNat
      omega
    rw [serializeHeader_length, hcapacity] at hheader
    omega
  -- the two headers say the same of the arrays, but for the place
  have hbackupSignature : (GPTWriter.backupOf (GPTWriter.initialLayout (.ok info))
      table.primaryHeader).hasValidSignature = true := hsignature
  obtain ⟨hbackupSealed, hbackupFields⟩ := sealed_of_update hbackupSignature hbackupHdr
  have hupdatedSignature : ({ table.primaryHeader with
      alternateLBA := layout.backupHeaderLBA } : GPTHeader).hasValidSignature = true := hsignature
  obtain ⟨hupdatedSealed, hupdatedFields⟩ := sealed_of_update hupdatedSignature hupdated
  have hbackupLength := serializeHeader_length backupHdr
  have himage := GPTWriter.image_length hfields table.entries
  -- after the backup header, both old arrays and its sector are in place
  have hsource₁ : ArrayCopy env info (bytes m₁.device) table.primaryHeader table.entries := by
    rw [hwrote₁.bytes_eq]
    exact hcopy.array.overlay (by
      rw [hbackupLength]
      exact hsource.mono (Nat.le_refl _) hsectorSize)
  have hsector₁ : HeaderCopy env info (bytes m₁.device) info.lastLBA.toNat backupHdr := by
    have hcapacity := hwrote₁.inside
    refine hbackupSealed.copy ⟨?_, hwrote₁.addressable⟩ hsectorSize ?_
    · have hlastLBA := info.lastLBA_toNat
      omega
    · rw [hwrote₁.bytes_eq, ← hbackupLength, slice_overlay]
  have hpointer₁ : m.writer.layout.backupEntriesLBA.toNat = layout.backupEntriesLBA.toNat ∨
      (ArrayCopy env info (bytes m₁.device) { table.primaryHeader with
          partitionEntryLBA := m.writer.layout.backupEntriesLBA } table.entries ∧
        Apart (m.writer.layout.backupEntriesLBA.toNat * info.sectorBytes)
          table.primaryHeader.arrayBytes (layout.backupEntriesLBA.toNat * info.sectorBytes)
          table.primaryHeader.arrayBytes) := by
    refine hundisturbed.pointer.imp (congrArg UInt64.toNat) fun helsewhere => ⟨?_, helsewhere.2⟩
    have hvalid : ((content m.device).entriesOf env (effectiveSectorSize info.sectorSize)
        { table.primaryHeader with
          partitionEntryLBA := m.writer.layout.backupEntriesLBA }).isValid = true := by
      rw [helsewhere.1, hcopy.array.entriesOf h]
      rfl
    have hold := arrayCopy_of_valid h hvalid
    rw [helsewhere.1, hcopy.array.entriesOf h] at hold
    rw [hwrote₁.bytes_eq]
    exact hold.overlay (by
      rw [hbackupLength]
      exact hundisturbed.named_lastSector.mono (Nat.le_refl _) hsectorSize)
  rw [← hwrote₁.bytes_eq] at hbytes
  -- after the array, both arrays are copies
  have hsource₂ := ArrayCopy.overlay_image (bytes m₁.device) hfields hlength hcrc haddress hinside
    (hundisturbed.source.imp (congrArg UInt64.toNat) fun happart => ⟨hsource₁, happart⟩)
  have hpointer₂ : ArrayCopy env info _ { table.primaryHeader with
      partitionEntryLBA := m.writer.layout.backupEntriesLBA } table.entries :=
    ArrayCopy.overlay_image (bytes m₁.device) hfields hlength hcrc haddress hinside hpointer₁
  have hsector₂ := hsector₁.overlay (show Apart (info.lastLBA.toNat * info.sectorBytes)
    info.sectorBytes (layout.backupEntriesLBA.toNat * info.sectorBytes) (entryImage table.entries
      table.primaryHeader.numberOfPartitionEntries.toNat
      table.primaryHeader.sizeOfPartitionEntry.toNat).length by
        rw [himage]
        exact hundisturbed.target_lastSector)
  obtain ⟨hnamed, hcount, hsize, hbackupCRC⟩ :
      backupHdr.partitionEntryLBA = m.writer.layout.backupEntriesLBA ∧
      backupHdr.numberOfPartitionEntries = table.primaryHeader.numberOfPartitionEntries ∧
      backupHdr.sizeOfPartitionEntry = table.primaryHeader.sizeOfPartitionEntry ∧
      backupHdr.partitionEntriesCRC32 = table.primaryHeader.partitionEntriesCRC32 := by
    rw [hbackupFields, hwriter]
    exact ⟨rfl, rfl, rfl, rfl⟩
  obtain ⟨hkept, hcount', hsize', hupdatedCRC⟩ :
      updated.partitionEntryLBA = table.primaryHeader.partitionEntryLBA ∧
      updated.numberOfPartitionEntries = table.primaryHeader.numberOfPartitionEntries ∧
      updated.sizeOfPartitionEntry = table.primaryHeader.sizeOfPartitionEntry ∧
      updated.partitionEntriesCRC32 = table.primaryHeader.partitionEntriesCRC32 := by
    rw [hupdatedFields]
    exact ⟨rfl, rfl, rfl, rfl⟩
  have hnew := hsource₂.of_header hkept hcount' hsize' hupdatedCRC
  have hother := hpointer₂.of_header hnamed hcount hsize hbackupCRC
  refine Redundant.of_refresh h (redundant_of_primaryHeader h hbytes hupdatedSealed hsectorSize
    hlast hnew ⟨hsector₂, hother⟩ ?_ ?_) hload
  · rw [hkept, GPTHeader.arrayBytes, hcount', hsize']
    exact hundisturbed.source_primaryHeader
  · rw [hnamed, GPTHeader.arrayBytes, hcount, hsize]
    exact hundisturbed.named_primaryHeader

/-! ## Every recovery of a run -/

/-- What was settled at creation holds before every call: the writer knows the
device's storage info, the parser looks for the primary header at LBA 1. -/
theorem records_settled (h : FaithfulDevice dev info bytes content) (device : σ)
    (events : List (Event σ)) {r : Record σ}
    (hr : r ∈ records env dev events (create dev device)) :
    r.before.writer.layout = GPTWriter.initialLayout (.ok info) ∧
      r.before.parser.layout.primaryHeaderLBA = 1 := by
  have hsettled : settled r.before = (GPTWriter.initialLayout (.ok info), 1) := by
    refine records_invariant (fun m => settled m = (GPTWriter.initialLayout (.ok info), 1))
      (fun call m hm => (run_settled env dev call m).trans hm) (fun _ _ hm => hm) ?_ hr
    have hinfo : (dev.getStorageInfo device).1 = .ok info := by
      have hsimulates := congrArg Prod.fst (h.stable.getStorageInfo device)
      exact hsimulates.symm.trans (h.info_eq device)
    show (GPTWriter.initialLayout (dev.getStorageInfo device).1, (1 : UInt64)) = _
    rw [hinfo]
  exact Prod.mk.inj hsettled

end Directions

end PartitionManager

namespace FlashContent

variable (env : GPTEnv) (c : FlashContent) (known : GPTLayout)

/-- Exactly one header is valid, and it belongs to an intact copy. -/
structure OneIntactCopy : Prop where
  one : (c.primary env known).valid ≠ (c.backup env known).valid
  primary : (c.primary env known).valid = true → c.Intact env known (c.primary env known)
  backup : (c.backup env known).valid = true → c.Intact env known (c.backup env known)

variable {env c known} in
/-- What the parser makes of the array of an intact copy. -/
theorem Intact.entriesOf {check : HeaderCheck} (h : c.Intact env known check)
    (hreencodes : c.Reencodes env known check.header) :
    c.entriesOf env (c.layout known).sectorSize check.header
      = .decoded (c.decoded known check.header) true := by
  have hdecoded : (c.entriesOf env (c.layout known).sectorSize check.header).entries
      = c.decoded known check.header := entriesOf_entries h.fields h.readable
  rw [← hdecoded]
  exact decoded_entries_iff.mpr (entriesOf_isValid_iff.mpr ⟨h.fields, h.readable, hreencodes⟩)

/-- The entries of the surviving copy. -/
def survivingEntries : List PartitionEntry :=
  if (c.primary env known).valid then c.decoded known (c.primary env known).header
  else c.decoded known (c.backup env known).header

end FlashContent

namespace PartitionManager

section Recovery

variable {σ : Type} {env : GPTEnv} {dev : FlashDevice σ} {info : StorageInfo}
  {bytes : σ → ByteStore} {content : σ → FlashContent} {m m' : PartitionManager σ}

/-- The one sector of a two-sector disk behind the first holds both headers
or none. -/
theorem two_le_lastLBA (h : FaithfulDevice dev info bytes content) {s : σ}
    (hsector : HeaderCopy env info (bytes s) 1
      ((content s).headerAt env (effectiveSectorSize info.sectorSize) 1 .gptPrimaryMissing).header)
    {known : GPTLayout} (hbackup : ((content s).backup env known).valid = false) :
    2 ≤ info.lastLBA.toNat := by
  have hinside := hsector.inRange.1
  have hlast := info.lastLBA_toNat
  by_contra hlow
  have hone : info.lastLBA = 1 := UInt64.toNat_inj.mp (by
    rw [show (1 : UInt64).toNat = 1 from rfl]
    omega)
  rw [h.backup_eq, hone, if_pos (by decide)] at hbackup
  have hsame : HeaderCopy env info (bytes s) (1 : UInt64).toNat _ := hsector
  rw [hsame.headerAt h] at hbackup
  cases hbackup

/-- With the primary copy only, the backup is written. -/
theorem recoverWith_primaryOnly {layout : GPTLayout} {table : GPTTable}
    {header backupHeader : GPTHeader} {entries : List PartitionEntry}
    (h : FaithfulDevice dev info bytes content)
    (hwriter : m.writer.layout = GPTWriter.initialLayout (.ok info))
    (htable : TableIs table header backupHeader true false (.decoded entries true))
    (hcopy : GptCopy env info (bytes m.device) 1 header entries)
    (hlength : entries.length = header.numberOfPartitionEntries.toNat)
    (hlast : 2 ≤ info.lastLBA.toNat)
    (hundisturbed : Undisturbed env info (content m.device) header layout.backupEntriesLBA
      m.writer.layout.backupEntriesLBA)
    (hsource : Apart (header.partitionEntryLBA.toNat * info.sectorBytes) header.arrayBytes
      (info.lastLBA.toNat * info.sectorBytes) info.sectorBytes)
    (hrun : recoverWith env dev layout table m = (.ok (), m')) :
    Redundant env dev m'.device entries := by
  obtain ⟨rfl, -, hflag, hflag', hentries, -⟩ := htable
  obtain rfl : table.entries = entries := hentries
  rw [recoverWith, if_neg (by simp [hflag']), if_neg (by simp [hflag']),
    if_pos (by simp [hflag, hflag'])] at hrun
  exact recoverBackup_redundant h hwriter hcopy hlength hlast hundisturbed hsource hrun

/-- With the backup copy only, the primary is written. -/
theorem recoverWith_backupOnly {layout : GPTLayout} {table : GPTTable}
    {primaryHeader header : GPTHeader} {entries : List PartitionEntry}
    (h : FaithfulDevice dev info bytes content)
    (hwriter : m.writer.layout = GPTWriter.initialLayout (.ok info))
    (htable : TableIs table primaryHeader header false true (.decoded entries true))
    (hcopy : GptCopy env info (bytes m.device) info.lastLBA.toNat header entries)
    (hlength : entries.length = header.numberOfPartitionEntries.toNat)
    (hundisturbed : Undisturbed env info (content m.device) header 2 2)
    (hrun : recoverWith env dev layout table m = (.ok (), m')) :
    Redundant env dev m'.device entries := by
  obtain ⟨-, rfl, hflag, hflag', hentries, -⟩ := htable
  obtain rfl : table.entries = entries := hentries
  rw [recoverWith, if_neg (by simp [hflag]), if_pos (by simp [hflag, hflag'])] at hrun
  exact recoverPrimary_redundant h hwriter hcopy hlength hundisturbed hrun

/-- A recovery that finds the primary copy only. -/
theorem recover_primaryOnly (h : FaithfulDevice dev info bytes content)
    (hwriter : m.writer.layout = GPTWriter.initialLayout (.ok info))
    (hparser : m.parser.layout.primaryHeaderLBA = 1)
    (hprimary : ((content m.device).primary env m.parser.layout).valid = true)
    (hbackup : ((content m.device).backup env m.parser.layout).valid = false)
    (hintact : (content m.device).Intact env m.parser.layout
      ((content m.device).primary env m.parser.layout))
    (hrestorable : Restorable env info (content m.device) m)
    (hrun : recoverFromBackup env dev m = (.ok (), m')) :
    Redundant env dev m'.device ((content m.device).decoded m.parser.layout
      ((content m.device).primary env m.parser.layout).header) := by
  obtain ⟨hreencodes, hundisturbed, hsource⟩ := hrestorable.primary hprimary
  obtain ⟨s, p, hcontent, hrecover⟩ := recover_run env h.stable m
  have hentries := hintact.entriesOf hreencodes
  obtain ⟨hlength, -⟩ := FlashContent.entriesOf_length hentries
  rw [(h.layout_eq m.device m.parser.layout).1] at hentries
  rw [hrecover] at hrun
  rw [← hcontent] at hprimary hbackup hentries hlength hundisturbed hsource hrun ⊢
  -- the copy the parse found
  have hheader := hprimary
  rw [h.primary_eq s hparser] at hheader
  have hsector := headerCopy_of_valid h hheader
  have hlast := two_le_lastLBA h hsector hbackup
  have harray := arrayCopy_of_valid h (show ((content s).entriesOf env
    (effectiveSectorSize info.sectorSize)
      ((content s).primary env m.parser.layout).header).isValid = true by
        rw [hentries]
        rfl)
  rw [hentries] at harray
  rw [← h.primary_eq s hparser] at hsector
  have htable := parsed_primary (h.mbr_ne s m.parser.layout (by
    have hinside := hsector.inRange.1
    omega)) hprimary
  rw [(h.layout_eq s m.parser.layout).1, hentries, hbackup] at htable
  exact recoverWith_primaryOnly (m := { m with device := s, parser := p, table := _ }) h hwriter
    htable ⟨hsector, harray⟩ hlength hlast hundisturbed hsource hrun

/-- A recovery that finds the backup copy only. -/
theorem recover_backupOnly (h : FaithfulDevice dev info bytes content)
    (hwriter : m.writer.layout = GPTWriter.initialLayout (.ok info))
    (hprimary : ((content m.device).primary env m.parser.layout).valid = false)
    (hbackup : ((content m.device).backup env m.parser.layout).valid = true)
    (hintact : (content m.device).Intact env m.parser.layout
      ((content m.device).backup env m.parser.layout))
    (hrestorable : Restorable env info (content m.device) m)
    (hrun : recoverFromBackup env dev m = (.ok (), m')) :
    Redundant env dev m'.device ((content m.device).decoded m.parser.layout
      ((content m.device).backup env m.parser.layout).header) := by
  obtain ⟨hreencodes, hundisturbed⟩ := hrestorable.backup hbackup
  obtain ⟨s, p, hcontent, hrecover⟩ := recover_run env h.stable m
  have hentries := hintact.entriesOf hreencodes
  obtain ⟨hlength, -⟩ := FlashContent.entriesOf_length hentries
  rw [(h.layout_eq m.device m.parser.layout).1] at hentries
  rw [hrecover] at hrun
  rw [← hcontent] at hprimary hbackup hentries hlength hundisturbed hrun ⊢
  -- the copy the parse found
  have hbackupIs : (content s).backup env m.parser.layout = _ := h.backup_eq s m.parser.layout
  have hlast : info.lastLBA > 0 := by
    by_contra hzero
    rw [hbackupIs, if_neg hzero] at hbackup
    cases hbackup
  rw [if_pos hlast] at hbackupIs
  have hheader := hbackup
  rw [hbackupIs] at hheader
  have hsector := headerCopy_of_valid h hheader
  have harray := arrayCopy_of_valid h (show ((content s).entriesOf env
    (effectiveSectorSize info.sectorSize)
      ((content s).backup env m.parser.layout).header).isValid = true by
        rw [hentries]
        rfl)
  rw [hentries] at harray
  rw [← hbackupIs] at hsector
  have htable := parsed_backup (h.mbr_ne s m.parser.layout (by
    have hinside := hsector.inRange.1
    omega)) hprimary hbackup
  rw [(h.layout_eq s m.parser.layout).1, hentries] at htable
  exact recoverWith_backupOnly (m := { m with device := s, parser := p, table := _ }) h hwriter
    htable ⟨hsector, harray⟩ hlength hundisturbed hrun

/-- Every recovery of a run that succeeds, on a disk with exactly one intact
copy, leaves the disk redundant if it starts from a restorable state. -/
theorem recover_redundant (h : FaithfulDevice dev info bytes content) (device : σ)
    (events : List (Event σ)) :
    ∀ r ∈ records env dev events (create dev device), r.call = .recoverFromBackup →
      r.result = .ok () → (content r.before.device).OneIntactCopy env r.before.parser.layout →
      Restorable env info (content r.before.device) r.before →
        Redundant env dev r.after.device
          ((content r.before.device).survivingEntries env r.before.parser.layout) := by
  intro r hr hcall hok hone hrestorable
  obtain ⟨hwriter, hparser⟩ := records_settled h device events hr
  have hrun := records_run hr
  rw [hcall, hok] at hrun
  rw [FlashContent.survivingEntries]
  rcases hprimary : ((content r.before.device).primary env r.before.parser.layout).valid with _ | _
  · have hbackup : ((content r.before.device).backup env r.before.parser.layout).valid = true := by
      have hne := hone.one
      rw [hprimary] at hne
      simpa using hne.symm
    exact recover_backupOnly h hwriter hprimary hbackup (hone.backup hbackup) hrestorable hrun
  · have hbackup : ((content r.before.device).backup env r.before.parser.layout).valid = false := by
      have hne := hone.one
      rw [hprimary] at hne
      simpa using hne.symm
    exact recover_primaryOnly h hwriter hparser hprimary hbackup (hone.primary hprimary)
      hrestorable hrun

end Recovery

/-! ## Two small disks -/

theorem recover_lostPrimary_redundant :
    ∃ r ∈ records zlibEnv (MockFlashDevice.device fiveSectors) [.call .recoverFromBackup]
        (create (MockFlashDevice.device fiveSectors) lostPrimaryDisk),
      r.result = .ok () ∧ Redundant zlibEnv (MockFlashDevice.device fiveSectors) r.after.device
        ((MockFlashDevice.content fiveSectors r.before.device).survivingEntries zlibEnv
          r.before.parser.layout) := by
  let before := create (MockFlashDevice.device fiveSectors) lostPrimaryDisk
  have hfacts : ∀ r ∈ records zlibEnv (MockFlashDevice.device fiveSectors)
      [.call .recoverFromBackup] before,
      let content := MockFlashDevice.content fiveSectors r.before.device
      let backup := content.backup zlibEnv r.before.parser.layout
      (content.primary zlibEnv r.before.parser.layout).valid = false ∧ backup.valid = true ∧
      content.Intact zlibEnv r.before.parser.layout backup ∧
      content.Reencodes zlibEnv r.before.parser.layout backup.header ∧
      backup.header.partitionEntryLBA = 3 ∧ backup.header.arrayBytes = 128 := by
    decide +kernel
  obtain ⟨r, hr⟩ := List.exists_mem_of_ne_nil (records zlibEnv (MockFlashDevice.device fiveSectors)
      [.call .recoverFromBackup] before) (List.cons_ne_nil _ _)
  obtain ⟨hcall, hok, -, -⟩ := records_lostPrimary r hr
  obtain ⟨hprimary, hbackup, hintact, hreencodes, hlba, hbytes⟩ := hfacts r hr
  refine ⟨r, hr, hok, recover_redundant (MockFlashDevice.faithful fiveSectors) lostPrimaryDisk
    [.call .recoverFromBackup] r hr hcall hok ⟨?_, ?_, fun _ => hintact⟩
    ⟨?_, fun _ => ⟨hreencodes, ?_⟩⟩⟩
  · rw [hprimary, hbackup]
    decide
  · exact fun hvalid => absurd hvalid (by rw [hprimary]; decide)
  · exact fun hvalid => absurd hvalid (by rw [hprimary]; decide)
  · refine ⟨.inl rfl, .inr ?_, ?_, ?_, ?_, ?_⟩ <;> simp only [hbytes, hlba] <;> decide

/-- A disk on which `parseBackup` verifies no array is not redundant. -/
theorem not_redundant_of_parseBackup {σ : Type} {env : GPTEnv} {dev : FlashDevice σ} {s : σ}
    {entries : List PartitionEntry}
    (h : (GPTParser.parseBackup env dev (s, {})).1.toOption.map
      (fun result => result.table.entriesValid) = some false) :
    ¬ Redundant env dev s entries := by
  intro hredundant
  obtain ⟨result, s', hrun, -, hvalid, -⟩ := hredundant.parseBackup {}
  rw [hrun] at h
  simp [Except.toOption, hvalid] at h

/-- The primary copy is intact and there is no backup. -/
def lostBackupDisk : MockFlashDevice := MockFlashDevice.putCopy zlibEnv [bootEntry] 1 2 {}

/-- A manager that was never opened writes the array to sector 0, the backup
header says 7. -/
theorem recover_lostBackup :
    ∃ r ∈ records zlibEnv (MockFlashDevice.device fortySectors) [.call .recoverFromBackup]
        (create (MockFlashDevice.device fortySectors) lostBackupDisk),
      r.call = .recoverFromBackup ∧ r.result = .ok () ∧
      (MockFlashDevice.content fortySectors r.before.device).OneIntactCopy zlibEnv
        r.before.parser.layout ∧
      ¬ Redundant zlibEnv (MockFlashDevice.device fortySectors) r.after.device
        ((MockFlashDevice.content fortySectors r.before.device).survivingEntries zlibEnv
          r.before.parser.layout) := by
  let before := create (MockFlashDevice.device fortySectors) lostBackupDisk
  have hfacts : ∀ r ∈ records zlibEnv (MockFlashDevice.device fortySectors)
      [.call .recoverFromBackup] before,
      let content := MockFlashDevice.content fortySectors r.before.device
      let primary := content.primary zlibEnv r.before.parser.layout
      r.call = .recoverFromBackup ∧ r.result = .ok () ∧ primary.valid = true ∧
      (content.backup zlibEnv r.before.parser.layout).valid = false ∧
      content.Intact zlibEnv r.before.parser.layout primary ∧
      (GPTParser.parseBackup zlibEnv (MockFlashDevice.device fortySectors)
        (r.after.device, {})).1.toOption.map (fun result => result.table.entriesValid)
          = some false := by
    decide +kernel
  obtain ⟨r, hr⟩ := List.exists_mem_of_ne_nil (records zlibEnv
      (MockFlashDevice.device fortySectors) [.call .recoverFromBackup] before)
    (List.cons_ne_nil _ _)
  obtain ⟨hcall, hok, hprimary, hbackup, hintact, hparse⟩ := hfacts r hr
  refine ⟨r, hr, hcall, hok, ⟨?_, fun _ => hintact, ?_⟩, not_redundant_of_parseBackup hparse⟩
  · rw [hprimary, hbackup]
    decide
  · exact fun hvalid => absurd hvalid (by rw [hbackup]; decide)

end PartitionManager

end MBootCore
