import MBootCore.Gpt.DiskWrites
import MBootCore.Gpt.MockDisk

/-!
# GPT — WriteParse

Writing a table and parsing it again. The writer puts the backup array where
its layout says, 33 sectors before the end or at sector 0, however many
sectors the array has and whatever range the header declares usable.
`writePrimaryAndBackup_iff` says on which disks that is right for every table
of a given shape: where the write of the backup array, if it succeeds, hits
nothing else.
-/

namespace MBootCore

open GPTParser ByteStore
open FaithfulDevice (InRange ArrayInRange)

/-- The sizes and places a table declares. -/
structure TableShape where
  numberOfPartitionEntries : UInt32
  sizeOfPartitionEntry : UInt32
  firstUsableLBA : UInt64
  lastUsableLBA : UInt64
  deriving DecidableEq, Repr

def GPTHeader.shape (header : GPTHeader) : TableShape where
  numberOfPartitionEntries := header.numberOfPartitionEntries
  sizeOfPartitionEntry := header.sizeOfPartitionEntry
  firstUsableLBA := header.firstUsableLBA
  lastUsableLBA := header.lastUsableLBA

/-- Where the writer's layout has the backup array. -/
def StorageInfo.backupEntriesLBA (info : StorageInfo) : UInt64 :=
  if info.numSectors > 33 then info.numSectors - 33 else 0

theorem StorageInfo.backupEntriesLBA_le (info : StorageInfo) :
    info.backupEntriesLBA.toNat ≤ info.numSectors.toNat - 1 := by
  unfold backupEntriesLBA
  split
  · rename_i hmany
    have hlt := UInt64.lt_iff_toNat_lt.mp hmany
    rw [show (33 : UInt64).toNat = 33 from rfl] at hlt
    rw [UInt64.toNat_sub_of_le _ _ (UInt64.le_of_lt hmany), show (33 : UInt64).toNat = 33 from rfl]
    omega
  · exact Nat.zero_le _

namespace TableShape

variable (info : StorageInfo) (shape : TableShape)

/-- The bytes of the array. -/
def arrayBytes : Nat :=
  shape.numberOfPartitionEntries.toNat * shape.sizeOfPartitionEntry.toNat

/-- The bytes of the array up to the end of its last entry. -/
def usedBytes : Nat :=
  (shape.numberOfPartitionEntries.toNat - 1) * shape.sizeOfPartitionEntry.toNat + 128

/-- None of the `n` bytes from `a` is in the usable range. -/
def Outside (a n : Nat) : Prop :=
  shape.lastUsableLBA.toNat < shape.firstUsableLBA.toNat ∨
    a + n ≤ shape.firstUsableLBA.toNat * info.sectorBytes ∨
    (shape.lastUsableLBA.toNat + 1) * info.sectorBytes ≤ a

/-- The two copies fit on the disk outside the usable range: headers in the
second and the last sector, arrays from the third sector and from `b` on. -/
structure Fits (b : Nat) : Prop where
  header : 512 ≤ info.sectorBytes
  primaryArray : 2 * info.sectorBytes + shape.arrayBytes
    ≤ info.lastLBA.toNat * info.sectorBytes
  backupArray : b * info.sectorBytes + shape.arrayBytes ≤ info.lastLBA.toNat * info.sectorBytes
  backupArray_primaryHeader :
    Apart (b * info.sectorBytes) shape.arrayBytes info.sectorBytes info.sectorBytes
  backupArray_primaryArray :
    Apart (b * info.sectorBytes) shape.arrayBytes (2 * info.sectorBytes) shape.arrayBytes
  primaryHeader_outside : shape.Outside info info.sectorBytes info.sectorBytes
  primaryArray_outside : shape.Outside info (2 * info.sectorBytes) shape.arrayBytes
  backupHeader_outside :
    shape.Outside info (info.lastLBA.toNat * info.sectorBytes) info.sectorBytes
  backupArray_outside : shape.Outside info (b * info.sectorBytes) shape.arrayBytes

/-- The writer can reach the last sector, and its backup array ends on the disk. -/
def BackupWritable : Prop :=
  info.lastLBA.toNat * info.sectorBytes < 2 ^ 64 ∧
    info.backupEntriesLBA.toNat * info.sectorBytes + shape.arrayBytes ≤ info.capacity

/-- The writer's backup array hits neither header, nor an entry of the other
array (which may be the same one), nor the usable range. -/
structure BackupHarmless : Prop where
  backupHeader : info.backupEntriesLBA.toNat * info.sectorBytes + shape.arrayBytes
    ≤ info.lastLBA.toNat * info.sectorBytes
  primaryHeader : Apart info.sectorBytes info.sectorBytes
    (info.backupEntriesLBA.toNat * info.sectorBytes) shape.arrayBytes
  primaryArray : info.backupEntriesLBA.toNat = 2 ∨
    Apart (2 * info.sectorBytes) shape.usedBytes
      (info.backupEntriesLBA.toNat * info.sectorBytes) shape.arrayBytes
  outside : shape.Outside info (info.backupEntriesLBA.toNat * info.sectorBytes) shape.arrayBytes

instance (a n : Nat) : Decidable (shape.Outside info a n) :=
  inferInstanceAs (Decidable (_ ∨ _ ∨ _))

variable {info shape}

/-- A byte of the usable range is in no region outside it. -/
theorem Outside.apart {a n i : Nat} (h : shape.Outside info a n)
    (hlo : shape.firstUsableLBA.toNat * info.sectorBytes ≤ i)
    (hhi : i < (shape.lastUsableLBA.toNat + 1) * info.sectorBytes) : Apart i 1 a n := by
  rcases h with hempty | hbefore | hbehind
  · have hle := Nat.mul_le_mul_right info.sectorBytes (Nat.succ_le_of_lt hempty)
    rw [Nat.succ_eq_add_one] at hle
    omega
  · exact .inr (by omega)
  · exact .inl (by omega)

theorem arrayBytes_pos (hfields : validateEntryFields shape.numberOfPartitionEntries
    shape.sizeOfPartitionEntry = true) : 0 < shape.arrayBytes := by
  obtain ⟨⟨hcount, -⟩, hsize, -⟩ := (validateEntryFields_iff _ _).mp hfields
  exact Nat.mul_pos hcount (by omega)

theorem image_length (hfields : validateEntryFields shape.numberOfPartitionEntries
    shape.sizeOfPartitionEntry = true) (entries : List PartitionEntry) :
    (entryImage entries shape.numberOfPartitionEntries.toNat
      shape.sizeOfPartitionEntry.toNat).length = shape.arrayBytes :=
  entryImage_length ((validateEntryFields_iff _ _).mp hfields).2.1 entries _

theorem usedBytes_le (hfields : validateEntryFields shape.numberOfPartitionEntries
    shape.sizeOfPartitionEntry = true) : shape.usedBytes ≤ shape.arrayBytes := by
  obtain ⟨⟨hcount, -⟩, hsize, -⟩ := (validateEntryFields_iff _ _).mp hfields
  obtain ⟨k, hk⟩ : ∃ k, shape.numberOfPartitionEntries.toNat = k + 1 :=
    ⟨_, (Nat.succ_pred (by omega)).symm⟩
  rw [usedBytes, arrayBytes, hk, Nat.succ_mul, Nat.add_sub_cancel]
  omega

end TableShape

/-! ## The claim on a table -/

/-- The headers and entries a table of the shape may have. -/
structure CorrectTable (env : GPTEnv) (shape : TableShape) (header : GPTHeader)
    (entries : List PartitionEntry) : Prop where
  shape : header.shape = shape
  isSealed : HeaderSealed env header
  headerSize : header.headerSize ≤ 512
  entryLBA : header.partitionEntryLBA = 2
  entryCRC : GPTWriter.computeEntryCRC env entries header.numberOfPartitionEntries.toUInt64
    header.sizeOfPartitionEntry.toUInt64 = header.partitionEntriesCRC32
  length : entries.length ≤ header.numberOfPartitionEntries.toNat

/-- Wherever writing the table to a faithful disk succeeds, the disk is
redundant afterwards and its usable range is as before. -/
def WriteParses (env : GPTEnv) (info : StorageInfo) (header : GPTHeader)
    (entries : List PartitionEntry) : Prop :=
  ∀ (σ : Type) (dev : FlashDevice σ) (bytes : σ → ByteStore) (content : σ → FlashContent),
    FaithfulDevice dev info bytes content → ∀ s t : σ × GPTWriter,
      s.2.layout = GPTWriter.initialLayout (.ok info) →
      GPTWriter.writePrimaryAndBackup env dev header entries s = (.ok (), t) →
        Redundant env dev t.1 (padEntries entries header.numberOfPartitionEntries.toNat) ∧
          ∀ i, header.firstUsableLBA.toNat * info.sectorBytes ≤ i →
            i < (header.lastUsableLBA.toNat + 1) * info.sectorBytes → bytes t.1 i = bytes s.1 i

/-! ## The four writes -/

section Writes

variable {σ : Type} {env : GPTEnv} {dev : FlashDevice σ} {info : StorageInfo}
  {bytes : σ → ByteStore} {content : σ → FlashContent} {header : GPTHeader}
  {entries : List PartitionEntry}

/-- The disk after the four writes. -/
def writtenStore (info : StorageInfo) (store : ByteStore) (header backupHdr : GPTHeader)
    (entries : List PartitionEntry) : ByteStore :=
  let image := entryImage entries header.numberOfPartitionEntries.toNat
    header.sizeOfPartitionEntry.toNat
  (((store.overlay (2 * info.sectorBytes) image).overlay info.sectorBytes
    (serializeHeader header)).overlay (info.lastLBA.toNat * info.sectorBytes)
      (serializeHeader backupHdr)).overlay (info.backupEntriesLBA.toNat * info.sectorBytes) image

theorem CorrectTable.write_ok {shape : TableShape}
    (hcorrect : CorrectTable env shape header entries) (h : FaithfulDevice dev info bytes content)
    {s t : σ × GPTWriter} (hlayout : s.2.layout = GPTWriter.initialLayout (.ok info))
    (hfields : validateEntryFields shape.numberOfPartitionEntries
      shape.sizeOfPartitionEntry = true)
    (hrun : GPTWriter.writePrimaryAndBackup env dev header entries s = (.ok (), t)) :
    shape.BackupWritable info ∧ ∃ backupHdr,
      GPTWriter.updateHeaderCRC env
        (GPTWriter.backupOf (GPTWriter.initialLayout (.ok info)) header) = .ok backupHdr ∧
      bytes t.1 = writtenStore info (bytes s.1) header backupHdr entries := by
  obtain rfl := hcorrect.shape
  obtain ⟨⟨⟩, s₁, hwrite₁, hrest₁⟩ := Program.bind_eq_ok.mp hrun
  obtain ⟨⟨⟩, s₂, hwrite₂, hrest₂⟩ := Program.bind_eq_ok.mp hrest₁
  obtain ⟨⟨⟩, s₃, hwrite₃, hrest₃⟩ := Program.bind_eq_ok.mp hrest₂
  have h₁ := GPTWriter.writePartitionEntries_ok h hlayout hfields hwrite₁
  have hlayout₁ := h₁.layout.trans hlayout
  have h₂ := GPTWriter.writePrimaryHeader_ok h hlayout₁ hwrite₂
  have hlayout₂ := h₂.layout.trans hlayout₁
  obtain ⟨backupHdr, hupdate, h₃⟩ := GPTWriter.writeBackupHeader_ok h hlayout₂ hwrite₃
  have hlayout₃ := h₃.layout.trans hlayout₂
  simp only [GPTWriter.serializeEntries_eq hfields,
    if_neg (GPTWriter.image_ne_nil hfields entries)] at hrest₃
  rw [Program.run_bind_ok (Program.run_gets _ _), hlayout₃] at hrest₃
  obtain ⟨⟨⟩, s₄, hrecord, hwrite₄⟩ := Program.bind_eq_ok.mp hrest₃
  cases hrecord
  have h₄ := GPTWriter.writeSectors_ok
    (s := (s₃.1, { s₃.2 with arrays := s₃.2.arrays ++ [entries] })) h hlayout₃ hwrite₄
  have hinside := h₄.inside
  rw [GPTWriter.image_length hfields] at hinside
  refine ⟨⟨h₃.addressable, hinside⟩, backupHdr, hupdate, ?_⟩
  have hbytes := h₄.bytes_eq
  rw [h₃.bytes_eq, h₂.bytes_eq, h₁.bytes_eq, hcorrect.entryLBA,
    show (1 : UInt64).toNat = 1 from rfl, Nat.one_mul] at hbytes
  exact hbytes

variable {store : ByteStore} {backupHdr : GPTHeader} {b : Nat}

/-- A region the last write misses is as it was before it. -/
theorem writtenStore_primaryHeader (hfields : validateEntryFields header.numberOfPartitionEntries
    header.sizeOfPartitionEntry = true) (hfits : header.shape.Fits info b)
    (happart : Apart info.sectorBytes info.sectorBytes
      (info.backupEntriesLBA.toNat * info.sectorBytes) header.arrayBytes) :
    (writtenStore info store header backupHdr entries).slice info.sectorBytes 512
      = serializeHeader header := by
  have hlength := GPTWriter.image_length hfields entries
  have hheader := serializeHeader_length header
  have hlast : Apart info.sectorBytes 512 (info.lastLBA.toNat * info.sectorBytes)
      (serializeHeader backupHdr).length := .inl (by
    have hbelow := hfits.primaryArray
    have hsize := hfits.header
    omega)
  have harray : Apart info.sectorBytes 512 (info.backupEntriesLBA.toNat * info.sectorBytes)
      (entryImage entries header.numberOfPartitionEntries.toNat
        header.sizeOfPartitionEntry.toNat).length := by
    rw [hlength]
    exact happart.mono hfits.header (Nat.le_refl _)
  rw [writtenStore, slice_overlay_apart harray, slice_overlay_apart hlast, ← hheader,
    slice_overlay]

theorem writtenStore_backupHeader (hfields : validateEntryFields header.numberOfPartitionEntries
    header.sizeOfPartitionEntry = true) (hharmless : header.shape.BackupHarmless info) :
    (writtenStore info store header backupHdr entries).slice
        (info.lastLBA.toNat * info.sectorBytes) 512 = serializeHeader backupHdr := by
  have hheader := serializeHeader_length backupHdr
  have harray : Apart (info.lastLBA.toNat * info.sectorBytes) 512
      (info.backupEntriesLBA.toNat * info.sectorBytes)
      (entryImage entries header.numberOfPartitionEntries.toNat
        header.sizeOfPartitionEntry.toNat).length := by
    rw [GPTWriter.image_length hfields]
    exact .inr hharmless.backupHeader
  rw [writtenStore, slice_overlay_apart harray, ← hheader, slice_overlay]

/-- Every entry of the first array is there, though its last padding bytes may
be the backup array's. -/
theorem writtenStore_primaryArray (hfields : validateEntryFields header.numberOfPartitionEntries
    header.sizeOfPartitionEntry = true) (hfits : header.shape.Fits info b)
    (hharmless : header.shape.BackupHarmless info) {i : Nat}
    (hi : i < header.shape.usedBytes) :
    writtenStore info store header backupHdr entries (2 * info.sectorBytes + i)
      = (entryImage entries header.numberOfPartitionEntries.toNat
          header.sizeOfPartitionEntry.toNat).getD i 0 := by
  have hlength := GPTWriter.image_length hfields entries
  have hused : i < header.arrayBytes := Nat.lt_of_lt_of_le hi (TableShape.usedBytes_le hfields)
  rcases hharmless.primaryArray with hsame | hapart
  · rw [writtenStore, hsame, overlay_inside (by omega) (by omega), Nat.add_sub_cancel_left]
  · have hlast : Apart (2 * info.sectorBytes + i) 1 (info.lastLBA.toNat * info.sectorBytes)
        (serializeHeader backupHdr).length := .inl (by
      have hbelow : 2 * info.sectorBytes + header.arrayBytes ≤ _ := hfits.primaryArray
      omega)
    have hheader : Apart (2 * info.sectorBytes + i) 1 info.sectorBytes
        (serializeHeader header).length := .inr (by
      have hsize := hfits.header
      rw [serializeHeader_length]
      omega)
    have harray : Apart (2 * info.sectorBytes + i) 1
        (info.backupEntriesLBA.toNat * info.sectorBytes)
        (entryImage entries header.numberOfPartitionEntries.toNat
          header.sizeOfPartitionEntry.toNat).length := by
      rw [hlength]
      rcases hapart with hbefore | hbehind
      · exact .inl (by omega)
      · exact .inr (Nat.le_add_right_of_le hbehind)
    rw [writtenStore, overlay_apart harray, overlay_apart hlast, overlay_apart hheader,
      overlay_inside (by omega) (by omega), Nat.add_sub_cancel_left]

theorem writtenStore_usable (hfields : validateEntryFields header.numberOfPartitionEntries
    header.sizeOfPartitionEntry = true) (hfits : header.shape.Fits info b)
    (hharmless : header.shape.BackupHarmless info) {i : Nat}
    (hlo : header.firstUsableLBA.toNat * info.sectorBytes ≤ i)
    (hhi : i < (header.lastUsableLBA.toNat + 1) * info.sectorBytes) :
    writtenStore info store header backupHdr entries i = store i := by
  have hlength := GPTWriter.image_length hfields entries
  have hbackupArray := hharmless.outside.apart hlo hhi
  have hbackupHeader := hfits.backupHeader_outside.apart hlo hhi
  have hprimaryHeader := hfits.primaryHeader_outside.apart hlo hhi
  have hprimaryArray := hfits.primaryArray_outside.apart hlo hhi
  have hsize := hfits.header
  rw [writtenStore, overlay_apart (by rwa [hlength]),
    overlay_apart (hbackupHeader.mono (Nat.le_refl _) (by rwa [serializeHeader_length])),
    overlay_apart (hprimaryHeader.mono (Nat.le_refl _) (by rwa [serializeHeader_length])),
    overlay_apart (by rwa [hlength])]

/-- The sectors of both headers have addresses. -/
theorem TableShape.Fits.inRange {shape : TableShape} (hfits : shape.Fits info b)
    (hfields : validateEntryFields shape.numberOfPartitionEntries
      shape.sizeOfPartitionEntry = true)
    (haddress : info.lastLBA.toNat * info.sectorBytes < 2 ^ 64) :
    2 < info.lastLBA.toNat ∧ info.lastLBA.toNat < info.numSectors.toNat ∧
      InRange info 1 ∧ InRange info info.lastLBA.toNat := by
  have hpos : 0 < shape.arrayBytes := shape.arrayBytes_pos hfields
  have htwo : 2 < info.lastLBA.toNat :=
    Nat.lt_of_mul_lt_mul_right (a := info.sectorBytes) (by have := hfits.primaryArray; omega)
  have hlast := info.lastLBA_toNat
  have hone : 1 * info.sectorBytes ≤ info.lastLBA.toNat * info.sectorBytes :=
    Nat.mul_le_mul_right _ (by omega)
  exact ⟨htwo, by omega, ⟨by omega, by omega⟩, by omega, haddress⟩

/-- The array at `2` is that of the table, up to padding. -/
theorem written_primaryCopy (store : ByteStore) (backupHdr : GPTHeader)
    (hfields : validateEntryFields header.numberOfPartitionEntries header.sizeOfPartitionEntry
      = true) (hfits : header.shape.Fits info b)
    (haddress : info.lastLBA.toNat * info.sectorBytes < 2 ^ 64)
    (hharmless : header.shape.BackupHarmless info)
    (hcorrect : CorrectTable env header.shape header entries) :
    GptCopy env info (writtenStore info store header backupHdr entries) 1 header
      (padEntries entries header.numberOfPartitionEntries.toNat) := by
  obtain ⟨htwo, hlast, hrange, -⟩ := hfits.inRange hfields haddress
  obtain ⟨⟨hcount, -⟩, hsize, -⟩ := (validateEntryFields_iff _ _).mp hfields
  have hbelow : 2 * info.sectorBytes + header.arrayBytes
      ≤ info.lastLBA.toNat * info.sectorBytes := hfits.primaryArray
  have hcapacity : info.lastLBA.toNat * info.sectorBytes ≤ info.capacity :=
    Nat.mul_le_mul_right _ (by omega)
  have hlba : header.partitionEntryLBA.toNat = 2 := by rw [hcorrect.entryLBA]; rfl
  have himage := GPTWriter.image_length hfields entries
  refine ⟨hcorrect.isSealed.copy hrange hfits.header ?_, hfields, ⟨?_, ?_⟩, ?_, ?_⟩
  · rw [Nat.one_mul]
    exact writtenStore_primaryHeader hfields hfits hharmless.primaryHeader
  · rw [hlba]
    omega
  · rw [hlba]
    omega
  · rw [hlba, ← readEntries_image hsize entries header.numberOfPartitionEntries.toNat [],
      List.append_nil]
    refine readEntries_congr hsize (by rw [slice_length]; rfl)
      (by rw [himage]; rfl) fun j hj k hk => ?_
    have hslot : j * header.sizeOfPartitionEntry.toNat + k < header.shape.usedBytes := by
      have hle : j * header.sizeOfPartitionEntry.toNat
          ≤ (header.numberOfPartitionEntries.toNat - 1) * header.sizeOfPartitionEntry.toNat :=
        Nat.mul_le_mul_right _ (by omega)
      rw [TableShape.usedBytes]
      exact Nat.add_lt_add_of_le_of_lt hle hk
    have hinside : j * header.sizeOfPartitionEntry.toNat + k < header.arrayBytes :=
      Nat.lt_of_lt_of_le hslot (TableShape.usedBytes_le hfields)
    rw [slice_getD _ _ hinside, writtenStore_primaryArray hfields hfits hharmless hslot]
  · rw [entryImage_pad hsize, ← GPTWriter.computeEntryCRC_eq hfields, hcorrect.entryCRC]

theorem written_backupCopy (store : ByteStore)
    (hfields : validateEntryFields header.numberOfPartitionEntries header.sizeOfPartitionEntry
      = true) (hfits : header.shape.Fits info b)
    (haddress : info.lastLBA.toNat * info.sectorBytes < 2 ^ 64)
    (hharmless : header.shape.BackupHarmless info)
    (hcorrect : CorrectTable env header.shape header entries)
    (hupdate : GPTWriter.updateHeaderCRC env
      (GPTWriter.backupOf (GPTWriter.initialLayout (.ok info)) header) = .ok backupHdr) :
    GptCopy env info (writtenStore info store header backupHdr entries) info.lastLBA.toNat
      backupHdr (padEntries entries header.numberOfPartitionEntries.toNat) := by
  obtain ⟨htwo, hlast, -, hrange⟩ := hfits.inRange hfields haddress
  obtain ⟨-, hsize, -⟩ := (validateEntryFields_iff _ _).mp hfields
  have hcapacity : info.lastLBA.toNat * info.sectorBytes ≤ info.capacity :=
    Nat.mul_le_mul_right _ (by omega)
  have hbelow : info.backupEntriesLBA.toNat * info.sectorBytes + header.arrayBytes
      ≤ info.lastLBA.toNat * info.sectorBytes := hharmless.backupHeader
  have hsignature : (GPTWriter.backupOf (GPTWriter.initialLayout (.ok info))
      header).hasValidSignature = true := hcorrect.isSealed.signature
  obtain ⟨hsealed, hfieldsOf⟩ := sealed_of_update hsignature hupdate
  refine ⟨hsealed.copy hrange hfits.header (writtenStore_backupHeader hfields hharmless), ?_⟩
  -- the backup header differs in its places and its CRC only
  rw [hfieldsOf]
  refine ⟨hfields, ⟨?_, ?_⟩, ?_, ?_⟩
  · show info.backupEntriesLBA.toNat * info.sectorBytes < 2 ^ 64
    omega
  · exact Nat.le_trans hbelow hcapacity
  · have hread := readEntries_image hsize entries header.numberOfPartitionEntries.toNat []
    rw [List.append_nil] at hread
    show readEntries (ByteStore.slice _ (info.backupEntriesLBA.toNat * info.sectorBytes)
      header.arrayBytes) header.numberOfPartitionEntries.toNat
        header.sizeOfPartitionEntry.toNat = _
    rw [writtenStore, ← GPTWriter.image_length hfields entries, slice_overlay, hread]
  · show env.crc32 (entryImage _ header.numberOfPartitionEntries.toNat
      header.sizeOfPartitionEntry.toNat) = header.partitionEntriesCRC32
    rw [entryImage_pad hsize, ← GPTWriter.computeEntryCRC_eq hfields, hcorrect.entryCRC]

/-- Where the backup array does no harm, a written table is parsed again. -/
theorem writeParses_of_harmless (hfields : validateEntryFields header.numberOfPartitionEntries
    header.sizeOfPartitionEntry = true) (hfits : header.shape.Fits info b)
    (hharmless : header.shape.BackupWritable info → header.shape.BackupHarmless info)
    (hcorrect : CorrectTable env header.shape header entries) :
    WriteParses env info header entries := by
  intro σ dev bytes content h s t hlayout hrun
  obtain ⟨hwritable, backupHdr, hupdate, hbytes⟩ :=
    hcorrect.write_ok h hlayout hfields hrun
  have hno := hharmless hwritable
  have hprimary := written_primaryCopy (bytes s.1) backupHdr hfields hfits hwritable.1 hno hcorrect
  have hbackup := written_backupCopy (bytes s.1) hfields hfits hwritable.1 hno hcorrect hupdate
  rw [← hbytes] at hprimary hbackup
  refine ⟨redundant_of_copies h hprimary hbackup, fun i hlo hhi => ?_⟩
  rw [hbytes, writtenStore_usable hfields hfits hno hlo hhi]

end Writes

/-! ## Necessity

A mock disk takes every write that ends on it, so where the backup array does
harm, some table and some content of the disk show it. -/

namespace GPTWriter

variable {info : StorageInfo}

theorem writeSectors_mock (lba : UInt64) (data : ByteBuffer) {s : MockFlashDevice × GPTWriter}
    (hlayout : s.2.layout = initialLayout (.ok info))
    (haddress : lba.toNat * info.sectorBytes < 2 ^ 64)
    (hinside : lba.toNat * info.sectorBytes + data.length ≤ info.capacity) :
    ∃ t, writeSectors (MockFlashDevice.device info) lba data s = (.ok (), t) ∧
      t.2.layout = s.2.layout := by
  have hsize : s.2.layout.sectorSize.toUInt64.toNat = info.sectorBytes := by
    rw [hlayout]
    exact UInt32.toNat_toUInt64 _
  rw [writeSectors, Program.run_bind_ok (Program.run_gets _ _)]
  cases hmul : safeMul lba s.2.layout.sectorSize.toUInt64 with
  | none =>
    have hoverflow := safeMul_eq_none.mp hmul
    rw [hsize] at hoverflow
    omega
  | some byteOffset =>
    have hoffset := safeMul_eq_some.mp hmul
    rw [hsize] at hoffset
    rw [← hoffset] at hinside
    have hvalid := (MockFlashDevice.isRangeValid_iff info byteOffset data.length).mpr hinside
    refine ⟨(s.1.overwrite byteOffset data, s.2), ?_, rfl⟩
    simp only [onDevice, Program.run_zoom, MockFlashDevice.device, hvalid, if_true]

end GPTWriter

section Necessity

variable {env : GPTEnv} {info : StorageInfo} {shape : TableShape} {b : Nat}

/-- A correct header of the shape for some entries. -/
def tableHeader (env : GPTEnv) (shape : TableShape) (entries : List PartitionEntry) : GPTHeader :=
  sealHeader env
    { signature := GPTHeader.Signature
      headerSize := 92
      firstUsableLBA := shape.firstUsableLBA
      lastUsableLBA := shape.lastUsableLBA
      partitionEntryLBA := 2
      numberOfPartitionEntries := shape.numberOfPartitionEntries
      sizeOfPartitionEntry := shape.sizeOfPartitionEntry
      partitionEntriesCRC32 := GPTWriter.computeEntryCRC env entries
        shape.numberOfPartitionEntries.toUInt64 shape.sizeOfPartitionEntry.toUInt64 }

theorem tableHeader_correct (env : GPTEnv) {entries : List PartitionEntry}
    (hlength : entries.length ≤ shape.numberOfPartitionEntries.toNat) :
    CorrectTable env shape (tableHeader env shape entries) entries := by
  refine ⟨rfl, ⟨decide_eq_true rfl, computeHeaderCRC_seal env ?_⟩, ?_, rfl, rfl, hlength⟩
  · show GPTHeader.MinHeaderSize ≤ (92 : UInt32)
    decide
  · show (92 : UInt32) ≤ 512
    decide

/-- On a mock disk all four writes succeed. -/
theorem CorrectTable.write_mock {header : GPTHeader} {entries : List PartitionEntry}
    (hcorrect : CorrectTable env shape header entries)
    (hfields : validateEntryFields shape.numberOfPartitionEntries
      shape.sizeOfPartitionEntry = true) (hfits : shape.Fits info b)
    (hwritable : shape.BackupWritable info) (d : MockFlashDevice) :
    ∃ t, GPTWriter.writePrimaryAndBackup env (MockFlashDevice.device info) header entries
      (d, { layout := GPTWriter.initialLayout (.ok info) }) = (.ok (), t) := by
  obtain rfl := hcorrect.shape
  obtain ⟨haddress, hinside⟩ := hwritable
  obtain ⟨htwo, hlast, hrange, -⟩ := hfits.inRange hfields haddress
  have himage := GPTWriter.image_length hfields entries
  have hbelow : 2 * info.sectorBytes + header.arrayBytes
      ≤ info.lastLBA.toNat * info.sectorBytes := hfits.primaryArray
  have hcapacity : (info.lastLBA.toNat + 1) * info.sectorBytes ≤ info.capacity :=
    Nat.mul_le_mul_right _ hlast
  rw [Nat.succ_mul] at hcapacity
  have hsize := hfits.header
  have hlba : header.partitionEntryLBA.toNat = 2 := by rw [hcorrect.entryLBA]; rfl
  have hbackup : info.backupEntriesLBA.toNat * info.sectorBytes
      ≤ info.lastLBA.toNat * info.sectorBytes := by
    apply Nat.mul_le_mul_right
    rw [info.lastLBA_toNat]
    exact info.backupEntriesLBA_le
  obtain ⟨s₁, hrun₁, hlayout₁⟩ := GPTWriter.writeSectors_mock header.partitionEntryLBA
    (entryImage entries header.numberOfPartitionEntries.toNat header.sizeOfPartitionEntry.toNat)
    (s := (d, { layout := GPTWriter.initialLayout (.ok info), arrays := [entries] })) rfl
    (by rw [hlba]; omega) (by rw [hlba, himage]; omega)
  obtain ⟨s₂, hrun₂, hlayout₂⟩ := GPTWriter.writeSectors_mock 1 (serializeHeader header) hlayout₁
    hrange.2
    (by rw [show (1 : UInt64).toNat = 1 from rfl, serializeHeader_length]; omega)
  obtain ⟨backupHdr, hupdate⟩ : ∃ backupHdr, GPTWriter.updateHeaderCRC env
      (GPTWriter.backupOf (GPTWriter.initialLayout (.ok info)) header) = .ok backupHdr := by
    have hcrc := hcorrect.isSealed.headerCRC
    rw [GPTWriter.computeHeaderCRC] at hcrc
    split at hcrc
    · cases hcrc
    · rename_i hheaderSize
      exact ⟨_, by rw [GPTWriter.updateHeaderCRC, GPTWriter.computeHeaderCRC,
        if_neg (by exact hheaderSize)]⟩
  obtain ⟨s₃, hrun₃, hlayout₃⟩ := GPTWriter.writeSectors_mock info.lastLBA
    (serializeHeader backupHdr) (hlayout₂.trans hlayout₁) haddress
    (by rw [serializeHeader_length]; omega)
  have hlayout : s₃.2.layout = GPTWriter.initialLayout (.ok info) :=
    hlayout₃.trans (hlayout₂.trans hlayout₁)
  obtain ⟨s₄, hrun₄, -⟩ := GPTWriter.writeSectors_mock info.backupEntriesLBA
    (entryImage entries header.numberOfPartitionEntries.toNat header.sizeOfPartitionEntry.toNat)
    (s := (s₃.1, { s₃.2 with arrays := s₃.2.arrays ++ [entries] })) hlayout (by omega)
    (by rw [himage]; exact hinside)
  refine ⟨s₄, ?_⟩
  simp only [GPTWriter.writePrimaryAndBackup, GPTWriter.writePartitionEntries,
    GPTWriter.serializeEntries_eq hfields, if_neg (GPTWriter.image_ne_nil hfields entries)]
  refine Program.bind_eq_ok.mpr ⟨(), s₁, hrun₁, Program.bind_eq_ok.mpr ⟨(), s₂, ?_,
    Program.bind_eq_ok.mpr ⟨(), s₃, ?_, ?_⟩⟩⟩
  · rw [GPTWriter.writePrimaryHeader, Program.run_bind_ok (Program.run_gets _ _), hlayout₁]
    exact hrun₂
  · rw [GPTWriter.writeBackupHeader, Program.run_bind_ok (Program.run_gets _ _),
      hlayout₂.trans hlayout₁, hupdate]
    exact hrun₃
  · rw [Program.run_bind_ok (Program.run_gets _ _), hlayout]
    exact hrun₄

/-- What the claim says of one written table, on a mock disk of any content. -/
theorem written_of_writeParses (hfields : validateEntryFields shape.numberOfPartitionEntries
    shape.sizeOfPartitionEntry = true) (hfits : shape.Fits info b)
    (hwritable : shape.BackupWritable info)
    (hall : ∀ header entries, CorrectTable env shape header entries →
      WriteParses env info header entries) {entries : List PartitionEntry}
    (hlength : entries.length = shape.numberOfPartitionEntries.toNat) (store : ByteStore) :
    ∃ backupHdr primary,
      let written := writtenStore info store (tableHeader env shape entries) backupHdr entries
      GptCopy env info written 1 primary entries ∧
      written (info.lastLBA.toNat * info.sectorBytes) = 0x45 ∧
      ∀ i, shape.firstUsableLBA.toNat * info.sectorBytes ≤ i →
        i < (shape.lastUsableLBA.toNat + 1) * info.sectorBytes → written i = store i := by
  have hcorrect : CorrectTable env shape (tableHeader env shape entries) entries :=
    tableHeader_correct env (Nat.le_of_eq hlength)
  have hfaithful := MockFlashDevice.faithful info
  obtain ⟨t, hrun⟩ := hcorrect.write_mock hfields hfits hwritable { storage := store }
  obtain ⟨hredundant, husable⟩ := hall _ _ hcorrect _ _ _ _ hfaithful _ _ rfl hrun
  obtain ⟨-, backupHdr, -, hbytes⟩ := hcorrect.write_ok hfaithful rfl hfields hrun
  rw [show padEntries entries (tableHeader env shape entries).numberOfPartitionEntries.toNat
    = entries from padEntries_of_length hlength] at hredundant
  obtain ⟨primary, backup, hprimary, hbackup⟩ := copies_of_redundant hfaithful hredundant
  rw [hbytes] at hprimary hbackup husable
  exact ⟨backupHdr, primary, hprimary, hbackup.sector.first_byte, husable⟩

/-- In a table of null entries the backup array is zeros. -/
theorem writtenStore_null (hfields : validateEntryFields shape.numberOfPartitionEntries
    shape.sizeOfPartitionEntry = true) {store : ByteStore} {backupHdr : GPTHeader} {i : Nat}
    (hlo : info.backupEntriesLBA.toNat * info.sectorBytes ≤ i)
    (hhi : i < info.backupEntriesLBA.toNat * info.sectorBytes + shape.arrayBytes) :
    let entries := List.replicate shape.numberOfPartitionEntries.toNat ({} : PartitionEntry)
    writtenStore info store (tableHeader env shape entries) backupHdr entries i = 0 := by
  intro entries
  obtain ⟨-, hsize, -⟩ := (validateEntryFields_iff _ _).mp hfields
  have himage := TableShape.image_length hfields entries
  have hzero := entryImage_unused hsize (Nat.le_refl shape.numberOfPartitionEntries.toNat) []
    (i := i - info.backupEntriesLBA.toNat * info.sectorBytes) (by
      rw [← TableShape.arrayBytes]
      omega)
  rw [List.append_nil] at hzero
  have hinside : i < info.backupEntriesLBA.toNat * info.sectorBytes + (entryImage entries
      shape.numberOfPartitionEntries.toNat shape.sizeOfPartitionEntry.toNat).length := by
    rwa [himage]
  exact (overlay_inside hlo hinside).trans hzero

/-- An entry whose name ends in a nonzero unit. -/
def markedEntry : PartitionEntry where
  name := Vector.replicate 36 0xFFFF

/-- A table with one used entry, the last one. -/
def lastMarked (count : Nat) : List PartitionEntry :=
  List.replicate (count - 1) ({} : PartitionEntry) ++ [markedEntry]

theorem lastMarked_length {count : Nat} (h : 0 < count) : (lastMarked count).length = count := by
  rw [lastMarked, List.length_append, List.length_replicate, List.length_singleton]
  omega

theorem lastMarked_last (count : Nat) : (lastMarked count)[count - 1]? = some markedEntry := by
  rw [lastMarked, List.getElem?_append_right (by simp), List.length_replicate, Nat.sub_self]
  rfl

theorem markedEntry_ne {data : ByteBuffer} {off : Nat} (hzero : data.getD (off + 127) 0 = 0) :
    readEntry data off ≠ markedEntry := by
  intro heq
  have hname := congrArg (fun entry : PartitionEntry => entry.name[35].toNat) heq
  simp only [readEntry, markedEntry, LittleEndian.readWords, Vector.getElem_ofFn,
    Vector.getElem_replicate, LittleEndian.readLE16] at hname
  split at hname
  · exact absurd hname (by decide)
  · rw [show off + 56 + 35 * 2 + 1 = off + 127 by omega, hzero,
      LittleEndian.decode16_toNat] at hname
    have hbyte := (data.getD (off + 56 + 35 * 2) 0).toNat_lt
    rw [show (0xFFFF : UInt16).toNat = 0xFFFF from rfl,
      show (0 : UInt8).toNat = 0 from rfl] at hname
    omega

section Harmless

variable (hfields : validateEntryFields shape.numberOfPartitionEntries
    shape.sizeOfPartitionEntry = true) (hfits : shape.Fits info b)
  (hwritable : shape.BackupWritable info)
  (hall : ∀ header entries, CorrectTable env shape header entries →
    WriteParses env info header entries)

include hfields hfits hwritable hall

/-- A byte the claim says is not zero is not in the backup array. -/
theorem outside_of_nonzero (a : Nat) (store : ByteStore)
    (hbyte : ∀ written : ByteStore, (∃ primary,
      GptCopy env info written 1 primary
        (List.replicate shape.numberOfPartitionEntries.toNat {})) →
      written (info.lastLBA.toNat * info.sectorBytes) = 0x45 →
      (∀ i, shape.firstUsableLBA.toNat * info.sectorBytes ≤ i →
        i < (shape.lastUsableLBA.toNat + 1) * info.sectorBytes → written i = store i) →
      written a ≠ 0) :
    ¬ (info.backupEntriesLBA.toNat * info.sectorBytes ≤ a ∧
      a < info.backupEntriesLBA.toNat * info.sectorBytes + shape.arrayBytes) := by
  rintro ⟨hlo, hhi⟩
  obtain ⟨backupHdr, primary, hcopy, hlast, husable⟩ := written_of_writeParses hfields hfits
    hwritable hall (List.length_replicate) store
  exact hbyte _ ⟨primary, hcopy⟩ hlast husable (writtenStore_null hfields hlo hhi)

theorem primaryHeader_of_writeParses : Apart info.sectorBytes info.sectorBytes
    (info.backupEntriesLBA.toNat * info.sectorBytes) shape.arrayBytes := by
  have hout := outside_of_nonzero hfields hfits hwritable hall info.sectorBytes (fun _ => 0)
    fun written hcopy _ _ => by
      obtain ⟨primary, hcopy⟩ := hcopy
      have hbyte := hcopy.sector.first_byte
      rw [Nat.one_mul] at hbyte
      rw [hbyte]
      decide
  -- the array starts with a sector, so it covers the first byte of this one or none
  rcases Nat.lt_or_ge info.backupEntriesLBA.toNat 2 with hlow | hhigh
  · have hle := Nat.mul_le_mul_right info.sectorBytes (Nat.le_of_lt_succ hlow)
    rw [Nat.one_mul] at hle
    exact .inr (by omega)
  · have hle := Nat.mul_le_mul_right info.sectorBytes hhigh
    exact .inl (by omega)

theorem backupHeader_of_writeParses :
    info.backupEntriesLBA.toNat * info.sectorBytes + shape.arrayBytes
      ≤ info.lastLBA.toNat * info.sectorBytes := by
  have hout := outside_of_nonzero hfields hfits hwritable hall
    (info.lastLBA.toNat * info.sectorBytes) (fun _ => 0) fun written _ hlast _ => by
      rw [hlast]
      decide
  have hle := Nat.mul_le_mul_right info.sectorBytes
    (info.lastLBA_toNat ▸ info.backupEntriesLBA_le)
  omega

theorem outside_of_writeParses :
    shape.Outside info (info.backupEntriesLBA.toNat * info.sectorBytes) shape.arrayBytes := by
  by_contra hinside
  rw [TableShape.Outside, not_or, not_or] at hinside
  obtain ⟨hrange, hbefore, hbehind⟩ := hinside
  -- the first byte of the usable range that the array covers
  have hout := outside_of_nonzero hfields hfits hwritable hall
    (max (info.backupEntriesLBA.toNat * info.sectorBytes)
      (shape.firstUsableLBA.toNat * info.sectorBytes)) (fun _ => 0xFF)
    fun written _ _ husable => by
      have hle : shape.firstUsableLBA.toNat * info.sectorBytes
          < (shape.lastUsableLBA.toNat + 1) * info.sectorBytes :=
        Nat.mul_lt_mul_of_pos_right (by omega) info.sectorBytes_pos
      rw [husable _ (Nat.le_max_right _ _) (Nat.max_lt.mpr ⟨by omega, hle⟩)]
      decide
  have hpos := TableShape.arrayBytes_pos hfields
  exact hout ⟨Nat.le_max_left _ _, Nat.max_lt.mpr ⟨by omega, by omega⟩⟩

/-- A backup array that is not the other one starts behind its first sector. -/
theorem backupEntriesLBA_of_writeParses (hne : info.backupEntriesLBA.toNat ≠ 2)
    (hmeet : ¬ info.backupEntriesLBA.toNat * info.sectorBytes + shape.arrayBytes
      ≤ 2 * info.sectorBytes) : 3 ≤ info.backupEntriesLBA.toNat := by
  have hpos := TableShape.arrayBytes_pos hfields
  have hsector := info.sectorBytes_pos
  have happart := primaryHeader_of_writeParses hfields hfits hwritable hall
  by_contra hlow
  rcases Nat.lt_or_ge info.backupEntriesLBA.toNat 1 with hzero | hone
  · rw [Nat.lt_one_iff.mp hzero, Nat.zero_mul] at happart hmeet
    rcases happart with habsurd | hshort <;> omega
  · rw [show info.backupEntriesLBA.toNat = 1 by omega, Nat.one_mul] at happart
    rcases happart with habsurd | habsurd <;> omega

/-- The last entry of a table with one used entry, the last one, is parsed as
it was written. -/
theorem lastMarked_parsed :
    let entries := lastMarked shape.numberOfPartitionEntries.toNat
    ∃ backupHdr, readEntry ((writtenStore info (fun _ => 0) (tableHeader env shape entries)
        backupHdr entries).slice (2 * info.sectorBytes) shape.arrayBytes)
      ((shape.numberOfPartitionEntries.toNat - 1) * shape.sizeOfPartitionEntry.toNat)
        = markedEntry := by
  intro entries
  obtain ⟨⟨hcount, -⟩, -⟩ := (validateEntryFields_iff _ _).mp hfields
  have hlength : entries.length = shape.numberOfPartitionEntries.toNat := lastMarked_length hcount
  obtain ⟨backupHdr, primary, hcopy, -, -⟩ := written_of_writeParses hfields hfits hwritable hall
    hlength (fun _ => 0)
  obtain ⟨-, -, hrange, -⟩ := hfits.inRange hfields hwritable.1
  have hslice : (writtenStore info (fun _ => 0) (tableHeader env shape entries) backupHdr
      entries).slice (1 * info.sectorBytes) 512
        = serializeHeader (tableHeader env shape entries) := by
    rw [Nat.one_mul]
    exact writtenStore_primaryHeader hfields hfits
      (primaryHeader_of_writeParses hfields hfits hwritable hall)
  have hheader := (tableHeader_correct env (Nat.le_of_eq hlength)).isSealed.copy hrange
    hfits.header hslice
  obtain rfl := hcopy.sector.unique hheader
  have hdecodes : readEntries ((writtenStore info (fun _ => 0) (tableHeader env shape entries)
      backupHdr entries).slice (2 * info.sectorBytes) shape.arrayBytes)
        shape.numberOfPartitionEntries.toNat shape.sizeOfPartitionEntry.toNat = entries :=
    hcopy.array.decodes
  have hlast := lastMarked_last shape.numberOfPartitionEntries.toNat
  rw [show lastMarked shape.numberOfPartitionEntries.toNat = entries from rfl, ← hdecodes,
    readEntries_getElem? (by rw [slice_length]; rfl) (by omega)] at hlast
  exact ⟨backupHdr, Option.some.inj hlast⟩

theorem primaryArray_of_writeParses : info.backupEntriesLBA.toNat = 2 ∨
    Apart (2 * info.sectorBytes) shape.usedBytes
      (info.backupEntriesLBA.toNat * info.sectorBytes) shape.arrayBytes := by
  by_contra hnot
  rw [not_or, Apart, not_or] at hnot
  obtain ⟨hne, hcovered, hmeet⟩ := hnot
  obtain ⟨⟨hcount, -⟩, hsize, -⟩ := (validateEntryFields_iff _ _).mp hfields
  have hbehind := Nat.mul_le_mul_right info.sectorBytes
    (backupEntriesLBA_of_writeParses hfields hfits hwritable hall hne hmeet)
  have hsector := hfits.header
  have hused := TableShape.usedBytes_le hfields
  rw [TableShape.usedBytes] at hcovered hused
  obtain ⟨backupHdr, hentry⟩ := lastMarked_parsed hfields hfits hwritable hall
  refine markedEntry_ne ?_ hentry
  -- the entry's last byte is under the null entries of the backup array
  have himage := TableShape.image_length hfields (lastMarked shape.numberOfPartitionEntries.toNat)
  rw [slice_getD _ _ (by omega), writtenStore]
  show ByteStore.overlay _ _ (entryImage (lastMarked shape.numberOfPartitionEntries.toNat)
    shape.numberOfPartitionEntries.toNat shape.sizeOfPartitionEntry.toNat) _ = 0
  rw [overlay_inside (by omega) (by omega), lastMarked]
  exact entryImage_unused hsize (by omega) _ (by omega)

end Harmless

theorem harmless_of_writeParses (hfields : validateEntryFields shape.numberOfPartitionEntries
    shape.sizeOfPartitionEntry = true) (hfits : shape.Fits info b)
    (hall : ∀ header entries, CorrectTable env shape header entries →
      WriteParses env info header entries) (hwritable : shape.BackupWritable info) :
    shape.BackupHarmless info where
  backupHeader := backupHeader_of_writeParses hfields hfits hwritable hall
  primaryHeader := primaryHeader_of_writeParses hfields hfits hwritable hall
  primaryArray := primaryArray_of_writeParses hfields hfits hwritable hall
  outside := outside_of_writeParses hfields hfits hwritable hall

end Necessity

/-- On which disks every table of a shape that fits is parsed as it was
written: those where the writer's backup array, if it can be written at all,
hits nothing else. -/
theorem writePrimaryAndBackup_iff (env : GPTEnv) {info : StorageInfo} {shape : TableShape}
    (hfields : validateEntryFields shape.numberOfPartitionEntries
      shape.sizeOfPartitionEntry = true) (hfits : ∃ b, shape.Fits info b) :
    (∀ header entries, CorrectTable env shape header entries →
      WriteParses env info header entries) ↔
      (shape.BackupWritable info → shape.BackupHarmless info) := by
  obtain ⟨b, hfits⟩ := hfits
  constructor
  · exact harmless_of_writeParses hfields hfits
  · rintro hharmless header entries hcorrect
    obtain rfl := hcorrect.shape
    exact writeParses_of_harmless hfields hfits hharmless hcorrect

/-! ## A disk of forty sectors -/

/-- A usable range behind the writer's backup array, which is at 7. -/
def roomyShape : TableShape where
  numberOfPartitionEntries := 4
  sizeOfPartitionEntry := 128
  firstUsableLBA := 8
  lastUsableLBA := 37

theorem writePrimaryAndBackup_roomy :
    ∃ t, GPTWriter.writePrimaryAndBackup zlibEnv (MockFlashDevice.device fortySectors)
        (tableHeader zlibEnv roomyShape [bootEntry]) [bootEntry]
        ({}, { layout := GPTWriter.initialLayout (.ok fortySectors) }) = (.ok (), t) ∧
      Redundant zlibEnv (MockFlashDevice.device fortySectors) t.1 (padEntries [bootEntry] 4) := by
  have hfits : roomyShape.Fits fortySectors 7 := by constructor <;> decide
  have hharmless : roomyShape.BackupHarmless fortySectors := by constructor <;> decide
  have hcorrect : CorrectTable zlibEnv roomyShape (tableHeader zlibEnv roomyShape [bootEntry])
      [bootEntry] := tableHeader_correct zlibEnv (by decide)
  obtain ⟨t, hrun⟩ := hcorrect.write_mock rfl hfits ⟨by decide, by decide⟩ {}
  have hparses := (writePrimaryAndBackup_iff zlibEnv rfl ⟨7, hfits⟩).mpr (fun _ => hharmless) _ _
    hcorrect
  exact ⟨t, hrun, (hparses _ _ _ _ (MockFlashDevice.faithful fortySectors) _ _ rfl hrun).1⟩

/-- Both copies fit around the sectors 3 to 37. -/
def crowdedShape : TableShape := { roomyShape with firstUsableLBA := 3 }

/-- The backup array is written into the usable range. -/
theorem writePrimaryAndBackup_crowded :
    crowdedShape.Fits fortySectors 38 ∧
      CorrectTable zlibEnv crowdedShape (tableHeader zlibEnv crowdedShape [bootEntry])
        [bootEntry] ∧
      ¬ WriteParses zlibEnv fortySectors (tableHeader zlibEnv crowdedShape [bootEntry])
        [bootEntry] := by
  have hfits : crowdedShape.Fits fortySectors 38 := by constructor <;> decide
  have hcorrect : CorrectTable zlibEnv crowdedShape (tableHeader zlibEnv crowdedShape [bootEntry])
      [bootEntry] := tableHeader_correct zlibEnv (by decide)
  refine ⟨hfits, hcorrect, fun hparses => ?_⟩
  have hfaithful := MockFlashDevice.faithful fortySectors
  obtain ⟨t, hrun⟩ := hcorrect.write_mock rfl hfits ⟨by decide, by decide⟩ {}
  obtain ⟨-, backupHdr, -, hbytes⟩ := hcorrect.write_ok hfaithful rfl rfl hrun
  have hkept := (hparses _ _ _ _ hfaithful _ _ rfl hrun).2 3584 (by decide) (by decide)
  -- the first byte of the array, at sector 7
  have himage := @GPTWriter.image_length (tableHeader zlibEnv crowdedShape [bootEntry]) rfl
    [bootEntry]
  rw [hbytes, writtenStore, overlay_inside (by decide) (by rw [himage]; decide)] at hkept
  exact absurd hkept (by decide)

end MBootCore
