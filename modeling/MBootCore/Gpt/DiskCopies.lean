import MBootCore.Gpt.Fallback

/-!
# GPT — DiskCopies

The two copies of a table as bytes on a faithful disk. What the parser gets
of a sector or an array is a slice of the store or nothing, so a header it
accepts and an array it verifies are conditions on the store
(`HeaderCopy`, `ArrayCopy`). A disk with two such copies is redundant:
`parse` and `parseBackup` both find the table, whatever was done before.
-/

namespace MBootCore

open GPTParser FlashContent

namespace StorageInfo

variable (info : StorageInfo)

/-- Where the backup header is, by the parser's and the writer's layout. -/
def lastLBA : UInt64 := if info.numSectors > 0 then info.numSectors - 1 else 0

theorem lastLBA_toNat : info.lastLBA.toNat = info.numSectors.toNat - 1 := by
  unfold lastLBA
  split
  · rename_i hpos
    have hone : (1 : UInt64) ≤ info.numSectors :=
      UInt64.le_iff_toNat_le.mpr (Nat.succ_le_of_lt (UInt64.lt_iff_toNat_lt.mp hpos))
    rw [UInt64.toNat_sub_of_le _ _ hone]
    rfl
  · rename_i hzero
    have hle : info.numSectors.toNat ≤ 0 := by
      simpa [UInt64.lt_iff_toNat_lt] using hzero
    rw [UInt64.toNat_zero]
    omega

end StorageInfo

/-- The bytes of the entry array a header describes. -/
def GPTHeader.arrayBytes (header : GPTHeader) : Nat :=
  header.numberOfPartitionEntries.toNat * header.sizeOfPartitionEntry.toNat

theorem GPTHeader.arrayBytes_le {header : GPTHeader} (hfields : validateEntryFields
    header.numberOfPartitionEntries header.sizeOfPartitionEntry = true) :
    header.arrayBytes ≤ 4096 * 512 := by
  obtain ⟨⟨-, hcount⟩, -, hentry⟩ := (validateEntryFields_iff _ _).mp hfields
  exact Nat.mul_le_mul hcount hentry

theorem GPTHeader.arrayBytes_pos {header : GPTHeader} (hfields : validateEntryFields
    header.numberOfPartitionEntries header.sizeOfPartitionEntry = true) :
    0 < header.arrayBytes := by
  obtain ⟨⟨hcount, -⟩, hentry, -⟩ := (validateEntryFields_iff _ _).mp hfields
  exact Nat.mul_pos hcount (by omega)

/-- `A` bytes rounded up to full sectors. -/
def fullSectors (A size : Nat) : Nat := size * ((A + size - 1) / size)

theorem le_fullSectors (A : Nat) {size : Nat} (h : 0 < size) : A ≤ fullSectors A size := by
  have hlt := Nat.lt_mul_div_succ (A + size - 1) h
  rw [Nat.mul_succ] at hlt
  rw [fullSectors]
  omega

/-- Rounding up does not lead off the disk. -/
theorem fullSectors_inside_iff {lba total size A : Nat} (h : 0 < size) :
    lba * size + fullSectors A size ≤ total * size ↔ lba * size + A ≤ total * size := by
  constructor
  · intro hinside
    have hle := le_fullSectors A h
    omega
  · intro hinside
    have hlba : lba ≤ total := Nat.le_of_mul_le_mul_right (by omega) h
    obtain ⟨k, rfl⟩ := Nat.exists_eq_add_of_le hlba
    rw [Nat.add_mul] at hinside ⊢
    have hdiv : (A + size - 1) / size < k + 1 := by
      rw [Nat.div_lt_iff_lt_mul h, Nat.succ_mul]
      omega
    have hle := Nat.mul_le_mul_left size (Nat.le_of_lt_succ hdiv)
    rw [Nat.mul_comm size k] at hle
    rw [fullSectors]
    omega

/-! ## Slices -/

namespace FaithfulDevice

variable {σ : Type} {dev : FlashDevice σ} {info : StorageInfo} {bytes : σ → ByteStore}
  {content : σ → FlashContent}

theorem buffer_eq (h : FaithfulDevice dev info bytes content) (s : σ) (address size : UInt64) :
    (content s).buffer address size =
      if address.toNat + size.toNat ≤ info.capacity then
        (bytes s).slice address.toNat size.toNat
      else [] := by
  rw [FlashContent.buffer]
  split
  · rename_i data hread
    split
    · rename_i hinside
      rw [h.read_eq s hinside] at hread
      cases hread
      rfl
    · rename_i houtside
      obtain ⟨e, herror⟩ := h.read_outside s (Nat.lt_of_not_le houtside)
      rw [herror] at hread
      cases hread
  · rename_i e hread
    split
    · rename_i hinside
      rw [h.read_eq s hinside] at hread
      cases hread
    · rfl

/-- A sector of the disk that has an address. -/
def InRange (info : StorageInfo) (lba : Nat) : Prop :=
  lba < info.numSectors.toNat ∧ lba * info.sectorBytes < 2 ^ 64

instance (lba : Nat) : Decidable (InRange info lba) := inferInstanceAs (Decidable (_ ∧ _))

theorem sector_eq (h : FaithfulDevice dev info bytes content) (s : σ) (lba : UInt64) :
    (content s).sector (effectiveSectorSize info.sectorSize) lba =
      if InRange info lba.toNat then
        (bytes s).slice (lba.toNat * info.sectorBytes) info.sectorBytes
      else [] := by
  have hsize : (effectiveSectorSize info.sectorSize).toUInt64.toNat = info.sectorBytes :=
    UInt32.toNat_toUInt64 _
  have hinside : lba.toNat * info.sectorBytes + info.sectorBytes ≤ info.capacity ↔
      lba.toNat < info.numSectors.toNat := by
    rw [StorageInfo.capacity, ← Nat.succ_mul, Nat.mul_le_mul_right_iff info.sectorBytes_pos]
    exact Nat.succ_le_iff
  rw [FlashContent.sector]
  cases hmul : safeMul lba (effectiveSectorSize info.sectorSize).toUInt64 with
  | none =>
    have hoverflow := safeMul_eq_none.mp hmul
    rw [hsize] at hoverflow
    rw [if_neg fun hrange => Nat.not_lt.mpr hoverflow hrange.2]
  | some byteOffset =>
    have hoffset := safeMul_eq_some.mp hmul
    rw [hsize] at hoffset
    have hlt : lba.toNat * info.sectorBytes < 2 ^ 64 := hoffset ▸ byteOffset.toNat_lt
    simp only [h.buffer_eq, hsize, hoffset, hinside, InRange, hlt, and_true]

/-- An array of the disk that has an address. -/
def ArrayInRange (info : StorageInfo) (header : GPTHeader) : Prop :=
  header.partitionEntryLBA.toNat * info.sectorBytes < 2 ^ 64 ∧
    header.partitionEntryLBA.toNat * info.sectorBytes + header.arrayBytes ≤ info.capacity

instance (header : GPTHeader) : Decidable (ArrayInRange info header) :=
  inferInstanceAs (Decidable (_ ∧ _))

/-- The number of sectors read for an array is computed without overflow. -/
theorem arraySectors_toNat (info : StorageInfo) {header : GPTHeader}
    (hfields : validateEntryFields header.numberOfPartitionEntries
      header.sizeOfPartitionEntry = true) :
    ((header.numberOfPartitionEntries.toUInt64 * header.sizeOfPartitionEntry.toUInt64 +
        (effectiveSectorSize info.sectorSize).toUInt64 - 1) /
          (effectiveSectorSize info.sectorSize).toUInt64).toNat
      = (header.arrayBytes + info.sectorBytes - 1) / info.sectorBytes := by
  have hpos := info.sectorBytes_pos
  have hsize : (effectiveSectorSize info.sectorSize).toUInt64.toNat = info.sectorBytes :=
    UInt32.toNat_toUInt64 _
  have hsum : (header.numberOfPartitionEntries.toUInt64 * header.sizeOfPartitionEntry.toUInt64 +
      (effectiveSectorSize info.sectorSize).toUInt64).toNat
      = header.arrayBytes + info.sectorBytes := by
    have hsizeLt : info.sectorBytes < 2 ^ 32 := (effectiveSectorSize info.sectorSize).toNat_lt
    have hbound := GPTHeader.arrayBytes_le hfields
    have htotal : (header.numberOfPartitionEntries.toUInt64 *
        header.sizeOfPartitionEntry.toUInt64).toNat = header.arrayBytes := (safeMul_toUInt64 _ _).2
    rw [UInt64.toNat_add, htotal, hsize, Nat.mod_eq_of_lt (by omega)]
  have hone : (1 : UInt64) ≤ header.numberOfPartitionEntries.toUInt64 *
      header.sizeOfPartitionEntry.toUInt64 + (effectiveSectorSize info.sectorSize).toUInt64 :=
    UInt64.le_iff_toNat_le.mpr (by
      rw [hsum, show (1 : UInt64).toNat = 1 from rfl]
      omega)
  rw [UInt64.toNat_div, UInt64.toNat_sub_of_le _ _ hone, hsum, hsize]
  rfl

/-- The sectors read for an array start with the array. -/
theorem arrayOf_eq (h : FaithfulDevice dev info bytes content) (s : σ) {header : GPTHeader}
    (hfields : validateEntryFields header.numberOfPartitionEntries
      header.sizeOfPartitionEntry = true) :
    ∃ rest, (content s).arrayOf (effectiveSectorSize info.sectorSize) header =
      if ArrayInRange info header then
        (bytes s).slice (header.partitionEntryLBA.toNat * info.sectorBytes) header.arrayBytes
          ++ rest
      else [] := by
  have hpos := info.sectorBytes_pos
  have hsize : (effectiveSectorSize info.sectorSize).toUInt64.toNat = info.sectorBytes :=
    UInt32.toNat_toUInt64 _
  have hcount := arraySectors_toNat info hfields
  have hcover := le_fullSectors header.arrayBytes hpos
  refine ⟨(bytes s).slice (header.partitionEntryLBA.toNat * info.sectorBytes + header.arrayBytes)
    (fullSectors header.arrayBytes info.sectorBytes - header.arrayBytes), ?_⟩
  rw [FlashContent.arrayOf, FlashContent.sectors, ← (bytes s).slice_split hcover]
  cases hsafe : safeMul (effectiveSectorSize info.sectorSize).toUInt64
      ((header.numberOfPartitionEntries.toUInt64 * header.sizeOfPartitionEntry.toUInt64 +
        (effectiveSectorSize info.sectorSize).toUInt64 - 1) /
          (effectiveSectorSize info.sectorSize).toUInt64) with
  | none =>
    -- the rounded size is a few bytes over the array's
    have hoverflow := safeMul_eq_none.mp hsafe
    have hsizeLt : info.sectorBytes < 2 ^ 32 := (effectiveSectorSize info.sectorSize).toNat_lt
    have hbound := GPTHeader.arrayBytes_le hfields
    have hbytes := Nat.mul_div_le (header.arrayBytes + info.sectorBytes - 1) info.sectorBytes
    rw [hcount, hsize] at hoverflow
    omega
  | some size =>
    have hsizeBytes : size.toNat = fullSectors header.arrayBytes info.sectorBytes := by
      rw [safeMul_eq_some.mp hsafe, hcount, hsize, fullSectors]
    cases hmul : safeMul header.partitionEntryLBA
        (effectiveSectorSize info.sectorSize).toUInt64 with
    | none =>
      have hoverflow := safeMul_eq_none.mp hmul
      rw [hsize] at hoverflow
      rw [if_neg fun hrange => Nat.not_lt.mpr hoverflow hrange.1]
    | some byteOffset =>
      have hoffset := safeMul_eq_some.mp hmul
      rw [hsize] at hoffset
      have hlt : header.partitionEntryLBA.toNat * info.sectorBytes < 2 ^ 64 :=
        hoffset ▸ byteOffset.toNat_lt
      simp only [h.buffer_eq, hsizeBytes, hoffset, StorageInfo.capacity,
        fullSectors_inside_iff hpos,
        ArrayInRange, hlt, true_and]

end FaithfulDevice

/-! ## Copies -/

open FaithfulDevice (InRange ArrayInRange sector_eq arrayOf_eq)

/-- The sector holds a header the parser accepts. -/
structure HeaderCopy (env : GPTEnv) (info : StorageInfo) (store : ByteStore) (lba : Nat)
    (header : GPTHeader) : Prop where
  inRange : InRange info lba
  check (missing : ErrorCode) :
    checkHeader env (store.slice (lba * info.sectorBytes) info.sectorBytes) missing
      = { header := header, valid := true }

/-- Where `header` says, there is an array of these entries, with the CRC
`header` says. -/
structure ArrayCopy (env : GPTEnv) (info : StorageInfo) (store : ByteStore) (header : GPTHeader)
    (entries : List PartitionEntry) : Prop where
  fields : validateEntryFields header.numberOfPartitionEntries header.sizeOfPartitionEntry = true
  inRange : ArrayInRange info header
  decodes : readEntries
    (store.slice (header.partitionEntryLBA.toNat * info.sectorBytes) header.arrayBytes)
    header.numberOfPartitionEntries.toNat header.sizeOfPartitionEntry.toNat = entries
  entryCRC : env.crc32 (entryImage entries header.numberOfPartitionEntries.toNat
    header.sizeOfPartitionEntry.toNat) = header.partitionEntriesCRC32

section Checks

variable {env : GPTEnv} {header : GPTHeader}

/-- What a sector must be for its header to be accepted. -/
def HeaderAccepted (env : GPTEnv) (data : ByteBuffer) : Prop :=
  92 ≤ data.length ∧ (readHeader data).hasValidSignature = true ∧
    GPTHeader.MinHeaderSize ≤ (readHeader data).headerSize ∧
    env.crc32 (crcInput env data (readHeader data).headerSize) = (readHeader data).headerCrc32

theorem checkHeader_accepted {data : ByteBuffer} (h : HeaderAccepted env data)
    (missing : ErrorCode) :
    checkHeader env data missing = { header := readHeader data, valid := true } := by
  obtain ⟨hlength, hsignature, hsize, hcrc⟩ := h
  simp only [checkHeader, ge_iff_le, if_pos hlength, hsignature, hsize, and_self, if_true,
    if_pos hcrc]

theorem accepted_of_valid {data : ByteBuffer} {missing : ErrorCode}
    (h : (checkHeader env data missing).valid = true) : HeaderAccepted env data := by
  simp only [checkHeader] at h
  split at h
  · rename_i hlength
    split at h
    · rename_i hfields
      split at h
      · rename_i hcrc
        exact ⟨hlength, hfields.1, hfields.2, hcrc⟩
      · cases h
    · cases h
  · cases h

theorem decodeEntries_array (hfields : validateEntryFields header.numberOfPartitionEntries
    header.sizeOfPartitionEntry = true) {data : ByteBuffer}
    (hdata : data.length = header.arrayBytes) (rest : ByteBuffer) :
    let entries := readEntries data header.numberOfPartitionEntries.toNat
      header.sizeOfPartitionEntry.toNat
    decodeEntries env header (header.numberOfPartitionEntries.toUInt64 *
        header.sizeOfPartitionEntry.toUInt64) (data ++ rest)
      = .decoded entries (env.crc32 (entryImage entries header.numberOfPartitionEntries.toNat
          header.sizeOfPartitionEntry.toNat) = header.partitionEntriesCRC32) := by
  obtain ⟨-, hsize, -⟩ := (validateEntryFields_iff _ _).mp hfields
  have hlength : (data ++ rest).length
      ≥ header.numberOfPartitionEntries.toNat * header.sizeOfPartitionEntry.toNat := by
    rw [List.length_append, hdata, GPTHeader.arrayBytes]
    omega
  simp only [decodeEntries, (safeMul_toUInt64 _ _).2, if_pos hlength, computeEntryCRC32_eq,
    readEntries_append hsize (Nat.le_of_eq hdata.symm)]

theorem decodeEntries_nil (hfields : validateEntryFields header.numberOfPartitionEntries
    header.sizeOfPartitionEntry = true) :
    decodeEntries env header (header.numberOfPartitionEntries.toUInt64 *
        header.sizeOfPartitionEntry.toUInt64) [] = .unreadable := by
  have hshort : ¬ ([] : ByteBuffer).length
      ≥ header.numberOfPartitionEntries.toNat * header.sizeOfPartitionEntry.toNat :=
    Nat.not_le.mpr (GPTHeader.arrayBytes_pos hfields)
  rw [decodeEntries, (safeMul_toUInt64 _ _).2, if_neg hshort]

end Checks

section Reading

variable {σ : Type} {env : GPTEnv} {dev : FlashDevice σ} {info : StorageInfo}
  {bytes : σ → ByteStore} {content : σ → FlashContent}

theorem HeaderCopy.headerAt (h : FaithfulDevice dev info bytes content) {s : σ} {lba : UInt64}
    {header : GPTHeader} (hcopy : HeaderCopy env info (bytes s) lba.toNat header)
    (missing : ErrorCode) :
    (content s).headerAt env (effectiveSectorSize info.sectorSize) lba missing
      = { header := header, valid := true } := by
  rw [FlashContent.headerAt, sector_eq h, if_pos hcopy.inRange, hcopy.check]

/-- The parser accepts no header that is not there. -/
theorem headerCopy_of_valid (h : FaithfulDevice dev info bytes content) {s : σ} {lba : UInt64}
    {missing : ErrorCode}
    (hvalid : ((content s).headerAt env (effectiveSectorSize info.sectorSize) lba missing).valid
      = true) :
    HeaderCopy env info (bytes s) lba.toNat
      ((content s).headerAt env (effectiveSectorSize info.sectorSize) lba missing).header := by
  rw [FlashContent.headerAt, sector_eq h] at hvalid ⊢
  by_cases hrange : InRange info lba.toNat
  · rw [if_pos hrange] at hvalid ⊢
    have haccepted := accepted_of_valid hvalid
    rw [checkHeader_accepted haccepted]
    exact ⟨hrange, checkHeader_accepted haccepted⟩
  · rw [if_neg hrange] at hvalid
    cases hvalid

theorem ArrayCopy.entriesOf (h : FaithfulDevice dev info bytes content) {s : σ}
    {header : GPTHeader} {entries : List PartitionEntry}
    (hcopy : ArrayCopy env info (bytes s) header entries) :
    (content s).entriesOf env (effectiveSectorSize info.sectorSize) header
      = .decoded entries true := by
  obtain ⟨rest, harray⟩ := arrayOf_eq h s hcopy.fields
  rw [entriesOf_eq hcopy.fields, harray, if_pos hcopy.inRange,
    decodeEntries_array hcopy.fields (ByteStore.slice_length _ _ _), hcopy.decodes, hcopy.entryCRC,
    decide_eq_true rfl]

theorem arrayCopy_of_valid (h : FaithfulDevice dev info bytes content) {s : σ}
    {header : GPTHeader}
    (hvalid : ((content s).entriesOf env (effectiveSectorSize info.sectorSize) header).isValid
      = true) :
    ArrayCopy env info (bytes s) header
      ((content s).entriesOf env (effectiveSectorSize info.sectorSize) header).entries := by
  have hfields : validateEntryFields header.numberOfPartitionEntries
      header.sizeOfPartitionEntry = true := by
    rw [← Bool.not_eq_false, ← (entriesOf_badFields :
      (content s).entriesOf env (effectiveSectorSize info.sectorSize) header = .badFields ↔ _)]
    intro hbad
    rw [hbad] at hvalid
    cases hvalid
  obtain ⟨rest, harray⟩ := arrayOf_eq h s hfields
  rw [entriesOf_eq hfields, harray] at hvalid ⊢
  by_cases hrange : ArrayInRange info header
  · rw [if_pos hrange, decodeEntries_array hfields (ByteStore.slice_length _ _ _)] at hvalid ⊢
    exact ⟨hfields, hrange, rfl, of_decide_eq_true hvalid⟩
  · rw [if_neg hrange, decodeEntries_nil hfields] at hvalid
    cases hvalid

end Reading

/-! ## Redundancy -/

/-- Both parses of the device find both copies valid, with these entries. -/
structure Redundant {σ : Type} (env : GPTEnv) (dev : FlashDevice σ) (s : σ)
    (entries : List PartitionEntry) : Prop where
  parse (p : GPTParser) (h : p.layout.primaryHeaderLBA = 1) :
    ∃ result s', GPTParser.parse env dev (s, p) = (.ok result, s') ∧
      result.table.primaryValid = true ∧ result.table.backupValid = true ∧
      result.table.entriesValid = true ∧ result.table.entries = entries
  parseBackup (p : GPTParser) :
    ∃ result s', GPTParser.parseBackup env dev (s, p) = (.ok result, s') ∧
      result.table.backupValid = true ∧ result.table.entriesValid = true ∧
      result.table.entries = entries

/-- A header copy with its array. -/
structure GptCopy (env : GPTEnv) (info : StorageInfo) (store : ByteStore) (lba : Nat)
    (header : GPTHeader) (entries : List PartitionEntry) : Prop where
  sector : HeaderCopy env info store lba header
  array : ArrayCopy env info store header entries

section Redundancy

variable {σ : Type} {env : GPTEnv} {dev : FlashDevice σ} {info : StorageInfo}
  {bytes : σ → ByteStore} {content : σ → FlashContent}

theorem FaithfulDevice.layout_eq (h : FaithfulDevice dev info bytes content) (s : σ)
    (known : GPTLayout) :
    ((content s).layout known).sectorSize = effectiveSectorSize info.sectorSize ∧
      ((content s).layout known).primaryHeaderLBA = known.primaryHeaderLBA ∧
      ((content s).layout known).backupHeaderLBA = info.lastLBA := by
  rw [FlashContent.layout, h.info_eq]
  exact ⟨rfl, rfl, rfl⟩

theorem FaithfulDevice.backupLayout_eq (h : FaithfulDevice dev info bytes content) (s : σ)
    (known : GPTLayout) :
    ((content s).backupLayout known).sectorSize = effectiveSectorSize info.sectorSize ∧
      ((content s).backupLayout known).backupHeaderLBA = info.lastLBA := by
  rw [FlashContent.backupLayout, h.info_eq]
  exact ⟨rfl, rfl⟩

/-- The header copies `parse` looks at. -/
theorem FaithfulDevice.primary_eq (h : FaithfulDevice dev info bytes content) (s : σ)
    {known : GPTLayout} (hknown : known.primaryHeaderLBA = 1) :
    (content s).primary env known = (content s).headerAt env
      (effectiveSectorSize info.sectorSize) 1 .gptPrimaryMissing := by
  obtain ⟨hsize, hlba, -⟩ := h.layout_eq s known
  rw [FlashContent.primary, hsize, hlba, hknown]

theorem FaithfulDevice.backup_eq (h : FaithfulDevice dev info bytes content) (s : σ)
    (known : GPTLayout) :
    (content s).backup env known = if info.lastLBA > 0 then
      (content s).headerAt env (effectiveSectorSize info.sectorSize) info.lastLBA .gptBackupMissing
    else {} := by
  obtain ⟨hsize, -, hlba⟩ := h.layout_eq s known
  rw [FlashContent.backup, hsize, hlba]

theorem FaithfulDevice.mbr_ne (h : FaithfulDevice dev info bytes content) (s : σ)
    (known : GPTLayout) (hpos : 0 < info.numSectors.toNat) : (content s).mbr known ≠ [] := by
  have hrange : InRange info (0 : UInt64).toNat := ⟨hpos, by simp⟩
  rw [FlashContent.mbr, (h.layout_eq s known).1, sector_eq h, if_pos hrange]
  intro hempty
  have hlength := congrArg List.length hempty
  rw [ByteStore.slice_length, List.length_nil] at hlength
  exact Nat.ne_of_gt info.sectorBytes_pos hlength

/-- Two copies of a table make the disk redundant. -/
theorem redundant_of_copies (h : FaithfulDevice dev info bytes content) {s : σ}
    {primary backup : GPTHeader} {entries : List PartitionEntry}
    (hprimary : GptCopy env info (bytes s) 1 primary entries)
    (hbackup : GptCopy env info (bytes s) info.lastLBA.toNat backup entries) :
    Redundant env dev s entries := by
  have htwo : 1 < info.numSectors.toNat := hprimary.sector.inRange.1
  have hlast : info.lastLBA > 0 := by
    rw [gt_iff_lt, UInt64.lt_iff_toNat_lt, info.lastLBA_toNat, UInt64.toNat_zero]
    omega
  have hprimaryArray := hprimary.array.entriesOf h
  have hbackupArray := hbackup.array.entriesOf h
  constructor
  · intro p hp
    obtain ⟨s', p', hrun, -⟩ := parse_run env h.stable s p
    refine ⟨_, _, hrun, ?_⟩
    have hprimaryCheck :
        (content s).primary env p.layout = { header := primary, valid := true } := by
      rw [h.primary_eq s hp]
      exact hprimary.sector.headerAt h _
    have hbackupCheck : (content s).backup env p.layout = { header := backup, valid := true } := by
      rw [h.backup_eq, if_pos hlast]
      exact hbackup.sector.headerAt h _
    have htable := parsed_primary (h.mbr_ne s p.layout (by omega))
      (show ((content s).primary env p.layout).valid = true by rw [hprimaryCheck])
    rw [hprimaryCheck, hbackupCheck, (h.layout_eq s p.layout).1, hprimaryArray] at htable
    refine ⟨?_, htable.backupValid, htable.entriesValid, htable.entries⟩
    rw [htable.primaryValid]
    rfl
  · intro p
    obtain ⟨s', p', hrun, -⟩ := parseBackup_run env h.stable s p
    refine ⟨_, _, hrun, ?_⟩
    obtain ⟨hsize, hlba⟩ := h.backupLayout_eq s p.layout
    have hcheck : (content s).headerAt env ((content s).backupLayout p.layout).sectorSize
        ((content s).backupLayout p.layout).backupHeaderLBA .gptBackupMissing
          = { header := backup, valid := true } := by
      rw [hsize, hlba]
      exact hbackup.sector.headerAt h _
    have htable := parsedBackup_valid
      (by rw [hlba]; exact fun hzero => by rw [hzero] at hlast; exact absurd hlast (by decide))
      (show ((content s).headerAt env ((content s).backupLayout p.layout).sectorSize
        ((content s).backupLayout p.layout).backupHeaderLBA .gptBackupMissing).valid = true by
          rw [hcheck])
    rw [hcheck, hsize] at htable
    simp only [hbackupArray] at htable
    refine ⟨?_, htable.entriesValid, htable.entries⟩
    rw [htable.backupValid]
    rfl

theorem parsed_primaryValid {c : FlashContent} {known : GPTLayout}
    (h : (c.parsed env known).table.primaryValid = true) :
    c.mbr known ≠ [] ∧ (c.primary env known).valid = true := by
  by_cases hmbr : c.mbr known = []
  · rw [parsed_unreadable hmbr] at h
    cases h
  refine ⟨hmbr, ?_⟩
  rcases hprimary : (c.primary env known).valid with _ | _
  · rcases hbackup : (c.backup env known).valid with _ | _
    · rw [(parsed_none hmbr hprimary hbackup).primaryValid] at h
      cases h
    · rw [(parsed_backup hmbr hprimary hbackup).primaryValid] at h
      cases h
  · rfl

theorem parsedBackup_backupValid {c : FlashContent} {known : GPTLayout}
    (h : (c.parsedBackup env known).table.backupValid = true) :
    (c.backupLayout known).backupHeaderLBA ≠ 0 ∧
      (c.headerAt env (c.backupLayout known).sectorSize (c.backupLayout known).backupHeaderLBA
        .gptBackupMissing).valid = true := by
  by_cases hlba : (c.backupLayout known).backupHeaderLBA = 0
  · rw [FlashContent.parsedBackup, if_pos hlba] at h
    cases h
  refine ⟨hlba, ?_⟩
  rcases hvalid : (c.headerAt env (c.backupLayout known).sectorSize
    (c.backupLayout known).backupHeaderLBA .gptBackupMissing).valid with _ | _
  · rw [FlashContent.parsedBackup, if_neg hlba] at h
    rw [(withEntries_none ⟨rfl, rfl, rfl, hvalid, rfl, rfl⟩).backupValid] at h
    cases h
  · rfl

/-- Only two copies of a table make a disk redundant. -/
theorem copies_of_redundant (h : FaithfulDevice dev info bytes content) {s : σ}
    {entries : List PartitionEntry} (hredundant : Redundant env dev s entries) :
    ∃ primary backup, GptCopy env info (bytes s) 1 primary entries ∧
      GptCopy env info (bytes s) info.lastLBA.toNat backup entries := by
  obtain ⟨result, s₁, hrun, hprimary, -, hvalid, hentries⟩ := hredundant.parse {} rfl
  obtain ⟨s₂, p₂, hparse, -⟩ := parse_run env h.stable s {}
  obtain ⟨result', s₃, hrun', hbackup, hvalid', hentries'⟩ := hredundant.parseBackup {}
  obtain ⟨s₄, p₄, hparse', -⟩ := parseBackup_run env h.stable s {}
  rw [hrun, Prod.mk.injEq, Except.ok.injEq] at hparse
  rw [hrun', Prod.mk.injEq, Except.ok.injEq] at hparse'
  rw [hparse.1] at hprimary hvalid hentries
  rw [hparse'.1] at hbackup hvalid' hentries'
  -- each parse took its header and the array the header points to
  obtain ⟨hmbr, hheader⟩ := parsed_primaryValid hprimary
  obtain ⟨hlba, hheader'⟩ := parsedBackup_backupValid hbackup
  have htable := parsed_primary hmbr hheader
  have htable' := parsedBackup_valid hlba hheader'
  obtain ⟨hsize, hlast⟩ := h.backupLayout_eq s {}
  rw [htable.entriesValid, (h.layout_eq s {}).1] at hvalid
  rw [htable.entries, (h.layout_eq s {}).1] at hentries
  rw [htable'.entriesValid, hsize, hlast] at hvalid'
  rw [htable'.entries, hsize, hlast] at hentries'
  rw [hsize, hlast] at hheader'
  rw [h.primary_eq s rfl] at hheader hvalid hentries
  have harray := arrayCopy_of_valid h hvalid
  have harray' := arrayCopy_of_valid h hvalid'
  rw [hentries] at harray
  rw [hentries'] at harray'
  exact ⟨_, _, ⟨headerCopy_of_valid h hheader, harray⟩, headerCopy_of_valid h hheader', harray'⟩

end Redundancy

theorem HeaderCopy.accepted {env : GPTEnv} {info : StorageInfo} {store : ByteStore} {lba : Nat}
    {header : GPTHeader} (h : HeaderCopy env info store lba header) :
    HeaderAccepted env (store.slice (lba * info.sectorBytes) info.sectorBytes) ∧
      readHeader (store.slice (lba * info.sectorBytes) info.sectorBytes) = header := by
  have hcheck := h.check .gptPrimaryMissing
  have haccepted := accepted_of_valid (show (checkHeader env
    (store.slice (lba * info.sectorBytes) info.sectorBytes) .gptPrimaryMissing).valid = true by
      rw [hcheck])
  rw [checkHeader_accepted haccepted] at hcheck
  exact ⟨haccepted, congrArg HeaderCheck.header hcheck⟩

theorem HeaderCopy.signature {env : GPTEnv} {info : StorageInfo} {store : ByteStore} {lba : Nat}
    {header : GPTHeader} (h : HeaderCopy env info store lba header) :
    header.hasValidSignature = true := by
  obtain ⟨⟨-, hsignature, -, -⟩, hheader⟩ := h.accepted
  rwa [hheader] at hsignature

/-- The signature's first byte. -/
theorem HeaderCopy.first_byte {env : GPTEnv} {info : StorageInfo} {store : ByteStore} {lba : Nat}
    {header : GPTHeader} (h : HeaderCopy env info store lba header) :
    store (lba * info.sectorBytes) = 0x45 := by
  obtain ⟨⟨hlength, hsignature, -, -⟩, -⟩ := h.accepted
  have hsize := ByteStore.slice_length store (lba * info.sectorBytes) info.sectorBytes
  rw [readHeader, if_neg (by omega)] at hsignature
  have hword := congrArg UInt64.toNat (of_decide_eq_true hsignature)
  rw [LittleEndian.readLE64, if_neg (by omega), LittleEndian.decode64_toNat,
    ByteStore.slice_getD _ _ (by omega), Nat.add_zero] at hword
  have hbyte := (store (lba * info.sectorBytes)).toNat_lt
  rw [show GPTHeader.Signature.toNat = 0x5452415020494645 from rfl] at hword
  apply UInt8.toNat_inj.mp
  rw [show (0x45 : UInt8).toNat = 0x45 from rfl]
  omega

end MBootCore
