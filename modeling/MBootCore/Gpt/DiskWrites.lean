import MBootCore.Gpt.DiskCopies
import MBootCore.Gpt.Writer

/-!
# GPT — DiskWrites

What a successful step of the writer leaves on a faithful disk. Each writes
one region (`Wrote`); a header or an array just written is a copy of the kind
`DiskCopies` asks for, and a copy apart from the region stays one.
-/

namespace MBootCore

open GPTParser ByteStore
open FaithfulDevice (InRange ArrayInRange)

/-! ## Written copies -/

/-- A header with GPT's signature and the CRC the writer computes for it. -/
structure HeaderSealed (env : GPTEnv) (header : GPTHeader) : Prop where
  signature : header.hasValidSignature = true
  headerCRC : GPTWriter.computeHeaderCRC env header = .ok header.headerCrc32

section Written

variable {env : GPTEnv} {info : StorageInfo} {store : ByteStore} {header : GPTHeader}

/-- The parser's CRC input of a written header is the writer's. -/
theorem crcInput_serialize (rest : ByteBuffer) (headerSize : UInt32) :
    crcInput env (serializeHeader header ++ rest) headerSize
      = (LittleEndian.patch (serializeHeader header) 16 [0, 0, 0, 0]).take
          (min headerSize 512).toNat := by
  have hpatch : LittleEndian.patch (serializeHeader header ++ rest) 16 [0, 0, 0, 0]
      = LittleEndian.patch (serializeHeader header) 16 [0, 0, 0, 0] ++ rest := by
    rw [LittleEndian.patch, LittleEndian.patch, List.take_append_of_le_length (by simp),
      List.drop_append_of_le_length (by simp)]
    simp only [List.append_assoc]
  have hlength : (LittleEndian.patch (serializeHeader header) 16 [0, 0, 0, 0]).length = 512 := by
    simp [LittleEndian.patch]
  have hmin : (min headerSize 512).toNat ≤ 512 := by
    show (if headerSize ≤ 512 then headerSize else 512).toNat ≤ 512
    split
    · exact UInt32.le_iff_toNat_le.mp ‹headerSize ≤ 512›
    · decide
  rw [crcInput, hpatch, List.append_assoc, List.take_append_of_le_length (by omega)]

theorem accepted_serialize (h : HeaderSealed env header) (rest : ByteBuffer) :
    HeaderAccepted env (serializeHeader header ++ rest) := by
  have hlength : 92 ≤ (serializeHeader header ++ rest).length := by
    rw [List.length_append, serializeHeader_length]
    omega
  have hcrc := h.headerCRC
  rw [GPTWriter.computeHeaderCRC] at hcrc
  split at hcrc
  · cases hcrc
  · rename_i hsize
    rw [HeaderAccepted, readHeader_serialize, crcInput_serialize]
    exact ⟨hlength, h.signature, UInt32.not_lt.mp hsize, Except.ok.inj hcrc⟩

/-- A header keeps its other fields when its CRC is put in, and is sealed by it. -/
theorem sealed_of_crc {crc : UInt32} (hsignature : header.hasValidSignature = true)
    (hcrc : GPTWriter.computeHeaderCRC env header = .ok crc) :
    HeaderSealed env { header with headerCrc32 := crc } := by
  refine ⟨hsignature, ?_⟩
  rw [← hcrc, GPTWriter.computeHeaderCRC, GPTWriter.computeHeaderCRC, patch_serializeHeader]

theorem sealed_of_update {updated : GPTHeader} (hsignature : header.hasValidSignature = true)
    (hupdate : GPTWriter.updateHeaderCRC env header = .ok updated) :
    HeaderSealed env updated ∧ updated = { header with headerCrc32 := updated.headerCrc32 } := by
  rw [GPTWriter.updateHeaderCRC] at hupdate
  cases hcrc : GPTWriter.computeHeaderCRC env header with
  | error e =>
    rw [hcrc] at hupdate
    cases hupdate
  | ok crc =>
    rw [hcrc] at hupdate
    cases hupdate
    exact ⟨sealed_of_crc hsignature hcrc, rfl⟩

/-- A written header is a header copy. -/
theorem HeaderSealed.copy (h : HeaderSealed env header) {lba : Nat} (hrange : InRange info lba)
    (hsize : 512 ≤ info.sectorBytes)
    (hslice : store.slice (lba * info.sectorBytes) 512 = serializeHeader header) :
    HeaderCopy env info store lba header := by
  refine ⟨hrange, fun missing => ?_⟩
  rw [store.slice_split hsize, hslice, checkHeader_accepted (accepted_serialize h _),
    readHeader_serialize]

theorem HeaderCopy.unique {lba : Nat} {other : GPTHeader}
    (h : HeaderCopy env info store lba header) (hother : HeaderCopy env info store lba other) :
    header = other := by
  have hcheck := h.check .gptPrimaryMissing
  rw [hother.check] at hcheck
  exact (congrArg HeaderCheck.header hcheck).symm

/-- A header copy depends on its sector only. -/
theorem HeaderCopy.congr {other : ByteStore} {lba : Nat} (h : HeaderCopy env info store lba header)
    (hslice : other.slice (lba * info.sectorBytes) info.sectorBytes
      = store.slice (lba * info.sectorBytes) info.sectorBytes) :
    HeaderCopy env info other lba header :=
  ⟨h.inRange, fun missing => by rw [hslice, h.check]⟩

/-- An array copy depends on its bytes, and on what the header says of it. -/
theorem ArrayCopy.congr {other : ByteStore} {entries : List PartitionEntry}
    (h : ArrayCopy env info store header entries)
    (hslice : other.slice (header.partitionEntryLBA.toNat * info.sectorBytes) header.arrayBytes
      = store.slice (header.partitionEntryLBA.toNat * info.sectorBytes) header.arrayBytes) :
    ArrayCopy env info other header entries :=
  ⟨h.fields, h.inRange, by rw [hslice, h.decodes], h.entryCRC⟩

end Written

/-! ## The writer's steps -/

/-- `data` was written at an LBA, and nothing else. -/
structure Wrote {σ : Type} (info : StorageInfo) (bytes : σ → ByteStore) (lba : UInt64)
    (data : ByteBuffer) (s t : σ × GPTWriter) : Prop where
  addressable : lba.toNat * info.sectorBytes < 2 ^ 64
  inside : lba.toNat * info.sectorBytes + data.length ≤ info.capacity
  bytes_eq : bytes t.1 = (bytes s.1).overlay (lba.toNat * info.sectorBytes) data
  layout : t.2.layout = s.2.layout

namespace GPTWriter

variable {σ : Type} {env : GPTEnv} {dev : FlashDevice σ} {info : StorageInfo}
  {bytes : σ → ByteStore} {content : σ → FlashContent} {s t : σ × GPTWriter}

theorem writeSectors_ok (h : FaithfulDevice dev info bytes content)
    (hlayout : s.2.layout = initialLayout (.ok info)) {lba : UInt64} {data : ByteBuffer}
    (hrun : writeSectors dev lba data s = (.ok (), t)) : Wrote info bytes lba data s t := by
  have hsize : s.2.layout.sectorSize.toUInt64.toNat = info.sectorBytes := by
    rw [hlayout]
    exact UInt32.toNat_toUInt64 _
  rw [writeSectors, Program.run_bind_ok (Program.run_gets _ _)] at hrun
  cases hmul : safeMul lba s.2.layout.sectorSize.toUInt64 with
  | none =>
    rw [hmul] at hrun
    cases hrun
  | some byteOffset =>
    have hoffset := safeMul_eq_some.mp hmul
    rw [hsize] at hoffset
    rw [hmul] at hrun
    simp only [onDevice, Program.run_zoom, Prod.mk.injEq] at hrun
    obtain ⟨hok, rfl⟩ := hrun
    obtain ⟨hinside, hbytes⟩ := h.write_ok (s := s.1) (Prod.ext hok rfl)
    rw [hoffset] at hinside hbytes
    exact ⟨hoffset ▸ byteOffset.toNat_lt, hinside, hbytes, rfl⟩

theorem writePrimaryHeader_ok (h : FaithfulDevice dev info bytes content)
    (hlayout : s.2.layout = initialLayout (.ok info)) {header : GPTHeader}
    (hrun : writePrimaryHeader dev header s = (.ok (), t)) :
    Wrote info bytes 1 (serializeHeader header) s t := by
  rw [writePrimaryHeader, Program.run_bind_ok (Program.run_gets _ _), hlayout] at hrun
  exact writeSectors_ok h hlayout hrun

theorem writeBackupHeader_ok (h : FaithfulDevice dev info bytes content)
    (hlayout : s.2.layout = initialLayout (.ok info)) {header : GPTHeader}
    (hrun : writeBackupHeader env dev header s = (.ok (), t)) :
    ∃ backupHdr, updateHeaderCRC env (backupOf (initialLayout (.ok info)) header) = .ok backupHdr ∧
      Wrote info bytes info.lastLBA (serializeHeader backupHdr) s t := by
  rw [writeBackupHeader, Program.run_bind_ok (Program.run_gets _ _), hlayout] at hrun
  obtain ⟨backupHdr, s₁, hupdate, hwrite⟩ := Program.bind_eq_ok.mp hrun
  obtain ⟨hbackupHdr, rfl⟩ := Prod.mk.inj hupdate
  exact ⟨backupHdr, hbackupHdr, writeSectors_ok h hlayout hwrite⟩

theorem serializeEntries_eq {header : GPTHeader} (hfields : validateEntryFields
    header.numberOfPartitionEntries header.sizeOfPartitionEntry = true)
    (entries : List PartitionEntry) :
    serializeEntries entries header.numberOfPartitionEntries.toUInt64
        header.sizeOfPartitionEntry.toUInt64
      = entryImage entries header.numberOfPartitionEntries.toNat
          header.sizeOfPartitionEntry.toNat := by
  have hpos : 0 < header.numberOfPartitionEntries.toNat * header.sizeOfPartitionEntry.toNat :=
    GPTHeader.arrayBytes_pos hfields
  rw [serializeEntries, (safeMul_toUInt64 _ _).2, if_neg (Nat.ne_of_gt hpos),
    UInt32.toNat_toUInt64, UInt32.toNat_toUInt64]

theorem image_length {header : GPTHeader} (hfields : validateEntryFields
    header.numberOfPartitionEntries header.sizeOfPartitionEntry = true)
    (entries : List PartitionEntry) :
    (entryImage entries header.numberOfPartitionEntries.toNat
      header.sizeOfPartitionEntry.toNat).length = header.arrayBytes :=
  entryImage_length ((validateEntryFields_iff _ _).mp hfields).2.1 entries _

theorem image_ne_nil {header : GPTHeader} (hfields : validateEntryFields
    header.numberOfPartitionEntries header.sizeOfPartitionEntry = true)
    (entries : List PartitionEntry) :
    entryImage entries header.numberOfPartitionEntries.toNat
      header.sizeOfPartitionEntry.toNat ≠ [] := by
  intro hempty
  have hlength := image_length hfields entries
  rw [hempty] at hlength
  exact Nat.ne_of_lt (GPTHeader.arrayBytes_pos hfields) hlength

theorem computeEntryCRC_eq {header : GPTHeader} (hfields : validateEntryFields
    header.numberOfPartitionEntries header.sizeOfPartitionEntry = true)
    (entries : List PartitionEntry) :
    computeEntryCRC env entries header.numberOfPartitionEntries.toUInt64
        header.sizeOfPartitionEntry.toUInt64
      = env.crc32 (entryImage entries header.numberOfPartitionEntries.toNat
          header.sizeOfPartitionEntry.toNat) := by
  simp only [computeEntryCRC, serializeEntries_eq hfields, if_neg (image_ne_nil hfields entries)]

theorem writePartitionEntries_ok (h : FaithfulDevice dev info bytes content)
    (hlayout : s.2.layout = initialLayout (.ok info)) {header : GPTHeader}
    (hfields : validateEntryFields header.numberOfPartitionEntries
      header.sizeOfPartitionEntry = true) {entries : List PartitionEntry}
    (hrun : writePartitionEntries dev header entries s = (.ok (), t)) :
    Wrote info bytes header.partitionEntryLBA (entryImage entries
      header.numberOfPartitionEntries.toNat header.sizeOfPartitionEntry.toNat) s t := by
  simp only [writePartitionEntries, serializeEntries_eq hfields,
    if_neg (image_ne_nil hfields entries)] at hrun
  obtain ⟨⟨⟩, s₁, hrecord, hwrite⟩ := Program.bind_eq_ok.mp hrun
  cases hrecord
  obtain ⟨haddress, hinside, hbytes, hstays⟩ := writeSectors_ok
    (s := (s.1, { s.2 with arrays := s.2.arrays ++ [entries] })) h hlayout hwrite
  exact ⟨haddress, hinside, hbytes, hstays⟩

end GPTWriter

end MBootCore
