import MBootCore.Gpt.PartitionManager

/-!
# GPT — PartitionRange

The bytes of a partition. The offset of a `PartitionInfo` is in sectors of the
disk, its length in sectors of 512 bytes, and a partition of one sector has the
length 0: the law holds on disks with 512-byte sectors, for partitions of two
sectors and more.
-/

namespace MBootCore

structure PartitionRange where
  firstLBA : UInt64 := 0
  lastLBA : UInt64 := 0
  deriving DecidableEq, Repr

def PartitionRange.contains (range : PartitionRange) (lba : UInt64) : Bool :=
  lba ≥ range.firstLBA && lba ≤ range.lastLBA

namespace PartitionManager

/-- The offset and the length of an entry in sectors of this size, and what they
say of the sectors of its range. -/
structure SizeLaw (sectorSize : Nat) (entry : PartitionEntry) (info : PartitionInfo) : Prop where
  byteOffset : info.byteOffset.toNat = entry.firstLBA.toNat * sectorSize
  byteLength : info.byteLength.toNat
    = (entry.lastLBA.toNat - entry.firstLBA.toNat + 1) * sectorSize
  contains : ∀ lba : UInt64,
    (PartitionRange.mk info.firstLBA info.lastLBA).contains lba = true ↔
      ∀ i < sectorSize, info.byteOffset.toNat ≤ lba.toNat * sectorSize + i ∧
        lba.toNat * sectorSize + i < info.byteOffset.toNat + info.byteLength.toNat

theorem sizeInLBAs_toNat {entry : PartitionEntry} (h : entry.firstLBA < entry.lastLBA)
    (hlast : entry.lastLBA.toNat - entry.firstLBA.toNat + 1 < 2 ^ 64) :
    entry.sizeInLBAs.toNat = entry.lastLBA.toNat - entry.firstLBA.toNat + 1 := by
  have hlt := UInt64.lt_iff_toNat_lt.mp h
  rw [PartitionEntry.sizeInLBAs, if_neg (UInt64.not_le.mpr h), UInt64.toNat_add,
    UInt64.toNat_sub_of_le _ _ (UInt64.le_of_lt h)]
  exact Nat.mod_eq_of_lt hlast

theorem sizeInBytes_toNat {entry : PartitionEntry} (h : entry.firstLBA < entry.lastLBA)
    (hlength : (entry.lastLBA.toNat - entry.firstLBA.toNat + 1) * 512 < 2 ^ 64) :
    entry.sizeInBytes.toNat = (entry.lastLBA.toNat - entry.firstLBA.toNat + 1) * 512 := by
  have hlbas := sizeInLBAs_toNat h (by omega)
  have hmax : (UInt64.ofNat (2 ^ 64 - 1) / 512).toNat = (2 ^ 64 - 1) / 512 := rfl
  have hsmall : ¬ entry.sizeInLBAs > UInt64.ofNat (2 ^ 64 - 1) / 512 := by
    rw [gt_iff_lt, UInt64.lt_iff_toNat_lt, hmax, hlbas]
    omega
  rw [PartitionEntry.sizeInBytes, if_neg hsmall, UInt64.toNat_mul, hlbas]
  exact Nat.mod_eq_of_lt hlength

/-- A length that is not 0 counts in sectors of 512 bytes, and the one sector of a
partition that has no other is not counted. -/
theorem sectorSize_of_sizeInBytes {entry : PartitionEntry} (h : entry.firstLBA ≤ entry.lastLBA)
    {sectorSize : Nat} (hpos : 0 < sectorSize)
    (hlength : (entry.lastLBA.toNat - entry.firstLBA.toNat + 1) * sectorSize < 2 ^ 64)
    (hlaw : entry.sizeInBytes.toNat
      = (entry.lastLBA.toNat - entry.firstLBA.toNat + 1) * sectorSize) :
    sectorSize = 512 ∧ entry.firstLBA < entry.lastLBA := by
  have hle := UInt64.le_iff_toNat_le.mp h
  generalize hn : entry.lastLBA.toNat - entry.firstLBA.toNat + 1 = n at hlength hlaw
  have hnonzero : 0 < n * sectorSize := Nat.mul_pos (by omega) hpos
  by_cases hlt : entry.firstLBA < entry.lastLBA
  · refine ⟨?_, hlt⟩
    have hsmall : n < 2 ^ 64 := by
      calc n = n * 1 := (Nat.mul_one n).symm
        _ ≤ n * sectorSize := Nat.mul_le_mul_left n hpos
        _ < 2 ^ 64 := hlength
    have hlbas : entry.sizeInLBAs.toNat = n := hn ▸ sizeInLBAs_toNat hlt (hn.symm ▸ hsmall)
    have hmax : (UInt64.ofNat (2 ^ 64 - 1) / 512).toNat = (2 ^ 64 - 1) / 512 := rfl
    by_cases hbig : entry.sizeInLBAs > UInt64.ofNat (2 ^ 64 - 1) / 512
    · rw [PartitionEntry.sizeInBytes, if_pos hbig] at hlaw
      rw [← hlaw] at hnonzero
      cases hnonzero
    · have hbytes : n * 512 < 2 ^ 64 := by
        rw [gt_iff_lt, UInt64.lt_iff_toNat_lt, hmax, hlbas] at hbig
        omega
      rw [sizeInBytes_toNat hlt (hn.symm ▸ hbytes), hn] at hlaw
      exact (Nat.eq_of_mul_eq_mul_left (by omega) hlaw).symm
  · have hzero : entry.sizeInLBAs = 0 := if_pos (UInt64.not_lt.mp hlt)
    have hnone : entry.sizeInBytes.toNat = 0 := by
      rw [PartitionEntry.sizeInBytes, hzero]
      rfl
    omega

/-- The law holds of an entry whose bytes have 64-bit addresses exactly on a disk
with 512-byte sectors, and for more than one of them. -/
theorem sizeLaw_iff (layout : GPTLayout) {entry : PartitionEntry}
    (h : entry.firstLBA ≤ entry.lastLBA) (hpos : 0 < layout.sectorSize)
    (hend : (entry.lastLBA.toNat + 1) * layout.sectorSize.toNat ≤ 2 ^ 64)
    (hlength : (entry.lastLBA.toNat - entry.firstLBA.toNat + 1) * layout.sectorSize.toNat
      < 2 ^ 64) :
    SizeLaw layout.sectorSize.toNat entry (entryToInfo layout entry) ↔
      layout.sectorSize = 512 ∧ entry.firstLBA < entry.lastLBA := by
  constructor
  · intro hlaw
    obtain ⟨hsize, hlt⟩ := sectorSize_of_sizeInBytes h (UInt32.lt_iff_toNat_lt.mp hpos) hlength
      hlaw.byteLength
    exact ⟨UInt32.toNat_inj.mp hsize, hlt⟩
  · rintro ⟨hsize, hlt⟩
    have h512 : layout.sectorSize.toNat = 512 := by rw [hsize]; rfl
    rw [h512] at hend hlength ⊢
    have hle := UInt64.lt_iff_toNat_lt.mp hlt
    have hsmall : entry.firstLBA.toNat * 512 < 2 ^ 64 :=
      Nat.lt_of_lt_of_le (Nat.mul_lt_mul_of_pos_right (Nat.lt_succ_of_lt hle) (by decide)) hend
    have hoffset : (entryToInfo layout entry).byteOffset.toNat = entry.firstLBA.toNat * 512 := by
      have hmul : (entry.firstLBA * layout.sectorSize.toUInt64).toNat
          = entry.firstLBA.toNat * layout.sectorSize.toUInt64.toNat := by
        rw [UInt64.toNat_mul, UInt32.toNat_toUInt64, h512, Nat.mod_eq_of_lt hsmall]
      rw [entryToInfo, safeMul_eq_some.mpr hmul, Option.getD_some, hmul,
        UInt32.toNat_toUInt64, h512]
    have hbytes : (entryToInfo layout entry).byteLength.toNat
        = (entry.lastLBA.toNat - entry.firstLBA.toNat + 1) * 512 := sizeInBytes_toNat hlt hlength
    refine ⟨hoffset, hbytes, fun lba => ?_⟩
    have hcontains : (PartitionRange.mk entry.firstLBA entry.lastLBA).contains lba = true ↔
        entry.firstLBA.toNat ≤ lba.toNat ∧ lba.toNat ≤ entry.lastLBA.toNat := by
      simp [PartitionRange.contains, UInt64.le_iff_toNat_le]
    rw [hoffset, hbytes]
    refine hcontains.trans ⟨fun hin i hi => by omega, fun hin => ?_⟩
    have hfirst := hin 0 (by decide)
    omega

theorem sizeLaw_twoSectors :
    SizeLaw 512 { firstLBA := 34, lastLBA := 35 }
        (entryToInfo {} { firstLBA := 34, lastLBA := 35 }) ↔
      ((512 : UInt32) = 512 ∧ (34 : UInt64) < 35) :=
  sizeLaw_iff {} (by decide) (by decide) (by simp) (by simp)

/-- A disk with sectors of 4096 bytes. -/
theorem sizeLaw_largeSectors :
    ¬ ∀ (layout : GPTLayout) (entry : PartitionEntry), entry.isUsed = true →
      entry.firstLBA ≤ entry.lastLBA → 0 < layout.sectorSize →
        (entry.lastLBA.toNat + 1) * layout.sectorSize.toNat < 2 ^ 64 →
          SizeLaw layout.sectorSize.toNat entry (entryToInfo layout entry) := by
  intro hall
  have hlaw := hall { sectorSize := 4096 }
    { partitionTypeGUID := { data1 := 1 }, firstLBA := 34, lastLBA := 35 } (by decide) (by decide)
    (by decide) (by decide)
  have hlength := hlaw.byteLength
  revert hlength
  decide

end PartitionManager

end MBootCore
