import MBootCore.Generic.FlashDevice

/-!
# Generic — MockFlashDevice

The flash device the partition tests run against: a zero-filled disk of
`numSectors * sectorSize` bytes that checks the range of every access. It is
a faithful device, which is also where the hypotheses of the results about
faithful devices are seen to be satisfiable.
-/

namespace MBootCore

structure MockFlashDevice where
  storage : ByteStore := fun _ => 0
  isOpen : Bool := false

namespace MockFlashDevice

variable (info : StorageInfo)

def isRangeValid (address : UInt64) (size : Nat) : Bool :=
  if address.toNat > info.capacity then false
  else if size > info.capacity - address.toNat then false
  else true

def read (device : MockFlashDevice) (address size : UInt64) : Except ErrorCode ByteBuffer :=
  if isRangeValid info address size.toNat then
    .ok (device.storage.slice address.toNat size.toNat)
  else .error .invalidArgument

def overwrite (d : MockFlashDevice) (address : UInt64) (data : ByteBuffer) : MockFlashDevice :=
  { d with storage := d.storage.overlay address.toNat data }

def device : FlashDevice MockFlashDevice where
  openDevice := Program.modify fun d => { d with isOpen := true }
  getStorageInfo := fun d => (.ok info, d)
  readMemory address size := fun d => (d.read info address size, d)
  writeMemory address data := fun d =>
    if isRangeValid info address data.length then (.ok (), d.overwrite address data)
    else (.error .invalidArgument, d)
  eraseMemory address size := fun d =>
    if isRangeValid info address size.toNat then
      (.ok (), d.overwrite address (List.replicate size.toNat 0))
    else (.error .invalidArgument, d)

def content (d : MockFlashDevice) : FlashContent := ⟨.ok info, d.read info⟩

theorem stableReads : StableReads (device info) (content info) :=
  ⟨fun _ => rfl, fun _ _ _ => rfl⟩

theorem isRangeValid_iff (address : UInt64) (size : Nat) :
    isRangeValid info address size = true ↔ address.toNat + size ≤ info.capacity := by
  unfold isRangeValid
  split
  · simp only [Bool.false_eq_true, false_iff]
    omega
  · split
    · simp only [Bool.false_eq_true, false_iff]
      omega
    · simp only [true_iff]
      omega

theorem faithful : FaithfulDevice (device info) info storage (content info) where
  stable := stableReads info
  open_content _ := rfl
  info_eq _ := rfl
  read_eq s address size h := by
    show s.read info address size = _
    rw [read, if_pos ((isRangeValid_iff info address size.toNat).mpr h)]
  read_outside s address size h := by
    have hinvalid : ¬ isRangeValid info address size.toNat = true := by
      rw [isRangeValid_iff]
      omega
    exact ⟨.invalidArgument, if_neg hinvalid⟩
  write_ok {s s' address data} h := by
    by_cases hvalid : isRangeValid info address data.length = true
    · refine ⟨(isRangeValid_iff info address data.length).mp hvalid, ?_⟩
      simp only [device, hvalid, if_true, Prod.mk.injEq, true_and] at h
      rw [← h, overwrite]
    · simp [device, hvalid] at h

end MockFlashDevice

end MBootCore
