import MBootCore.Domain.Error
import MBootCore.Domain.Types
import MBootCore.Support.ByteStore
import MBootCore.Support.Program

/-!
# Generic — FlashDevice

The operations of `IFlashDevice` the partition code calls, on a device with
any state. Nothing is assumed about them here: a read may fail, change the
state and answer differently the next time.

Two classes of devices are singled out for the results that need them. A
device has stable reads when what it answers is a function of its content
and reading keeps the content; the content is then itself a device
(`FlashContent.device`), which the real one simulates. A faithful device is
in addition a store of bytes that a successful write changes exactly as asked.
-/

namespace MBootCore

/-- The two members of `StorageInfo` the partition code reads. -/
structure StorageInfo where
  numSectors : UInt64 := 0
  sectorSize : UInt32 := 0
  deriving DecidableEq, Repr

structure FlashDevice (σ : Type) where
  openDevice : Program σ ErrorCode Unit
  getStorageInfo : Program σ ErrorCode StorageInfo
  readMemory (address size : UInt64) : Program σ ErrorCode ByteBuffer
  writeMemory (address : UInt64) (data : ByteBuffer) : Program σ ErrorCode Unit
  eraseMemory (address size : UInt64) : Program σ ErrorCode Unit

/-! ## Stable reads -/

/-- What a device would answer to every question that does not change it. -/
structure FlashContent where
  info : Except ErrorCode StorageInfo
  read (address size : UInt64) : Except ErrorCode ByteBuffer

/-- A content as a device that refuses all changes. -/
def FlashContent.device : FlashDevice FlashContent where
  openDevice := pure ()
  getStorageInfo := fun content => (content.info, content)
  readMemory address size := fun content => (content.read address size, content)
  writeMemory _ _ := Program.fail .notSupported
  eraseMemory _ _ := Program.fail .notSupported

/-- The device answers from its content, and answering keeps the content. -/
structure StableReads {σ : Type} (dev : FlashDevice σ) (content : σ → FlashContent) : Prop where
  getStorageInfo : Program.Simulates content dev.getStorageInfo FlashContent.device.getStorageInfo
  readMemory (address size : UInt64) : Program.Simulates content (dev.readMemory address size)
    (FlashContent.device.readMemory address size)

/-! ## Faithful devices -/

/-- A sector size of zero stands for 512 everywhere in the partition code. -/
def effectiveSectorSize (sectorSize : UInt32) : UInt32 :=
  if sectorSize = 0 then 512 else sectorSize

theorem effectiveSectorSize_pos (sectorSize : UInt32) :
    0 < (effectiveSectorSize sectorSize).toNat := by
  unfold effectiveSectorSize
  split
  · decide
  · rename_i h
    exact Nat.pos_of_ne_zero fun hzero => h (UInt32.toNat_inj.mp hzero)

namespace StorageInfo

/-- The bytes of a sector. -/
def sectorBytes (info : StorageInfo) : Nat := (effectiveSectorSize info.sectorSize).toNat

/-- The bytes of the disk. -/
def capacity (info : StorageInfo) : Nat := info.numSectors.toNat * info.sectorBytes

theorem sectorBytes_pos (info : StorageInfo) : 0 < info.sectorBytes :=
  effectiveSectorSize_pos info.sectorSize

end StorageInfo

/-- Reads return what was last written and fail outside the disk, a successful
write changes the given bytes and no others, and the storage info is constant. -/
structure FaithfulDevice {σ : Type} (dev : FlashDevice σ) (info : StorageInfo)
    (bytes : σ → ByteStore) (content : σ → FlashContent) : Prop where
  stable : StableReads dev content
  open_content (s : σ) : content (dev.openDevice s).2 = content s
  info_eq (s : σ) : (content s).info = .ok info
  read_eq (s : σ) {address size : UInt64} (h : address.toNat + size.toNat ≤ info.capacity) :
    (content s).read address size = .ok ((bytes s).slice address.toNat size.toNat)
  read_outside (s : σ) {address size : UInt64} (h : info.capacity < address.toNat + size.toNat) :
    ∃ e, (content s).read address size = .error e
  write_ok {s s' : σ} {address : UInt64} {data : ByteBuffer}
    (h : dev.writeMemory address data s = (.ok (), s')) :
    address.toNat + data.length ≤ info.capacity ∧
      bytes s' = (bytes s).overlay address.toNat data

end MBootCore
