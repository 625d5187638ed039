import MBootCore.Generic.MockFlashDevice
import MBootCore.Gpt.Writer
import MBootCore.Support.Crc32

/-!
# GPT — MockDisk

Disks with GPT copies on them, built as `setupGPT` of the partition tests
builds them: headers whose CRCs are put in last, written next to their
entries into the zero-filled storage of a mock device.
-/

namespace MBootCore

/-- The environment with zlib's CRC. No buffer of these disks is read past
its end. -/
def zlibEnv : GPTEnv where
  crc32 := crc32
  pastEnd _ := []

/-- The header with its own CRC put in. -/
def sealHeader (env : GPTEnv) (header : GPTHeader) : GPTHeader :=
  { header with
    headerCrc32 := env.crc32 ((LittleEndian.patch (serializeHeader header) 16 [0, 0, 0, 0]).take
      (min header.headerSize 512).toNat) }

/-- A sealed header has the CRC the writer computes for it. -/
theorem computeHeaderCRC_seal (env : GPTEnv) {header : GPTHeader}
    (h : GPTHeader.MinHeaderSize ≤ header.headerSize) :
    GPTWriter.computeHeaderCRC env (sealHeader env header)
      = .ok (sealHeader env header).headerCrc32 := by
  have hsize : ¬ (sealHeader env header).headerSize < GPTHeader.MinHeaderSize := by
    simpa [sealHeader] using h
  rw [GPTWriter.computeHeaderCRC, if_neg hsize]
  simp only [sealHeader, patch_serializeHeader]

/-- A header for `entries` in slots of 128 bytes. -/
def setupHeader (env : GPTEnv) (entries : List PartitionEntry) (myLBA partitionEntryLBA : UInt64) :
    GPTHeader :=
  sealHeader env
    { signature := GPTHeader.Signature
      revision := 0x00010000
      headerSize := 92
      myLBA := myLBA
      partitionEntryLBA := partitionEntryLBA
      numberOfPartitionEntries := UInt32.ofNat entries.length
      sizeOfPartitionEntry := 128
      partitionEntriesCRC32 := env.crc32 (entryImage entries entries.length 128) }

namespace MockFlashDevice

/-- The header in the sector it names, on a disk with 512-byte sectors. -/
def putHeader (header : GPTHeader) (d : MockFlashDevice) : MockFlashDevice :=
  d.overwrite (header.myLBA * 512) (serializeHeader header)

def putEntries (lba : UInt64) (entries : List PartitionEntry) (d : MockFlashDevice) :
    MockFlashDevice :=
  d.overwrite (lba * 512) (entryImage entries entries.length 128)

/-- A header and its array. -/
def putCopy (env : GPTEnv) (entries : List PartitionEntry) (myLBA partitionEntryLBA : UInt64)
    (d : MockFlashDevice) : MockFlashDevice :=
  (d.putHeader (setupHeader env entries myLBA partitionEntryLBA)).putEntries partitionEntryLBA
    entries

end MockFlashDevice

def bootName : ByteBuffer := [0x62, 0x6F, 0x6F, 0x74]

/-- A used entry named `boot`. -/
def bootEntry : PartitionEntry where
  partitionTypeGUID := { data1 := 0x49A4D17F, data2 := 0x93A3, data3 := 0x45C1 }
  uniquePartitionGUID := { data1 := 0x11111111 }
  firstLBA := 34
  lastLBA := 100
  name := Vector.ofFn fun i => (bootName.getD i.val 0).toUInt16

/-- Five sectors: room for the headers and for one-sector arrays at 2 and 3. -/
def fiveSectors : StorageInfo := { numSectors := 5, sectorSize := 512 }

/-- Forty sectors, so that a backup array has its place, sector 7. -/
def fortySectors : StorageInfo := { numSectors := 40, sectorSize := 512 }

/-- The backup is intact and the primary header is gone. -/
def lostPrimaryDisk : MockFlashDevice := MockFlashDevice.putCopy zlibEnv [bootEntry] 4 3 {}

end MBootCore
