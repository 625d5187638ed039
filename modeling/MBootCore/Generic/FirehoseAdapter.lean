import MBootCore.Domain.SafeParser
import MBootCore.Firehose.Protocol
import MBootCore.Generic.FlashDevice

/-!
# Generic — FirehoseAdapter

`FirehoseAdapter`: a flash device addressed by the byte, on top of the sector
commands of the Firehose protocol. Byte ranges are mapped to ranges of whole
4096-byte sectors; what is written is padded, what is read is trimmed.

The partition operations name a partition in the command at most. None of them
sets a start sector.
-/

namespace MBootCore

structure SectorMapping where
  startSector : Nat := 0
  sectorSize : UInt32 := 0
  numSectors : Nat := 0
  offset : Nat := 0
  deriving DecidableEq, Repr

namespace SectorMapping

/-- `std::numeric_limits<uint64_t>::max()`. -/
def maxUint64 : Nat := 2 ^ 64 - 1

/-- `a * b` where it fits. -/
def safeMul (a b : Nat) : Option Nat :=
  if a ≠ 0 ∧ b > maxUint64 / a then none else some (a * b)

/-- `a + b` where it fits. -/
def safeAdd (a b : Nat) : Option Nat := if b > maxUint64 - a then none else some (a + b)

/-- A range whose end does not fit is mapped to no sectors. -/
def byteAddressToSectors (byteAddress byteSize : Nat) (sectorSize : UInt32) : SectorMapping :=
  if sectorSize = 0 then { sectorSize := sectorSize }
  else
    let sm : SectorMapping :=
      { startSector := byteAddress / sectorSize.toNat
        sectorSize := sectorSize
        offset := byteAddress % sectorSize.toNat }
    match safeAdd byteAddress byteSize with
    | none => sm
    | some endByte =>
      match safeAdd endByte (sectorSize.toNat - 1) with
      | none => sm
      | some roundedEnd => { sm with numSectors := roundedEnd / sectorSize.toNat - sm.startSector }

/-- A start or a count that a command has no room for. -/
def tooLarge (sm : SectorMapping) : Bool :=
  sm.startSector > 0xFFFFFFFF || sm.numSectors > 0xFFFFFFFF

def readCommand (sm : SectorMapping) : ReadCommand where
  startSector := sm.startSector.toUInt32
  sectorSize := sm.sectorSize
  numSectorSize := sm.numSectors.toUInt32

def programCommand (sm : SectorMapping) : ProgramCommand where
  startSector := sm.startSector.toUInt32
  sectorSize := sm.sectorSize
  numSectorSize := sm.numSectors.toUInt32

def eraseCommand (sm : SectorMapping) : EraseCommand where
  startSector := sm.startSector.toUInt32
  sectorSize := sm.sectorSize
  numSectorSize := sm.numSectors.toUInt32

end SectorMapping

/-- What a copy of `size` bytes from `offset` on makes of a buffer that is
shorter. The language leaves it undefined. -/
abbrev CopyPastEnd : Type := ByteBuffer → Nat → Nat → ByteBuffer

/-- `ByteBuffer(raw.begin() + offset, raw.begin() + (offset + size))`. -/
def copyRange (u : CopyPastEnd) (raw : ByteBuffer) (offset size : Nat) : ByteBuffer :=
  if offset + size ≤ raw.length then (raw.drop offset).take size else u raw offset size

/-- Opening and closing the transport under the adapter. -/
structure TransportControl (τ : Type) where
  openTransport : Program τ ErrorCode Unit
  closeTransport : τ → τ

structure FirehoseAdapter (τ : Type) where
  protocol : FirehoseProtocol τ
  isOpen : Bool := false

namespace FirehoseAdapter

variable {τ : Type}

abbrev Method (τ α : Type) : Type := Program (FirehoseAdapter τ) ErrorCode α

/-- A call of the protocol. -/
def onProtocol {α : Type} (p : FirehoseProtocol.Method τ α) : Method τ α :=
  Program.zoom protocol (fun p s => { s with protocol := p }) p

/-- A call of the transport other than I/O. -/
def onTransport {α : Type} (p : Program τ ErrorCode α) : Method τ α :=
  Program.zoom (fun s => s.protocol.link.transport)
    (fun t s => { s with protocol.link.transport := t }) p

/-- `if (!m_open) return ErrorCode::DeviceDisconnected;`. -/
def checkOpen : Method τ Unit := Program.failIf (fun s => !s.isOpen) .deviceDisconnected

variable (io : ITransport τ) (control : TransportControl τ)

/-! ## Lifecycle -/

/-- `open`. -/
def openDevice : Method τ Unit := do
  let isOpen ← Program.gets isOpen
  if isOpen then pure ()
  else
    onTransport control.openTransport
    match ← Program.attempt (onProtocol (FirehoseProtocol.handshake io)) with
    | .error e =>
      onTransport (Program.modify control.closeTransport)
      Program.fail e
    | .ok () => Program.modify fun s => { s with isOpen := true }

def close : Method τ Unit := do
  Program.modify fun s => { s with isOpen := false }
  onProtocol FirehoseProtocol.resetState
  onTransport (Program.modify control.closeTransport)

def uploadLoader (_ : ByteBuffer) : Method τ Unit := Program.fail .notSupported

def reset : Method τ Unit := do
  checkOpen
  onProtocol (FirehoseProtocol.reset io)
  Program.modify fun s => { s with isOpen := false }

def powerReset : Method τ Unit := do
  checkOpen
  onProtocol (FirehoseProtocol.powerReset io {})

def cancel : Method τ Unit := onProtocol FirehoseProtocol.cancel

/-! ## Storage info -/

/-- The first `size` of a `lun_info` of a `storage_info`. -/
def parseStorageSize (root : XmlElement) : UInt64 :=
  let sizes := (root.children.filter fun child => child.name = "storage_info").flatMap
    fun child => (child.children.filter fun infoChild => infoChild.name = "lun_info").flatMap
      fun infoChild => infoChild.children.filter fun lunChild => lunChild.name = "size"
  match sizes with
  | [] => 0
  | size :: _ => (SafeParser.fromCharsUint64 size.content.toList).getD 0

/-- The capacity is taken for the number of sectors. -/
def getStorageInfo : Method τ StorageInfo := do
  checkOpen
  let storageResult ← onProtocol (FirehoseProtocol.getStorageInfo io)
  match FirehoseXmlEngine.parse storageResult.rawXml with
  | .error _ => pure { sectorSize := 4096 }
  | .ok root => pure { numSectors := parseStorageSize root, sectorSize := 4096 }

/-! ## Bytes -/

/-- The sectors of a byte range, which all three operations begin with. -/
def mapRange (address size : Nat) : Method τ SectorMapping := do
  checkOpen
  let sm := SectorMapping.byteAddressToSectors address size 4096
  if sm.tooLarge then Program.fail .invalidArgument else pure sm

def readMemory (u : CopyPastEnd) (fuel : Nat) (address size : UInt64) : Method τ ByteBuffer := do
  let sm ← mapRange address.toNat size.toNat
  let raw ← onProtocol (FirehoseProtocol.read io fuel sm.readCommand)
  if sm.offset > 0 ∨ raw.length > size.toNat then pure (copyRange u raw sm.offset size.toNat)
  else pure raw

/-- `alignedData`: whole sectors of 0xFF with the data copied over them. -/
def alignedData (totalAlloc offset : Nat) (data : ByteBuffer) : ByteBuffer :=
  LittleEndian.patch (List.replicate totalAlloc 0xFF) offset data

def writeMemory (fuel : Nat) (address : UInt64) (data : ByteBuffer) : Method τ Unit := do
  let sm ← mapRange address.toNat data.length
  match SectorMapping.safeMul sm.numSectors sm.sectorSize.toNat with
  | none => Program.fail .invalidArgument
  | some totalAlloc =>
    let _ ← onProtocol (FirehoseProtocol.program io fuel sm.programCommand
      (alignedData totalAlloc sm.offset data))
    pure ()

def eraseMemory (address size : UInt64) : Method τ Unit := do
  let sm ← mapRange address.toNat size.toNat
  onProtocol (FirehoseProtocol.erase io sm.eraseCommand)

/-- The adapter as the flash device the partition code runs on. -/
def device (u : CopyPastEnd) (fuel : Nat) : FlashDevice (FirehoseAdapter τ) where
  openDevice := openDevice io control
  getStorageInfo := getStorageInfo io
  readMemory := readMemory io u fuel
  writeMemory := writeMemory io fuel
  eraseMemory := eraseMemory io

/-! ## Partitions -/

/-- The name goes to the log only. -/
def readPartitionCommand (_name : String) : ReadCommand where
  sectorSize := 4096
  numSectorSize := 0x1000
  partitionId := 0

def writePartitionCommand (name : String) (data : ByteBuffer) : ProgramCommand where
  filename := name
  sectorSize := 4096
  numSectorSize := (data.length / 4096 + 1).toUInt32
  partitionId := 0

def erasePartitionCommand (name : String) : EraseCommand where
  filename := name
  sectorSize := 4096
  numSectorSize := 0x1000
  partitionId := 0

def readPartition (fuel : Nat) (name : String) : Method τ ByteBuffer := do
  checkOpen
  onProtocol (FirehoseProtocol.read io fuel (readPartitionCommand name))

def writePartition (fuel : Nat) (name : String) (data : ByteBuffer) : Method τ Unit := do
  checkOpen
  let _ ← onProtocol (FirehoseProtocol.program io fuel (writePartitionCommand name data) data)
  pure ()

def erasePartition (name : String) : Method τ Unit := do
  checkOpen
  onProtocol (FirehoseProtocol.erase io (erasePartitionCommand name))

end FirehoseAdapter

end MBootCore
