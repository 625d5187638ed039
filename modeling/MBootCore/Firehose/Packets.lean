import MBootCore.Domain.SafeParser
import MBootCore.Domain.Types
import MBootCore.Firehose.Xml

/-!
# Firehose — Packets

The 13 command classes of `FirehosePackets.hpp`: their fields with the
defaults, `toXml`, `fromXml`, and the two dispatchers
`FirehoseCommand::serialize` and `parseFirehoseXml`.
-/

namespace MBootCore

namespace FirehoseXmlEngine

/-- The value of the first attribute of that name. -/
def getAttribute (element : XmlElement) (name : String) (defaultValue : String) : String :=
  match element.attributes.find? fun attr => attr.name = name with
  | some attr => attr.value
  | none => defaultValue

def getUintAttribute (element : XmlElement) (name : String) (defaultValue : UInt32) : UInt32 :=
  let val := getAttribute element name ""
  if val = "" then defaultValue
  else (SafeParser.fromCharsUint32 val.toList).getD defaultValue

def isAck (element : XmlElement) : Bool := getAttribute element "value" "" = "ACK"

def isNak (element : XmlElement) : Bool := getAttribute element "value" "" = "NAK"

def nakDescription (element : XmlElement) : String := getAttribute element "description" ""

end FirehoseXmlEngine

open FirehoseXmlEngine

/-! ## Numbers and bytes as text -/

/-- `std::to_string`. -/
def toDecimal (val : UInt32) : String := String.ofList (Nat.toDigits 10 val.toNat)

def toHex (val : UInt32) : String := String.ofList ('0' :: 'x' :: Nat.toDigits 16 val.toNat)

/-- One character of `"0123456789ABCDEF"`. -/
def hexDigit (nibble : UInt8) : Char := "0123456789ABCDEF".toList.getD nibble.toNat '0'

/-- The overload of `toHex` for a buffer. -/
def toHexBuffer (buf : ByteBuffer) : String :=
  String.ofList (buf.flatMap fun (b : UInt8) =>
    [hexDigit ((b >>> 4) &&& 0xF), hexDigit (b &&& 0xF)])

def toNibble (c : Char) : Option UInt8 :=
  if '0' ≤ c ∧ c ≤ '9' then some (c.toNat - '0'.toNat).toUInt8
  else if 'A' ≤ c ∧ c ≤ 'F' then some (c.toNat - 'A'.toNat + 10).toUInt8
  else if 'a' ≤ c ∧ c ≤ 'f' then some (c.toNat - 'a'.toNat + 10).toUInt8
  else none

/-- The bytes of pairs of digits; `none` for a stray digit or character. -/
def fromHexPairs : List Char → Option ByteBuffer
  | [] => some []
  | [_] => none
  | hi :: lo :: rest =>
    match toNibble hi, toNibble lo with
    | some hi, some lo => (fromHexPairs rest).map fun tail => ((hi <<< 4) ||| lo) :: tail
    | _, _ => none

/-- Malformed text yields no bytes. -/
def fromHex (hex : String) : ByteBuffer := (fromHexPairs hex.toList).getD []

/-! ## Commands -/

structure ConfigureCommand where
  memoryName : String := "ufs"
  zlpAwareHost : UInt32 := 1
  skipWrite : UInt32 := 0
  maxPayloadSizeToTarget : UInt32 := 1048576
  maxPayloadSizeFromTarget : UInt32 := 1048576
  mode : UInt32 := 0
  deriving DecidableEq, Repr

namespace ConfigureCommand

def toXml (cmd : ConfigureCommand) : XmlElement :=
  .mk "configure" [
    ⟨"MemoryName", cmd.memoryName⟩,
    ⟨"ZLPAwareHost", toDecimal cmd.zlpAwareHost⟩,
    ⟨"SkipWrite", toDecimal cmd.skipWrite⟩,
    ⟨"MaxPayloadSizeToTarget", toDecimal cmd.maxPayloadSizeToTarget⟩,
    ⟨"MaxPayloadSizeFromTarget", toDecimal cmd.maxPayloadSizeFromTarget⟩,
    ⟨"Mode", toDecimal cmd.mode⟩] [] ""

def fromXml (element : XmlElement) : ConfigureCommand where
  memoryName := getAttribute element "MemoryName" "ufs"
  zlpAwareHost := getUintAttribute element "ZLPAwareHost" 1
  skipWrite := getUintAttribute element "SkipWrite" 0
  maxPayloadSizeToTarget := getUintAttribute element "MaxPayloadSizeToTarget" 1048576
  maxPayloadSizeFromTarget := getUintAttribute element "MaxPayloadSizeFromTarget" 1048576
  mode := getUintAttribute element "Mode" 0

end ConfigureCommand

/-- An attribute that is written only when it has a value. -/
def optionalAttribute (name value : String) : List XmlAttribute :=
  if value = "" then [] else [⟨name, value⟩]

structure ProgramCommand where
  sectorSize : UInt32 := 4096
  numSectorSize : UInt32 := 0
  partitionId : UInt32 := 0
  startSector : UInt32 := 0
  physicalPartition : UInt32 := 0
  numPartitionSectors : UInt32 := 0
  filename : String := ""
  label : String := ""
  deriving DecidableEq, Repr

namespace ProgramCommand

def toXml (cmd : ProgramCommand) : XmlElement :=
  .mk "program" ([
    ⟨"SECTOR_SIZE", toDecimal cmd.sectorSize⟩,
    ⟨"NUM_SECTOR_SIZE", toDecimal cmd.numSectorSize⟩,
    ⟨"PARTITION_ID", toDecimal cmd.partitionId⟩,
    ⟨"START_SECTOR", toDecimal cmd.startSector⟩,
    ⟨"physical_partition", toDecimal cmd.physicalPartition⟩,
    ⟨"num_partition_sectors", toDecimal cmd.numPartitionSectors⟩]
    ++ optionalAttribute "filename" cmd.filename ++ optionalAttribute "label" cmd.label) [] ""

def fromXml (element : XmlElement) : ProgramCommand where
  sectorSize := getUintAttribute element "SECTOR_SIZE" 4096
  numSectorSize := getUintAttribute element "NUM_SECTOR_SIZE" 0
  partitionId := getUintAttribute element "PARTITION_ID" 0
  startSector := getUintAttribute element "START_SECTOR" 0
  physicalPartition := getUintAttribute element "physical_partition" 0
  numPartitionSectors := getUintAttribute element "num_partition_sectors" 0
  filename := getAttribute element "filename" ""
  label := getAttribute element "label" ""

end ProgramCommand

structure ReadCommand where
  sectorSize : UInt32 := 4096
  numSectorSize : UInt32 := 0
  partitionId : UInt32 := 0
  startSector : UInt32 := 0
  physicalPartition : UInt32 := 0
  deriving DecidableEq, Repr

namespace ReadCommand

def toXml (cmd : ReadCommand) : XmlElement :=
  .mk "read" [
    ⟨"SECTOR_SIZE", toDecimal cmd.sectorSize⟩,
    ⟨"NUM_SECTOR_SIZE", toDecimal cmd.numSectorSize⟩,
    ⟨"PARTITION_ID", toDecimal cmd.partitionId⟩,
    ⟨"START_SECTOR", toDecimal cmd.startSector⟩,
    ⟨"physical_partition", toDecimal cmd.physicalPartition⟩] [] ""

def fromXml (element : XmlElement) : ReadCommand where
  sectorSize := getUintAttribute element "SECTOR_SIZE" 4096
  numSectorSize := getUintAttribute element "NUM_SECTOR_SIZE" 0
  partitionId := getUintAttribute element "PARTITION_ID" 0
  startSector := getUintAttribute element "START_SECTOR" 0
  physicalPartition := getUintAttribute element "physical_partition" 0

end ReadCommand

structure EraseCommand where
  sectorSize : UInt32 := 4096
  numSectorSize : UInt32 := 0
  partitionId : UInt32 := 0
  startSector : UInt32 := 0
  physicalPartition : UInt32 := 0
  filename : String := ""
  label : String := ""
  deriving DecidableEq, Repr

namespace EraseCommand

def toXml (cmd : EraseCommand) : XmlElement :=
  .mk "erase" ([
    ⟨"SECTOR_SIZE", toDecimal cmd.sectorSize⟩,
    ⟨"NUM_SECTOR_SIZE", toDecimal cmd.numSectorSize⟩,
    ⟨"PARTITION_ID", toDecimal cmd.partitionId⟩,
    ⟨"START_SECTOR", toDecimal cmd.startSector⟩,
    ⟨"physical_partition", toDecimal cmd.physicalPartition⟩]
    ++ optionalAttribute "filename" cmd.filename ++ optionalAttribute "label" cmd.label) [] ""

def fromXml (element : XmlElement) : EraseCommand where
  sectorSize := getUintAttribute element "SECTOR_SIZE" 4096
  numSectorSize := getUintAttribute element "NUM_SECTOR_SIZE" 0
  partitionId := getUintAttribute element "PARTITION_ID" 0
  startSector := getUintAttribute element "START_SECTOR" 0
  physicalPartition := getUintAttribute element "physical_partition" 0
  filename := getAttribute element "filename" ""
  label := getAttribute element "label" ""

end EraseCommand

structure PeekCommand where
  address : UInt32 := 0
  size : UInt32 := 256
  deriving DecidableEq, Repr

namespace PeekCommand

def toXml (cmd : PeekCommand) : XmlElement :=
  .mk "peek" [⟨"address", toHex cmd.address⟩, ⟨"size", toDecimal cmd.size⟩] [] ""

def fromXml (element : XmlElement) : PeekCommand where
  address := getUintAttribute element "address" 0
  size := getUintAttribute element "size" 256

end PeekCommand

structure PokeCommand where
  address : UInt32 := 0
  size : UInt32 := 0
  data : ByteBuffer := []
  deriving DecidableEq, Repr

namespace PokeCommand

def toXml (cmd : PokeCommand) : XmlElement :=
  .mk "poke" ([⟨"address", toHex cmd.address⟩, ⟨"size", toDecimal cmd.size⟩]
    ++ if cmd.data = [] then [] else [⟨"data", toHexBuffer cmd.data⟩]) [] ""

def fromXml (element : XmlElement) : PokeCommand :=
  let dataHex := getAttribute element "data" ""
  { address := getUintAttribute element "address" 0
    size := getUintAttribute element "size" 0
    data := if dataHex = "" then [] else fromHex dataHex }

end PokeCommand

structure PatchCommand where
  byteOffset : UInt32 := 0
  size : UInt32 := 0
  data : UInt32 := 0
  filename : String := ""
  sectorSize : UInt32 := 4096
  startSector : UInt32 := 0
  partitionId : UInt32 := 0
  physicalPartition : UInt32 := 0
  deriving DecidableEq, Repr

namespace PatchCommand

def toXml (cmd : PatchCommand) : XmlElement :=
  .mk "patch" [
    ⟨"byte_offset", toHex cmd.byteOffset⟩,
    ⟨"size", toDecimal cmd.size⟩,
    ⟨"data", toHex cmd.data⟩,
    ⟨"filename", cmd.filename⟩,
    ⟨"SECTOR_SIZE", toDecimal cmd.sectorSize⟩,
    ⟨"START_SECTOR", toDecimal cmd.startSector⟩,
    ⟨"PARTITION_ID", toDecimal cmd.partitionId⟩,
    ⟨"physical_partition", toDecimal cmd.physicalPartition⟩] [] ""

def fromXml (element : XmlElement) : PatchCommand where
  byteOffset := getUintAttribute element "byte_offset" 0
  size := getUintAttribute element "size" 0
  data := getUintAttribute element "data" 0
  filename := getAttribute element "filename" ""
  sectorSize := getUintAttribute element "SECTOR_SIZE" 4096
  startSector := getUintAttribute element "START_SECTOR" 0
  partitionId := getUintAttribute element "PARTITION_ID" 0
  physicalPartition := getUintAttribute element "physical_partition" 0

end PatchCommand

structure ResetCommand where
  value : String := "reset"
  deriving DecidableEq, Repr

namespace ResetCommand

def toXml (cmd : ResetCommand) : XmlElement := .mk "reset" [⟨"value", cmd.value⟩] [] ""

def fromXml (element : XmlElement) : ResetCommand := ⟨getAttribute element "value" "reset"⟩

end ResetCommand

structure PowerCommand where
  value : String := "reset"
  deriving DecidableEq, Repr

namespace PowerCommand

def toXml (cmd : PowerCommand) : XmlElement := .mk "power" [⟨"value", cmd.value⟩] [] ""

def fromXml (element : XmlElement) : PowerCommand := ⟨getAttribute element "value" "reset"⟩

end PowerCommand

structure GetSha256DigestCommand where
  sectorSize : UInt32 := 4096
  numSectorSize : UInt32 := 0
  partitionId : UInt32 := 0
  startSector : UInt32 := 0
  physicalPartition : UInt32 := 0
  deriving DecidableEq, Repr

namespace GetSha256DigestCommand

def toXml (cmd : GetSha256DigestCommand) : XmlElement :=
  .mk "getsha256digest" [
    ⟨"SECTOR_SIZE", toDecimal cmd.sectorSize⟩,
    ⟨"NUM_SECTOR_SIZE", toDecimal cmd.numSectorSize⟩,
    ⟨"PARTITION_ID", toDecimal cmd.partitionId⟩,
    ⟨"START_SECTOR", toDecimal cmd.startSector⟩,
    ⟨"physical_partition", toDecimal cmd.physicalPartition⟩] [] ""

def fromXml (element : XmlElement) : GetSha256DigestCommand where
  sectorSize := getUintAttribute element "SECTOR_SIZE" 4096
  numSectorSize := getUintAttribute element "NUM_SECTOR_SIZE" 0
  partitionId := getUintAttribute element "PARTITION_ID" 0
  startSector := getUintAttribute element "START_SECTOR" 0
  physicalPartition := getUintAttribute element "physical_partition" 0

end GetSha256DigestCommand

structure ConfigureMemoryCommand where
  memoryName : String := "ufs"
  config : String := "all"
  deriving DecidableEq, Repr

namespace ConfigureMemoryCommand

def toXml (cmd : ConfigureMemoryCommand) : XmlElement :=
  .mk "configurememory" [⟨"MemoryName", cmd.memoryName⟩, ⟨"Config", cmd.config⟩] [] ""

def fromXml (element : XmlElement) : ConfigureMemoryCommand where
  memoryName := getAttribute element "MemoryName" "ufs"
  config := getAttribute element "Config" "all"

end ConfigureMemoryCommand

/-! ## FirehoseCommand -/

/-- A pointer to any of the command classes. `NopCommand` and
`GetStorageInfoCommand` have no fields. -/
inductive FirehoseCommand where
  | configure (cmd : ConfigureCommand)
  | program (cmd : ProgramCommand)
  | read (cmd : ReadCommand)
  | erase (cmd : EraseCommand)
  | peek (cmd : PeekCommand)
  | poke (cmd : PokeCommand)
  | patch (cmd : PatchCommand)
  | reset (cmd : ResetCommand)
  | power (cmd : PowerCommand)
  | nop
  | getStorageInfo
  | getSha256Digest (cmd : GetSha256DigestCommand)
  | configureMemory (cmd : ConfigureMemoryCommand)
  deriving DecidableEq, Repr

namespace FirehoseCommand

def toXml : FirehoseCommand → XmlElement
  | configure cmd => cmd.toXml
  | program cmd => cmd.toXml
  | read cmd => cmd.toXml
  | erase cmd => cmd.toXml
  | peek cmd => cmd.toXml
  | poke cmd => cmd.toXml
  | patch cmd => cmd.toXml
  | reset cmd => cmd.toXml
  | power cmd => cmd.toXml
  | nop => .mk "NOP" [] [] ""
  | getStorageInfo => .mk "getstorageinfo" [] [] ""
  | getSha256Digest cmd => cmd.toXml
  | configureMemory cmd => cmd.toXml

def serialize (cmd : FirehoseCommand) : String :=
  match FirehoseXmlEngine.serialize cmd.toXml with
  | .ok xml => xml
  | .error _ => "<error/>"

end FirehoseCommand

/-- `parseFirehoseXml` after the XML is parsed: the class the name selects. -/
def commandFromXml (element : XmlElement) : Except ErrorCode FirehoseCommand :=
  if element.name = "configure" then .ok (.configure (.fromXml element))
  else if element.name = "program" then .ok (.program (.fromXml element))
  else if element.name = "read" then .ok (.read (.fromXml element))
  else if element.name = "erase" then .ok (.erase (.fromXml element))
  else if element.name = "peek" then .ok (.peek (.fromXml element))
  else if element.name = "poke" then .ok (.poke (.fromXml element))
  else if element.name = "patch" then .ok (.patch (.fromXml element))
  else if element.name = "reset" then .ok (.reset (.fromXml element))
  else if element.name = "power" then .ok (.power (.fromXml element))
  else if element.name = "NOP" then .ok .nop
  else if element.name = "getstorageinfo" then .ok .getStorageInfo
  else if element.name = "getsha256digest" then .ok (.getSha256Digest (.fromXml element))
  else if element.name = "configurememory" then .ok (.configureMemory (.fromXml element))
  else .error .notSupported

/-! ## FirehoseResponse -/

structure FirehoseResponse where
  isAck : Bool := false
  isNak : Bool := false
  hasRawMode : Bool := false
  rawXml : String := ""
  commandName : String := ""
  nakDescription : String := ""
  data : ByteBuffer := []
  deriving DecidableEq, Repr

/-- A text that does not parse is neither an ACK nor a NAK. -/
def FirehoseResponse.fromXml (xml : String) : FirehoseResponse :=
  match FirehoseXmlEngine.parse xml with
  | .error _ => { rawXml := xml }
  | .ok element =>
    { isAck := FirehoseXmlEngine.isAck element
      isNak := FirehoseXmlEngine.isNak element
      hasRawMode := getAttribute element "raw_mode" "" = "true"
      rawXml := xml
      commandName := element.name
      nakDescription := FirehoseXmlEngine.nakDescription element }

def parseFirehoseXml (xml : String) : Except ErrorCode FirehoseCommand :=
  match FirehoseXmlEngine.parse xml with
  | .error e => .error e
  | .ok element => commandFromXml element

end MBootCore
