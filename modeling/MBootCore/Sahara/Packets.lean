import MBootCore.Domain.Error
import MBootCore.Domain.Types
import MBootCore.Support.LittleEndian

/-!
# Sahara — Packets

The 19 packet classes of `SaharaPackets.hpp` as the constructors of one type,
with `SaharaPacketSerializer::serialize` and `SaharaPacketParser::parse`.

Every packet starts with its command and its length, both 32-bit
little-endian; the kind fixes the fields that follow. Three layouts are
longer than their fields (`HelloPacket`, `HelloResponsePacket` and the V3
form of `ReadChipIdPacket`): the serializer pads them with zero bytes.
-/

namespace MBootCore

open LittleEndian

inductive SaharaPacket where
  | hello (version versionSupported cmdPacketLength mode : UInt32)
  | helloResponse (version versionSupported status mode : UInt32)
  | readData (imageId dataOffset dataLength : UInt32)
  | endImageTransfer (imageId status : UInt32)
  | done
  | doneResponse (imageTxStatus : UInt32)
  | reset
  | resetResponse
  | memoryDebug (memTableAddr memTableLen : UInt32)
  | readChipId (chipIdLo chipIdHi serialNum msmId oemId modelId : UInt32) (isV3 : Bool)
  | commandReady
  | commandSwitchMode (mode : UInt32)
  | commandExec (clientCmd : UInt32)
  | commandExecResponse (clientCmd respLength : UInt32)
  | executeData (clientCmd dataLength : UInt32)
  | executeDataResponse (clientCmd status : UInt32)
  | rxData (imageId dataOffset dataLength : UInt32)
  | rxDataResponse (imageId status : UInt32)
  | resetStateMachine
  deriving DecidableEq, Repr

namespace SaharaPacket

def command : SaharaPacket → UInt32
  | hello .. => 0x01
  | helloResponse .. => 0x02
  | readData .. => 0x03
  | endImageTransfer .. => 0x04
  | done => 0x05
  | doneResponse .. => 0x06
  | reset => 0x07
  | resetResponse => 0x08
  | memoryDebug .. => 0x09
  | readChipId .. => 0x0A
  | commandReady => 0x0B
  | commandSwitchMode .. => 0x0C
  | commandExec .. => 0x0D
  | commandExecResponse .. => 0x0E
  | executeData .. => 0x0F
  | executeDataResponse .. => 0x10
  | rxData .. => 0x11
  | rxDataResponse .. => 0x12
  | resetStateMachine => 0x13

def length : SaharaPacket → UInt32
  | hello .. => 48
  | helloResponse .. => 48
  | readData .. => 20
  | endImageTransfer .. => 16
  | done => 8
  | doneResponse .. => 12
  | reset => 8
  | resetResponse => 8
  | memoryDebug .. => 16
  | readChipId _ _ _ _ _ _ isV3 => if isV3 then 40 else 16
  | commandReady => 8
  | commandSwitchMode .. => 12
  | commandExec .. => 12
  | commandExecResponse .. => 16
  | executeData .. => 16
  | executeDataResponse .. => 16
  | rxData .. => 20
  | rxDataResponse .. => 16
  | resetStateMachine => 8

end SaharaPacket

/-! ## SaharaPacketSerializer -/

namespace SaharaPacketSerializer

def canSerialize (packet : SaharaPacket) : Bool :=
  0x01 ≤ packet.command && packet.command ≤ 0x13

def serialize (packet : SaharaPacket) : Except ErrorCode ByteBuffer :=
  if !canSerialize packet then .error .invalidPacket
  else
    let buf := encode32 packet.command ++ encode32 packet.length
    match packet with
    | .hello version versionSupported cmdPacketLength mode =>
      .ok (ByteBuffer.resize (buf ++ encode32 version ++ encode32 versionSupported
        ++ encode32 cmdPacketLength ++ encode32 mode) packet.length.toNat)
    | .helloResponse version versionSupported status mode =>
      .ok (ByteBuffer.resize (buf ++ encode32 version ++ encode32 versionSupported
        ++ encode32 status ++ encode32 mode) packet.length.toNat)
    | .readData imageId dataOffset dataLength =>
      .ok (buf ++ encode32 imageId ++ encode32 dataOffset ++ encode32 dataLength)
    | .endImageTransfer imageId status => .ok (buf ++ encode32 imageId ++ encode32 status)
    | .done => .ok buf
    | .doneResponse imageTxStatus => .ok (buf ++ encode32 imageTxStatus)
    | .reset => .ok buf
    | .resetResponse => .ok buf
    | .memoryDebug memTableAddr memTableLen =>
      .ok (buf ++ encode32 memTableAddr ++ encode32 memTableLen)
    | .readChipId chipIdLo chipIdHi serialNum msmId oemId modelId isV3 =>
      let buf := buf ++ encode32 chipIdLo ++ encode32 chipIdHi
      if isV3 then
        .ok (ByteBuffer.resize (buf ++ encode32 serialNum ++ encode32 msmId ++ encode32 oemId
          ++ encode32 modelId) packet.length.toNat)
      else .ok buf
    | .commandReady => .ok buf
    | .commandSwitchMode mode => .ok (buf ++ encode32 mode)
    | .commandExec clientCmd => .ok (buf ++ encode32 clientCmd)
    | .commandExecResponse clientCmd respLength =>
      .ok (buf ++ encode32 clientCmd ++ encode32 respLength)
    | .executeData clientCmd dataLength => .ok (buf ++ encode32 clientCmd ++ encode32 dataLength)
    | .executeDataResponse clientCmd status => .ok (buf ++ encode32 clientCmd ++ encode32 status)
    | .rxData imageId dataOffset dataLength =>
      .ok (buf ++ encode32 imageId ++ encode32 dataOffset ++ encode32 dataLength)
    | .rxDataResponse imageId status => .ok (buf ++ encode32 imageId ++ encode32 status)
    | .resetStateMachine => .ok buf

end SaharaPacketSerializer

/-! ## SaharaPacketParser -/

namespace SaharaPacketParser

/-- Reads past the end yield zero. -/
def readU32 (data : ByteBuffer) (offset : Nat) : UInt32 :=
  if offset + 4 > data.length then 0
  else decode32 (data.getD offset 0) (data.getD (offset + 1) 0) (data.getD (offset + 2) 0)
    (data.getD (offset + 3) 0)

def requiredPacketLength (command : UInt32) : UInt32 :=
  if command = 0x01 then 48
  else if command = 0x02 then 48
  else if command = 0x03 then 20
  else if command = 0x04 then 16
  else if command = 0x05 then 8
  else if command = 0x06 then 12
  else if command = 0x07 then 8
  else if command = 0x08 then 8
  else if command = 0x09 then 16
  else if command = 0x0A then 16
  else if command = 0x0B then 8
  else if command = 0x0C then 12
  else if command = 0x0D then 12
  else if command = 0x0E then 16
  else if command = 0x0F then 16
  else if command = 0x10 then 16
  else if command = 0x11 then 20
  else if command = 0x12 then 16
  else if command = 0x13 then 8
  else 0

def parseCommand (data : ByteBuffer) (cmd : UInt32) : Except ErrorCode SaharaPacket :=
  if cmd = 0x01 then
    .ok (.hello (readU32 data 8) (readU32 data 12) (readU32 data 16) (readU32 data 20))
  else if cmd = 0x02 then
    .ok (.helloResponse (readU32 data 8) (readU32 data 12) (readU32 data 16) (readU32 data 20))
  else if cmd = 0x03 then
    .ok (.readData (readU32 data 8) (readU32 data 12) (readU32 data 16))
  else if cmd = 0x04 then .ok (.endImageTransfer (readU32 data 8) (readU32 data 12))
  else if cmd = 0x05 then .ok .done
  else if cmd = 0x06 then .ok (.doneResponse (readU32 data 8))
  else if cmd = 0x07 then .ok .reset
  else if cmd = 0x08 then .ok .resetResponse
  else if cmd = 0x09 then .ok (.memoryDebug (readU32 data 8) (readU32 data 12))
  else if cmd = 0x0A then
    let isV3 : Bool := readU32 data 4 ≥ 40
    .ok (.readChipId (readU32 data 8) (readU32 data 12)
      (if isV3 then readU32 data 16 else 0) (if isV3 then readU32 data 20 else 0)
      (if isV3 then readU32 data 24 else 0) (if isV3 then readU32 data 28 else 0) isV3)
  else if cmd = 0x0B then .ok .commandReady
  else if cmd = 0x0C then .ok (.commandSwitchMode (readU32 data 8))
  else if cmd = 0x0D then .ok (.commandExec (readU32 data 8))
  else if cmd = 0x0E then .ok (.commandExecResponse (readU32 data 8) (readU32 data 12))
  else if cmd = 0x0F then .ok (.executeData (readU32 data 8) (readU32 data 12))
  else if cmd = 0x10 then .ok (.executeDataResponse (readU32 data 8) (readU32 data 12))
  else if cmd = 0x11 then
    .ok (.rxData (readU32 data 8) (readU32 data 12) (readU32 data 16))
  else if cmd = 0x12 then .ok (.rxDataResponse (readU32 data 8) (readU32 data 12))
  else if cmd = 0x13 then .ok .resetStateMachine
  else .error .invalidPacket

def parse (data : ByteBuffer) : Except ErrorCode SaharaPacket :=
  if data.length < 8 then .error .invalidPacket
  else
    let cmd := readU32 data 0
    let len := readU32 data 4
    if data.length < len.toNat then .error .invalidPacket
    else if len < requiredPacketLength cmd then .error .invalidPacket
    else parseCommand data cmd

end SaharaPacketParser

end MBootCore
