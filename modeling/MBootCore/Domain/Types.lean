/-!
# Domain — Types

`domain/Types.hpp`: byte buffers, protocol phases and the device record the
Sahara protocol fills in.
-/

namespace MBootCore

/-- `std::vector<uint8_t>`. -/
abbrev ByteBuffer := List UInt8

/-- `max_size()`: a vector asked for more bytes throws `length_error`. -/
def ByteBuffer.maxSize : Nat := 0x7fffffffffffffff

/-- `buffer.resize(n)`: cut at `n`, or pad with zero bytes up to it. -/
def ByteBuffer.resize (buffer : ByteBuffer) (n : Nat) : ByteBuffer :=
  buffer.take n ++ List.replicate (n - buffer.length) 0

@[simp] theorem ByteBuffer.resize_length (buffer : ByteBuffer) (n : Nat) :
    (buffer.resize n).length = n := by
  simp only [resize, List.length_append, List.length_take, List.length_replicate]
  omega

inductive ProtocolPhase where
  | idle | handshake | transferring | waitingForProgrammer | firehoseReady | error | finished
  deriving DecidableEq, Repr

inductive SaharaMode where
  | imageTxPending | commandMode | streamingMode
  deriving DecidableEq, Repr

/-- Unknown raw modes are taken for `ImageTxPending`. -/
def saharaModeFromRaw (raw : UInt32) : SaharaMode :=
  if raw = 0 then .imageTxPending
  else if raw = 1 then .commandMode
  else if raw = 2 then .streamingMode
  else .imageTxPending

structure ProtocolVersion where
  major : UInt32 := 0
  minor : UInt32 := 0
  deriving DecidableEq, Repr

structure DeviceId where
  msmId : UInt32 := 0
  oemId : UInt32 := 0
  modelId : UInt32 := 0
  pkhash : Vector UInt8 32 := Vector.replicate 32 0
  deriving DecidableEq, Repr

/-- `DeviceCapability::V3Supported`, one bit of the capability word. -/
def DeviceCapability.v3Supported : UInt32 := 1

structure DeviceInfo where
  version : ProtocolVersion := {}
  mode : SaharaMode := .imageTxPending
  serialNumber : UInt32 := 0
  chipIdLo : UInt32 := 0
  chipIdHi : UInt32 := 0
  id : DeviceId := {}
  capabilities : UInt32 := 0
  deriving DecidableEq, Repr

end MBootCore
