import MBootCore.Domain.Transport
import MBootCore.Sahara.Packets
import MBootCore.Sahara.StateMachine
import MBootCore.Support.Program

/-!
# Sahara — Protocol

`SaharaProtocol`: the handshake with its V2 discovery, the upload loop and the
reset sequence, over a scripted transport.

Two logs record what the class does and does not report. `accepted` holds
every packet used as an awaited reply together with the command awaited
there, and `fired` every event given to the state machine together with
`canTransition` at that moment.
-/

namespace MBootCore

/-- A packet used as the reply with command `awaited`. -/
structure AcceptedReply where
  awaited : UInt32
  packet : SaharaPacket
  deriving DecidableEq, Repr

structure FiredEvent where
  event : SaharaEvent
  enabled : Bool
  deriving DecidableEq, Repr

structure SaharaProtocol where
  transport : Transport
  stateMachine : SaharaStateMachine := {}
  phase : ProtocolPhase := .idle
  errors : List ErrorCode := []
  cancelled : Bool := false
  negotiatedVersion : UInt32 := 0
  deviceInfo : DeviceInfo := {}
  accepted : List AcceptedReply := []
  fired : List FiredEvent := []

/-- The `HelloPacket` members the handshake reads. -/
structure HelloView where
  version : UInt32
  versionSupported : UInt32
  mode : UInt32
  deriving DecidableEq, Repr

/-- The `ReadChipIdPacket` members the handshake reads. -/
structure ChipIdView where
  chipIdLo : UInt32
  chipIdHi : UInt32
  serialNum : UInt32
  msmId : UInt32
  oemId : UInt32
  modelId : UInt32
  deriving DecidableEq, Repr

/-- What a `static_cast` to a class the packet does not have reads. The
language leaves it undefined, so it is whatever the implementation does. -/
structure WrongCast where
  hello : SaharaPacket → HelloView
  readChipId : SaharaPacket → ChipIdView

namespace SaharaPacket

def asHello (u : WrongCast) : SaharaPacket → HelloView
  | hello version versionSupported _ mode => ⟨version, versionSupported, mode⟩
  | packet => u.hello packet

def asReadChipId (u : WrongCast) : SaharaPacket → ChipIdView
  | readChipId chipIdLo chipIdHi serialNum msmId oemId modelId _ =>
    ⟨chipIdLo, chipIdHi, serialNum, msmId, oemId, modelId⟩
  | packet => u.readChipId packet

end SaharaPacket

namespace SaharaProtocol

open SaharaPacketParser SaharaPacketSerializer

def defaultVersion : UInt32 := 3

def defaultVersionSupported : UInt32 := 2

def helloResponseSuccess : UInt32 := 0

def selectVersion (hello : HelloView) : UInt32 :=
  if defaultVersion ≥ hello.versionSupported ∧ defaultVersion ≤ hello.version then defaultVersion
  else if hello.version ≥ defaultVersionSupported ∧ hello.version ≤ defaultVersion then
    hello.version
  else hello.versionSupported

/-- Outside the host's range or outside the device's. -/
def versionMismatch (negotiatedVersion : UInt32) (hello : HelloView) : Bool :=
  negotiatedVersion < defaultVersionSupported || negotiatedVersion > defaultVersion ||
    negotiatedVersion < hello.versionSupported || negotiatedVersion > hello.version

abbrev Method (α : Type) : Type := Program SaharaProtocol ErrorCode α

/-! ## Statements -/

/-- `(void)m_stateMachine.transition(event)`. -/
def fire (event : SaharaEvent) : Method Unit :=
  Program.modify fun s =>
    { s with
      stateMachine := (s.stateMachine.transition event.id).2
      fired := s.fired ++ [⟨event, s.stateMachine.canTransition event.id⟩] }

/-- The packet becomes the reply awaited under the command. -/
def accept (awaited : UInt32) (packet : SaharaPacket) : Method Unit :=
  Program.modify fun s => { s with accepted := s.accepted ++ [⟨awaited, packet⟩] }

def setPhase (phase : ProtocolPhase) : Method Unit :=
  Program.modify fun s => { s with phase := phase }

def pushError (e : ErrorCode) : Method Unit :=
  Program.modify fun s => { s with errors := s.errors ++ [e] }

def setDeviceInfo (f : DeviceInfo → DeviceInfo) : Method Unit :=
  Program.modify fun s => { s with deviceInfo := f s.deviceInfo }

def transportRead : Method ByteBuffer := fun s =>
  (s.transport.read.1, { s with transport := s.transport.read.2 })

def transportWrite (data : ByteBuffer) : Method Nat := fun s =>
  ((s.transport.write data).1, { s with transport := (s.transport.write data).2 })

/-! ## Packets -/

/-- An END_IMAGE packet is let through whatever command is expected. -/
def receivePacket (expectedCmd : UInt32) : Method SaharaPacket := do
  let buffer ← transportRead
  let packet ← Program.ofExcept (parse buffer)
  if packet.command ≠ expectedCmd ∧ packet.command ≠ 0x04 then Program.fail .unexpectedPacket
  else pure packet

def sendPacket (packet : SaharaPacket) : Method Unit := do
  let data ← Program.ofExcept (serialize packet)
  let _ ← transportWrite data
  pure ()

/-! ## Handshake -/

/-- The device field a discovery response fills in. -/
def storeV2Response (clientCmd payloadLen : UInt32) (rspBuf : ByteBuffer)
    (info : DeviceInfo) : DeviceInfo :=
  if 0 < payloadLen ∧ rspBuf.length ≥ 16 + payloadLen.toNat then
    if clientCmd = 1 ∧ payloadLen ≥ 4 then { info with serialNumber := readU32 rspBuf 16 }
    else if clientCmd = 2 ∧ payloadLen ≥ 12 then
      { info with id := { info.id with
          msmId := readU32 rspBuf 16
          oemId := readU32 rspBuf 20
          modelId := readU32 rspBuf 24 } }
    else if clientCmd = 3 ∧ payloadLen ≥ 32 then
      { info with id := { info.id with
          pkhash := Vector.ofFn fun i => rspBuf.getD (16 + i) 0 } }
    else info
  else info

def v2Query (clientCmd : UInt32) : Method Unit := do
  sendPacket (.commandExec clientCmd)
  let rspBuf ← transportRead
  let packet ← Program.ofExcept (parse rspBuf)
  match packet with
  | .commandExecResponse respCmd respLength =>
    if respCmd ≠ clientCmd then Program.fail .unexpectedPacket
    else
      accept 0x0E packet
      setDeviceInfo (storeV2Response clientCmd respLength rspBuf)
  | _ => Program.fail .unexpectedPacket

def performV2Discovery : Method Unit := do
  v2Query 1
  v2Query 2
  v2Query 3

/-- The error exits of the handshake: event, phase, code. -/
def handshakeFailed {α : Type} (e : ErrorCode) : Method α := do
  fire .errorOccurred
  setPhase .error
  Program.fail e

/-- From version 3 on the device sends its chip id unasked. -/
def receiveChipId (negotiatedVersion : UInt32) : Method (Except ErrorCode SaharaPacket) :=
  if negotiatedVersion ≥ 3 then Program.attempt (receivePacket 0x0A)
  else pure (.error .unexpectedPacket)

/-- The part after HELLO_RESP: chip id or V2 discovery. -/
def identify (u : WrongCast) (negotiatedVersion : UInt32) : Method Unit := do
  match ← receiveChipId negotiatedVersion with
  | .ok packet =>
    accept 0x0A packet
    let chipId := packet.asReadChipId u
    setDeviceInfo fun info =>
      { info with
        chipIdLo := chipId.chipIdLo
        chipIdHi := chipId.chipIdHi
        serialNumber := chipId.serialNum
        id := { info.id with
          msmId := chipId.msmId, oemId := chipId.oemId, modelId := chipId.modelId } }
    setPhase .idle
  | .error _ =>
    let _ ← Program.attempt performV2Discovery
    setPhase .idle

/-- HELLO_RESP and what follows it. -/
def answerHello (u : WrongCast) (negotiatedVersion mode : UInt32) : Method Unit := do
  match ← Program.attempt (sendPacket (.helloResponse negotiatedVersion
    defaultVersionSupported helloResponseSuccess mode)) with
  | .error e => handshakeFailed e
  | .ok () =>
    fire .helloResponseSent
    identify u negotiatedVersion

/-- The handshake after HELLO: select a version, answer, identify. -/
def negotiate (u : WrongCast) (hello : HelloView) : Method Unit := do
  let negotiatedVersion := selectVersion hello
  Program.modify fun s => { s with negotiatedVersion := negotiatedVersion }
  if versionMismatch negotiatedVersion hello then
    pushError .protocolMismatch
    handshakeFailed .protocolMismatch
  else
    setDeviceInfo fun info =>
      { info with
        version := { info.version with major := negotiatedVersion }
        mode := saharaModeFromRaw hello.mode
        capabilities := if negotiatedVersion ≥ 3 then
          info.capabilities ||| DeviceCapability.v3Supported else info.capabilities }
    fire .helloReceived
    answerHello u negotiatedVersion hello.mode

def handshake (u : WrongCast) : Method Unit := do
  setPhase .handshake
  match ← Program.attempt (receivePacket 0x01) with
  | .error e => handshakeFailed e
  | .ok packet =>
    accept 0x01 packet
    negotiate u (packet.asHello u)

/-! ## Upload -/

/-- One round of the upload loop: a data request is answered and the loop goes
on, END_IMAGE leaves it. -/
def uploadRound (programmerData : ByteBuffer) : Method Bool := do
  match ← receivePacket 0x03 with
  | .endImageTransfer imageId status =>
    accept 0x04 (.endImageTransfer imageId status)
    if status ≠ 0 then
      pushError .saharaNakReadDataError
      Program.fail .saharaNakReadDataError
    else pure false
  | .readData imageId dataOffset dataLength =>
    accept 0x03 (.readData imageId dataOffset dataLength)
    fire .readDataReceived
    let offset := dataOffset.toNat
    let length := dataLength.toNat
    let dataSize := programmerData.length
    if length > dataSize ∨ offset > dataSize - length then Program.fail .invalidPacket
    else
      let _ ← transportWrite ((programmerData.drop offset).take length)
      fire .dataSent
      pure true
  -- `receivePacket` returns no other kind
  | _ => Program.fail .unexpectedPacket

/-- Every round reads a reply, so the replies left bound the rounds. -/
def uploadLoop (programmerData : ByteBuffer) (fuel : Nat) : Method Unit :=
  Program.repeatWhile (uploadRound programmerData) .transportTimeout fuel

def uploadProgrammer (programmerData : ByteBuffer) : Method Unit := do
  setPhase .transferring
  let s ← Program.get
  uploadLoop programmerData (s.transport.replies.length + 1)
  fire .endImageReceived
  setPhase .waitingForProgrammer

/-! ## Reset, cancel -/

/-- DONE_REQ and its answer. -/
def requestDone : Method Unit := do
  sendPacket .done
  let doneResp ← receivePacket 0x06
  accept 0x06 doneResp

/-- RESET_REQ and its answer. -/
def requestReset : Method Unit := do
  sendPacket .reset
  fire .resetRequested
  let resetResp ← receivePacket 0x08
  accept 0x08 resetResp
  fire .resetResponseRecv
  setPhase .finished

def reset : Method Unit := do
  requestDone
  requestReset

def cancel : Method Unit :=
  Program.modify fun s => { s with cancelled := true }

def resetState : Method Unit :=
  Program.modify fun s =>
    { s with
      phase := .idle
      errors := []
      cancelled := false
      stateMachine := s.stateMachine.reset
      negotiatedVersion := 0
      deviceInfo := {} }

end SaharaProtocol

/-! ## Runs -/

inductive SaharaCall where
  | handshake
  | uploadProgrammer (programmerData : ByteBuffer)
  | reset
  | cancel
  | resetState
  deriving DecidableEq, Repr

def SaharaCall.run (u : WrongCast) : SaharaCall → SaharaProtocol.Method Unit
  | handshake => SaharaProtocol.handshake u
  | uploadProgrammer programmerData => SaharaProtocol.uploadProgrammer programmerData
  | reset => SaharaProtocol.reset
  | cancel => SaharaProtocol.cancel
  | resetState => SaharaProtocol.resetState

/-- One call of a run: what it found and how it ended. -/
structure SaharaRecord where
  call : SaharaCall
  before : SaharaProtocol
  result : Except ErrorCode Unit
  after : SaharaProtocol

/-- The calls of a client, one after the other, whatever each returns. -/
def runCalls (u : WrongCast) : List SaharaCall → SaharaProtocol → List SaharaRecord × SaharaProtocol
  | [], s => ([], s)
  | call :: calls, s =>
    let outcome := call.run u s
    let rest := runCalls u calls outcome.2
    (⟨call, s, outcome.1, outcome.2⟩ :: rest.1, rest.2)

end MBootCore
