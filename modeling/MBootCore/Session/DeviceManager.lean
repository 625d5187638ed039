import MBootCore.Domain.Error
import MBootCore.Support.Digits
import Mathlib.Data.List.Nodup

/-!
# Session — DeviceManager

`DeviceManager` of `session/DeviceManager.cpp` with the sessions it owns, and the ids that
`DeviceSession` makes for itself. A session is an object: it has an address, and no two
objects that live at the same time share it. Of a session the manager reads the address,
the id and the descriptor; what its methods do is elsewhere.
-/

namespace MBootCore.Session

inductive Vendor where
  | unknown | qualcomm | mediaTek | unisoc | samsung | rockchip | spreadtrum | apple | google
  | huawei | custom
  deriving DecidableEq, Repr

inductive ProtocolType where
  | unknown | sahara | firehose | fastboot | mediaTekBROM | mediaTekDA | unisocBootROM
  | unisocFDL | usbStream | custom
  deriving DecidableEq, Repr

structure DeviceDescriptor where
  vendor : Vendor := .unknown
  protocolHint : ProtocolType := .unknown
  usbVid : UInt16 := 0
  usbPid : UInt16 := 0
  serialPort : String := ""
  tcpHost : String := ""
  tcpPort : UInt16 := 0
  connectionPath : String := ""
  deriving DecidableEq, Repr

def DeviceDescriptor.isValid (d : DeviceDescriptor) : Bool :=
  d.vendor ≠ .unknown || d.connectionPath ≠ ""

/-! ## The session's id -/

/-- A number as a stream writes it, after `std::hex`. -/
def hexText (n : UInt16) : String := String.ofList (Nat.toDigits 16 n.toNat)

def decimalText (n : Nat) : String := String.ofList (Nat.toDigits 10 n)

/-- The id of the session at the address. -/
def makeSessionId (address : Nat) (d : DeviceDescriptor) : String :=
  if d.usbVid ≠ 0 then "usb:" ++ hexText d.usbVid ++ ":" ++ hexText d.usbPid
  else if d.serialPort ≠ "" then "serial:" ++ d.serialPort
  else if d.tcpHost ≠ "" then "tcp:" ++ d.tcpHost ++ ":" ++ decimalText d.tcpPort.toNat
  else "session:" ++ decimalText address

structure ManagedSession where
  address : Nat
  descriptor : DeviceDescriptor
  sessionId : String
  deriving DecidableEq, Repr

/-- The constructor of `DeviceSession`. -/
def ManagedSession.construct (address : Nat) (d : DeviceDescriptor) : ManagedSession :=
  ⟨address, d, makeSessionId address d⟩

/-- `DeviceSessionFactory`, with what it asks of the protocols registered. -/
structure DeviceSessionFactory where
  negotiate : DeviceDescriptor → ProtocolType
  /-- The factory of a protocol, and whether it makes a flash device for a descriptor. -/
  findFactory : ProtocolType → Option (DeviceDescriptor → Bool)

/-- The descriptor of the session that is made. -/
def DeviceSessionFactory.createSession (factory : DeviceSessionFactory)
    (descriptor : DeviceDescriptor) : Except ErrorCode DeviceDescriptor :=
  let negotiated := factory.negotiate descriptor
  let descriptorCopy :=
    if descriptor.protocolHint = .unknown ∧ descriptor.isValid ∧ negotiated ≠ .unknown then
      { descriptor with protocolHint := negotiated }
    else descriptor
  match factory.findFactory descriptorCopy.protocolHint with
  | none => .error .noMatchingProtocol
  | some createFlashDevice =>
    if createFlashDevice descriptorCopy then .ok descriptorCopy else .error .notSupported

/-! ## The manager -/

structure DeviceManager where
  sessions : List ManagedSession := []
  deriving DecidableEq, Repr

namespace DeviceManager

/-- The session, when one is made, is made at the address. -/
def createSession (factory : DeviceSessionFactory) (descriptor : DeviceDescriptor) (address : Nat)
    (m : DeviceManager) : Except ErrorCode ManagedSession × DeviceManager :=
  match factory.createSession descriptor with
  | .error e => (.error e, m)
  | .ok d =>
    let session := ManagedSession.construct address d
    (.ok session, { m with sessions := m.sessions ++ [session] })

/-- The devices found, each with the address its session is made at. -/
def discoverAndCreate (factory : DeviceSessionFactory) :
    List (DeviceDescriptor × Nat) → DeviceManager → List ManagedSession × DeviceManager
  | [], m => ([], m)
  | (descriptor, address) :: rest, m =>
    let (result, m') := m.createSession factory descriptor address
    let (created, m'') := discoverAndCreate factory rest m'
    match result with
    | .ok session => (session :: created, m'')
    | .error _ => (created, m'')

def findById (m : DeviceManager) (sessionId : String) : Option ManagedSession :=
  m.sessions.find? (·.sessionId = sessionId)

def removeSession (m : DeviceManager) (sessionId : String) :
    Except ErrorCode Unit × DeviceManager :=
  match m.findById sessionId with
  | none => (.error .deviceNotFound, m)
  | some _ => (.ok (), { m with sessions := m.sessions.eraseP (·.sessionId = sessionId) })

/-- `removeSession` of a pointer, which may be null. -/
def removeSessionObject (m : DeviceManager) :
    Option Nat → Except ErrorCode Unit × DeviceManager
  | none => (.error .invalidArgument, m)
  | some address =>
    match m.sessions.find? (·.address = address) with
    | none => (.error .deviceNotFound, m)
    | some _ => (.ok (), { m with sessions := m.sessions.eraseP (·.address = address) })

end DeviceManager

end MBootCore.Session
