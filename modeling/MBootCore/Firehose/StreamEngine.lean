import MBootCore.Domain.Transport
import MBootCore.Firehose.Packets
import Mathlib

/-!
# Firehose — StreamEngine

`FirehoseStreamEngine`: a command followed by chunks of data, to the device or
from it. The engine is modelled with the link it drives.

The two loops recurse on fuel. A round of `streamToDevice` sends at least one
byte unless the chunk size is 0, so the data bound its rounds
(`sendLoop_fuel`). Loops that are still running when the fuel is used up
are cut off with `outOfFuel`.
-/

namespace MBootCore

/-- The bytes of a text, one for each character. -/
def bytesOfText (text : String) : ByteBuffer := text.toList.map fun c => c.toNat.toUInt8

/-- `std::string(buf.begin(), buf.end())`. -/
def textOfBytes (buf : ByteBuffer) : String := String.ofList (buf.map fun b => Char.ofNat b.toNat)

/-- A text as it is sent, with the null byte after it. -/
def wireText (xml : String) : ByteBuffer := bytesOfText xml ++ [0]

/-- `a - b` on `size_t`. -/
def sizeSub (a b : Nat) : Nat := (a + 2 ^ 64 - b % 2 ^ 64) % 2 ^ 64

theorem sizeSub_eq {a b : Nat} (ha : a < 2 ^ 64) (h : b ≤ a) : sizeSub a b = a - b := by
  rw [sizeSub, Nat.mod_eq_of_lt (show b < 2 ^ 64 by omega)]
  omega

structure FirehoseStreamConfig where
  chunkSizeToTarget : Nat := 1048576
  chunkSizeFromTarget : Nat := 1048576
  maxRetries : Int := 1
  deriving DecidableEq, Repr

structure FirehoseStreamEngine (τ : Type) where
  link : Link τ
  config : FirehoseStreamConfig
  cancelled : Bool := false

namespace FirehoseStreamEngine

variable {τ : Type}

abbrev Method (τ α : Type) : Type := Program (FirehoseStreamEngine τ) ErrorCode α

/-- A loop that has not ended. -/
def outOfFuel : ErrorCode := .unknown

/-- An I/O call of the engine. -/
def onLink {α : Type} (p : Program (Link τ) ErrorCode α) : Method τ α :=
  Program.zoom link (fun l s => { s with link := l }) p

/-- `if (m_cancelled) return ErrorCode::Cancelled;`. -/
def checkCancelled : Method τ Unit := Program.failIf cancelled .cancelled

variable (io : ITransport τ)

def sendCommand (command : FirehoseCommand) : Method τ Unit := do
  checkCancelled
  let xml ← Program.ofExcept (FirehoseXmlEngine.serialize command.toXml)
  let _ ← onLink (Link.write io (wireText xml))
  pure ()

def receiveResponse : Method τ FirehoseResponse := do
  checkCancelled
  let buf ← onLink (Link.read io 1 8192)
  pure (.fromXml (textOfBytes buf))

def sendChunk (chunk : ByteBuffer) : Method τ Unit := do
  checkCancelled
  let _ ← onLink (Link.write io chunk)
  pure ()

def receiveChunk (size : Nat) : Method τ ByteBuffer := do
  checkCancelled
  onLink (Link.read io size size)

/-! ## To the device -/

/-- A chunk that could not be sent is sent once more. -/
def sendChunkRetrying (chunk : ByteBuffer) : Method τ Unit := do
  match ← Program.attempt (sendChunk io chunk) with
  | .ok () => pure ()
  | .error e =>
    let maxRetries ← Program.gets fun s => s.config.maxRetries
    if maxRetries > 0 then sendChunk io chunk else Program.fail e

/-- One chunk and its answer. -/
def sendRound (chunk : ByteBuffer) : Method τ Unit := do
  sendChunkRetrying io chunk
  let resp ← receiveResponse io
  if resp.isNak then Program.fail .protocolError else pure ()

/-- The loop over the chunks; `rest` is the data from `totalSent` on. -/
def sendLoop : Nat → ByteBuffer → Method τ Unit
  | 0, _ => Program.fail outOfFuel
  | fuel + 1, rest => do
    let isCancelled ← Program.gets cancelled
    if rest = [] ∨ isCancelled then pure ()
    else
      let chunkSize ← Program.gets fun s => min rest.length s.config.chunkSizeToTarget
      sendRound io (rest.take chunkSize)
      sendLoop fuel (rest.drop chunkSize)

def streamToDevice (fuel : Nat) (command : FirehoseCommand) (data : ByteBuffer) :
    Method τ Unit := do
  checkCancelled
  sendCommand io command
  sendLoop io fuel data
  checkCancelled

/-! ## From the device -/

/-- The loop over the chunks; what a chunk brings is subtracted from the bytes
remaining whatever was asked for. -/
def receiveLoop : Nat → Nat → ByteBuffer → Method τ ByteBuffer
  | 0, _, _ => Program.fail outOfFuel
  | fuel + 1, remaining, allData => do
    let isCancelled ← Program.gets cancelled
    if remaining = 0 ∨ isCancelled then pure allData
    else
      let chunkSize ← Program.gets fun s => min remaining s.config.chunkSizeFromTarget
      let chunk ← receiveChunk io chunkSize
      receiveLoop fuel (sizeSub remaining chunk.length) (allData ++ chunk)

def streamFromDevice (fuel : Nat) (command : FirehoseCommand) (totalBytes : Nat) :
    Method τ ByteBuffer := do
  checkCancelled
  sendCommand io command
  let resp ← receiveResponse io
  if resp.isNak then Program.fail .protocolError
  else
    let allData ← receiveLoop io fuel totalBytes []
    checkCancelled
    pure allData

end FirehoseStreamEngine

end MBootCore
