import MBootCore.Domain.Error
import MBootCore.Domain.Types
import MBootCore.Support.ChunkedTransfer
import Mathlib

/-!
# Firehose — ChunkEngine

`ChunkEngine`: a buffer sent to a target, or fetched from one, chunk by chunk. The
target is reached through callbacks; the engine is modelled with the world they act
on. A callback, or another thread while it runs, may cancel or reset the engine or set
its resume offset. Every call of a callback is logged.
-/

namespace MBootCore

structure ChunkEngineConfig where
  chunkSize : Nat := 1048576
  maxRetries : Int := 1
  deriving DecidableEq, Repr

structure ChunkEngine (σ : Type) where
  world : σ
  config : ChunkEngineConfig
  cancelled : Bool := false
  resumeOffset : Nat := 0

namespace ChunkEngine

variable {σ : Type}

def cancel (e : ChunkEngine σ) : ChunkEngine σ := { e with cancelled := true }

def reset (e : ChunkEngine σ) : ChunkEngine σ := { e with cancelled := false, resumeOffset := 0 }

def setResumeOffset (offset : Nat) (e : ChunkEngine σ) : ChunkEngine σ :=
  { e with resumeOffset := offset }

/-- What may be asked of an engine while it streams. -/
inductive Call where
  | cancel
  | reset
  | setResumeOffset (offset : Nat)
  deriving DecidableEq, Repr

def Call.run (e : ChunkEngine σ) : Call → ChunkEngine σ
  | cancel => e.cancel
  | reset => e.reset
  | setResumeOffset offset => e.setResumeOffset offset

/-- `ChunkWriteFn`, `ChunkReadFn`, `ResponseFn` and `ProgressFn`; the last two may be
null. `calls` is what was asked of the engine during the callback that left the world
as it is. -/
structure Callbacks (σ : Type) where
  writeFn : ByteBuffer → σ → Except ErrorCode Unit × σ
  readFn : Nat → σ → Except ErrorCode ByteBuffer × σ
  responseFn : Option (σ → Except ErrorCode Unit × σ)
  progress : Option (Nat → Nat → σ → σ)
  calls : σ → List Call

/-- A target that takes every chunk and brings what it is asked for; its world counts
the calls. -/
def Callbacks.healthy : Callbacks Nat where
  writeFn _ n := (.ok (), n + 1)
  readFn size n := (.ok (List.replicate size 0), n + 1)
  responseFn := some fun n => (.ok (), n + 1)
  progress := some fun _ _ n => n + 1
  calls _ := []

abbrev Method (σ α : Type) : Type := Traced (ChunkEngine σ) (ChunkEvent UInt8) ErrorCode α

/-- A loop that has not ended. -/
def outOfFuel : ErrorCode := .unknown

/-- `if (m_cancelled) return ErrorCode::Cancelled;`. -/
def checkCancelled : Method σ Unit := Program.failIf (fun s => s.1.cancelled) .cancelled

variable (cb : Callbacks σ)

/-- A call of a callback. -/
def callback {α : Type} (f : σ → Except ErrorCode α × σ) :
    Program (ChunkEngine σ) ErrorCode α := fun e =>
  ((f e.world).1, (cb.calls (f e.world).2).foldl Call.run { e with world := (f e.world).2 })

def write (chunk : ByteBuffer) : Method σ Unit :=
  Traced.noting (fun r => [.wrote chunk r.isOk]) (callback cb (cb.writeFn chunk))

def read (size : Nat) : Method σ ByteBuffer :=
  Traced.noting (fun r => [.received size r.isOk]) (callback cb (cb.readFn size))

/-- `if (responseFn)`. -/
def response : Method σ Unit :=
  match cb.responseFn with
  | none => pure ()
  | some responseFn => Traced.noting (fun r => [.answered r.isOk]) (callback cb responseFn)

/-- `if (progress)`. -/
def report (transferred total : Nat) : Method σ Unit :=
  match cb.progress with
  | none => pure ()
  | some progress => Traced.noting (fun _ => [.reported transferred total])
      (callback cb fun w => (.ok (), progress transferred total w))

/-- A chunk that could not be written is written once more. -/
def writeRetrying (chunk : ByteBuffer) : Method σ Unit :=
  Program.retryOnce (fun s => s.1.config.maxRetries > 0) (write cb chunk)

/-- One chunk and its answer. -/
def sendRound (chunk : ByteBuffer) : Method σ Unit := do
  writeRetrying cb chunk
  response cb

def sender : ChunkSender (ChunkEngine σ) UInt8 ErrorCode where
  stopped := cancelled
  chunkSize e := e.config.chunkSize
  round := sendRound cb
  report := report cb
  out := outOfFuel

def fetcher : ChunkFetcher (ChunkEngine σ) UInt8 ErrorCode where
  stopped := cancelled
  chunkSize e := e.config.chunkSize
  fetch := read cb
  report := report cb
  modulus := 2 ^ 64
  capacity := ByteBuffer.maxSize
  out := outOfFuel

/-- `data` is the `totalSize` bytes the pointer leads to. -/
def streamToTarget (fuel : Nat) (data : ByteBuffer) : Method σ Unit := do
  checkCancelled
  let totalSent ← (sender cb).loop data.length fuel 0 data
  checkCancelled
  Program.modify fun s => (s.1.setResumeOffset totalSent, s.2)

/-- What comes before the chunks of a fetch. -/
def openFetch : Method σ Unit := do
  checkCancelled
  response cb

/-- The vector's exception goes through to the caller. -/
def streamFromTarget (fuel totalSize : Nat) :
    Traced (ChunkEngine σ) (ChunkEvent UInt8) (FetchFailure ErrorCode) ByteBuffer := do
  Program.mapError .returned (openFetch cb)
  (fetcher cb).hold totalSize
  let allData ← (fetcher cb).loop totalSize fuel totalSize []
  Program.mapError .returned checkCancelled
  pure allData

def streamToTargetPartial (fuel : Nat) (data : ByteBuffer) (offset length : Nat) :
    Method σ Unit :=
  if offset ≥ data.length then Program.fail .invalidArgument
  else
    let clampedLength := min length (data.length - offset)
    streamToTarget cb fuel ((data.drop offset).take clampedLength)

end ChunkEngine

end MBootCore
