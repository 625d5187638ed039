import MBootCore.Firehose.StreamEngine
import MBootCore.Support.ChunkedTransfer

/-!
# Firehose — ReportedStreams

The streams of `FirehoseStreamEngine` with their progress callback, and with an
engine that may be cancelled or reset at any moment: by the callback, by the
transport, or by another thread while one of them works. Without a callback and left
alone they are the streams of the engine (`streamToDevice_erases`), the second one as
long as its buffer holds what it is brought (`streamFromDevice_keeps`).

A write that the transport accepts counts as a write of the whole chunk: the engine
does not look at the number of bytes taken.
-/

namespace MBootCore

namespace FirehoseStreamEngine

/-- What may be asked of an engine while it streams. -/
inductive Call where
  | cancel
  | reset
  deriving DecidableEq, Repr

variable {τ : Type}

def Call.run (e : FirehoseStreamEngine τ) : Call → FirehoseStreamEngine τ
  | cancel => { e with cancelled := true }
  | reset => { e with cancelled := false }

/-- The transport, the callback, which may be null, and what was asked of the engine
during the call that left the transport as it is. -/
structure Surroundings (τ : Type) where
  io : ITransport τ
  progress : Option (Nat → Nat → τ → τ)
  calls : τ → List Call

namespace Surroundings

abbrev Method (τ α : Type) : Type :=
  Traced (FirehoseStreamEngine τ) (ChunkEvent UInt8) ErrorCode α

variable (w : Surroundings τ)

/-- A step of the engine, and what is asked of the engine during it. -/
def heeding {α : Type} (p : FirehoseStreamEngine.Method τ α) : FirehoseStreamEngine.Method τ α :=
  fun e => ((p e).1, (w.calls (p e).2.link.transport).foldl Call.run (p e).2)

def checkCancelled : Method τ Unit := Traced.quiet FirehoseStreamEngine.checkCancelled

def sendCommand (command : FirehoseCommand) : Method τ Unit :=
  Traced.quiet (w.heeding (FirehoseStreamEngine.sendCommand w.io command))

def receiveResponse : Method τ FirehoseResponse :=
  Traced.noting (fun r => [.answered r.isOk])
    (w.heeding (FirehoseStreamEngine.receiveResponse w.io))

def sendChunk (chunk : ByteBuffer) : Method τ Unit :=
  Traced.noting (fun r => [.wrote chunk r.isOk])
    (w.heeding (FirehoseStreamEngine.sendChunk w.io chunk))

def receiveChunk (size : Nat) : Method τ ByteBuffer :=
  Traced.noting (fun r => [.received size r.isOk])
    (w.heeding (FirehoseStreamEngine.receiveChunk w.io size))

/-- `if (progress)`. -/
def report (transferred total : Nat) : Method τ Unit :=
  match w.progress with
  | none => pure ()
  | some progress => Traced.noting (fun _ => [.reported transferred total])
      (w.heeding (onLink fun l =>
        (.ok (), { l with transport := progress transferred total l.transport })))

/-- A chunk that could not be sent is sent once more. -/
def sendChunkRetrying (chunk : ByteBuffer) : Method τ Unit :=
  Program.retryOnce (fun s => s.1.config.maxRetries > 0) (w.sendChunk chunk)

/-- One chunk and its answer. -/
def sendRound (chunk : ByteBuffer) : Method τ Unit := do
  w.sendChunkRetrying chunk
  let resp ← w.receiveResponse
  if resp.isNak then Program.fail .protocolError else pure ()

def sender : ChunkSender (FirehoseStreamEngine τ) UInt8 ErrorCode where
  stopped := cancelled
  chunkSize e := e.config.chunkSizeToTarget
  round := w.sendRound
  report := w.report
  out := outOfFuel

def fetcher : ChunkFetcher (FirehoseStreamEngine τ) UInt8 ErrorCode where
  stopped := cancelled
  chunkSize e := e.config.chunkSizeFromTarget
  fetch := w.receiveChunk
  report := w.report
  modulus := 2 ^ 64
  capacity := ByteBuffer.maxSize
  out := outOfFuel

def streamToDevice (fuel : Nat) (command : FirehoseCommand) (data : ByteBuffer) :
    Method τ Unit := do
  checkCancelled
  w.sendCommand command
  let _ ← w.sender.loop data.length fuel 0 data
  checkCancelled

/-- The command and its answer. -/
def requestStream (command : FirehoseCommand) : Method τ Unit := do
  checkCancelled
  w.sendCommand command
  let resp ← w.receiveResponse
  if resp.isNak then Program.fail .protocolError else pure ()

/-- The vector's exception goes through to the caller. -/
def streamFromDevice (fuel : Nat) (command : FirehoseCommand) (totalBytes : Nat) :
    Traced (FirehoseStreamEngine τ) (ChunkEvent UInt8) (FetchFailure ErrorCode) ByteBuffer := do
  Program.mapError .returned (w.requestStream command)
  w.fetcher.hold totalBytes
  let allData ← w.fetcher.loop totalBytes fuel totalBytes []
  Program.mapError .returned checkCancelled
  pure allData

/-! ## The streams of the engine -/

/-- No callback, and nobody who asks anything of the engine. -/
def alone (io : ITransport τ) : Surroundings τ := ⟨io, none, fun _ => []⟩

variable (io : ITransport τ)

theorem alone_sendRound_erases (chunk : ByteBuffer) :
    Traced.Erases ((alone io).sendRound chunk) (FirehoseStreamEngine.sendRound io chunk) := by
  have hsend : Traced.Erases ((alone io).sendChunk chunk)
      (FirehoseStreamEngine.sendChunk io chunk) :=
    fun _ => rfl
  refine Traced.Erases.bind (Traced.Erases.bind (Traced.Erases.attempt hsend) fun r => ?_) fun _ =>
    Traced.Erases.bind (fun _ => rfl) fun resp => fun _ => ?_
  · cases r with
    | ok => exact Traced.Erases.pure ()
    | error e =>
      intro s
      by_cases hretry : s.1.config.maxRetries > 0
      · simp only [Program.run_bind, Program.run_gets, hretry, decide_true, if_pos]
        exact hsend s
      · simp only [Program.run_bind, Program.run_gets, hretry, decide_false, Bool.false_eq_true,
          if_neg, not_false_eq_true]
        rfl
  · by_cases hnak : resp.isNak = true
    · rw [if_pos hnak, if_pos hnak]
      rfl
    · rw [if_neg hnak, if_neg hnak]
      rfl

theorem alone_sendLoop_erases (total fuel sent : Nat) (rest : ByteBuffer) :
    Traced.Erases (Program.void ((alone io).sender.loop total fuel sent rest))
      (FirehoseStreamEngine.sendLoop io fuel rest) := by
  induction fuel generalizing sent rest with
  | zero => exact fun _ => rfl
  | succ fuel ih =>
    refine Traced.Erases.void_bind (fun _ => rfl) fun isStopped => ?_
    by_cases hend : rest = [] ∨ isStopped = true
    · simp only [if_pos hend]
      exact fun _ => rfl
    · simp only [if_neg hend]
      refine Traced.Erases.void_bind (fun _ => rfl) fun chunkSize => ?_
      refine Traced.Erases.void_bind (alone_sendRound_erases io _) fun _ => ?_
      exact ih (sent + chunkSize) (rest.drop chunkSize)

theorem streamToDevice_erases (fuel : Nat) (command : FirehoseCommand) (data : ByteBuffer) :
    Traced.Erases ((alone io).streamToDevice fuel command data)
      (FirehoseStreamEngine.streamToDevice io fuel command data) := by
  refine Traced.Erases.bind (fun _ => rfl) fun _ => Traced.Erases.bind (fun _ => rfl) fun _ => ?_
  intro s
  have hloop := alone_sendLoop_erases io data.length fuel 0 data s
  rw [Program.run_bind, Program.run_bind, hloop, Program.void, Program.run_bind]
  rcases (alone io).sender.loop data.length fuel 0 data s with ⟨e | n, s₁⟩ <;> rfl

theorem alone_receiveLoop_keeps (total fuel remaining : Nat) (got : ByteBuffer) :
    ChunkFetcher.Keeps ((alone io).fetcher.loop total fuel remaining got)
      (FirehoseStreamEngine.receiveLoop io fuel remaining got) := by
  induction fuel generalizing remaining got with
  | zero => exact fun _ => .inr ⟨rfl, rfl⟩
  | succ fuel ih =>
    refine ChunkFetcher.Keeps.bind (fun _ => .inr ⟨rfl, rfl⟩) fun isStopped => ?_
    by_cases hend : remaining = 0 ∨ isStopped = true
    · rw [if_pos hend, if_pos hend]
      exact ChunkFetcher.Keeps.pure got
    rw [if_neg hend, if_neg hend]
    refine ChunkFetcher.Keeps.bind (fun _ => .inr ⟨rfl, rfl⟩) fun chunkSize => ?_
    refine ChunkFetcher.Keeps.bind (ChunkFetcher.Keeps.mapError fun _ => rfl) fun chunk => ?_
    refine ChunkFetcher.Keeps.hold_bind ?_
    exact ih _ (got ++ chunk)

theorem alone_requestStream_erases (command : FirehoseCommand) :
    Traced.Erases ((alone io).requestStream command) (do
      FirehoseStreamEngine.checkCancelled
      FirehoseStreamEngine.sendCommand io command
      let resp ← FirehoseStreamEngine.receiveResponse io
      if resp.isNak then Program.fail .protocolError else pure ()) :=
  Traced.Erases.bind (fun _ => rfl) fun _ => Traced.Erases.bind (fun _ => rfl) fun _ =>
    Traced.Erases.bind (fun _ => rfl) fun _ => Traced.Erases.ite (fun _ => fun _ => rfl) fun _ =>
      Traced.Erases.pure ()

theorem streamFromDevice_keeps (fuel : Nat) (command : FirehoseCommand) (totalBytes : Nat) :
    ChunkFetcher.Keeps ((alone io).streamFromDevice fuel command totalBytes)
      (FirehoseStreamEngine.streamFromDevice io fuel command totalBytes) := by
  have hplain : FirehoseStreamEngine.streamFromDevice io fuel command totalBytes
      = (do
          FirehoseStreamEngine.checkCancelled
          FirehoseStreamEngine.sendCommand io command
          let resp ← FirehoseStreamEngine.receiveResponse io
          if resp.isNak then Program.fail .protocolError else pure ()) >>= (fun _ => do
          let allData ← FirehoseStreamEngine.receiveLoop io fuel totalBytes []
          FirehoseStreamEngine.checkCancelled
          pure allData) := by
    rw [FirehoseStreamEngine.streamFromDevice, Program.bind_assoc]
    refine congrArg _ (funext fun _ => ?_)
    rw [Program.bind_assoc]
    refine congrArg _ (funext fun _ => ?_)
    rw [Program.bind_assoc]
    refine congrArg _ (funext fun resp => ?_)
    by_cases hnak : resp.isNak = true
    · rw [if_pos hnak, if_pos hnak]
      rfl
    · rw [if_neg hnak, if_neg hnak]
      rfl
  rw [hplain]
  refine ChunkFetcher.Keeps.bind (ChunkFetcher.Keeps.mapError
    (alone_requestStream_erases io command)) fun _ => ChunkFetcher.Keeps.hold_bind ?_
  refine ChunkFetcher.Keeps.bind (alone_receiveLoop_keeps io totalBytes fuel totalBytes [])
    fun data => ?_
  exact ChunkFetcher.Keeps.bind (ChunkFetcher.Keeps.mapError fun _ => rfl) fun _ =>
    ChunkFetcher.Keeps.pure data

end Surroundings

end FirehoseStreamEngine

end MBootCore
