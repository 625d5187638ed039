import MBootCore.Firehose.ChunkDelivery
import Mathlib

/-!
# Firehose — StreamTermination

When the streams return. A sending loop with chunks of some length is bounded by its
data; one with empty chunks goes on until it is refused or cancelled. A fetching loop
counts down in words what it is owed by whatever it is brought: it ends well only if
the peer brings exactly what was asked for.
-/

namespace MBootCore

/-! ## ChunkEngine -/

namespace ChunkEngine

variable {σ : Type} (cb : Callbacks σ)

/-- Unless the stream is cancelled from the start: the target is sent something with
every chunk, or nothing at all, or it refuses an empty chunk, or the stream is cancelled. -/
def SendingEnds (data : ByteBuffer) (e : ChunkEngine σ) : Prop :=
  ∀ t, (checkCancelled : Method σ Unit) (e, []) = (.ok (), t) →
    0 < t.1.config.chunkSize ∨ data = [] ∨ (sender cb).GivesUp 0 data.length t

/-- Unless the fetch is refused from the start: a vector holds what is asked for, and the
target brings it, chunk by chunk, or refuses, or the stream is cancelled. -/
def FetchingEnds (totalSize : Nat) (e : ChunkEngine σ) : Prop :=
  ∀ t, openFetch cb (e, []) = (.ok (), t) →
    totalSize ≤ ByteBuffer.maxSize ∧ (fetcher cb).Settles totalSize 0 t

theorem streamToTarget_halts_iff (data : ByteBuffer) (e : ChunkEngine σ) :
    Program.Halts (fun fuel => streamToTarget cb fuel data) (e, []) ↔ SendingEnds cb data e := by
  have hquiet (n : Nat) : Program.Preserves Prod.snd (do
      checkCancelled
      Program.modify fun s => (s.1.setResumeOffset n, s.2) : Method σ Unit) :=
    Program.Preserves.bind (fun _ => rfl) fun _ => fun _ => rfl
  exact ChunkSender.opened_halts_iff (sender_lawful cb) hquiet checkCancelled

theorem fetcher_lawful : (fetcher cb).Lawful where
  capacity_lt := show ByteBuffer.maxSize < 2 ^ 64 by decide
  fetch_yields _ := fun _ => ⟨_, rfl, fun _ => List.cons_ne_nil _ _⟩
  report_yields n total := Traced.Yields.mono (fun _ _ h => h.1) (report_yields cb n total)

theorem streamFromTarget_ends_iff (totalSize : Nat) (e : ChunkEngine σ) :
    (Program.Halts (fun fuel => streamFromTarget cb fuel totalSize) (e, []) ∧
        (∀ fuel t, streamFromTarget cb fuel totalSize (e, []) ≠ (.error .lengthError, t)) ∧
        ∀ fuel data t, streamFromTarget cb fuel totalSize (e, []) = (.ok data, t) →
          data.length = totalSize) ↔ FetchingEnds cb totalSize e := by
  have heq (fuel : Nat) : streamFromTarget cb fuel totalSize
      = Program.mapError .returned (openFetch cb) >>= fun _ =>
        (fetcher cb).fetchAll .cancelled totalSize fuel := by
    rw [streamFromTarget, checkCancelled, Program.mapError_failIf]
    rfl
  simp only [heq]
  rw [← and_assoc]
  refine (and_iff_left ?_).trans
    (ChunkFetcher.opened_returns_iff (fetcher_lawful cb) (openFetch cb))
  exact fun fuel data t h => ChunkFetcher.opened_exact (fetcher_lawful cb) h

end ChunkEngine

/-! ## FirehoseStreamEngine -/

namespace FirehoseStreamEngine.Surroundings

variable {τ : Type} (w : Surroundings τ)

/-- What comes before the chunks that are sent. -/
def openSend (command : FirehoseCommand) : Method τ Unit := do
  checkCancelled
  w.sendCommand command

def SendingEnds (command : FirehoseCommand) (data : ByteBuffer) (e : FirehoseStreamEngine τ) :
    Prop :=
  ∀ t, w.openSend command (e, []) = (.ok (), t) →
    0 < t.1.config.chunkSizeToTarget ∨ data = [] ∨ w.sender.GivesUp 0 data.length t

/-- Unless the fetch is refused from the start: a vector holds what is asked for, and the
device brings it, chunk by chunk, or refuses, or the stream is cancelled. -/
def FetchingEnds (command : FirehoseCommand) (totalBytes : Nat) (e : FirehoseStreamEngine τ) :
    Prop :=
  ∀ t, w.requestStream command (e, []) = (.ok (), t) →
    totalBytes ≤ ByteBuffer.maxSize ∧ w.fetcher.Settles totalBytes 0 t

theorem streamToDevice_halts_iff (command : FirehoseCommand) (data : ByteBuffer)
    (e : FirehoseStreamEngine τ) :
    Program.Halts (fun fuel => w.streamToDevice fuel command data) (e, []) ↔
      w.SendingEnds command data e := by
  have heq (fuel : Nat) : w.streamToDevice fuel command data
      = w.openSend command >>= fun _ => w.sender.loop data.length fuel 0 data >>= fun _ =>
        checkCancelled := by
    rw [openSend, Program.bind_assoc]
    rfl
  simp only [heq]
  exact ChunkSender.opened_halts_iff w.sender_lawful (fun _ => fun _ => rfl) (w.openSend command)

theorem fetcher_lawful : w.fetcher.Lawful where
  capacity_lt := show ByteBuffer.maxSize < 2 ^ 64 by decide
  fetch_yields _ := fun _ => ⟨_, rfl, fun _ => List.cons_ne_nil _ _⟩
  report_yields n total := Traced.Yields.mono (fun _ _ h => h.1) (w.report_yields n total)

theorem streamFromDevice_ends_iff (command : FirehoseCommand) (totalBytes : Nat)
    (e : FirehoseStreamEngine τ) :
    (Program.Halts (fun fuel => w.streamFromDevice fuel command totalBytes) (e, []) ∧
        ∀ fuel t, w.streamFromDevice fuel command totalBytes (e, []) ≠ (.error .lengthError, t)) ↔
      w.FetchingEnds command totalBytes e := by
  have heq (fuel : Nat) : w.streamFromDevice fuel command totalBytes
      = Program.mapError .returned (w.requestStream command) >>= fun _ =>
        w.fetcher.fetchAll .cancelled totalBytes fuel := by
    have hcheck : Program.mapError FetchFailure.returned (checkCancelled : Method τ Unit)
        = Program.failIf (fun s => s.1.cancelled) (.returned .cancelled) :=
      Program.mapError_failIf _ _ _
    rw [streamFromDevice, hcheck]
    rfl
  simp only [heq]
  exact ChunkFetcher.opened_returns_iff w.fetcher_lawful (w.requestStream command)

end FirehoseStreamEngine.Surroundings

/-! ## All four -/

/-- A target that takes every chunk never lets a stream of empty ones give up. -/
theorem healthy_not_givesUp {s : ChunkEngine Nat × List (ChunkEvent UInt8)}
    (h : (ChunkEngine.sender .healthy).GivesUp 0 1 s) : s.1.cancelled = true := by
  induction h with
  | stopped hs => exact hs
  | refused hround => cases hround
  | again hround hreport _ ih =>
    cases hround
    cases hreport
    exact ih

end MBootCore
