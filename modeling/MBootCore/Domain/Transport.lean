import MBootCore.Domain.Error
import MBootCore.Domain.Types
import MBootCore.Support.Program

/-!
# Domain — Transport

The part of `ITransport` the protocols use. What a transport will answer is a
script: the outcomes of its next reads and of its next writes, in order. A
script stands for any device and any backend; a read past its end times out,
which is how a run ends whose device has gone silent. A device that acts on
what is written to it is an `ITransport` of its own.
-/

namespace MBootCore

/-- The I/O calls of `ITransport` over a backend in the state `τ`: an arbitrary
device, or the script below. A read is given `minBytes` and `maxBytes` and
returns the buffer it leaves behind. -/
structure ITransport (τ : Type) where
  read : τ → Nat → Nat → Except ErrorCode ByteBuffer × τ
  write : τ → ByteBuffer → Except ErrorCode Nat × τ

structure Transport where
  replies : List (Except ErrorCode ByteBuffer)
  writeResults : List (Except ErrorCode Nat)
  /-- The buffers handed to `write` so far, oldest first. -/
  written : List ByteBuffer := []

namespace Transport

/-- What the next read returns. -/
def reply (t : Transport) : Except ErrorCode ByteBuffer :=
  t.replies.head?.getD (.error .transportTimeout)

/-- What the next write of `data` returns. -/
def writeResult (t : Transport) (data : ByteBuffer) : Except ErrorCode Nat :=
  t.writeResults.head?.getD (.ok data.length)

def read (t : Transport) : Except ErrorCode ByteBuffer × Transport :=
  (t.reply, { t with replies := t.replies.tail })

def write (t : Transport) (data : ByteBuffer) : Except ErrorCode Nat × Transport :=
  (t.writeResult data,
    { t with writeResults := t.writeResults.tail, written := t.written ++ [data] })

def io : ITransport Transport where
  read t _ _ := t.read
  write := write

end Transport

/-! ## Links -/

/-- One I/O call with what it returned. -/
inductive Exchange where
  | wrote (data : ByteBuffer) (result : Except ErrorCode Nat)
  | received (result : Except ErrorCode ByteBuffer)

/-- A transport with the I/O calls made on it so far, oldest first. -/
structure Link (τ : Type) where
  transport : τ
  exchanges : List Exchange := []

namespace Link

variable {τ : Type} (io : ITransport τ)

def write (data : ByteBuffer) : Program (Link τ) ErrorCode Nat := fun l =>
  let answer := io.write l.transport data
  (answer.1, ⟨answer.2, l.exchanges ++ [.wrote data answer.1]⟩)

def read (minBytes maxBytes : Nat) : Program (Link τ) ErrorCode ByteBuffer := fun l =>
  let answer := io.read l.transport minBytes maxBytes
  (answer.1, ⟨answer.2, l.exchanges ++ [.received answer.1]⟩)

end Link

end MBootCore
