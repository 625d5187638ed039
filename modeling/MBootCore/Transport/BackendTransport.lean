import MBootCore.Domain.Error
import MBootCore.Domain.Types

/-!
# Transport — BackendTransport

`read` of `UsbTransport`, `TcpTransport`, `SerialTransport` and `UdpTransport`
over a backend. The backend hands out a stream of bytes; the script says what
every look at it finds: a cancel, the deadline passed, or an answer. A backend
whose script is used up stays silent until the deadline.

The statistics kept are the counters; the two averages are floating point.
-/

namespace MBootCore

inductive TransportState where
  | closed | opening | opened | closing | error
  deriving DecidableEq, Repr

/-- What one look at the backend finds. A backend asked for at most `c` bytes
that would answer with `k` hands out no more than `c` of them. -/
inductive Poll where
  | cancelled
  | expired
  | failed (e : ErrorCode)
  | bytes (k : Nat)
  deriving DecidableEq, Repr

structure TransportStatistics where
  bytesRead : Nat := 0
  readOperations : Nat := 0
  timeoutCount : Nat := 0
  errorCount : Nat := 0
  deriving DecidableEq, Repr

structure BackendTransport where
  state : TransportState := .opened
  cancelled : Bool := false
  stats : TransportStatistics := {}
  stream : Nat → UInt8
  /-- How much of the stream the backend has handed out. -/
  position : Nat := 0
  script : List Poll := []

/-- What `read` returns, and the buffer it was given. -/
structure ReadOutcome where
  result : Except ErrorCode Nat
  buffer : ByteBuffer

namespace BackendTransport

/-- The next `n` bytes of the backend. -/
def upcoming (t : BackendTransport) (n : Nat) : ByteBuffer :=
  (List.range n).map fun i => t.stream (t.position + i)

/-- The backend's answer of `k` bytes to a call of the given capacity. -/
def handOut (t : BackendTransport) (k capacity : Nat) : ByteBuffer × BackendTransport :=
  (t.upcoming (min k capacity), { t with position := t.position + min k capacity })

def countError (t : BackendTransport) : BackendTransport :=
  { t with stats := { t.stats with errorCount := t.stats.errorCount + 1 } }

def countTimeout (t : BackendTransport) : BackendTransport :=
  { t with stats := { t.stats with timeoutCount := t.stats.timeoutCount + 1 } }

def countRead (t : BackendTransport) (bytes : Nat) : BackendTransport :=
  { t with stats := { t.stats with
      readOperations := t.stats.readOperations + 1
      bytesRead := t.stats.bytesRead + bytes } }

/-! ## USB -/

/-- `bulkRead`. A cancel from another thread aborts the pipe. -/
def bulkRead (t : BackendTransport) (capacity : Nat) :
    Except ErrorCode ByteBuffer × BackendTransport :=
  match t.script with
  | [] => (.error .transportTimeout, t)
  | .cancelled :: script =>
    (.error .transportAsyncCancelled, { t with script, cancelled := true })
  | .expired :: script => (.error .transportTimeout, { t with script })
  | .failed e :: script => (.error e, { t with script })
  | .bytes k :: script =>
    let answer := ({ t with script } : BackendTransport).handOut k capacity
    (.ok answer.1, answer.2)

end BackendTransport

/-- `minBytes` is not looked at. -/
def UsbTransport.read (buffer : ByteBuffer) (_minBytes maxBytes : Nat) (t : BackendTransport) :
    ReadOutcome × BackendTransport :=
  if t.state ≠ .opened then (⟨.error .transportNotOpen, buffer⟩, t)
  else if t.cancelled then (⟨.error .transportAsyncCancelled, buffer⟩, t)
  else
    match t.bulkRead maxBytes with
    | (.error e, t) => (⟨.error e, buffer.resize maxBytes⟩, t.countError)
    | (.ok bytes, t) => (⟨.ok bytes.length, bytes⟩, t.countRead bytes.length)

namespace BackendTransport

/-! ## TCP, serial, UDP -/

/-- `while (totalRead < minBytes)`, with what was received so far: the error it
is left with, if any, and what was received then. -/
def readLoop (minBytes maxBytes : Nat) :
    List Poll → ByteBuffer → BackendTransport → Option ErrorCode × ByteBuffer × BackendTransport
  | [], received, t =>
    if received.length < minBytes then
      (some .transportTimeout, received, ({ t with script := [] } : BackendTransport).countTimeout)
    else (none, received, { t with script := [] })
  | poll :: script, received, t =>
    if received.length < minBytes then
      match poll with
      | .cancelled =>
        (some .transportAsyncCancelled, received, { t with script, cancelled := true })
      | .expired =>
        (some .transportTimeout, received, ({ t with script } : BackendTransport).countTimeout)
      | .failed e =>
        if e = .transportTimeout then readLoop minBytes maxBytes script received t
        else (some e, received, ({ t with script } : BackendTransport).countError)
      | .bytes k =>
        let answer := t.handOut k (maxBytes - received.length)
        readLoop minBytes maxBytes script (received ++ answer.1) answer.2
    else (none, received, { t with script := poll :: script })

/-- The body the three transports share. -/
def pollingRead (buffer : ByteBuffer) (minBytes maxBytes : Nat) (t : BackendTransport) :
    ReadOutcome × BackendTransport :=
  if t.state ≠ .opened then (⟨.error .transportNotOpen, buffer⟩, t)
  else if t.cancelled then (⟨.error .transportAsyncCancelled, buffer⟩, t)
  else
    match readLoop minBytes maxBytes t.script [] t with
    | (some e, received, t) => (⟨.error e, received.resize maxBytes⟩, t)
    | (none, received, t) =>
      (⟨.ok received.length, received⟩, t.countRead received.length)

end BackendTransport

def TcpTransport.read := BackendTransport.pollingRead

def SerialTransport.read := BackendTransport.pollingRead

def UdpTransport.read := BackendTransport.pollingRead

/-- The transports over a backend. -/
inductive BackendKind where
  | usb | tcp | serial | udp
  deriving DecidableEq, Repr

/-- One call of `read`, with the buffer the caller hands in. -/
structure ReadCall where
  buffer : ByteBuffer := []
  minBytes : Nat
  maxBytes : Nat
  min_le_max : minBytes ≤ maxBytes

def ReadCall.run (kind : BackendKind) (call : ReadCall) :
    BackendTransport → ReadOutcome × BackendTransport :=
  match kind with
  | .usb => UsbTransport.read call.buffer call.minBytes call.maxBytes
  | .tcp => TcpTransport.read call.buffer call.minBytes call.maxBytes
  | .serial => SerialTransport.read call.buffer call.minBytes call.maxBytes
  | .udp => UdpTransport.read call.buffer call.minBytes call.maxBytes

end MBootCore
