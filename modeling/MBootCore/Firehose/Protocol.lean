import MBootCore.Firehose.StreamEngine
import MBootCore.State.GenericStateMachine

/-!
# Firehose — Protocol

`FirehoseProtocol`: the configure handshake with its retries, the commands
with one answer each, and the two streaming operations, over any transport.
The stream engine is created by the first `program` or `read` after
`resetState` and keeps its own cancel flag.
-/

namespace MBootCore

structure FirehoseConfig where
  memoryName : String := "ufs"
  maxPayloadSizeToTarget : UInt32 := 1048576
  maxPayloadSizeFromTarget : UInt32 := 1048576
  zlpAwareHost : UInt32 := 1
  mode : UInt32 := 0
  maxConfigureRetries : Int := 3
  deriving DecidableEq, Repr

/-- The members of the stream engine besides its transport. -/
structure StreamEngineState where
  config : FirehoseStreamConfig
  cancelled : Bool := false
  deriving DecidableEq, Repr

/-- The machine the constructor of `FirehoseProtocol` sets up. -/
def firehoseStateMachine : GenericStateMachine :=
  GenericStateMachine.setInitialState
    ((((({} : GenericStateMachine).addState 0 "Idle").addState 1 "Configured").addState 2
      "Busy").addState 3 "Error") 0

structure FirehoseProtocol (τ : Type) where
  link : Link τ
  config : FirehoseConfig := {}
  stateMachine : GenericStateMachine := firehoseStateMachine
  phase : ProtocolPhase := .idle
  errors : List ErrorCode := []
  cancelled : Bool := false
  streamEngine : Option StreamEngineState := none
  configured : Bool := false

namespace FirehoseProtocol

variable {τ : Type}

/-- What the constructor makes. -/
def construct (transport : τ) (config : FirehoseConfig) : FirehoseProtocol τ where
  link := { transport := transport }
  config := config

abbrev Method (τ α : Type) : Type := Program (FirehoseProtocol τ) ErrorCode α

/-! ## Statements -/

def setPhase (phase : ProtocolPhase) : Method τ Unit :=
  Program.modify fun s => { s with phase := phase }

def pushError (e : ErrorCode) : Method τ Unit :=
  Program.modify fun s => { s with errors := s.errors ++ [e] }

/-- An I/O call of the protocol. -/
def onLink {α : Type} (p : Program (Link τ) ErrorCode α) : Method τ α :=
  Program.zoom link (fun l s => { s with link := l }) p

def checkCancelled : Method τ Unit := Program.failIf cancelled .cancelled

def checkConfigured : Method τ Unit := Program.failIf (fun s => !s.configured) .invalidState

variable (io : ITransport τ)

/-! ## Command and answer -/

def receiveResponse : Method τ FirehoseResponse := do
  checkCancelled
  let buf ← onLink (Link.read io 1 8192)
  pure (.fromXml (textOfBytes buf))

def sendXmlCommand (xml : String) : Method τ FirehoseResponse := do
  checkCancelled
  let _ ← onLink (Link.write io (wireText xml))
  receiveResponse io

def sendCommand (cmd : FirehoseCommand) : Method τ FirehoseResponse :=
  sendXmlCommand io cmd.serialize

/-- A command that fails when it is refused. -/
def sendCommandUnlessNak (cmd : FirehoseCommand) : Method τ FirehoseResponse := do
  let resp ← sendCommand io cmd
  if resp.isNak then Program.fail .protocolError else pure resp

/-! ## Configure -/

def configureCommand (config : FirehoseConfig) : ConfigureCommand where
  memoryName := config.memoryName
  maxPayloadSizeToTarget := config.maxPayloadSizeToTarget
  maxPayloadSizeFromTarget := config.maxPayloadSizeFromTarget
  zlpAwareHost := config.zlpAwareHost
  mode := config.mode

/-- The request of one attempt and its answer. -/
def configureExchange (cmd : ConfigureCommand) : Method τ FirehoseResponse := do
  let xml ← Program.ofExcept (FirehoseXmlEngine.serialize cmd.toXml)
  let _ ← onLink (Link.write io (wireText xml))
  receiveResponse io

def becomeConfigured : Method τ Unit :=
  Program.modify fun s =>
    { s with
      configured := true
      phase := .firehoseReady
      stateMachine := (s.stateMachine.transition 1).2 }

/-- The loop over the attempts left. -/
def configureLoop (cmd : ConfigureCommand) : Nat → Method τ Unit
  | 0 => do
    setPhase .error
    Program.fail .protocolError
  | attempts + 1 => do
    checkCancelled
    match ← Program.attempt (configureExchange io cmd) with
    | .error e =>
      pushError e
      configureLoop cmd attempts
    | .ok resp =>
      if resp.isAck then becomeConfigured
      else if resp.isNak then
        pushError .protocolError
        configureLoop cmd attempts
      else configureLoop cmd attempts

def performConfigure : Method τ Unit := do
  let config ← Program.gets config
  configureLoop io (configureCommand config) config.maxConfigureRetries.toNat

def handshake : Method τ Unit := performConfigure io

def uploadProgrammer (_ : ByteBuffer) : Method τ Unit := Program.fail .notSupported

def reset : Method τ Unit := do
  let resp ← sendCommand io (.reset {})
  if resp.isAck then
    Program.modify fun s => { s with configured := false, phase := .finished }
  else Program.fail .protocolError

/-! ## Streaming -/

def streamConfig (config : FirehoseConfig) : FirehoseStreamConfig where
  chunkSizeToTarget := config.maxPayloadSizeToTarget.toNat
  chunkSizeFromTarget := config.maxPayloadSizeFromTarget.toNat

/-- `if (!m_streamEngine) m_streamEngine = ...;`. -/
def createStreamEngine : Method τ Unit :=
  Program.modify fun s =>
    { s with streamEngine := some (s.streamEngine.getD { config := streamConfig s.config }) }

/-- The engine on the transport of the protocol. -/
def engineOf (s : FirehoseProtocol τ) : FirehoseStreamEngine τ :=
  let engine := s.streamEngine.getD { config := streamConfig s.config }
  ⟨s.link, engine.config, engine.cancelled⟩

/-- A method of the engine. -/
def onEngine {α : Type} (p : FirehoseStreamEngine.Method τ α) : Method τ α :=
  Program.zoom engineOf
    (fun e s => { s with link := e.link, streamEngine := some ⟨e.config, e.cancelled⟩ }) p

/-- What both streaming operations do around the engine. -/
def stream {α : Type} (p : FirehoseStreamEngine.Method τ α) : Method τ α := do
  checkConfigured
  setPhase .transferring
  createStreamEngine
  match ← Program.attempt (onEngine p) with
  | .error e =>
    setPhase .error
    Program.fail e
  | .ok a => pure a

def program (fuel : Nat) (cmd : ProgramCommand) (data : ByteBuffer) :
    Method τ FirehoseResponse := do
  stream (FirehoseStreamEngine.streamToDevice io fuel (.program cmd) data)
  setPhase .firehoseReady
  pure {}

/-- Unlike `program` it does not set the phase when it is done. -/
def read (fuel : Nat) (cmd : ReadCommand) : Method τ ByteBuffer :=
  stream (FirehoseStreamEngine.streamFromDevice io fuel (.read cmd)
    (cmd.sectorSize.toNat * cmd.numSectorSize.toNat))

/-! ## Commands -/

def erase (cmd : EraseCommand) : Method τ Unit := do
  let _ ← sendCommandUnlessNak io (.erase cmd)
  pure ()

def peek (cmd : PeekCommand) : Method τ ByteBuffer := do
  let resp ← sendCommandUnlessNak io (.peek cmd)
  pure resp.data

def poke (cmd : PokeCommand) : Method τ Unit := do
  let _ ← sendCommandUnlessNak io (.poke cmd)
  pure ()

def patch (cmd : PatchCommand) : Method τ Unit := do
  let _ ← sendCommandUnlessNak io (.patch cmd)
  pure ()

/-- Any answer will do. -/
def powerReset (cmd : PowerCommand) : Method τ Unit := do
  let _ ← sendCommand io (.power cmd)
  pure ()

def getStorageInfo : Method τ FirehoseResponse := sendCommand io .getStorageInfo

/-- Any answer will do. -/
def getSha256Digest (cmd : GetSha256DigestCommand) : Method τ ByteBuffer := do
  let resp ← sendCommand io (.getSha256Digest cmd)
  pure resp.data

def configureMemory (cmd : ConfigureMemoryCommand) : Method τ Unit := do
  let _ ← sendCommandUnlessNak io (.configureMemory cmd)
  pure ()

/-! ## Cancel -/

def cancel : Method τ Unit :=
  Program.modify fun s =>
    { s with
      cancelled := true
      streamEngine := s.streamEngine.map fun e => { e with cancelled := true } }

def resetState : Method τ Unit :=
  Program.modify fun s =>
    { s with
      phase := .idle
      errors := []
      cancelled := false
      configured := false
      streamEngine := none
      stateMachine := s.stateMachine.reset }

end FirehoseProtocol

/-! ## Calls -/

inductive FirehoseCall where
  | handshake
  | uploadProgrammer (programmerData : ByteBuffer)
  | reset
  | sendCommand (cmd : FirehoseCommand)
  | program (cmd : ProgramCommand) (data : ByteBuffer)
  | read (cmd : ReadCommand)
  | erase (cmd : EraseCommand)
  | peek (cmd : PeekCommand)
  | poke (cmd : PokeCommand)
  | patch (cmd : PatchCommand)
  | powerReset (cmd : PowerCommand)
  | getStorageInfo
  | getSha256Digest (cmd : GetSha256DigestCommand)
  | configureMemory (cmd : ConfigureMemoryCommand)
  | cancel
  | resetState
  deriving DecidableEq, Repr

/-- A call for its effect and whether it succeeds; the step of a run of calls
(`CallRun`). -/
def FirehoseCall.run {τ : Type} (io : ITransport τ) (fuel : Nat) :
    FirehoseCall → FirehoseProtocol.Method τ Unit
  | handshake => FirehoseProtocol.handshake io
  | uploadProgrammer programmerData => FirehoseProtocol.uploadProgrammer programmerData
  | reset => FirehoseProtocol.reset io
  | sendCommand cmd => Program.void (FirehoseProtocol.sendCommand io cmd)
  | program cmd data => Program.void (FirehoseProtocol.program io fuel cmd data)
  | read cmd => Program.void (FirehoseProtocol.read io fuel cmd)
  | erase cmd => FirehoseProtocol.erase io cmd
  | peek cmd => Program.void (FirehoseProtocol.peek io cmd)
  | poke cmd => FirehoseProtocol.poke io cmd
  | patch cmd => FirehoseProtocol.patch io cmd
  | powerReset cmd => FirehoseProtocol.powerReset io cmd
  | getStorageInfo => Program.void (FirehoseProtocol.getStorageInfo io)
  | getSha256Digest cmd => Program.void (FirehoseProtocol.getSha256Digest io cmd)
  | configureMemory cmd => FirehoseProtocol.configureMemory io cmd
  | cancel => FirehoseProtocol.cancel
  | resetState => FirehoseProtocol.resetState

end MBootCore
