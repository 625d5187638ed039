import MBootCore.Pipeline.RecoveryStrategy
import MBootCore.Support.Program

/-!
# Pipeline — BootPipeline

`BootPipeline` of `core/pipeline/BootPipeline.cpp`: the stages run one after
the other, and a failed one is handed to the recovery strategy.

`invocations` is a log of the handler calls of the current run, oldest first;
no code reads it.
-/

namespace MBootCore

structure ProgressInfo where
  stage : String := ""
  currentOperation : String := ""
  cancelable : Bool := true
  isIndeterminate : Bool := false
  deriving DecidableEq, Repr

/-- The fields the pipeline itself reads and writes. -/
structure BootContext where
  progress : ProgressInfo := {}
  currentStage : PipelineStage := .disconnected
  previousStage : PipelineStage := .disconnected
  lastError : ErrorCode := .success
  stageRetryCount : Int := 0
  deriving DecidableEq, Repr

/-- A handler is given the context by reference. -/
abbrev StageHandler (W : Type) : Type :=
  BootContext → Client W (Except ErrorCode Unit × BootContext)

structure Invocation where
  stage : PipelineStage
  result : Except ErrorCode Unit

structure BootPipeline (W : Type) where
  world : W
  context : BootContext := {}
  enableRecovery : Bool := true
  handlers : PipelineStage → Option (StageHandler W) := fun _ => none
  recoveryStrategy : Option (RecoveryStrategy W) := some {}
  progressCb : Option (BootContext → Client W Unit) := none
  /-- The `cancel` of the transport, when one is set. -/
  cancelTransport : Option (Client W Unit) := none
  stageRetryCounts : PipelineStage → Int := fun _ => 0
  recoveryAttempts : Nat := 0
  cancelled : Bool := false
  running : Bool := false
  invocations : List Invocation := []

namespace BootPipeline

def kStageOrder : List PipelineStage :=
  [.connected, .saharaHandshake, .versionNegotiation, .deviceDiscovery, .loaderSelection,
    .elfParsing, .memoryImageBuild, .programmerUpload, .programmerExecute, .firehoseDetection,
    .firehoseConfiguration, .ready]

def kMaxRecoveryAttempts : Nat := 5

def nextStage (current : PipelineStage) : PipelineStage :=
  if current ∈ kStageOrder then kStageOrder.getD (kStageOrder.idxOf current + 1) .ready
  else if current = .disconnected then .connected
  else .error

variable {W : Type}

abbrev Method (W α : Type) : Type := Program (BootPipeline W) ErrorCode α

/-! ## Statements -/

def call {α : Type} (code : Client W α) : Method W α := fun p =>
  let outcome := code p.world
  (.ok outcome.1,
    { p with world := outcome.2.1, cancelled := p.cancelled || outcome.2.2 })

def setContext (f : BootContext → BootContext) : Method W Unit :=
  Program.modify fun p => { p with context := f p.context }

def updateProgress (stage : PipelineStage) : Method W Unit :=
  setContext fun context =>
    { context with progress := { context.progress with
        stage := stage.toString
        currentOperation :=
          if stage = .ready then "Boot completed"
          else if stage = .error then "Boot failed"
          else if stage = .cancelled then "Boot cancelled"
          else stage.toString
        isIndeterminate := context.progress.isIndeterminate && decide (stage ≠ .error)
        cancelable := decide (stage ≠ .ready ∧ stage ≠ .error) } }

def reportProgress : Method W Unit := do
  let p ← Program.get
  match p.progressCb with
  | some progressCb => call (progressCb p.context)
  | none => pure ()

/-- Progress of the stage, and the callback. -/
def announce (stage : PipelineStage) : Method W Unit := do
  updateProgress stage
  reportProgress

/-- The stage becomes the current one. -/
def enterStage (stage : PipelineStage) : Method W Unit := do
  setContext fun context => { context with currentStage := stage }
  announce stage

/-! ## Recovery -/

def resumeAt (stage : PipelineStage) : Method W Unit :=
  setContext fun context => { context with currentStage := stage }

def countAttempt : Method W Unit :=
  Program.modify fun p => { p with recoveryAttempts := p.recoveryAttempts + 1 }

def setRetryCount (stage : PipelineStage) (count : Int) : Method W Unit :=
  Program.modify fun p =>
    { p with stageRetryCounts := fun s => if s = stage then count else p.stageRetryCounts s }

def recover (strategy : RecoveryStrategy W) (rc : RecoveryContext) : Method W Unit := do
  match ← call (strategy.decide rc) with
  | .retry =>
    countAttempt
    resumeAt rc.failedStage
  | .restartStage =>
    countAttempt
    setRetryCount rc.failedStage 0
    resumeAt rc.failedStage
  | .rollback =>
    countAttempt
    resumeAt (strategy.rollbackTarget rc.failedStage 2)
  | .abort =>
    resumeAt .error
    Program.fail rc.error

def performRecovery (rc : RecoveryContext) : Method W Unit := do
  let p ← Program.get
  match p.recoveryStrategy with
  | none => Program.fail rc.error
  | some strategy =>
    if p.recoveryAttempts ≥ kMaxRecoveryAttempts then Program.fail rc.error
    else recover strategy rc

/-- A failure that no recovery makes up for. -/
def giveUp (stage : PipelineStage) (e : ErrorCode) : Method W Unit := do
  announce stage
  Program.fail e

def handleStageFailure (stage : PipelineStage) (e : ErrorCode) : Method W Unit := do
  setContext fun context =>
    { context with
      lastError := e
      previousStage := context.currentStage
      currentStage := if e = .cancelled then .cancelled else .error }
  let p ← Program.get
  if e = .cancelled then giveUp .cancelled e
  else if p.enableRecovery = false then giveUp .error e
  else
    let retries := p.stageRetryCounts stage
    setRetryCount stage (retries + 1)
    match ← Program.attempt (performRecovery ⟨stage, stage, e, retries⟩) with
    | .error e' => giveUp .error e'
    | .ok () => pure ()

/-! ## Stages -/

/-- On to the next stage; after the last one the loop is left. -/
def advance (stage : PipelineStage) : Method W (Option PipelineStage) := do
  let next := nextStage stage
  if next = .ready ∨ next = .error then
    enterStage .ready
    pure none
  else
    enterStage next
    pure (some next)

def invoke (stage : PipelineStage) (handler : StageHandler W) :
    Method W (Except ErrorCode Unit) := do
  let p ← Program.get
  let outcome ← call (handler p.context)
  Program.modify fun p =>
    { p with
      context := outcome.2
      invocations := p.invocations ++ [⟨stage, outcome.1⟩] }
  pure outcome.1

def becomeCancelled : Method W Unit :=
  setContext fun context => { context with currentStage := .cancelled, lastError := .cancelled }

/-- One round of the loop in `executeStage`: the stage of the next round, if
there is one. -/
def stageRound (stage : PipelineStage) : Method W (Option PipelineStage) := do
  let p ← Program.get
  if p.cancelled then
    becomeCancelled
    announce .cancelled
    Program.fail .cancelled
  else
    match p.handlers stage with
    | none => advance stage
    | some handler =>
      match ← invoke stage handler with
      | .ok () =>
        setContext fun context => { context with previousStage := stage }
        advance stage
      | .error e =>
        handleStageFailure stage e
        let p ← Program.get
        announce p.context.currentStage
        pure (some p.context.currentStage)

/-- A round, over the pipeline and the local `stage`. -/
def loopRound : Program (PipelineStage × BootPipeline W) ErrorCode Bool := fun l =>
  match stageRound l.1 l.2 with
  | (.ok (some next), p) => (.ok true, (next, p))
  | (.ok none, p) => (.ok false, (l.1, p))
  | (.error e, p) => (.error e, (l.1, p))

/-- Between two failures the stage moves on, and there are at most
`kMaxRecoveryAttempts` of them, which bounds the rounds (`loopRound_ends`). -/
def stageLoop (fuel : Nat) (stage : PipelineStage) : Method W Unit := fun p =>
  let outcome := Program.repeatWhile loopRound .unknown fuel (stage, p)
  (outcome.1, outcome.2.2)

def executeStage (stage : PipelineStage) : Method W Unit := do
  enterStage stage
  stageLoop 91 stage

/-! ## Operations -/

def run : Method W Unit := do
  let p ← Program.get
  if p.running then Program.fail .alreadyExists
  else if p.cancelled then
    becomeCancelled
    announce .cancelled
    Program.fail .cancelled
  else
    Program.modify fun p =>
      { p with
        running := true
        cancelled := false
        recoveryAttempts := 0
        context := { p.context with currentStage := .disconnected, lastError := .success }
        invocations := [] }
    match ← Program.attempt (executeStage .connected) with
    | .error e =>
      Program.modify fun p => { p with running := false }
      Program.fail e
    | .ok () =>
      Program.modify fun p => { p with running := false }
      let p ← Program.get
      if p.context.currentStage = .ready then pure () else Program.fail p.context.lastError

def cancel : Method W Unit := do
  Program.modify fun p => { p with cancelled := true }
  let p ← Program.get
  match p.cancelTransport with
  | some cancelTransport => call cancelTransport
  | none => pure ()

def isInTerminalState (p : BootPipeline W) : Bool :=
  p.context.currentStage = .ready || p.context.currentStage = .error ||
    p.context.currentStage = .cancelled

def retry : Method W Unit := do
  let p ← Program.get
  if p.isInTerminalState then
    Program.modify fun p =>
      { p with
        cancelled := false
        context := if p.context.currentStage = .error then
          { p.context with currentStage := .disconnected } else p.context }
    run
  else Program.fail .invalidArgument

def reset : Method W Unit :=
  Program.modify fun p =>
    { p with
      context := { p.context with
        currentStage := .disconnected
        previousStage := .disconnected
        lastError := .success
        stageRetryCount := 0 }
      stageRetryCounts := fun _ => 0
      cancelled := false
      running := false
      recoveryAttempts := 0 }

end BootPipeline

end MBootCore
