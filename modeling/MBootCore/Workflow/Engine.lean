import MBootCore.Domain.Interruption

/-!
# Workflow — Engine

`WorkflowEngine` of `workflow/WorkflowEngine.cpp`: the steps run one after the
other, the recovery of a step that fails, and the rollback.

The steps are the engine's surroundings, and so are other threads: whatever a
step's method or another thread asks of the engine while it works (`cancel`,
`pause`, `resume`) is a request, carried out where it arrives. The engine keeps
a log of what came of each step.

Left out are the callbacks, the progress, the history and the times.
-/

namespace MBootCore.Workflow

inductive WorkflowState where
  | created | ready | running | paused | cancelled | completed | failed | rollingBack
  deriving DecidableEq, Repr

inductive WorkflowStepType where
  | connect | detect | negotiate | uploadLoader | flash | verify | gpt | backup | restore
  | reboot | disconnect | custom
  deriving DecidableEq, Repr

inductive RecoveryAction where
  | retry | rollback | skip | abort | resume | continue
  deriving DecidableEq, Repr

/-- `DefaultRecoveryStrategy::decide`, without the delay and the reason. -/
def defaultDecide (stepType : WorkflowStepType) (error : ErrorCode) (retryCount : Int) :
    RecoveryAction :=
  let maxRetries := 3
  if error = .cancelled then .abort
  else
    match stepType with
    | .verify => .abort
    | .reboot | .disconnect => .skip
    | .connect | .detect | .negotiate | .uploadLoader => .retry
    | .flash | .gpt | .backup | .restore =>
      if retryCount < maxRetries then .retry
      else if retryCount < maxRetries + 2 then .rollback
      else .abort
    | .custom => if retryCount < maxRetries then .retry else .abort

/-- The steps by their indices, and what goes on around the engine. -/
structure Surroundings (σ : Type) where
  prepare : Nat → σ → Answer σ
  execute : Nat → σ → Answer σ
  rollback : Nat → σ → Answer σ
  /-- What `m_recovery` decides on the error of a step. -/
  recovery : Nat → ErrorCode → σ → RecoveryAction × σ
  /-- What is asked of the engine between two steps. -/
  between : σ → List Request × σ
  wake : σ → Wake × σ
  /-- The context is marked as cancelled. -/
  contextCancelled : σ → Bool

/-- What came of a step. -/
inductive StepEvent where
  | executed (index : Nat)
  | skipped (index : Nat)
  | rolledBack (index : Nat) (result : Except ErrorCode Unit)

structure StepEntry where
  completed : Bool := false
  failed : Bool := false
  deriving DecidableEq, Repr

structure WorkflowOptions where
  retryCount : Int := 3
  continueOnWarning : Bool := false
  deriving DecidableEq, Repr

structure WorkflowStatistics where
  retries : UInt32 := 0
  rollbacks : UInt32 := 0
  warnings : UInt32 := 0
  errors : UInt32 := 0
  deriving DecidableEq, Repr

structure WorkflowResult where
  success : Bool := false
  error : ErrorCode := .success
  deriving DecidableEq, Repr

structure WorkflowEngine (σ : Type) where
  world : σ
  steps : List StepEntry
  options : WorkflowOptions := {}
  state : WorkflowState := .created
  cancelled : Bool := false
  paused : Bool := false
  currentStepIndex : Nat := 0
  result : WorkflowResult := {}
  stats : WorkflowStatistics := {}
  log : List StepEvent := []

namespace WorkflowEngine

variable {σ : Type} (w : Surroundings σ)

/-! ## Requests -/

def pause (e : WorkflowEngine σ) : Except ErrorCode Unit × WorkflowEngine σ :=
  if e.state ≠ .running then (.error .invalidState, e)
  else (.ok (), { e with paused := true, state := .paused })

def resume (e : WorkflowEngine σ) : Except ErrorCode Unit × WorkflowEngine σ :=
  if e.state ≠ .paused then (.error .invalidState, e)
  else (.ok (), { e with paused := false, state := .running })

def cancel (e : WorkflowEngine σ) : WorkflowEngine σ :=
  { e with cancelled := true, state := .cancelled }

def request (e : WorkflowEngine σ) : Request → WorkflowEngine σ
  | .cancel => e.cancel
  | .pause => e.pause.2
  | .resume => e.resume.2

/-- A method of a step, with what is asked of the engine meanwhile. -/
def ask (method : Nat → σ → Answer σ) (index : Nat) (e : WorkflowEngine σ) :
    Except ErrorCode Unit × WorkflowEngine σ :=
  let answer := method index e.world
  (answer.result, answer.requests.foldl request { e with world := answer.world })

/-- What is asked of the engine between two steps. -/
def listen (e : WorkflowEngine σ) : WorkflowEngine σ :=
  let (requests, world) := w.between e.world
  requests.foldl request { e with world }

def checkCancelled (e : WorkflowEngine σ) : Bool := e.cancelled || w.contextCancelled e.world

/-! ## Entries -/

def completed (e : WorkflowEngine σ) (index : Nat) : Bool :=
  (e.steps[index]?.map StepEntry.completed).getD false

def complete (index : Nat) (e : WorkflowEngine σ) : WorkflowEngine σ :=
  { e with steps := e.steps.modify index fun entry => { entry with completed := true } }

def fail (index : Nat) (e : WorkflowEngine σ) : WorkflowEngine σ :=
  { e with steps := e.steps.modify index fun entry => { entry with failed := true } }

def record (event : StepEvent) (e : WorkflowEngine σ) : WorkflowEngine σ :=
  { e with log := e.log ++ [event] }

def countError (e : WorkflowEngine σ) : WorkflowEngine σ :=
  { e with stats := { e.stats with errors := e.stats.errors + 1 } }

def countRollback (e : WorkflowEngine σ) : WorkflowEngine σ :=
  { e with stats := { e.stats with rollbacks := e.stats.rollbacks + 1 } }

def countWarning (e : WorkflowEngine σ) : WorkflowEngine σ :=
  { e with stats := { e.stats with warnings := e.stats.warnings + 1 } }

def countRetry (e : WorkflowEngine σ) : WorkflowEngine σ :=
  { e with stats := { e.stats with retries := e.stats.retries + 1 } }

/-! ## Rollback -/

/-- One completed step is rolled back. -/
def rollbackStep (index : Nat) (lastError : ErrorCode) (e : WorkflowEngine σ) :
    ErrorCode × WorkflowEngine σ :=
  if e.completed index then
    let (result, e) := ask w.rollback index e
    match result with
    | .error error => (error, (e.record (.rolledBack index (.error error))).countError)
    | .ok () => (lastError, (e.record (.rolledBack index (.ok ()))).countRollback)
  else (lastError, e)

/-- The steps before `count`, the last one first. -/
def rollbackSteps : Nat → ErrorCode → WorkflowEngine σ → ErrorCode × WorkflowEngine σ
  | 0, lastError, e => (lastError, e)
  | count + 1, lastError, e =>
    let (lastError, e) := rollbackStep w count lastError e
    rollbackSteps count lastError e

def rollback (e : WorkflowEngine σ) : Except ErrorCode Unit × WorkflowEngine σ :=
  if e.state ≠ .failed ∧ e.state ≠ .cancelled then (.error .invalidState, e)
  else
    let (lastError, e) :=
      rollbackSteps w e.currentStepIndex .success { e with state := .rollingBack }
    if lastError ≠ .success then
      (.error lastError, { e with result := { success := false, error := lastError } })
    else (.ok (), { e with state := .ready })

/-! ## Steps -/

/-- What is decided on a failed attempt at a step; a retry goes on with the
attempts left. -/
def recover (retry : WorkflowEngine σ → Except ErrorCode Unit × WorkflowEngine σ) (index : Nat)
    (error : ErrorCode) (action : RecoveryAction) (e : WorkflowEngine σ) :
    Except ErrorCode Unit × WorkflowEngine σ :=
  match action with
  | .retry => retry e
  | .rollback =>
    match e.rollback w with
    | (.error _, e) => (.error error, e.countRollback.fail index)
    | (.ok (), e) => (.error error, e.fail index)
  | .skip => (.ok (), ((e.complete index).record (.skipped index)).countWarning)
  | .abort | .resume | .continue => (.error error, (e.fail index).countError)

/-- Attempts at a step, at most as many as are left. -/
def attempts (index : Nat) : Nat → WorkflowEngine σ → Except ErrorCode Unit × WorkflowEngine σ
  | 0, e => (.error .workflowStepFailed, (e.fail index).countError)
  | left + 1, e =>
    let e := e.listen w
    if e.checkCancelled w then (.error .cancelled, e)
    else
      match ask w.execute index e with
      | (.ok (), e) => (.ok (), (e.complete index).record (.executed index))
      | (.error error, e) =>
        if error = .cancelled then (.error error, e.fail index)
        else
          let (action, world) := w.recovery index error e.world
          recover w (attempts index left) index error action { e.countRetry with world }

def executeStep (index : Nat) (e : WorkflowEngine σ) : Except ErrorCode Unit × WorkflowEngine σ :=
  attempts w index (if e.options.retryCount > 0 then e.options.retryCount.toNat else 1) e

/-! ## Runs -/

def prepareSteps : List Nat → WorkflowEngine σ → Except ErrorCode Unit × WorkflowEngine σ
  | [], e => (.ok (), e)
  | index :: rest, e =>
    match ask w.prepare index e with
    | (.error error, e) =>
      (.error error,
        { e.countError with state := .failed, result := { success := false, error } })
    | (.ok (), e) => prepareSteps rest e

def prepare (e : WorkflowEngine σ) : Except ErrorCode Unit × WorkflowEngine σ :=
  if e.state ≠ .created then (.error .invalidState, e)
  else prepareSteps w (List.range e.steps.length) { e with state := .ready }

def stopCancelled (e : WorkflowEngine σ) : Except ErrorCode Unit × WorkflowEngine σ :=
  (.error .cancelled,
    { e with state := .cancelled, result := { success := false, error := .cancelled } })

/-- A paused engine waits until it is resumed or cancelled. -/
def waitWhilePaused (e : WorkflowEngine σ) : WorkflowEngine σ :=
  if e.paused then
    let (wake, world) := w.wake e.world
    let e := { e with state := .paused, world }
    match wake with
    | .resumed => e.resume.2
    | .cancelled => e.cancel
  else e

def finish (e : WorkflowEngine σ) : Except ErrorCode Unit × WorkflowEngine σ :=
  if e.stats.warnings > 0 ∧ e.options.continueOnWarning = true then
    (.error (if e.result.error ≠ .success then e.result.error else .workflowStepFailed),
      { e with state := .failed, result := { e.result with success := false } })
  else (.ok (), { e with state := .completed, result := { e.result with success := true } })

/-- The steps of the given indices, one after the other. -/
def runSteps : List Nat → WorkflowEngine σ → Except ErrorCode Unit × WorkflowEngine σ
  | [], e => e.finish
  | index :: rest, e =>
    let e := e.listen w
    if e.checkCancelled w then e.stopCancelled
    else
      let e := e.waitWhilePaused w
      if e.checkCancelled w then e.stopCancelled
      else
        match executeStep w index { e with currentStepIndex := index } with
        | (.ok (), e) => runSteps rest e
        | (.error error, e) =>
          if error = .cancelled then (.error error, { e with state := .cancelled })
          else if e.options.continueOnWarning then
            runSteps rest { e.countWarning with result := { e.result with error } }
          else (.error error, { e with state := .failed })

/-- The indices from the current step on. -/
def remaining (e : WorkflowEngine σ) : List Nat :=
  List.range' e.currentStepIndex (e.steps.length - e.currentStepIndex)

def runPrepared (e : WorkflowEngine σ) : Except ErrorCode Unit × WorkflowEngine σ :=
  if e.state ≠ .ready ∧ e.state ≠ .paused then (.error .invalidState, e)
  else if e.steps = [] then
    (.ok (), { e with state := .completed, result := { success := true, error := .success } })
  else runSteps w e.remaining { e with cancelled := false, paused := false, state := .running }

def run (e : WorkflowEngine σ) : Except ErrorCode Unit × WorkflowEngine σ :=
  if e.state = .created then
    match e.prepare w with
    | (.error error, e) => (.error error, e)
    | (.ok (), e) => runPrepared w e
  else runPrepared w e

/-- An engine with its steps added. -/
def create (world : σ) (count : Nat) (options : WorkflowOptions) : WorkflowEngine σ where
  world
  steps := List.replicate count {}
  options

/-- Verification steps of which the attempt of the given number fails. -/
def failingOnce (attempt : Nat) : Surroundings Nat where
  prepare _ count := ⟨.ok (), [], count⟩
  execute _ count := ⟨if count = attempt then .error .jobDataMismatch else .ok (), [], count + 1⟩
  rollback _ count := ⟨.ok (), [], count⟩
  recovery _ error count := (defaultDecide .verify error 0, count)
  between count := ([], count)
  wake count := (.resumed, count)
  contextCancelled _ := false

end WorkflowEngine

inductive WorkflowCall where
  | run | pause | resume | cancel | rollback
  deriving DecidableEq, Repr

def WorkflowCall.step {σ : Type} (w : Surroundings σ) :
    WorkflowCall → WorkflowEngine σ → Except ErrorCode Unit × WorkflowEngine σ
  | run, e => e.run w
  | pause, e => e.pause
  | resume, e => e.resume
  | cancel, e => (.ok (), e.cancel)
  | rollback, e => e.rollback w

end MBootCore.Workflow
