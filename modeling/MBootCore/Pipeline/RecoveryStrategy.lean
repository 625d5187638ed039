import MBootCore.Domain.Error

/-!
# Pipeline — RecoveryStrategy

The stages of the boot pipeline and `RecoveryStrategy`: what to do about a
failed stage.

Handlers, decisions and callbacks are code of the caller. Such code may keep
state of its own and may cancel the pipeline; `Client W α` is a call of it
over a world `W`.
-/

namespace MBootCore

/-- A call of the caller's code: its value, the world it leaves, and whether
the pipeline's `cancel` was called before it returned. -/
abbrev Client (W α : Type) : Type := W → α × W × Bool

inductive PipelineStage where
  | disconnected | connected | saharaHandshake | versionNegotiation | deviceDiscovery
  | loaderSelection | elfParsing | memoryImageBuild | programmerUpload | programmerExecute
  | firehoseDetection | firehoseConfiguration | ready | error | cancelled
  deriving DecidableEq, Repr

namespace PipelineStage

/-- The enumerators in the order of their numbers. -/
def enumerators : List PipelineStage :=
  [disconnected, connected, saharaHandshake, versionNegotiation, deviceDiscovery,
    loaderSelection, elfParsing, memoryImageBuild, programmerUpload, programmerExecute,
    firehoseDetection, firehoseConfiguration, ready, error, cancelled]

def number (stage : PipelineStage) : Nat := enumerators.idxOf stage

/-- The conversion of a number to the enumeration. -/
def ofNumber (n : Nat) : PipelineStage := enumerators.getD n disconnected

def toString : PipelineStage → String
  | disconnected => "Disconnected"
  | connected => "Connected"
  | saharaHandshake => "SaharaHandshake"
  | versionNegotiation => "VersionNegotiation"
  | deviceDiscovery => "DeviceDiscovery"
  | loaderSelection => "LoaderSelection"
  | elfParsing => "ElfParsing"
  | memoryImageBuild => "MemoryImageBuild"
  | programmerUpload => "ProgrammerUpload"
  | programmerExecute => "ProgrammerExecute"
  | firehoseDetection => "FirehoseDetection"
  | firehoseConfiguration => "FirehoseConfiguration"
  | ready => "Ready"
  | error => "Error"
  | cancelled => "Cancelled"

theorem number_lt (stage : PipelineStage) : stage.number < 15 := by
  cases stage <;> decide

theorem number_injective {s t : PipelineStage} (h : s.number = t.number) : s = t := by
  cases s <;> cases t <;> first | rfl | exact absurd h (by decide)

end PipelineStage

inductive RecoveryAction where
  | retry | rollback | restartStage | abort
  deriving DecidableEq, Repr

structure RecoveryRule where
  stage : PipelineStage := .disconnected
  maxRetries : Int := 2
  action : RecoveryAction := .retry
  onExhaustedAction : RecoveryAction := .abort
  deriving DecidableEq, Repr

structure RecoveryContext where
  failedStage : PipelineStage
  rollbackTarget : PipelineStage
  error : ErrorCode
  retryCount : Int := 0
  deriving DecidableEq, Repr

structure RecoveryStrategy (W : Type) where
  defaultAction : RecoveryAction := .abort
  stageRules : PipelineStage → Option RecoveryRule := fun _ => none
  customDecisions : PipelineStage → Option (RecoveryContext → Client W RecoveryAction) :=
    fun _ => none
  rollbackMap : PipelineStage → Option PipelineStage := fun _ => none

namespace RecoveryStrategy

variable {W : Type} (strategy : RecoveryStrategy W)

/-- The rules for the stage, once it has no decision of its own. -/
def decideByRule (context : RecoveryContext) : RecoveryAction :=
  match strategy.stageRules context.failedStage with
  | some rule => if context.retryCount ≥ rule.maxRetries then rule.onExhaustedAction else .retry
  | none => if context.retryCount ≥ 2 then strategy.defaultAction else .retry

def decide (context : RecoveryContext) : Client W RecoveryAction :=
  match strategy.customDecisions context.failedStage with
  | some decision => decision context
  | none => fun world => (strategy.decideByRule context, world, false)

def rollbackTarget (failedStage : PipelineStage) (levels : Nat) : PipelineStage :=
  match strategy.rollbackMap failedStage with
  | some target => target
  | none => .ofNumber (failedStage.number - levels)

/-- Without a rollback map the target is an earlier stage. -/
theorem rollbackTarget_number_le (h : strategy.rollbackMap = fun _ => none)
    (failedStage : PipelineStage) :
    (strategy.rollbackTarget failedStage 2).number ≤ failedStage.number := by
  rw [rollbackTarget, h]
  cases failedStage <;> decide

end RecoveryStrategy

end MBootCore
