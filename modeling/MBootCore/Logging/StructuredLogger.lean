import MBootCore.Domain.Error
import MBootCore.Support.RingBuffer

/-!
# Logging — StructuredLogger

`StructuredLogger.cpp`: the level, the filters and the buffer of the last
entries. The clock and the thread a call runs on are arguments of the call.

`History` reads a sequence of calls back, newest call first: the level and the
filters in force, and the entries accepted since the last `clear`. `run_tracks`
is the invariant that ties the logger to it, and `run_entries` what `entries`
returns after any calls.
-/

namespace MBootCore

inductive LogLevel where
  | trace
  | debug
  | info
  | warning
  | error
  | fatal
  | none
  deriving DecidableEq, Repr

def LogLevel.value : LogLevel → Nat
  | .trace => 0
  | .debug => 1
  | .info => 2
  | .warning => 3
  | .error => 4
  | .fatal => 5
  | .none => 6

instance : LE LogLevel := ⟨fun a b => a.value ≤ b.value⟩

instance : LT LogLevel := ⟨fun a b => a.value < b.value⟩

instance (a b : LogLevel) : Decidable (a ≤ b) := inferInstanceAs (Decidable (a.value ≤ b.value))

instance (a b : LogLevel) : Decidable (a < b) := inferInstanceAs (Decidable (a.value < b.value))

theorem LogLevel.not_lt {a b : LogLevel} : ¬ a < b ↔ b ≤ a := Nat.not_lt

inductive LogCategory where
  | general
  | transport
  | protocol
  | pipeline
  | workflow
  | job
  | plugin
  | dsp
  | security
  | config
  | diagnostics
  | profiler
  | memory
  | session
  | device
  deriving DecidableEq, Repr

structure LogEntry where
  level : LogLevel := .info
  category : LogCategory := .general
  message : String := ""
  scope : String := ""
  threadId : String := ""
  sessionId : String := ""
  deviceId : String := ""
  workflowId : String := ""
  timestamp : Int := 0
  fileName : String := ""
  lineNumber : UInt32 := 0
  deriving DecidableEq, Repr

structure FilterRule where
  minLevel : LogLevel
  category : LogCategory
  deriving DecidableEq, Repr

def kRingBufferSize : Nat := 10000

/-- The buffer of a new logger, and of a cleared one. -/
def LogBuffer.fresh : RingBuffer LogEntry kRingBufferSize :=
  .empty {} (by decide)

structure StructuredLogger where
  level : LogLevel := .trace
  buffer : RingBuffer LogEntry kRingBufferSize := LogBuffer.fresh
  filters : List FilterRule := []
  sessionId : String := ""
  deviceId : String := ""
  workflowId : String := ""

namespace StructuredLogger

def appendEntry (s : StructuredLogger) (entry : LogEntry) : StructuredLogger :=
  { s with buffer := s.buffer.push entry }

def allEntries (s : StructuredLogger) : List LogEntry := s.buffer.contents

def passesFilters (s : StructuredLogger) (lv : LogLevel) (cat : LogCategory) : Bool :=
  if s.filters ≠ [] then
    s.filters.any fun f => decide (f.minLevel ≤ lv) && decide (cat = f.category)
  else if lv < s.level then false
  else true

/-- What a caller passes to `log`, the time and the thread of the call with it. -/
structure LogCall where
  level : LogLevel
  category : LogCategory
  message : String
  scope : String := ""
  file : String := ""
  line : UInt32 := 0
  now : Int
  threadId : String
  deriving DecidableEq, Repr

def log (s : StructuredLogger) (c : LogCall) : StructuredLogger :=
  if s.passesFilters c.level c.category then
    s.appendEntry
      { level := c.level
        category := c.category
        message := c.message
        scope := c.scope
        fileName := c.file
        lineNumber := c.line
        timestamp := c.now
        threadId := c.threadId
        sessionId := s.sessionId
        deviceId := s.deviceId
        workflowId := s.workflowId }
  else s

def setLevel (s : StructuredLogger) (level : LogLevel) : StructuredLogger := { s with level }

def setSessionId (s : StructuredLogger) (id : String) : StructuredLogger :=
  { s with sessionId := id }

def setDeviceId (s : StructuredLogger) (id : String) : StructuredLogger :=
  { s with deviceId := id }

def setWorkflowId (s : StructuredLogger) (id : String) : StructuredLogger :=
  { s with workflowId := id }

def entries (s : StructuredLogger) (minLevel : LogLevel) : Except ErrorCode (List LogEntry) :=
  .ok (s.allEntries.filter fun e => minLevel ≤ e.level)

def addFilter (s : StructuredLogger) (minLevel : LogLevel) (category : LogCategory) :
    StructuredLogger :=
  { s with filters := s.filters ++ [{ minLevel, category }] }

def clearFilters (s : StructuredLogger) : StructuredLogger := { s with filters := [] }

def clear (s : StructuredLogger) : StructuredLogger := { s with buffer := LogBuffer.fresh }

end StructuredLogger

open StructuredLogger (LogCall)

inductive LoggerCall where
  | log (c : LogCall)
  | setLevel (level : LogLevel)
  | setSessionId (id : String)
  | setDeviceId (id : String)
  | setWorkflowId (id : String)
  | addFilter (minLevel : LogLevel) (category : LogCategory)
  | clearFilters
  | clear
  deriving DecidableEq, Repr

namespace StructuredLogger

def step (s : StructuredLogger) : LoggerCall → StructuredLogger
  | .log c => s.log c
  | .setLevel level => s.setLevel level
  | .setSessionId id => s.setSessionId id
  | .setDeviceId id => s.setDeviceId id
  | .setWorkflowId id => s.setWorkflowId id
  | .addFilter minLevel category => s.addFilter minLevel category
  | .clearFilters => s.clearFilters
  | .clear => s.clear

/-- A new logger after the calls. -/
def run (calls : List LoggerCall) : StructuredLogger := calls.foldl step {}

end StructuredLogger

/-! ## What the calls so far mean -/

namespace History

def levelInForce : List LoggerCall → LogLevel
  | [] => .trace
  | .setLevel level :: _ => level
  | _ :: earlier => levelInForce earlier

/-- The filters added since the last `clearFilters`. -/
def filtersInForce : List LoggerCall → List FilterRule
  | [] => []
  | .clearFilters :: _ => []
  | .addFilter minLevel category :: earlier => filtersInForce earlier ++ [{ minLevel, category }]
  | _ :: earlier => filtersInForce earlier

def sessionId : List LoggerCall → String
  | [] => ""
  | .setSessionId id :: _ => id
  | _ :: earlier => sessionId earlier

def deviceId : List LoggerCall → String
  | [] => ""
  | .setDeviceId id :: _ => id
  | _ :: earlier => deviceId earlier

def workflowId : List LoggerCall → String
  | [] => ""
  | .setWorkflowId id :: _ => id
  | _ :: earlier => workflowId earlier

/-- The entry that `c` asks for after the calls `earlier`. -/
def entryOf (earlier : List LoggerCall) (c : LogCall) : LogEntry where
  level := c.level
  category := c.category
  message := c.message
  scope := c.scope
  threadId := c.threadId
  sessionId := sessionId earlier
  deviceId := deviceId earlier
  workflowId := workflowId earlier
  timestamp := c.now
  fileName := c.file
  lineNumber := c.line

/-- By the level where no filter is in force, and else by the filters alone. -/
def Accepts (earlier : List LoggerCall) (c : LogCall) : Prop :=
  (filtersInForce earlier = [] ∧ levelInForce earlier ≤ c.level) ∨
    (filtersInForce earlier ≠ [] ∧
      ∃ f ∈ filtersInForce earlier, f.category = c.category ∧ f.minLevel ≤ c.level)

instance (earlier : List LoggerCall) (c : LogCall) : Decidable (Accepts earlier c) :=
  inferInstanceAs (Decidable (_ ∨ _))

/-- The entries accepted since the last `clear`, oldest first. -/
def accepted : List LoggerCall → List LogEntry
  | [] => []
  | .clear :: _ => []
  | .log c :: earlier =>
    if Accepts earlier c then accepted earlier ++ [entryOf earlier c] else accepted earlier
  | _ :: earlier => accepted earlier

end History

namespace StructuredLogger

/-! ## The invariant -/

/-- The logger stands where the calls `history` lead, newest call first. -/
structure Tracks (history : List LoggerCall) (s : StructuredLogger) : Prop where
  level : s.level = History.levelInForce history
  filters : s.filters = History.filtersInForce history
  sessionId : s.sessionId = History.sessionId history
  deviceId : s.deviceId = History.deviceId history
  workflowId : s.workflowId = History.workflowId history
  buffer : s.buffer = LogBuffer.fresh.pushAll (History.accepted history)

variable {history : List LoggerCall} {s : StructuredLogger}

theorem Tracks.passesFilters (h : Tracks history s) (c : LogCall) :
    s.passesFilters c.level c.category = true ↔ History.Accepts history c := by
  unfold StructuredLogger.passesFilters History.Accepts
  rw [h.filters, h.level]
  by_cases hnone : History.filtersInForce history = []
  · rw [if_neg (not_not_intro hnone)]
    by_cases hlow : c.level < History.levelInForce history
    · rw [if_pos hlow]
      have := mt LogLevel.not_lt.mpr (not_not_intro hlow)
      simp [hnone, this]
    · rw [if_neg hlow]
      simp [hnone, LogLevel.not_lt.mp hlow]
  · rw [if_pos hnone]
    simp only [hnone, List.any_eq_true, Bool.and_eq_true, decide_eq_true_eq, false_and, false_or,
      ne_eq, not_false_eq_true, true_and]
    constructor
    · rintro ⟨f, hf, hlevel, hcategory⟩
      exact ⟨f, hf, hcategory.symm, hlevel⟩
    · rintro ⟨f, hf, hcategory, hlevel⟩
      exact ⟨f, hf, hlevel, hcategory.symm⟩

theorem Tracks.log (h : Tracks history s) (c : LogCall) : Tracks (.log c :: history) (s.log c) := by
  unfold StructuredLogger.log
  by_cases haccepts : History.Accepts history c
  · rw [if_pos ((h.passesFilters c).mpr haccepts)]
    refine ⟨h.level, h.filters, h.sessionId, h.deviceId, h.workflowId, ?_⟩
    show s.buffer.push _ = LogBuffer.fresh.pushAll (History.accepted (.log c :: history))
    rw [History.accepted, if_pos haccepts, RingBuffer.pushAll, List.foldl_concat,
      ← RingBuffer.pushAll, ← h.buffer, h.sessionId, h.deviceId, h.workflowId]
    rfl
  · rw [if_neg (mt (h.passesFilters c).mp haccepts)]
    refine ⟨h.level, h.filters, h.sessionId, h.deviceId, h.workflowId, ?_⟩
    rw [History.accepted, if_neg haccepts]
    exact h.buffer

/-- One case for each call; all but `log` change one field or clear it. -/
theorem Tracks.step (h : Tracks history s) (c : LoggerCall) :
    Tracks (c :: history) (s.step c) := by
  cases c with
  | log c => exact h.log c
  | setLevel level => exact { h with level := rfl }
  | setSessionId id => exact { h with sessionId := rfl }
  | setDeviceId id => exact { h with deviceId := rfl }
  | setWorkflowId id => exact { h with workflowId := rfl }
  | addFilter minLevel category =>
    refine { h with filters := ?_ }
    show s.filters ++ [⟨minLevel, category⟩] = History.filtersInForce history ++ _
    rw [h.filters]
  | clearFilters => exact { h with filters := rfl }
  | clear => exact { h with buffer := rfl }

theorem run_tracks (calls : List LoggerCall) : Tracks calls.reverse (run calls) := by
  induction calls using List.reverseRecOn with
  | nil => exact ⟨rfl, rfl, rfl, rfl, rfl, rfl⟩
  | append_singleton calls c ih =>
    rw [run, List.foldl_concat, List.reverse_append]
    exact ih.step c

/-- After any calls, `entries` gives those of the asked level among the last
`kRingBufferSize` accepted ones. -/
theorem run_entries (calls : List LoggerCall) (minLevel : LogLevel) :
    (run calls).entries minLevel =
      .ok (((History.accepted calls.reverse).rtake kRingBufferSize).filter
        fun e => minLevel ≤ e.level) := by
  have hcontents : (run calls).allEntries
      = (History.accepted calls.reverse).rtake kRingBufferSize := by
    rw [allEntries, (run_tracks calls).buffer]
    exact RingBuffer.contents_pushAll _ _ _
  rw [entries, hcontents]

example : History.accepted
    [.log ⟨.error, .general, "c", "", "", 0, 3, "t"⟩, .addFilter .error .general,
      .log ⟨.info, .general, "b", "", "", 0, 2, "t"⟩, .setLevel .warning,
      .log ⟨.info, .general, "a", "", "", 0, 1, "t"⟩]
    = [{ level := .info, message := "a", threadId := "t", timestamp := 1 },
      { level := .error, message := "c", threadId := "t", timestamp := 3 }] := by
  decide

end StructuredLogger

end MBootCore
