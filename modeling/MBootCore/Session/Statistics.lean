import MBootCore.Session.DeviceSession
import MBootCore.Support.CallRun
import Mathlib

/-!
# Session — Statistics

Do the statistics of a session say what it has done? The wrappers tell a read
from a write and an erase by the text of the operation, which ends in the name of
the partition, and a write to a partition reports no bytes.
-/

namespace MBootCore.Session

variable {τ : Type} {stats stats' : SessionStatistics}

/-- A successful operation on the device. -/
inductive Transfer where
  | read (bytes : Nat)
  | write (bytes : Nat)
  | erase
  deriving DecidableEq, Repr

namespace Transfer

def isRead (t : Transfer) : Bool := t matches .read _
def isWrite (t : Transfer) : Bool := t matches .write _
def isErase (t : Transfer) : Bool := t matches .erase

def bytesRead : Transfer → Nat
  | .read bytes => bytes
  | .write _ | .erase => 0

def bytesWritten : Transfer → Nat
  | .write bytes => bytes
  | .read _ | .erase => 0

end Transfer

abbrev SessionRecord (τ : Type) :=
  CallRecord SessionCall (DeviceSession τ) (Except ErrorCode ByteBuffer)

/-- What the call did, if it succeeded. -/
def transferred (r : SessionRecord τ) : Option Transfer :=
  match r.call, r.result with
  | .readMemory _ _, .ok data | .readPartition _, .ok data => some (.read data.length)
  | .writeMemory _ data, .ok _ | .writePartition _ data, .ok _ => some (.write data.length)
  | .eraseMemory _ _, .ok _ | .erasePartition _, .ok _ => some .erase
  | _, _ => none

/-- The statistics are those of the operations done. -/
structure Exact (ts : List Transfer) (stats : SessionStatistics) : Prop where
  readOps : stats.readOps.toNat = ts.countP Transfer.isRead
  writeOps : stats.writeOps.toNat = ts.countP Transfer.isWrite
  eraseOps : stats.eraseOps.toNat = ts.countP Transfer.isErase
  bytesRead : stats.bytesRead.toNat = (ts.map Transfer.bytesRead).sum
  bytesWritten : stats.bytesWritten.toNat = (ts.map Transfer.bytesWritten).sum

/-- The operation is counted as what it is: the name of a partition does not make
it look like another one, its bytes are reported, and no counter overflows. -/
def Recorded (r : SessionRecord τ) : Prop :=
  let stats := r.before.stats
  match r.call, r.result with
  | .readMemory _ _, .ok data | .readPartition _, .ok data =>
    stats.readOps.toNat + 1 < 2 ^ 32 ∧ stats.bytesRead.toNat + data.length < 2 ^ 64
  | .writeMemory _ data, .ok _ =>
    stats.writeOps.toNat + 1 < 2 ^ 32 ∧ stats.bytesWritten.toNat + data.length < 2 ^ 64
  | .writePartition name data, .ok _ =>
    finds name "read" = false ∧ data = [] ∧ stats.writeOps.toNat + 1 < 2 ^ 32
  | .eraseMemory _ _, .ok _ => stats.eraseOps.toNat + 1 < 2 ^ 32
  | .erasePartition name, .ok _ =>
    finds name "read" = false ∧ finds name "write" = false ∧ stats.eraseOps.toNat + 1 < 2 ^ 32
  | _, _ => True

/-! ## Counters -/

/-- The counters of reads, writes and erases. -/
def SessionStatistics.counters (stats : SessionStatistics) : SessionStatistics :=
  { stats with bytesErased := 0, retries := 0, failures := 0 }

theorem Exact.congr {ts : List Transfer} (h : stats'.counters = stats.counters)
    (hexact : Exact ts stats) : Exact ts stats' := by
  obtain ⟨hr, hw, he, hbr, hbw⟩ := hexact
  have hread : stats'.readOps = stats.readOps := congrArg (·.readOps) h
  have hwrite : stats'.writeOps = stats.writeOps := congrArg (·.writeOps) h
  have herase : stats'.eraseOps = stats.eraseOps := congrArg (·.eraseOps) h
  have hbytesRead : stats'.bytesRead = stats.bytesRead := congrArg (·.bytesRead) h
  have hbytesWritten : stats'.bytesWritten = stats.bytesWritten := congrArg (·.bytesWritten) h
  exact ⟨by rw [hread, hr], by rw [hwrite, hw], by rw [herase, he], by rw [hbytesRead, hbr],
    by rw [hbytesWritten, hbw]⟩

theorem exact_append_iff {ts : List Transfer} (hexact : Exact ts stats) (t : Transfer) :
    Exact (ts ++ [t]) stats' ↔
      stats'.readOps.toNat = stats.readOps.toNat + (if t.isRead then 1 else 0) ∧
      stats'.writeOps.toNat = stats.writeOps.toNat + (if t.isWrite then 1 else 0) ∧
      stats'.eraseOps.toNat = stats.eraseOps.toNat + (if t.isErase then 1 else 0) ∧
      stats'.bytesRead.toNat = stats.bytesRead.toNat + t.bytesRead ∧
      stats'.bytesWritten.toNat = stats.bytesWritten.toNat + t.bytesWritten := by
  rw [hexact.readOps, hexact.writeOps, hexact.eraseOps, hexact.bytesRead, hexact.bytesWritten]
  constructor
  · intro h
    refine ⟨?_, ?_, ?_, ?_, ?_⟩
    · simpa [List.countP_append, List.countP_cons] using h.readOps
    · simpa [List.countP_append, List.countP_cons] using h.writeOps
    · simpa [List.countP_append, List.countP_cons] using h.eraseOps
    · simpa using h.bytesRead
    · simpa using h.bytesWritten
  · rintro ⟨hr, hw, he, hbr, hbw⟩
    refine ⟨?_, ?_, ?_, ?_, ?_⟩
    · simpa [List.countP_append, List.countP_cons] using hr
    · simpa [List.countP_append, List.countP_cons] using hw
    · simpa [List.countP_append, List.countP_cons] using he
    · simpa using hbr
    · simpa using hbw

theorem toNat_count (n : UInt32) : (n + 1).toNat = (n.toNat + 1) % 2 ^ 32 := by
  simp [UInt32.toNat_add]

theorem toNat_total (n : UInt64) (bytes : Nat) :
    (n + bytes.toUInt64).toNat = (n.toNat + bytes) % 2 ^ 64 := by
  simp [UInt64.toNat_add]

/-- A read counted as a read. -/
theorem exact_read_iff {ts : List Transfer} (hexact : Exact ts stats) (bytes : Nat) :
    Exact (ts ++ [.read bytes])
        { stats with bytesRead := stats.bytesRead + bytes.toUInt64, readOps := stats.readOps + 1 } ↔
      stats.readOps.toNat + 1 < 2 ^ 32 ∧ stats.bytesRead.toNat + bytes < 2 ^ 64 := by
  rw [exact_append_iff hexact]
  simp only [toNat_count, toNat_total, Transfer.isRead, Transfer.isWrite, Transfer.isErase,
    Transfer.bytesRead, Transfer.bytesWritten, if_true, if_false, Bool.false_eq_true]
  omega

/-- A write counted as a write, with some of its bytes. -/
theorem exact_write_iff {ts : List Transfer} (hexact : Exact ts stats) (bytes reported : Nat) :
    Exact (ts ++ [.write bytes])
        { stats with
          bytesWritten := stats.bytesWritten + reported.toUInt64
          writeOps := stats.writeOps + 1 } ↔
      stats.writeOps.toNat + 1 < 2 ^ 32 ∧
        (stats.bytesWritten.toNat + reported) % 2 ^ 64 = stats.bytesWritten.toNat + bytes := by
  rw [exact_append_iff hexact]
  simp only [toNat_count, toNat_total, Transfer.isRead, Transfer.isWrite, Transfer.isErase,
    Transfer.bytesRead, Transfer.bytesWritten, if_true, if_false, Bool.false_eq_true]
  omega

/-- An erase counted as an erase. -/
theorem exact_erase_iff {ts : List Transfer} (hexact : Exact ts stats) (bytesErased : UInt64) :
    Exact (ts ++ [.erase]) { stats with bytesErased, eraseOps := stats.eraseOps + 1 } ↔
      stats.eraseOps.toNat + 1 < 2 ^ 32 := by
  rw [exact_append_iff hexact]
  simp only [toNat_count, Transfer.isRead, Transfer.isWrite, Transfer.isErase, Transfer.bytesRead,
    Transfer.bytesWritten, if_true, if_false, Bool.false_eq_true]
  omega

/-- A write or an erase is not to be counted as a read. -/
theorem not_exact_of_readOps {ts : List Transfer} (hexact : Exact ts stats) {t : Transfer}
    (ht : t.isRead = false) (bytesRead : UInt64) :
    ¬ Exact (ts ++ [t]) { stats with bytesRead, readOps := stats.readOps + 1 } := by
  rw [exact_append_iff hexact]
  simp only [toNat_count, ht, if_false, Bool.false_eq_true]
  omega

/-- An erase is not to be counted as a write. -/
theorem not_exact_of_writeOps {ts : List Transfer} (hexact : Exact ts stats)
    (bytesWritten : UInt64) :
    ¬ Exact (ts ++ [.erase]) { stats with bytesWritten, writeOps := stats.writeOps + 1 } := by
  rw [exact_append_iff hexact]
  simp only [toNat_count, Transfer.isWrite, if_false, Bool.false_eq_true]
  omega

/-! ## One call -/

/-- How an operation leaves the statistics: counted under its text, or untouched. -/
inductive Executed {α : Type} (operationName : String) (bytes : α → UInt64)
    (s : DeviceSession τ) : Except ErrorCode α × DeviceSession τ → Prop
  | done {a : α} {s' : DeviceSession τ}
      (hstats : s'.stats = s.stats.update operationName (bytes a)) :
      Executed operationName bytes s (.ok a, s')
  | failed {error : ErrorCode} {s' : DeviceSession τ}
      (hsame : s'.stats.counters = s.stats.counters) :
      Executed operationName bytes s (.error error, s')

theorem stats_addHistoryEntry (name : String) (success : Bool) (bytes : UInt64)
    (s : DeviceSession τ) :
    (DeviceSession.addHistoryEntry name success bytes s).2.stats = s.stats := by
  rw [DeviceSession.addHistoryEntry, Program.run_modify]
  split <;> rfl

theorem executed {α : Type} (operation : Program τ ErrorCode α) (operationName : String)
    (busyState : SessionState) (bytes : α → UInt64) (failedBytes : UInt64)
    (s : DeviceSession τ) :
    Executed operationName bytes s
      (DeviceSession.execute operation operationName busyState bytes failedBytes s) := by
  rw [DeviceSession.execute, Program.run_bind, DeviceSession.checkCancelled]
  cases s.isCancelled with
  | true => exact .failed rfl
  | false =>
    simp only [Bool.false_eq_true, if_false, Program.run_bind, Program.run_failIf]
    cases !s.isConnected with
    | true => exact .failed rfl
    | false =>
      simp only [Bool.false_eq_true, if_false]
      cases s.isBusy with
      | true => exact .failed rfl
      | false =>
        simp only [Bool.false_eq_true, if_false, DeviceSession.setState, Program.run_modify,
          Program.run_attempt, DeviceSession.onDevice, Program.run_zoom]
        rcases operation s.device with ⟨error | a, device⟩
        · refine .failed (Eq.trans (congrArg SessionStatistics.counters
            (stats_addHistoryEntry operationName false failedBytes _)) rfl)
        · exact .done (stats_addHistoryEntry operationName true (bytes a) _)

theorem counters_withoutData {method : DeviceSession.Method τ Unit}
    (h : Program.Preserves (fun s => s.stats.counters) method) :
    Program.Preserves (fun s => s.stats.counters) (withoutData method) :=
  .bind h fun _ => .pure _

theorem counters_disconnect (flashDevice : Option (SessionDevice τ)) (s : DeviceSession τ) :
    (DeviceSession.disconnect flashDevice s).stats.counters = s.stats.counters := by
  unfold DeviceSession.disconnect
  split
  · rfl
  · cases flashDevice <;> rfl

theorem counters_cancel (flashDevice : Option (SessionDevice τ)) (s : DeviceSession τ) :
    (DeviceSession.cancel flashDevice s).stats.counters = s.stats.counters := by
  cases flashDevice <;> rfl

theorem counters_connect (flashDevice : Option (SessionDevice τ)) :
    Program.Preserves (fun s => s.stats.counters) (DeviceSession.connect flashDevice) := by
  unfold DeviceSession.connect
  refine .bind (fun _ => rfl) fun s => ?_
  split
  · exact .pure _
  · split
    · exact .fail _
    · refine .bind (.modify fun _ => rfl) fun _ => ?_
      cases flashDevice with
      | none => exact .modify fun _ => rfl
      | some device =>
        refine .bind (fun _ => rfl) fun result => ?_
        cases result with
        | error error => exact .bind (.modify fun _ => rfl) fun _ => .fail _
        | ok => exact .modify fun _ => rfl

theorem counters_reconnect (flashDevice : Option (SessionDevice τ)) :
    Program.Preserves (fun s => s.stats.counters) (DeviceSession.reconnect flashDevice) :=
  .bind (.modify (counters_disconnect flashDevice)) fun _ => counters_connect flashDevice

theorem counters_retry (flashDevice : Option (SessionDevice τ)) :
    Program.Preserves (fun s => s.stats.counters) (DeviceSession.retry flashDevice) :=
  .bind (fun _ => rfl) fun _ => .bind (.modify fun _ => rfl) fun _ => counters_reconnect flashDevice

/-- The statistics stay exact over the call exactly when it is recorded right. -/
def CountsRight (ts : List Transfer) (r : SessionRecord τ) : Prop :=
  Exact (ts ++ (transferred r).toList) r.after.stats ↔ Recorded r

section
variable {ts : List Transfer} {s : DeviceSession τ}

theorem countsRight_error (hexact : Exact ts s.stats) (call : SessionCall) (error : ErrorCode)
    {s' : DeviceSession τ} (hsame : s'.stats.counters = s.stats.counters) :
    CountsRight ts ⟨call, s, .error error, s'⟩ := by
  have hnone : transferred (τ := τ) ⟨call, s, .error error, s'⟩ = none := by cases call <;> rfl
  have hrecorded : Recorded (τ := τ) ⟨call, s, .error error, s'⟩ := by cases call <;> trivial
  rw [CountsRight, hnone, Option.toList_none, List.append_nil]
  exact iff_of_true (hexact.congr hsame) hrecorded

theorem countsRight_executed {α : Type} {operationName : String} {bytes : α → UInt64}
    {r : Except ErrorCode α × DeviceSession τ} (hexact : Exact ts s.stats)
    (h : Executed operationName bytes s r) (call : SessionCall) (data : α → ByteBuffer)
    (hok : ∀ a s', s'.stats = s.stats.update operationName (bytes a) →
      CountsRight ts ⟨call, s, .ok (data a), s'⟩) :
    CountsRight ts ⟨call, s, r.1.map data, r.2⟩ := by
  cases h with
  | done hstats => exact hok _ _ hstats
  | failed hsame => exact countsRight_error hexact call _ hsame

theorem run_withoutData (method : DeviceSession.Method τ Unit) (s : DeviceSession τ) :
    withoutData method s = ((method s).1.map fun _ => [], (method s).2) := by
  rw [withoutData, Program.run_bind]
  rcases method s with ⟨error | _, s'⟩ <;> rfl

/-- A call that is no operation on the memory of the device. -/
theorem countsRight_uncounted (hexact : Exact ts s.stats) {call : SessionCall}
    {flashDevice : Option (SessionDevice τ)}
    (hcounters : Program.Preserves (fun s => s.stats.counters) (call.step flashDevice))
    (hnone : ∀ result s', transferred (τ := τ) ⟨call, s, result, s'⟩ = none ∧
      Recorded (τ := τ) ⟨call, s, result, s'⟩) :
    CountsRight ts (CallRun.record (SessionCall.step flashDevice) call s) := by
  obtain ⟨htransferred, hrecorded⟩ := hnone (call.step flashDevice s).1 (call.step flashDevice s).2
  rw [CountsRight, CallRun.record, htransferred, Option.toList_none, List.append_nil]
  exact iff_of_true (hexact.congr (hcounters s)) hrecorded

theorem run_read (method : DeviceSession.Method τ ByteBuffer) (s : DeviceSession τ) :
    method s = ((method s).1.map id, (method s).2) := by
  rcases method s with ⟨error | _, s'⟩ <;> rfl

end

/-! ## The text of an operation -/

/-- A pattern without the letter is found on one side of it or the other. -/
theorem infix_append_cons {c : Char} {before after pattern : List Char} (hc : c ∉ pattern) :
    pattern <:+: before ++ c :: after ↔ pattern <:+: before ∨ pattern <:+: after := by
  constructor
  · rintro ⟨front, back, h⟩
    rw [List.append_assoc] at h
    rcases List.append_eq_append_iff.mp h with ⟨rest, rfl, hrest⟩ | ⟨rest, rfl, hrest⟩
    · rcases List.append_eq_append_iff.mp hrest with ⟨tail, rfl, -⟩ | ⟨tail, rfl, htail⟩
      · exact .inl ⟨front, tail, List.append_assoc ..⟩
      · cases tail with
        | nil => exact .inl ⟨front, [], by simp⟩
        | cons d tail =>
          obtain ⟨rfl, -⟩ := List.cons.inj htail
          exact absurd (List.mem_append_right _ List.mem_cons_self) hc
    · cases rest with
      | nil =>
        cases pattern with
        | nil => exact .inl (List.nil_infix)
        | cons d pattern =>
          obtain ⟨rfl, -⟩ := List.cons.inj hrest
          exact absurd List.mem_cons_self hc
      | cons d rest =>
        obtain ⟨-, rfl⟩ := List.cons.inj hrest
        exact .inr ⟨rest, back, List.append_assoc ..⟩
  · rintro (h | h)
    · exact h.trans (List.prefix_append _ _).isInfix
    · exact h.trans ((List.suffix_cons _ _).trans (List.suffix_append _ _)).isInfix

theorem finds_partition (operation name : String) {pattern : String} (hcolon : ':' ∉ pattern.toList)
    (hoperation : finds operation pattern = false) :
    finds (operation ++ ":" ++ name) pattern = finds name pattern := by
  have htext : (operation ++ ":" ++ name).toList = operation.toList ++ ':' :: name.toList := by
    simp
  rw [finds, decide_eq_false_iff_not] at hoperation
  rw [finds, finds, htext, decide_eq_decide, infix_append_cons hcolon]
  exact or_iff_right hoperation

theorem finds_start (operation name : String) {pattern : String}
    (hoperation : finds operation pattern = true) :
    finds (operation ++ ":" ++ name) pattern = true := by
  rw [finds, decide_eq_true_iff] at hoperation ⊢
  rw [String.toList_append, String.toList_append, List.append_assoc]
  exact hoperation.trans (List.prefix_append _ _).isInfix

theorem update_read {operation : String} (h : finds operation "read" = true) (bytes : UInt64) :
    stats.update operation bytes
      = { stats with bytesRead := stats.bytesRead + bytes, readOps := stats.readOps + 1 } :=
  if_pos h

theorem update_write {operation : String} (hread : finds operation "read" = false)
    (h : finds operation "write" = true) (bytes : UInt64) :
    stats.update operation bytes
      = { stats with
          bytesWritten := stats.bytesWritten + bytes
          writeOps := stats.writeOps + 1 } := by
  rw [SessionStatistics.update, hread, h]
  rfl

theorem update_erase {operation : String} (hread : finds operation "read" = false)
    (hwrite : finds operation "write" = false) (h : finds operation "erase" = true)
    (bytes : UInt64) :
    stats.update operation bytes
      = { stats with
          bytesErased := stats.bytesErased + bytes
          eraseOps := stats.eraseOps + 1 } := by
  rw [SessionStatistics.update, hread, hwrite, h]
  rfl

/-! ## Every call -/

section
variable {ts : List Transfer} {s : DeviceSession τ}

theorem countsRight_read (hexact : Exact ts s.stats) {operationName : String}
    (hname : finds operationName "read" = true) (data : ByteBuffer)
    {s' : DeviceSession τ} (hstats : s'.stats = s.stats.update operationName data.length.toUInt64) :
    Exact (ts ++ [.read data.length]) s'.stats ↔
      s.stats.readOps.toNat + 1 < 2 ^ 32 ∧ s.stats.bytesRead.toNat + data.length < 2 ^ 64 := by
  rw [hstats, update_read hname]
  exact exact_read_iff hexact data.length

/-- A write to a partition reports no bytes, and its name decides what it counts as. -/
theorem countsRight_writePartition (hexact : Exact ts s.stats) (name : String) (data : ByteBuffer)
    {s' : DeviceSession τ} (hstats : s'.stats = s.stats.update ("writePartition:" ++ name) 0) :
    Exact (ts ++ [.write data.length]) s'.stats ↔
      finds name "read" = false ∧ data = [] ∧ s.stats.writeOps.toNat + 1 < 2 ^ 32 := by
  have hread : finds ("writePartition:" ++ name) "read" = finds name "read" :=
    finds_partition "writePartition" name (by decide) (by decide)
  have hwrite : finds ("writePartition:" ++ name) "write" = true :=
    finds_start "writePartition" name (by decide)
  rw [hstats]
  cases hname : finds name "read" with
  | true =>
    rw [update_read (hread.trans hname)]
    exact iff_of_false (not_exact_of_readOps hexact rfl _) fun h => by cases h.1
  | false =>
    rw [update_write (hread.trans hname) hwrite]
    refine (exact_write_iff hexact data.length 0).trans ?_
    have hless := s.stats.bytesWritten.toNat_lt
    rw [← List.length_eq_zero_iff]
    exact ⟨fun h => ⟨rfl, by omega, h.1⟩, fun h => ⟨h.2.2, by omega⟩⟩

theorem countsRight_erasePartition (hexact : Exact ts s.stats) (name : String)
    {s' : DeviceSession τ} (hstats : s'.stats = s.stats.update ("erasePartition:" ++ name) 0) :
    Exact (ts ++ [.erase]) s'.stats ↔
      finds name "read" = false ∧ finds name "write" = false ∧
        s.stats.eraseOps.toNat + 1 < 2 ^ 32 := by
  have hread : finds ("erasePartition:" ++ name) "read" = finds name "read" :=
    finds_partition "erasePartition" name (by decide) (by decide)
  have hwrite : finds ("erasePartition:" ++ name) "write" = finds name "write" :=
    finds_partition "erasePartition" name (by decide) (by decide)
  have herase : finds ("erasePartition:" ++ name) "erase" = true :=
    finds_start "erasePartition" name (by decide)
  rw [hstats]
  cases hname : finds name "read" with
  | true =>
    rw [update_read (hread.trans hname)]
    exact iff_of_false (not_exact_of_readOps hexact rfl _) fun h => by cases h.1
  | false =>
    cases hnameWrite : finds name "write" with
    | true =>
      rw [update_write (hread.trans hname) (hwrite.trans hnameWrite)]
      exact iff_of_false (not_exact_of_writeOps hexact _) fun h => by cases h.2.1
    | false =>
      rw [update_erase (hread.trans hname) (hwrite.trans hnameWrite) herase]
      exact (exact_erase_iff hexact _).trans ⟨fun h => ⟨rfl, rfl, h⟩, fun h => h.2.2⟩

theorem countsRight_step (flashDevice : Option (SessionDevice τ)) (call : SessionCall)
    (hexact : Exact ts s.stats) :
    CountsRight ts (CallRun.record (SessionCall.step flashDevice) call s) := by
  have hrefused : ∀ call, CountsRight ts
      (⟨call, s, .error .notSupported, s⟩ : SessionRecord τ) :=
    fun call => countsRight_error hexact call _ rfl
  cases call with
  | connect =>
    exact countsRight_uncounted hexact (counters_withoutData (counters_connect flashDevice))
      fun _ _ => ⟨rfl, trivial⟩
  | disconnect =>
    exact countsRight_uncounted hexact
      (counters_withoutData (.modify (counters_disconnect flashDevice)))
      fun _ _ => ⟨rfl, trivial⟩
  | reconnect =>
    exact countsRight_uncounted hexact (counters_withoutData (counters_reconnect flashDevice))
      fun _ _ => ⟨rfl, trivial⟩
  | cancel =>
    exact countsRight_uncounted hexact
      (counters_withoutData (.modify (counters_cancel flashDevice)))
      fun _ _ => ⟨rfl, trivial⟩
  | retry =>
    exact countsRight_uncounted hexact (counters_withoutData (counters_retry flashDevice))
      fun _ _ => ⟨rfl, trivial⟩
  | reset =>
    exact countsRight_uncounted hexact
      (counters_withoutData (.modify (counters_disconnect flashDevice)))
      fun _ _ => ⟨rfl, trivial⟩
  | readMemory address size =>
    cases flashDevice with
    | none => exact hrefused _
    | some device =>
      rw [CallRun.record, run_read (SessionCall.step _ _) s]
      exact countsRight_executed hexact (executed ..) _ id fun data s' hstats =>
        countsRight_read hexact (by decide) data hstats
  | readPartition name =>
    cases flashDevice with
    | none => exact hrefused _
    | some device =>
      rw [CallRun.record, run_read (SessionCall.step _ _) s]
      exact countsRight_executed hexact (executed ..) _ id fun data s' hstats =>
        countsRight_read hexact (finds_start "readPartition" name (by decide)) data
          hstats
  | writeMemory address data =>
    cases flashDevice with
    | none => exact hrefused _
    | some device =>
      rw [CallRun.record, SessionCall.step, run_withoutData]
      refine countsRight_executed hexact (executed ..) _ (fun _ => []) fun _ s' hstats => ?_
      show Exact (ts ++ [.write data.length]) s'.stats ↔ _
      rw [hstats, update_write (by decide) (by decide)]
      refine (exact_write_iff hexact data.length data.length).trans ?_
      show _ ↔ s.stats.writeOps.toNat + 1 < 2 ^ 32 ∧
        s.stats.bytesWritten.toNat + data.length < 2 ^ 64
      omega
  | writePartition name data =>
    cases flashDevice with
    | none => exact hrefused _
    | some device =>
      rw [CallRun.record, SessionCall.step, run_withoutData]
      exact countsRight_executed hexact (executed ..) _ (fun _ => []) fun _ s' hstats =>
        countsRight_writePartition hexact name data hstats
  | eraseMemory address size =>
    cases flashDevice with
    | none => exact hrefused _
    | some device =>
      rw [CallRun.record, SessionCall.step, run_withoutData]
      refine countsRight_executed hexact (executed ..) _ (fun _ => []) fun _ s' hstats => ?_
      show Exact (ts ++ [.erase]) s'.stats ↔ _
      rw [hstats, update_erase (by decide) (by decide) (by decide)]
      exact exact_erase_iff hexact _
  | erasePartition name =>
    cases flashDevice with
    | none => exact hrefused _
    | some device =>
      rw [CallRun.record, SessionCall.step, run_withoutData]
      exact countsRight_executed hexact (executed ..) _ (fun _ => []) fun _ s' hstats =>
        countsRight_erasePartition hexact name hstats
  | resetDevice =>
    cases flashDevice with
    | none => exact hrefused _
    | some device =>
      rw [CallRun.record, SessionCall.step, run_withoutData]
      refine countsRight_executed hexact (executed ..) _ (fun _ => []) fun _ s' hstats => ?_
      have hsame : s'.stats = s.stats := hstats
      show Exact (ts ++ []) s'.stats ↔ True
      rw [hsame, List.append_nil]
      exact iff_of_true hexact trivial

end

/-- The statistics are exact after every call of a run exactly when each call is
recorded right. -/
theorem run_exact_iff (flashDevice : Option (SessionDevice τ)) (calls : List SessionCall)
    (device : τ) (enableHistory : Bool) :
    (∀ earlier later, calls = earlier ++ later →
        Exact ((CallRun.records (SessionCall.step flashDevice) earlier
            { device, enableHistory }).filterMap transferred)
          (CallRun.final (SessionCall.step flashDevice) earlier { device, enableHistory }).stats) ↔
      ∀ r ∈ CallRun.records (SessionCall.step flashDevice) calls { device, enableHistory },
        Recorded r := by
  refine CallRun.forall_prefix_iff
    (P := fun done s => Exact (done.filterMap transferred) s.stats) ?_ ⟨rfl, rfl, rfl, rfl, rfl⟩
  intro done call s hexact
  have hlast :
      (done ++ [CallRun.record (SessionCall.step flashDevice) call s]).filterMap transferred
      = done.filterMap transferred
        ++ (transferred (CallRun.record (SessionCall.step flashDevice) call s)).toList := by
    rw [List.filterMap_append]
    cases htransferred : transferred (CallRun.record (SessionCall.step flashDevice) call s) <;>
      simp [htransferred]
  rw [hlast]
  exact countsRight_step flashDevice call hexact

/-- A device that does what it is asked. -/
def obligingDevice : SessionDevice Unit where
  openDevice := pure ()
  close _ := ()
  readMemory _ size := pure (List.replicate size.toNat 0)
  writeMemory _ _ := pure ()
  eraseMemory _ _ := pure ()
  readPartition _ := pure [0]
  writePartition _ _ := pure ()
  erasePartition _ := pure ()
  reset := pure ()
  cancel _ := ()

/-- A write to a partition leaves no bytes, and here it counts as a read. -/
theorem run_writeSpread :
    ¬ ∀ {τ : Type} (flashDevice : Option (SessionDevice τ)) (calls : List SessionCall)
      (device : τ) (enableHistory : Bool), ∀ earlier later, calls = earlier ++ later →
        Exact ((CallRun.records (SessionCall.step flashDevice) earlier
            { device, enableHistory }).filterMap transferred)
          (CallRun.final (SessionCall.step flashDevice) earlier
            { device, enableHistory }).stats := by
  intro h
  have hreads := (h (some obligingDevice) [.connect, .writePartition "spread" [0x42]] () true
    [.connect, .writePartition "spread" [0x42]] [] rfl).readOps
  exact absurd hreads (by decide)

end MBootCore.Session
