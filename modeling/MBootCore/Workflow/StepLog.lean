import MBootCore.Workflow.Engine
import Mathlib

/-!
# Workflow — StepLog

What one pass over the steps writes to the log of the engine, and what it leaves
as it was: a step that succeeds adds one entry of its own, a step that fails
adds none but those of the rollback its recovery may have called for. A step that is
skipped counts a warning, and so does one that fails where the run goes on; the
counter has 32 bits.
-/

namespace MBootCore.Workflow

def StepEvent.skips : StepEvent → Bool
  | skipped _ => true
  | executed _ | rolledBack _ _ => false

namespace WorkflowEngine

variable {σ : Type} {w : Surroundings σ} {e e' e'' : WorkflowEngine σ}

/-- A step failed or was skipped, and the run is not to succeed then. -/
def Warned (e : WorkflowEngine σ) : Prop :=
  e.options.continueOnWarning = true ∧ 0 < e.stats.warnings

/-- Where warnings matter, so many more can be counted. -/
def Fits (e : WorkflowEngine σ) (left : Nat) : Prop :=
  e.options.continueOnWarning = true → e.stats.warnings.toNat + left < 2 ^ 32

theorem fits_zero (e : WorkflowEngine σ) : e.Fits 0 := fun _ => e.stats.warnings.toNat_lt

theorem Fits.mono {left left' : Nat} (h : e.Fits left) (hle : left' ≤ left) : e.Fits left' := by
  intro hcontinue
  have hleft := h hcontinue
  omega

/-- From one engine to the other the events were added to the log. -/
structure Logs (e e' : WorkflowEngine σ) (events : List StepEvent) : Prop where
  options : e'.options = e.options
  current : e'.currentStepIndex = e.currentStepIndex
  count : e'.steps.length = e.steps.length
  completed : ∀ {index}, e.completed index = true → e'.completed index = true
  warnings : e'.stats.warnings = e.stats.warnings + UInt32.ofNat (events.countP StepEvent.skips)
  log : e'.log = e.log ++ events

/-- What the log and the steps are told by. -/
def traces (e : WorkflowEngine σ) :
    WorkflowOptions × Nat × List StepEntry × UInt32 × List StepEvent :=
  (e.options, e.currentStepIndex, e.steps, e.stats.warnings, e.log)

namespace Logs

variable {events more : List StepEvent}

theorem of_same (h : e'.traces = e.traces) : Logs e e' [] := by
  simp only [traces, Prod.mk.injEq] at h
  obtain ⟨hoptions, hcurrent, hsteps, hwarnings, hlog⟩ := h
  refine ⟨hoptions, hcurrent, by rw [hsteps], ?_, by simp [hwarnings], by simp [hlog]⟩
  intro index hindex
  rwa [WorkflowEngine.completed, hsteps]

theorem refl (e : WorkflowEngine σ) : Logs e e [] := .of_same rfl

theorem trans (h : Logs e e' events) (h' : Logs e' e'' more) : Logs e e'' (events ++ more) where
  options := h'.options.trans h.options
  current := h'.current.trans h.current
  count := h'.count.trans h.count
  completed hindex := h'.completed (h.completed hindex)
  warnings := by
    rw [h'.warnings, h.warnings, List.countP_append, UInt32.ofNat_add, UInt32.add_assoc]
  log := by rw [h'.log, h.log, List.append_assoc]

theorem quiet (h : Logs e e' events) (h' : Logs e' e'' []) : Logs e e'' events := by
  have hboth := h.trans h'
  rwa [List.append_nil] at hboth

theorem after (h : Logs e e' []) (h' : Logs e' e'' events) : Logs e e'' events := h.trans h'

theorem start (h : Logs e' e'' events) (hsame : e'.traces = e.traces) : Logs e e'' events :=
  after (.of_same hsame) h

theorem same (h : Logs e e' events) (hsame : e''.traces = e'.traces) : Logs e e'' events :=
  h.quiet (.of_same hsame)

/-- As long as they fit, no warning is lost. -/
theorem warnings_toNat (h : Logs e e' events) (hfits : e.Fits (events.countP StepEvent.skips))
    (hcontinue : e.options.continueOnWarning = true) :
    e'.stats.warnings.toNat = e.stats.warnings.toNat + events.countP StepEvent.skips := by
  have hless := hfits hcontinue
  rw [h.warnings, UInt32.toNat_add, UInt32.toNat_ofNat', Nat.add_mod_mod, Nat.mod_eq_of_lt hless]

theorem warned (h : Logs e e' events) (hfits : e.Fits (events.countP StepEvent.skips))
    (he : e.Warned) : e'.Warned := by
  refine ⟨h.options ▸ he.1, UInt32.lt_iff_toNat_lt.mpr ?_⟩
  have hpos := UInt32.lt_iff_toNat_lt.mp he.2
  rw [h.warnings_toNat hfits he.1]
  exact Nat.lt_of_lt_of_le hpos (Nat.le_add_right _ _)

theorem fits {left : Nat} (h : Logs e e' events)
    (hfits : e.Fits (events.countP StepEvent.skips + left)) : e'.Fits left := by
  intro hcontinue
  rw [h.options] at hcontinue
  have hless := hfits hcontinue
  rw [h.warnings_toNat (hfits.mono (Nat.le_add_right _ _)) hcontinue]
  omega

end Logs

/-! ## Requests -/

theorem logs_request (e : WorkflowEngine σ) (request : Request) :
    Logs e (e.request request) [] := by
  cases request with
  | cancel => exact .of_same rfl
  | pause =>
    rw [WorkflowEngine.request, pause]
    split <;> exact .of_same rfl
  | resume =>
    rw [WorkflowEngine.request, resume]
    split <;> exact .of_same rfl

theorem logs_requests (requests : List Request) (e : WorkflowEngine σ) :
    Logs e (requests.foldl request e) [] := by
  induction requests generalizing e with
  | nil => exact .refl e
  | cons request requests ih => exact (logs_request e request).quiet (ih _)

theorem logs_ask (method : Nat → σ → Answer σ) (index : Nat) (e : WorkflowEngine σ) :
    Logs e (ask method index e).2 [] :=
  (logs_requests _ { e with world := (method index e.world).world }).start rfl

theorem logs_listen (e : WorkflowEngine σ) : Logs e (e.listen w) [] :=
  (logs_requests _ { e with world := (w.between e.world).2 }).start rfl

theorem logs_waitWhilePaused (e : WorkflowEngine σ) : Logs e (e.waitWhilePaused w) [] := by
  rw [waitWhilePaused]
  split
  · rcases w.wake e.world with ⟨_ | _, world⟩
    · exact (logs_request { e with state := .paused, world } .resume).start rfl
    · exact .of_same rfl
  · exact .refl e

/-! ## Entries -/

theorem completed_iff {index : Nat} :
    e.completed index = true ↔ ∃ entry, e.steps[index]? = some entry ∧ entry.completed = true := by
  unfold completed
  cases e.steps[index]? with
  | none => simp
  | some entry => simp

theorem logs_complete (index : Nat) (e : WorkflowEngine σ) : Logs e (e.complete index) [] where
  options := rfl
  current := rfl
  count := List.length_modify ..
  completed {i} h := by
    obtain ⟨entry, hentry, hcompleted⟩ := completed_iff.mp h
    refine completed_iff.mpr ⟨if index = i then { entry with completed := true } else entry, ?_, ?_⟩
    · simp [complete, List.getElem?_modify, hentry]
    · split
      · rfl
      · exact hcompleted
  warnings := (UInt32.add_zero _).symm
  log := (List.append_nil _).symm

theorem completed_complete {index : Nat} (h : index < e.steps.length) :
    (e.complete index).completed index = true :=
  completed_iff.mpr ⟨{ e.steps[index] with completed := true },
    by simp [complete, List.getElem?_eq_getElem h], rfl⟩

theorem logs_fail (index : Nat) (e : WorkflowEngine σ) : Logs e (e.fail index) [] where
  options := rfl
  current := rfl
  count := List.length_modify ..
  completed {i} h := by
    obtain ⟨entry, hentry, hcompleted⟩ := completed_iff.mp h
    refine completed_iff.mpr ⟨if index = i then { entry with failed := true } else entry, ?_, ?_⟩
    · simp [fail, List.getElem?_modify, hentry]
    · split <;> exact hcompleted
  warnings := (UInt32.add_zero _).symm
  log := (List.append_nil _).symm

theorem logs_record {event : StepEvent} (h : event.skips = false) (e : WorkflowEngine σ) :
    Logs e (e.record event) [event] where
  options := rfl
  current := rfl
  count := rfl
  completed h := h
  warnings := by
    rw [List.countP_cons_of_neg (by simp [h])]
    exact (UInt32.add_zero _).symm
  log := rfl

/-- A step that is skipped is completed and counts a warning. -/
theorem logs_skip (index : Nat) (e : WorkflowEngine σ) :
    Logs e ((e.complete index).record (.skipped index)).countWarning [.skipped index] where
  options := rfl
  current := rfl
  count := (logs_complete index e).count
  completed := (logs_complete index e).completed
  warnings := rfl
  log := rfl

/-- A run that goes on after a failed step is warned, unless the counter wraps. -/
theorem warned_countWarning (hcontinue : e.options.continueOnWarning = true) (hfits : e.Fits 1) :
    e.countWarning.Warned := by
  refine ⟨hcontinue, UInt32.lt_iff_toNat_lt.mpr ?_⟩
  have hless := hfits hcontinue
  show 0 < (e.stats.warnings + 1).toNat
  rw [UInt32.toNat_add, UInt32.toNat_one, Nat.mod_eq_of_lt hless]
  exact Nat.succ_pos _

theorem fits_countWarning {left : Nat} (hfits : e.Fits (left + 1)) : e.countWarning.Fits left := by
  intro hcontinue
  have hless := hfits hcontinue
  show (e.stats.warnings + 1).toNat + left < 2 ^ 32
  rw [UInt32.toNat_add, UInt32.toNat_one, Nat.mod_eq_of_lt (by omega)]
  omega

/-! ## Rollback -/

/-- The events of a rollback. -/
def AllRolledBack (events : List StepEvent) : Prop :=
  ∀ event ∈ events, ∃ index result, event = .rolledBack index result

theorem AllRolledBack.countP_skips {events : List StepEvent} (h : AllRolledBack events) :
    events.countP StepEvent.skips = 0 := by
  refine List.countP_eq_zero.mpr fun event hevent => ?_
  obtain ⟨index, result, rfl⟩ := h event hevent
  exact Bool.false_ne_true

theorem logs_rollbackStep (index : Nat) (lastError : ErrorCode) (e : WorkflowEngine σ) :
    ∃ events, AllRolledBack events ∧ Logs e (rollbackStep w index lastError e).2 events := by
  rw [rollbackStep]
  split
  · have hask := logs_ask w.rollback index e
    rcases hr : ask w.rollback index e with ⟨error | _, e₁⟩ <;> rw [hr] at hask
    · exact ⟨[.rolledBack index (.error error)], by simp [AllRolledBack],
        hask.after ((logs_record rfl e₁).same rfl)⟩
    · exact ⟨[.rolledBack index (.ok ())], by simp [AllRolledBack],
        hask.after ((logs_record rfl e₁).same rfl)⟩
  · exact ⟨[], by simp [AllRolledBack], .refl e⟩

theorem logs_rollbackSteps (count : Nat) (lastError : ErrorCode) (e : WorkflowEngine σ) :
    ∃ events, AllRolledBack events ∧ Logs e (rollbackSteps w count lastError e).2 events := by
  induction count generalizing lastError e with
  | zero => exact ⟨[], by simp [AllRolledBack], .refl e⟩
  | succ count ih =>
    rw [rollbackSteps]
    obtain ⟨events, hevents, hstep⟩ := logs_rollbackStep (w := w) count lastError e
    obtain ⟨more, hmore, hrest⟩ := ih (rollbackStep w count lastError e).1
      (rollbackStep w count lastError e).2
    refine ⟨events ++ more, ?_, hstep.trans hrest⟩
    intro event hevent
    exact (List.mem_append.mp hevent).elim (hevents event) (hmore event)

theorem logs_rollback (e : WorkflowEngine σ) :
    ∃ events, AllRolledBack events ∧ Logs e (e.rollback w).2 events := by
  rw [rollback]
  split
  · exact ⟨[], by simp [AllRolledBack], .refl e⟩
  · obtain ⟨events, hevents, hsteps⟩ := logs_rollbackSteps (w := w) e.currentStepIndex .success
      { e with state := .rollingBack }
    refine ⟨events, hevents, ?_⟩
    rcases hr : rollbackSteps w e.currentStepIndex .success { e with state := .rollingBack }
      with ⟨lastError, e₁⟩
    rw [hr] at hsteps
    have hlogs : Logs e e₁ events := hsteps.start rfl
    simp only
    split
    · exact hlogs.same rfl
    · exact hlogs.same rfl

/-! ## Steps -/

/-- How a step ends: with an entry of its own, or with none but those of a
rollback. -/
inductive Attempted (index : Nat) (e : WorkflowEngine σ) :
    Except ErrorCode Unit × WorkflowEngine σ → Prop
  | executed {e₁ : WorkflowEngine σ} (hlogs : Logs e e₁ [.executed index])
      (hcompleted : index < e.steps.length → e₁.completed index = true) :
      Attempted index e (.ok (), e₁)
  | skipped {e₁ : WorkflowEngine σ} (hlogs : Logs e e₁ [.skipped index])
      (hcompleted : index < e.steps.length → e₁.completed index = true) :
      Attempted index e (.ok (), e₁)
  | failed {e₁ : WorkflowEngine σ} {events error} (hevents : AllRolledBack events)
      (hlogs : Logs e e₁ events) : Attempted index e (.error error, e₁)

namespace Attempted

variable {index : Nat} {r : Except ErrorCode Unit × WorkflowEngine σ}

theorem after (h : Logs e e' []) (hattempted : Attempted index e' r) : Attempted index e r := by
  cases hattempted with
  | executed hlogs hcompleted => exact .executed (h.after hlogs) fun hi => hcompleted (h.count ▸ hi)
  | skipped hlogs hcompleted => exact .skipped (h.after hlogs) fun hi => hcompleted (h.count ▸ hi)
  | failed hevents hlogs => exact .failed hevents (h.after hlogs)

theorem quiet {error : ErrorCode} (h : Logs e e' []) : Attempted index e (.error error, e') :=
  .failed (by simp [AllRolledBack]) h

end Attempted

theorem attempted_recover {retry : WorkflowEngine σ → Except ErrorCode Unit × WorkflowEngine σ}
    {index : Nat} (hretry : ∀ e, Attempted index e (retry e)) (error : ErrorCode)
    (action : RecoveryAction) (e : WorkflowEngine σ) :
    Attempted index e (recover w retry index error action e) := by
  cases action with
  | retry => exact hretry e
  | rollback =>
    obtain ⟨events, hevents, hlogs⟩ := logs_rollback (w := w) e
    rw [recover]
    rcases hr : e.rollback w with ⟨_ | _, e₁⟩ <;> rw [hr] at hlogs
    · exact .failed hevents (hlogs.quiet ((logs_fail index e₁.countRollback).start rfl))
    · exact .failed hevents (hlogs.quiet (logs_fail index e₁))
  | skip => exact .skipped (logs_skip index e) completed_complete
  | abort | resume | «continue» => exact .quiet ((logs_fail index e).same rfl)

theorem attempted_attempts (index left : Nat) (e : WorkflowEngine σ) :
    Attempted index e (attempts w index left e) := by
  induction left generalizing e with
  | zero => exact .quiet ((logs_fail index e).same rfl)
  | succ left ih =>
    rw [attempts]
    have hlisten := logs_listen (w := w) e
    simp only
    split
    · exact .quiet hlisten
    · have hask := hlisten.quiet (logs_ask w.execute index (e.listen w))
      rcases hr : ask w.execute index (e.listen w) with ⟨error | _, e₁⟩ <;> rw [hr] at hask
      · simp only
        split
        · exact .quiet (hask.quiet (logs_fail index e₁))
        · have hrecover := attempted_recover (w := w) ih error (w.recovery index error e₁.world).1
            { e₁.countRetry with world := (w.recovery index error e₁.world).2 }
          refine Attempted.after ?_ hrecover
          exact hask.same rfl
      · refine .executed (hask.after ((logs_complete index e₁).after
          (logs_record rfl _))) fun hindex => ?_
        exact completed_complete (Nat.lt_of_lt_of_eq hindex hask.count.symm)

theorem attempted_executeStep (index : Nat) (e : WorkflowEngine σ) :
    Attempted index e (executeStep w index e) := attempted_attempts ..

/-! ## Runs -/

theorem logs_prepareSteps (steps : List Nat) (e : WorkflowEngine σ) :
    Logs e (prepareSteps w steps e).2 [] := by
  induction steps generalizing e with
  | nil => exact .refl e
  | cons index rest ih =>
    rw [prepareSteps]
    have hask := logs_ask w.prepare index e
    rcases hr : ask w.prepare index e with ⟨error | _, e₁⟩ <;> rw [hr] at hask
    · exact hask.same rfl
    · exact hask.quiet (ih e₁)

theorem logs_prepare (e : WorkflowEngine σ) : Logs e (e.prepare w).2 [] := by
  rw [prepare]
  split
  · exact .refl e
  · exact (logs_prepareSteps _ { e with state := .ready }).start rfl

theorem logs_finish (e : WorkflowEngine σ) : Logs e e.finish.2 [] := by
  rw [finish]
  split <;> exact .of_same rfl

/-- How the loop of `run` passes through a step. -/
inductive Passes (w : Surroundings σ) (index : Nat) (rest : List Nat) (e : WorkflowEngine σ) :
    Except ErrorCode Unit × WorkflowEngine σ → Prop
  | cancelled {e₁ : WorkflowEngine σ} (hlogs : Logs e e₁ []) (hstate : e₁.state = .cancelled) :
      Passes w index rest e (.error .cancelled, e₁)
  | done {e₁ : WorkflowEngine σ} {event} (hevent : event = .executed index ∨ event = .skipped index)
      (hlogs : Logs { e with currentStepIndex := index } e₁ [event])
      (hcompleted : index < e.steps.length → e₁.completed index = true) :
      Passes w index rest e (runSteps w rest e₁)
  | continued {e₁ : WorkflowEngine σ} {events} (result : WorkflowResult)
      (hevents : AllRolledBack events)
      (hlogs : Logs { e with currentStepIndex := index } e₁ events)
      (hcontinue : e₁.options.continueOnWarning = true) :
      Passes w index rest e (runSteps w rest { e₁.countWarning with result })
  | failed {e₁ : WorkflowEngine σ} {events error} (hevents : AllRolledBack events)
      (hlogs : Logs { e with currentStepIndex := index } e₁ events)
      (hstate : e₁.state = .cancelled ∨ e₁.state = .failed) :
      Passes w index rest e (.error error, e₁)

theorem Logs.setCurrent {events : List StepEvent} (h : Logs e e' events) (index : Nat) :
    Logs { e with currentStepIndex := index } { e' with currentStepIndex := index } events where
  options := h.options
  current := rfl
  count := h.count
  completed := h.completed
  warnings := h.warnings
  log := h.log

theorem passes (index : Nat) (rest : List Nat) (e : WorkflowEngine σ) :
    Passes w index rest e (runSteps w (index :: rest) e) := by
  rw [runSteps]
  have hlisten := logs_listen (w := w) e
  simp only
  split
  · exact .cancelled (hlisten.same rfl) rfl
  · have hpaused := hlisten.quiet (logs_waitWhilePaused (w := w) (e.listen w))
    split
    · exact .cancelled (hpaused.same rfl) rfl
    · have hstep := (attempted_executeStep (w := w) index _).after (hpaused.setCurrent index)
      generalize executeStep w index _ = r at hstep ⊢
      cases hstep with
      | executed hlogs hcompleted => exact .done (.inl rfl) hlogs hcompleted
      | skipped hlogs hcompleted => exact .done (.inr rfl) hlogs hcompleted
      | @failed e' events error hevents hlogs =>
        simp only
        split
        · exact .failed hevents (hlogs.same rfl) (.inl rfl)
        · split
          · rename_i hcontinue
            exact .continued _ hevents hlogs hcontinue
          · exact .failed hevents (hlogs.same rfl) (.inr rfl)

end WorkflowEngine

end MBootCore.Workflow
