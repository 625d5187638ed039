import MBootCore.Workflow.CancelPoints
import MBootCore.Workflow.RollbackPass
import Mathlib.Data.List.Sort

/-!
# Workflow — RollbackRecovery

The recovery that answers a failed step with a rollback. It calls the engine's
own `rollback`, which is refused while the workflow runs: the steps before the
failed one are rolled back only if `cancel` was called while that step worked.
-/

namespace MBootCore.Workflow

/-- The steps completed, by their execution or as skipped. -/
def completedSteps (events : List StepEvent) : List Nat :=
  events.filterMap fun
    | .executed index | .skipped index => some index
    | .rolledBack .. => none

theorem completedSteps_append (events more : List StepEvent) :
    completedSteps (events ++ more) = completedSteps events ++ completedSteps more :=
  List.filterMap_append

theorem rolledBackSteps_append (events more : List StepEvent) :
    rolledBackSteps (events ++ more) = rolledBackSteps events ++ rolledBackSteps more :=
  List.filterMap_append

namespace WorkflowEngine

open RunningEngine (KeepsFlag)

variable {σ : Type} (w : Surroundings σ)

/-! ## Rollback decisions -/

/-- The engine as it is when a rollback is decided on among the attempts at a
step. -/
def rollbackDecision (index : Nat) : Nat → WorkflowEngine σ → Option (WorkflowEngine σ)
  | 0, _ => none
  | left + 1, e =>
    let e := e.listen w
    if e.checkCancelled w then none
    else
      match ask w.execute index e with
      | (.ok (), _) => none
      | (.error error, e) =>
        if error = .cancelled then none
        else
          let (action, world) := w.recovery index error e.world
          match action with
          | .retry => rollbackDecision index left { e.countRetry with world }
          | .rollback => some { e.countRetry with world }
          | _ => none

def stepDecision (index : Nat) (e : WorkflowEngine σ) : Option (WorkflowEngine σ) :=
  rollbackDecision w index (if e.options.retryCount > 0 then e.options.retryCount.toNat else 1) e

/-- The rollback decisions of `runSteps`. -/
def decisions : List Nat → WorkflowEngine σ → List (WorkflowEngine σ)
  | [], _ => []
  | index :: rest, e =>
    let e := e.listen w
    if e.checkCancelled w then []
    else
      let e := e.waitWhilePaused w
      if e.checkCancelled w then []
      else
        let e := { e with currentStepIndex := index }
        (stepDecision w index e).toList ++
          match executeStep w index e with
          | (.ok (), e) => decisions rest e
          | (.error error, e) =>
            if error = .cancelled then []
            else if e.options.continueOnWarning then
              decisions rest { e.countWarning with result := { e.result with error } }
            else []

def preparedDecisions (e : WorkflowEngine σ) : List (WorkflowEngine σ) :=
  if e.state ≠ .ready ∧ e.state ≠ .paused then []
  else if e.steps = [] then []
  else decisions w e.remaining { e with cancelled := false, paused := false, state := .running }

/-- The rollback decisions of `run`, in order. -/
def runDecisions (e : WorkflowEngine σ) : List (WorkflowEngine σ) :=
  if e.state = .created then
    match e.prepare w with
    | (.error _, _) => []
    | (.ok (), e) => preparedDecisions w e
  else preparedDecisions w e

/-- Whenever a rollback is decided on, the steps completed earlier in the run
are asked to roll back before `run` returns, the last one first. -/
def RecoveryRollsBack (e : WorkflowEngine σ) : Prop :=
  ∀ d ∈ runDecisions w e, ∃ since after, d.log = e.log ++ since ∧
    (e.run w).2.log = d.log ++ after ∧
    (completedSteps since).reverse.Sublist (rolledBackSteps after)

variable {w} {e e' d : WorkflowEngine σ}

/-! ## The state of a run -/

/-- The states in which a step works. -/
def Working (e : WorkflowEngine σ) : Prop :=
  e.state = .running ∨ e.state = .paused ∨ e.state = .cancelled ∧ e.cancelled = true

namespace Working

theorem request (h : e.Working) (request : Request) : (e.request request).Working := by
  cases request with
  | cancel => exact .inr (.inr ⟨rfl, rfl⟩)
  | pause =>
    rw [WorkflowEngine.request, pause]
    split
    · exact h
    · exact .inr (.inl rfl)
  | resume =>
    rw [WorkflowEngine.request, resume]
    split
    · exact h
    · exact .inl rfl

theorem requests (h : e.Working) (requests : List Request) :
    (requests.foldl WorkflowEngine.request e).Working := by
  induction requests generalizing e with
  | nil => exact h
  | cons request _ ih => exact ih (h.request request)

theorem ask (h : e.Working) (method : Nat → σ → Answer σ) (index : Nat) :
    (WorkflowEngine.ask method index e).2.Working :=
  requests (e := { e with world := (method index e.world).world }) h _

theorem listen (h : e.Working) : (e.listen w).Working :=
  requests (e := { e with world := (w.between e.world).2 }) h _

theorem waitWhilePaused (h : e.Working) : (e.waitWhilePaused w).Working := by
  rw [WorkflowEngine.waitWhilePaused]
  split
  · rcases w.wake e.world with ⟨_ | _, world⟩
    · exact .inl rfl
    · exact .inr (.inr ⟨rfl, rfl⟩)
  · exact h

/-- While a step works, `rollback` is refused unless `cancel` was called. -/
theorem rollback_refused (h : e.Working) (hstate : e.state ≠ .cancelled) :
    e.rollback w = (.error .invalidState, e) := by
  refine if_pos ⟨fun hfailed => ?_, hstate⟩
  rcases h with h | h | h
  · rw [h] at hfailed
    cases hfailed
  · rw [h] at hfailed
    cases hfailed
  · exact hstate h.1

theorem cancelled (h : e.Working) (hstate : e.state = .cancelled) : e.cancelled = true := by
  rcases h with h | h | h
  · rw [h] at hstate
    cases hstate
  · rw [h] at hstate
    cases hstate
  · exact h.2

end Working

/-! ## Attempts -/

/-- How the attempts at a step end, by what was decided among them. -/
inductive Decided (w : Surroundings σ) (index : Nat) (e : WorkflowEngine σ) :
    Option (WorkflowEngine σ) → Except ErrorCode Unit × WorkflowEngine σ → Prop
  | completed {e₁ : WorkflowEngine σ} {event}
      (hevent : event = .executed index ∨ event = .skipped index) (hlogs : Logs e e₁ [event])
      (hcompleted : index < e.steps.length → e₁.completed index = true) (hworking : e₁.Working) :
      Decided w index e none (.ok (), e₁)
  | failed {e₁ : WorkflowEngine σ} {error} (hlogs : Logs e e₁ []) (hworking : e₁.Working) :
      Decided w index e none (.error error, e₁)
  | refused {d e₁ : WorkflowEngine σ} {error} (hdecision : Logs e d [])
      (hstate : d.state ≠ .cancelled) (hlogs : Logs d e₁ []) (hworking : e₁.Working) :
      Decided w index e (some d) (.error error, e₁)
  | accepted {d e₁ : WorkflowEngine σ} {error} (hdecision : Logs e d [])
      (hstate : d.state = .cancelled)
      (hlog : e₁.log = d.log ++ passEvents (pass w (d.targets d.currentStepIndex) d.world))
      (hcancelled : e₁.cancelled = true) : Decided w index e (some d) (.error error, e₁)

theorem Decided.after {index : Nat} {decision : Option (WorkflowEngine σ)}
    {r : Except ErrorCode Unit × WorkflowEngine σ} (h : Logs e e' [])
    (hdecided : Decided w index e' decision r) : Decided w index e decision r := by
  cases hdecided with
  | completed hevent hlogs hcompleted hworking =>
    exact .completed hevent (h.after hlogs) (fun hi => hcompleted (h.count ▸ hi)) hworking
  | failed hlogs hworking => exact .failed (h.after hlogs) hworking
  | refused hdecision hstate hlogs hworking =>
    exact .refused (h.after hdecision) hstate hlogs hworking
  | accepted hdecision hstate hlog hcancelled =>
    exact .accepted (h.after hdecision) hstate hlog hcancelled

theorem decided_rollback {retry : WorkflowEngine σ → Except ErrorCode Unit × WorkflowEngine σ}
    (index : Nat) (error : ErrorCode) (h : d.Working) :
    Decided w index d (some d) (recover w retry index error .rollback d) := by
  rw [recover]
  by_cases hstate : d.state = .cancelled
  · have hlog := (rollback_undone (w := w) (.inr hstate)).2.2.1
    have hflag := KeepsFlag.rollback (w := w) d (h.cancelled hstate)
    rcases hr : d.rollback w with ⟨_ | _, e₁⟩ <;> rw [hr] at hlog hflag
    · exact .accepted (.refl d) hstate hlog hflag
    · exact .accepted (.refl d) hstate hlog hflag
  · rw [h.rollback_refused hstate]
    exact .refused (.refl d) hstate ((logs_fail index d.countRollback).start rfl) h

theorem decided_attempts (index left : Nat) (h : e.Working) :
    Decided w index e (rollbackDecision w index left e) (attempts w index left e) := by
  induction left generalizing e with
  | zero => exact .failed ((logs_fail index e).same rfl) h
  | succ left ih =>
    rw [attempts, rollbackDecision]
    have hlisten := logs_listen (w := w) e
    have hlistening := h.listen (w := w)
    simp only
    split
    · exact .failed hlisten hlistening
    · have hask := hlisten.quiet (logs_ask w.execute index (e.listen w))
      have hworking := hlistening.ask w.execute index
      rcases hr : ask w.execute index (e.listen w) with ⟨error | _, e₁⟩ <;>
        rw [hr] at hask hworking
      · simp only
        split
        · exact .failed (hask.quiet (logs_fail index e₁)) hworking
        · let next : WorkflowEngine σ :=
            { e₁.countRetry with world := (w.recovery index error e₁.world).2 }
          have hnext : Logs e next [] := hask.same rfl
          have hready : next.Working := hworking
          cases hdecide : (w.recovery index error e₁.world).1 with
          | retry => exact (ih hready).after hnext
          | rollback => exact (decided_rollback index error hready).after hnext
          | skip =>
            refine .completed (.inr rfl) (hnext.after (logs_skip index next)) (fun hindex => ?_)
              hready
            exact completed_complete (Nat.lt_of_lt_of_eq hindex hnext.count.symm)
          | abort | resume | «continue» =>
            exact .failed (hnext.quiet ((logs_fail index next).same rfl)) hready
      · refine .completed (.inl rfl) (hask.after ((logs_complete index e₁).after
          (logs_record rfl _))) (fun hindex => ?_) hworking
        exact completed_complete (Nat.lt_of_lt_of_eq hindex hask.count.symm)

/-! ## Runs -/

/-- Since `base` the steps completed are completed still, in order and before
`bound`, and none was rolled back. -/
def CompletedSince (base : List StepEvent) (bound : Nat) (e : WorkflowEngine σ) : Prop :=
  ∃ events, e.log = base ++ events ∧ rolledBackSteps events = [] ∧
    (completedSteps events).Pairwise (· < ·) ∧
    ∀ index ∈ completedSteps events, index < bound ∧ e.completed index = true

namespace CompletedSince

variable {base : List StepEvent} {bound index : Nat}

theorem quiet (h : CompletedSince base bound e)
    (hlogs : Logs { e with currentStepIndex := index } e' []) : CompletedSince base bound e' := by
  obtain ⟨events, hlog, hnone, hsorted, hbefore⟩ := h
  refine ⟨events, ?_, hnone, hsorted, fun i hi => ⟨(hbefore i hi).1, ?_⟩⟩
  · rw [hlogs.log, List.append_nil, hlog]
  · exact hlogs.completed (hbefore i hi).2

theorem mono (h : CompletedSince base bound e) : CompletedSince base (bound + 1) e := by
  obtain ⟨events, hlog, hnone, hsorted, hbefore⟩ := h
  exact ⟨events, hlog, hnone, hsorted, fun i hi => ⟨Nat.lt_succ_of_lt (hbefore i hi).1,
    (hbefore i hi).2⟩⟩

theorem snoc {event : StepEvent} (h : CompletedSince base index e)
    (hevent : event = .executed index ∨ event = .skipped index)
    (hlogs : Logs { e with currentStepIndex := index } e' [event])
    (hcompleted : e'.completed index = true) : CompletedSince base (index + 1) e' := by
  obtain ⟨events, hlog, hnone, hsorted, hbefore⟩ := h
  have hone : completedSteps [event] = [index] ∧ rolledBackSteps [event] = [] := by
    rcases hevent with rfl | rfl
    · exact ⟨rfl, rfl⟩
    · exact ⟨rfl, rfl⟩
  refine ⟨events ++ [event], by rw [hlogs.log, hlog, List.append_assoc], ?_, ?_, ?_⟩
  · rw [rolledBackSteps_append, hnone, hone.2, List.append_nil]
  · rw [completedSteps_append, hone.1]
    refine List.pairwise_append.mpr ⟨hsorted, List.pairwise_singleton _ _, fun i hi j hj => ?_⟩
    rw [List.mem_singleton.mp hj]
    exact (hbefore i hi).1
  · rw [completedSteps_append, hone.1]
    intro i hi
    rcases List.mem_append.mp hi with hi | hi
    · exact ⟨Nat.lt_succ_of_lt (hbefore i hi).1, hlogs.completed (hbefore i hi).2⟩
    · rw [List.mem_singleton.mp hi]
      exact ⟨Nat.lt_succ_self index, hcompleted⟩

/-- The completed steps are among those that a rollback asks. -/
theorem sublist_targets (h : CompletedSince base e.currentStepIndex e) :
    ∃ events, e.log = base ++ events ∧
      (completedSteps events).reverse.Sublist (e.targets e.currentStepIndex) := by
  obtain ⟨events, hlog, -, hsorted, hbefore⟩ := h
  refine ⟨events, hlog, List.reverse_sublist.mpr ?_⟩
  have hsubset : completedSteps events ⊆ (List.range e.currentStepIndex).filter e.completed := by
    intro i hi
    exact List.mem_filter.mpr ⟨List.mem_range.mpr (hbefore i hi).1, (hbefore i hi).2⟩
  have hrange : ((List.range e.currentStepIndex).filter e.completed).Pairwise (· < ·) :=
    List.pairwise_lt_range.filter _
  exact List.sublist_of_subperm_of_pairwise
    (List.subperm_of_subset (hsorted.imp Nat.ne_of_lt) hsubset) hsorted hrange

end CompletedSince

/-- A cancelled run does nothing more. -/
theorem runSteps_stopped (steps : List Nat) (h : e.cancelled = true) :
    (runSteps w steps e).2.log = e.log ∧ decisions w steps e = [] := by
  cases steps with
  | nil =>
    refine ⟨?_, rfl⟩
    rw [runSteps, (logs_finish e).log, List.append_nil]
  | cons index rest =>
    have hstop : (e.listen w).checkCancelled w = true := by
      rw [checkCancelled, KeepsFlag.listen e h, Bool.true_or]
    rw [runSteps, decisions]
    simp only [hstop, if_true, stopCancelled, and_true]
    rw [(logs_listen (w := w) e).log, List.append_nil]

/-- What the decisions of a run from `e` on have to do with the log it leaves:
none is carried out and nothing is rolled back, or the last one is. -/
structure Follows (w : Surroundings σ) (base : List StepEvent) (e : WorkflowEngine σ)
    (decided : List (WorkflowEngine σ)) (final : WorkflowEngine σ) : Prop where
  start : e.log <+: final.log
  since : ∀ d ∈ decided, e.log <+: d.log ∧ d.log <+: final.log ∧
    CompletedSince base d.currentStepIndex d
  outcome :
    (∃ d ∈ decided, d.state = .cancelled ∧
      final.log = d.log ++ passEvents (pass w (d.targets d.currentStepIndex) d.world) ∧
      ∀ d' ∈ decided, d'.log <+: d.log) ∨
    (∀ d ∈ decided, d.state ≠ .cancelled) ∧
      ∃ events, final.log = base ++ events ∧ rolledBackSteps events = []

namespace Follows

variable {base : List StepEvent} {bound : Nat} {decided : List (WorkflowEngine σ)}
  {final : WorkflowEngine σ}

theorem nothing (h : CompletedSince base bound e) (hlog : final.log = e.log) :
    Follows w base e [] final := by
  obtain ⟨events, hevents, hnone, -⟩ := h
  have hextends : e.log <+: final.log := ⟨[], by rw [hlog, List.append_nil]⟩
  exact ⟨hextends, by simp, .inr ⟨by simp, events, hlog.trans hevents, hnone⟩⟩

theorem before (h : Follows w base e' decided final) (hlog : e.log <+: e'.log) :
    Follows w base e decided final where
  start := hlog.trans h.start
  since d hd := ⟨hlog.trans (h.since d hd).1, (h.since d hd).2⟩
  outcome := h.outcome

/-- A decision that is refused comes before those of the run that goes on. -/
theorem refused (h : Follows w base e' decided final) (hdecision : d.log = e'.log)
    (hstate : d.state ≠ .cancelled) (hsince : CompletedSince base d.currentStepIndex d) :
    Follows w base d (d :: decided) final := by
  have hextends : d.log <+: e'.log := hdecision ▸ List.prefix_refl _
  refine ⟨hextends.trans h.start, ?_, ?_⟩
  · intro d' hd'
    rcases List.mem_cons.mp hd' with rfl | hd'
    · exact ⟨List.prefix_refl _, hextends.trans h.start, hsince⟩
    · exact ⟨hextends.trans (h.since d' hd').1, (h.since d' hd').2⟩
  · rcases h.outcome with ⟨last, hlast, hcancelled, hfinal, hall⟩ | ⟨hrefused, hnone⟩
    · refine .inl ⟨last, List.mem_cons_of_mem _ hlast, hcancelled, hfinal, fun d' hd' => ?_⟩
      rcases List.mem_cons.mp hd' with rfl | hd'
      · exact hextends.trans (h.since last hlast).1
      · exact hall d' hd'
    · refine .inr ⟨fun d' hd' => ?_, hnone⟩
      rcases List.mem_cons.mp hd' with rfl | hd'
      · exact hstate
      · exact hrefused d' hd'

/-- A decision that is carried out is the last one. -/
theorem accepted (hstate : d.state = .cancelled)
    (hfinal : final.log = d.log ++ passEvents (pass w (d.targets d.currentStepIndex) d.world))
    (hsince : CompletedSince base d.currentStepIndex d) : Follows w base d [d] final := by
  have hextends : d.log <+: final.log := ⟨_, hfinal.symm⟩
  refine ⟨hextends, ?_, .inl ⟨d, List.mem_singleton_self d, hstate, hfinal, ?_⟩⟩
  · intro d' hd'
    obtain rfl := List.mem_singleton.mp hd'
    exact ⟨List.prefix_refl _, hextends, hsince⟩
  · intro d' hd'
    obtain rfl := List.mem_singleton.mp hd'
    exact List.prefix_refl _

end Follows

theorem follows_runSteps {base : List StepEvent} {index count : Nat}
    (h : CompletedSince base index e) (hworking : e.Working)
    (hin : ∀ i ∈ List.range' index count, i < e.steps.length) :
    Follows w base e (decisions w (List.range' index count) e)
      (runSteps w (List.range' index count) e).2 := by
  induction count generalizing index e with
  | zero =>
    have hlogs := logs_finish e
    refine .nothing h ?_
    rw [List.range'_zero, runSteps, hlogs.log, List.append_nil]
  | succ count ih =>
    rw [List.range'_succ] at hin ⊢
    rw [runSteps, decisions]
    have hlisten := logs_listen (w := w) e
    have hlistening := hworking.listen (w := w)
    simp only
    split
    · exact .nothing h (by simpa [stopCancelled] using hlisten.log)
    · have hpaused := hlisten.quiet (logs_waitWhilePaused (w := w) (e.listen w))
      have hwaiting := hlistening.waitWhilePaused (w := w)
      generalize (e.listen w).waitWhilePaused w = e₀ at hpaused hwaiting ⊢
      split
      · exact .nothing h (by simpa [stopCancelled] using hpaused.log)
      · have hset := hpaused.setCurrent index
        let step : WorkflowEngine σ := { e₀ with currentStepIndex := index }
        have hstart : e.log <+: step.log := ⟨[], hpaused.log.symm⟩
        have hsince : CompletedSince base index step := h.quiet hset
        -- after a step that failed the run goes on with a warning, or ends
        have hrest {e₁ : WorkflowEngine σ} (error : ErrorCode) (hlogs : Logs step e₁ [])
            (hworking : e₁.Working) : Follows w base e₁
              (if error = .cancelled then []
                else if e₁.options.continueOnWarning then
                  decisions w (List.range' (index + 1) count)
                    { e₁.countWarning with result := { e₁.result with error } }
                else [])
              (if error = .cancelled then (.error error, { e₁ with state := .cancelled })
                else if e₁.options.continueOnWarning then
                  runSteps w (List.range' (index + 1) count)
                    { e₁.countWarning with result := { e₁.result with error } }
                else (.error error, { e₁ with state := .failed }) :
                Except ErrorCode Unit × WorkflowEngine σ).2 := by
          have hfailed : CompletedSince base (index + 1) e₁ := (hsince.quiet hlogs).mono
          have hwarned : CompletedSince base (index + 1)
              { e₁.countWarning with result := { e₁.result with error } } := hfailed
          split
          · exact .nothing hfailed rfl
          · split
            · refine (ih hwarned hworking fun i hi => ?_).before (List.prefix_refl _)
              exact Nat.lt_of_lt_of_eq (hin i (List.mem_cons_of_mem _ hi))
                (hlogs.count.trans hset.count).symm
            · exact .nothing hfailed rfl
        have hdecided : Decided w index step (stepDecision w index step)
          (executeStep w index step) := decided_attempts index _ hwaiting
        change Follows w base e ((stepDecision w index step).toList ++ _) _
        generalize stepDecision w index step = decision at hdecided ⊢
        generalize executeStep w index step = r at hdecided ⊢
        cases hdecided with
        | @completed e₁ event hevent hlogs hcompleted hworking =>
          have hindex : index < step.steps.length :=
            Nat.lt_of_lt_of_eq (hin index List.mem_cons_self) hset.count.symm
          have hdone := hsince.snoc hevent hlogs (hcompleted hindex)
          refine (ih hdone hworking fun i hi => ?_).before (hstart.trans ⟨[event], hlogs.log.symm⟩)
          exact Nat.lt_of_lt_of_eq (hin i (List.mem_cons_of_mem _ hi))
            (hlogs.count.trans hset.count).symm
        | failed hlogs hworking =>
          exact (hrest _ hlogs hworking).before (hstart.trans ⟨[], hlogs.log.symm⟩)
        | @refused d e₁ error hdecision hstate hlogs hworking =>
          have hbefore : CompletedSince base d.currentStepIndex d :=
            hdecision.current ▸ hsince.quiet hdecision
          have hlog : d.log = e₁.log := by rw [hlogs.log, List.append_nil]
          exact ((hrest error (hdecision.quiet hlogs) hworking).refused hlog hstate hbefore).before
            (hstart.trans ⟨[], hdecision.log.symm⟩)
        | @accepted d e₁ error hdecision hstate hlog hcancelled =>
          have hbefore : CompletedSince base d.currentStepIndex d :=
            hdecision.current ▸ hsince.quiet hdecision
          refine Follows.before ?_ (hstart.trans ⟨[], hdecision.log.symm⟩)
          simp only
          split
          · exact .accepted hstate hlog hbefore
          · split
            · obtain ⟨hstopped, hnone⟩ := runSteps_stopped (w := w)
                (e := { e₁.countWarning with result := { e₁.result with error } })
                (List.range' (index + 1) count) hcancelled
              rw [hnone]
              exact .accepted hstate (hstopped.trans hlog) hbefore
            · exact .accepted hstate hlog hbefore

theorem follows_runPrepared {base : List StepEvent} (hlog : e.log = base) :
    Follows w base e (preparedDecisions w e) (e.runPrepared w).2 := by
  have hstart (bound : Nat) : CompletedSince base bound e :=
    ⟨[], by rw [hlog, List.append_nil], rfl, .nil, by simp [completedSteps]⟩
  rw [runPrepared, preparedDecisions]
  split
  · exact .nothing (hstart 0) rfl
  · split
    · exact .nothing (hstart 0) rfl
    · let running : WorkflowEngine σ :=
        { e with cancelled := false, paused := false, state := .running }
      have hrun : CompletedSince base e.currentStepIndex running := hstart _
      refine (follows_runSteps hrun (.inl rfl) fun i hi => ?_).before (List.prefix_refl _)
      have hbounds := List.mem_range'_1.mp hi
      exact (by omega : i < e.steps.length)

theorem follows_run (w : Surroundings σ) (e : WorkflowEngine σ) :
    Follows w e.log e (runDecisions w e) (e.run w).2 := by
  rw [run, runDecisions]
  split
  · have hprepare := (logs_prepare (w := w) e).log
    rw [List.append_nil] at hprepare
    rcases hr : e.prepare w with ⟨_ | _, e₁⟩ <;> rw [hr] at hprepare
    · have hstart : CompletedSince e.log 0 e :=
        ⟨[], (List.append_nil _).symm, rfl, .nil, by simp [completedSteps]⟩
      exact .nothing hstart hprepare
    · refine (follows_runPrepared hprepare).before ?_
      exact ⟨[], by rw [hprepare, List.append_nil]⟩
  · exact follows_runPrepared rfl

/-- What is decided is done exactly when `cancel` was called before one of the
decisions was carried out, or when there is nothing to roll back. -/
theorem recoveryRollsBack_iff (w : Surroundings σ) (e : WorkflowEngine σ) :
    RecoveryRollsBack w e ↔
      (∃ d ∈ runDecisions w e, d.state = .cancelled) ∨
        ∀ d ∈ runDecisions w e, completedSteps (d.log.drop e.log.length) = [] := by
  have hfollows := follows_run w e
  constructor
  · intro h
    rcases hfollows.outcome with ⟨d, hd, hstate, -⟩ | ⟨-, events, hevents, hnone⟩
    · exact .inl ⟨d, hd, hstate⟩
    · refine .inr fun d hd => ?_
      obtain ⟨since, after, hsince, hafter, hrolled⟩ := h d hd
      -- all that follows the decision is part of the run, which rolls nothing back
      have hparts : events = since ++ after := by
        refine List.append_cancel_left (?_ : e.log ++ _ = e.log ++ _)
        rw [← hevents, hafter, hsince, List.append_assoc]
      rw [hparts, rolledBackSteps_append, List.append_eq_nil_iff] at hnone
      rw [hnone.2, List.sublist_nil, List.reverse_eq_nil_iff] at hrolled
      rw [hsince, List.drop_left, hrolled]
  · rintro h d hd
    obtain ⟨⟨since, hsince⟩, ⟨after, hafter⟩, -⟩ := hfollows.since d hd
    refine ⟨since, after, hsince.symm, hafter.symm, ?_⟩
    rcases h with ⟨d', hd', hcancelled⟩ | hempty
    · rcases hfollows.outcome with ⟨last, hlast, -, hfinal, hall⟩ | ⟨hrefused, -⟩
      · obtain ⟨between, hbetween⟩ := hall d hd
        obtain ⟨events, hevents, hsublist⟩ := (hfollows.since last hlast).2.2.sublist_targets
        have hparts : events = since ++ between := by
          refine List.append_cancel_left (?_ : e.log ++ _ = e.log ++ _)
          rw [← hevents, ← hbetween, ← hsince, List.append_assoc]
        have hpass : after = between ++ passEvents
            (pass w (last.targets last.currentStepIndex) last.world) := by
          refine List.append_cancel_left (?_ : d.log ++ _ = d.log ++ _)
          rw [hafter, hfinal, ← hbetween, List.append_assoc]
        rw [hpass, rolledBackSteps_append, rolledBackSteps_pass]
        refine List.Sublist.trans ?_ (List.sublist_append_right _ _)
        refine List.Sublist.trans ?_ hsublist
        rw [hparts, completedSteps_append]
        exact List.reverse_sublist.mpr (List.sublist_append_left _ _)
      · exact absurd hcancelled (hrefused d' hd')
    · have hnone := hempty d hd
      rw [← hsince, List.drop_left] at hnone
      rw [hnone]
      exact List.nil_sublist _

/-- Steps of which the second one fails, with a rollback as the recovery. -/
def rollingBack : Surroundings Nat :=
  { failingOnce 1 with recovery := fun _ _ count => (.rollback, count) }

/-- The second step fails while the workflow runs, and the first one is not
rolled back. -/
theorem recoveryRollsBack_fails : ¬ ∀ {σ : Type} (w : Surroundings σ) (e : WorkflowEngine σ),
    RecoveryRollsBack w e := by
  intro h
  obtain ⟨since, after, hsince, hafter, hrolled⟩ :=
    h rollingBack (create 0 2 {}) _ List.mem_cons_self
  have hcompleted : since = [.executed 0] := hsince.symm
  have hnothing : after = [] := List.self_eq_append_right.mp hafter
  rw [hcompleted, hnothing] at hrolled
  exact absurd hrolled (by decide)

end WorkflowEngine

end MBootCore.Workflow
