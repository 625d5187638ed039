import MBootCore.Support.CallRun
import MBootCore.Workflow.StepLog

/-!
# Workflow — Completion

When `run` succeeds, are all steps in force? A step is when it was executed or
skipped after its last rollback. The engine keeps no account of rollbacks: after
one it is ready again with the index of the failed step, and the steps that were
rolled back are not executed anew.
-/

namespace MBootCore.Workflow

def StepEvent.index : StepEvent → Nat
  | executed index | skipped index | rolledBack index _ => index

def StepEvent.undoes : StepEvent → Bool
  | executed _ | skipped _ => false
  | rolledBack _ _ => true

/-- What last came of step `index` is no rollback. -/
def InForce (log : List StepEvent) (index : Nat) : Prop :=
  (log.filter (·.index = index)).getLast?.map StepEvent.undoes = some false

instance (log : List StepEvent) (index : Nat) : Decidable (InForce log index) :=
  inferInstanceAs (Decidable (_ = _))

theorem inForce_snoc_self (log : List StepEvent) {event : StepEvent}
    (hevent : event.undoes = false) : InForce (log ++ [event]) event.index := by
  simp [InForce, List.filter_append, hevent]

theorem InForce.snoc {log : List StepEvent} {index : Nat} (h : InForce log index)
    {event : StepEvent} (hevent : event.undoes = false) : InForce (log ++ [event]) index := by
  by_cases hindex : event.index = index
  · exact hindex ▸ inForce_snoc_self log hevent
  · simpa [InForce, List.filter_append, hindex] using h

namespace WorkflowEngine

variable {σ : Type} {w : Surroundings σ} {e e' : WorkflowEngine σ}

/-- The steps before `bound` are in force, unless the run will not succeed. -/
def InForceUpTo (e : WorkflowEngine σ) (bound : Nat) : Prop :=
  ∀ index < bound, InForce e.log index ∨ e.Warned

/-- The steps before `bound` are completed, unless the run will not succeed. -/
def CompletedUpTo (e : WorkflowEngine σ) (bound : Nat) : Prop :=
  ∀ index < bound, e.completed index = true ∨ e.Warned

theorem InForceUpTo.quiet {bound : Nat} (h : e.InForceUpTo bound) (hlogs : Logs e e' []) :
    e'.InForceUpTo bound := by
  intro index hindex
  refine (h index hindex).imp (fun hin => ?_) (hlogs.warned e.fits_zero)
  rw [hlogs.log, List.append_nil]
  exact hin

theorem CompletedUpTo.warned {bound : Nat} (h : e.Warned) : e.CompletedUpTo bound :=
  fun _ _ => .inr h

/-- A step that is done joins the steps in force. -/
theorem InForceUpTo.snoc {index : Nat} {event : StepEvent} (h : e.InForceUpTo index)
    (hfits : e.Fits 1) (hevent : event = .executed index ∨ event = .skipped index)
    (hlogs : Logs { e with currentStepIndex := index } e' [event]) :
    e'.InForceUpTo (index + 1) := by
  intro i hi
  have hlog : e'.log = e.log ++ [event] := hlogs.log
  rcases Nat.lt_succ_iff_lt_or_eq.mp hi with hlt | rfl
  · refine (h i hlt).imp (fun hin => ?_) (hlogs.warned (hfits.mono List.countP_le_length))
    rw [hlog]
    exact hin.snoc (by rcases hevent with rfl | rfl <;> rfl)
  · rw [hlog]
    rcases hevent with rfl | rfl <;> exact .inl (inForce_snoc_self e.log rfl)

theorem CompletedUpTo.snoc {index : Nat} {event : StepEvent} (h : e.CompletedUpTo index)
    (hfits : e.Fits 1) (hlogs : Logs { e with currentStepIndex := index } e' [event])
    (hcompleted : e'.completed index = true) : e'.CompletedUpTo (index + 1) := by
  intro i hi
  rcases Nat.lt_succ_iff_lt_or_eq.mp hi with hlt | rfl
  · exact (h i hlt).imp hlogs.completed (hlogs.warned (hfits.mono List.countP_le_length))
  · exact .inl hcompleted

/-- What one step uses up of the counter. -/
theorem Fits.step {index left : Nat} {event : StepEvent} (h : e.Fits (left + 1))
    (hlogs : Logs { e with currentStepIndex := index } e' [event]) : e'.Fits left := by
  have hone : [event].countP StepEvent.skips ≤ 1 := List.countP_le_length
  exact hlogs.fits (h.mono (by omega))

theorem Fits.rolledBack {index left : Nat} {events : List StepEvent} (h : e.Fits left)
    (hevents : AllRolledBack events)
    (hlogs : Logs { e with currentStepIndex := index } e' events) : e'.Fits left :=
  hlogs.fits (h.mono (Nat.le_of_eq (by rw [hevents.countP_skips, Nat.zero_add])))

/-! ## One run -/

theorem finish_ok (h : e.finish.1 = .ok ()) : ¬ e.finish.2.Warned := by
  rw [finish] at h ⊢
  split at h
  · cases h
  · rename_i hwarned
    rw [if_neg hwarned]
    exact fun h => hwarned h.symm

theorem finish_state (e : WorkflowEngine σ) :
    e.finish.2.state = .completed ∨ e.finish.2.state = .failed := by
  rw [finish]
  split
  · exact .inr rfl
  · exact .inl rfl

/-- A run that ends well leaves all its steps in force, if the counter has room for a
warning of each. -/
theorem runSteps_inForce {index count : Nat} (h : e.InForceUpTo index) (hfits : e.Fits count)
    (hok : (runSteps w (List.range' index count) e).1 = .ok ()) :
    ∀ i < index + count, InForce (runSteps w (List.range' index count) e).2.log i := by
  induction count generalizing index e with
  | zero =>
    intro i hi
    rw [List.range'_zero, runSteps] at hok ⊢
    rcases h.quiet (logs_finish e) i hi with hin | hwarned
    · exact hin
    · exact absurd hwarned (finish_ok hok)
  | succ count ih =>
    rw [List.range'_succ] at hok ⊢
    have hpass := passes (w := w) index (List.range' (index + 1) count) e
    generalize runSteps w (index :: _) e = r at hok hpass ⊢
    rw [show index + (count + 1) = index + 1 + count by omega]
    cases hpass with
    | cancelled => cases hok
    | done hevent hlogs =>
      exact ih (h.snoc (hfits.mono (by omega)) hevent hlogs) (hfits.step hlogs) hok
    | continued _ hevents hlogs hcontinue =>
      have hleft := hfits.rolledBack hevents hlogs
      have hwarned := warned_countWarning hcontinue (hleft.mono (by omega))
      exact ih (fun _ _ => .inr hwarned) (fits_countWarning hleft) hok
    | failed => cases hok

/-- A run leaves the steps before the current one completed. -/
theorem runSteps_completed {index count : Nat} (h : e.CompletedUpTo index) (hfits : e.Fits count)
    (hcurrent : e.currentStepIndex ≤ index)
    (hin : ∀ i ∈ List.range' index count, i < e.steps.length) :
    (runSteps w (List.range' index count) e).2.CompletedUpTo
      (runSteps w (List.range' index count) e).2.currentStepIndex := by
  induction count generalizing index e with
  | zero =>
    rw [List.range'_zero, runSteps, (logs_finish e).current]
    intro i hi
    exact (h i (by omega)).imp (logs_finish e).completed ((logs_finish e).warned e.fits_zero)
  | succ count ih =>
    rw [List.range'_succ] at hin ⊢
    have hpass := passes (w := w) index (List.range' (index + 1) count) e
    generalize runSteps w (index :: _) e = r at hpass ⊢
    have hrest : ∀ {e₁ events}, Logs { e with currentStepIndex := index } e₁ events →
        e₁.currentStepIndex ≤ index + 1 ∧
          ∀ i ∈ List.range' (index + 1) count, i < e₁.steps.length := by
      intro e₁ events hlogs
      rw [hlogs.current, hlogs.count]
      exact ⟨Nat.le_succ index, fun i hi => hin i (List.mem_cons_of_mem _ hi)⟩
    cases hpass with
    | cancelled hlogs =>
      rw [hlogs.current]
      intro i hi
      exact (h i (by omega)).imp hlogs.completed (hlogs.warned e.fits_zero)
    | done hevent hlogs hcompleted =>
      have hdone := h.snoc (hfits.mono (by omega)) hlogs (hcompleted (hin index List.mem_cons_self))
      exact ih hdone (hfits.step hlogs) (hrest hlogs).1 (hrest hlogs).2
    | continued _ hevents hlogs hcontinue =>
      have hleft := hfits.rolledBack hevents hlogs
      have hwarned := warned_countWarning hcontinue (hleft.mono (by omega))
      exact ih (.warned hwarned) (fits_countWarning hleft) (hrest hlogs).1 (hrest hlogs).2
    | failed hevents hlogs =>
      have hkept := hfits.mono (Nat.le_trans (Nat.le_of_eq hevents.countP_skips) (Nat.zero_le _))
      rw [hlogs.current]
      exact fun i hi => (h i hi).imp hlogs.completed (hlogs.warned hkept)

/-- A run ends completed, cancelled or failed. -/
theorem runSteps_state (steps : List Nat) (e : WorkflowEngine σ) :
    (runSteps w steps e).2.state = .completed ∨ (runSteps w steps e).2.state = .cancelled ∨
      (runSteps w steps e).2.state = .failed := by
  induction steps generalizing e with
  | nil => exact (finish_state e).imp_right .inr
  | cons index rest ih =>
    have hpass := passes (w := w) index rest e
    generalize runSteps w (index :: rest) e = r at hpass ⊢
    cases hpass with
    | cancelled _ hstate => exact .inr (.inl hstate)
    | done => exact ih _
    | continued => exact ih _
    | failed _ _ hstate => exact .inr hstate

/-! ## Calls -/

/-- The engine can go on with its steps. -/
def Runnable (e : WorkflowEngine σ) : Prop :=
  e.state = .created ∨ e.state = .ready ∨ e.state = .running ∨ e.state = .paused

/-- What holds of an engine of `size` steps between the calls. -/
structure Tracked (size : Nat) (e : WorkflowEngine σ) : Prop where
  count : e.steps.length = size
  completed : e.CompletedUpTo e.currentStepIndex
  inForce : e.Runnable → e.InForceUpTo e.currentStepIndex

theorem Tracked.quiet {size : Nat} (h : Tracked size e) (hlogs : Logs e e' [])
    (hstate : e'.Runnable → e.Runnable) : Tracked size e' where
  count := hlogs.count.trans h.count
  completed i hi :=
    (h.completed i (hlogs.current ▸ hi)).imp hlogs.completed (hlogs.warned e.fits_zero)
  inForce hrunnable := by
    rw [hlogs.current]
    exact (h.inForce (hstate hrunnable)).quiet hlogs

theorem runSteps_length (steps : List Nat) (e : WorkflowEngine σ) :
    (runSteps w steps e).2.steps.length = e.steps.length := by
  induction steps generalizing e with
  | nil => exact (logs_finish e).count
  | cons index rest ih =>
    have hpass := passes (w := w) index rest e
    generalize runSteps w (index :: rest) e = r at hpass ⊢
    cases hpass with
    | cancelled hlogs => exact hlogs.count
    | done _ hlogs => exact (ih _).trans hlogs.count
    | continued _ _ hlogs => exact (ih _).trans hlogs.count
    | failed _ hlogs => exact hlogs.count

theorem tracked_runPrepared {size : Nat} (h : Tracked size e)
    (hfits : e.Fits (size - e.currentStepIndex)) :
    Tracked size (e.runPrepared w).2 ∧
      ((e.runPrepared w).1 = .ok () → ∀ i < size, InForce (e.runPrepared w).2.log i) := by
  rw [runPrepared]
  split
  · exact ⟨h, fun hok => by cases hok⟩
  · rename_i hready
    have hrunnable : e.Runnable := by
      by_cases hstate : e.state = .ready
      · exact .inr (.inl hstate)
      · exact .inr (.inr (.inr (Decidable.not_not.mp fun hpaused => hready ⟨hstate, hpaused⟩)))
    split
    · rename_i hempty
      have hcount := h.count
      rw [hempty, List.length_nil] at hcount
      refine ⟨h.quiet (.of_same rfl) fun _ => hrunnable, fun _ i hi => ?_⟩
      omega
    · let started : WorkflowEngine σ :=
        { e with cancelled := false, paused := false, state := .running }
      have hstarted : Tracked size started := h.quiet (.of_same rfl) fun _ => hrunnable
      have hstate := runSteps_state (w := w) e.remaining started
      refine ⟨⟨?_, ?_, ?_⟩, ?_⟩
      · exact (runSteps_length e.remaining started).trans h.count
      · rw [← h.count] at hfits
        refine runSteps_completed hstarted.completed hfits (Nat.le_refl _) fun i hi => ?_
        have hi := List.mem_range'_1.mp hi
        exact (by omega : i < e.steps.length)
      · rintro (hcreated | hready | hrunning | hpaused) <;> simp_all [started]
      · intro hok i hi
        have hcount := h.count
        have hinForce := hstarted.inForce (.inr (.inr (.inl rfl)))
        rw [← hcount] at hfits
        exact runSteps_inForce hinForce hfits hok i (by simp only [started]; omega)

theorem tracked_run {size : Nat} (h : Tracked size e)
    (hfits : e.Fits (size - e.currentStepIndex)) :
    Tracked size (e.run w).2 ∧
      ((e.run w).1 = .ok () → ∀ i < size, InForce (e.run w).2.log i) := by
  rw [run]
  split
  · rename_i hcreated
    have hlogs := logs_prepare (w := w) e
    have hprepare := h.quiet hlogs fun _ => .inl hcreated
    rcases hr : e.prepare w with ⟨_ | _, e₁⟩ <;> rw [hr] at hprepare hlogs
    · exact ⟨hprepare, fun hok => by cases hok⟩
    · refine tracked_runPrepared hprepare ?_
      rw [hlogs.current]
      exact hlogs.fits (hfits.mono (Nat.le_of_eq (Nat.zero_add _)))
  · exact tracked_runPrepared h hfits

/-- A rollback is carried out and finds a step to roll back. -/
def RollsBack (e : WorkflowEngine σ) : Prop :=
  (e.state = .failed ∨ e.state = .cancelled) ∧
    ∃ index < e.currentStepIndex, e.completed index = true

theorem rollbackSteps_of_none {count : Nat} (h : ∀ i < count, e.completed i = false)
    (lastError : ErrorCode) : rollbackSteps w count lastError e = (lastError, e) := by
  induction count with
  | zero => rfl
  | succ count ih =>
    have hcount : e.completed count = false := h count (Nat.lt_succ_self count)
    rw [rollbackSteps, rollbackStep, if_neg (by simp [hcount])]
    exact ih fun i hi => h i (Nat.lt_succ_of_lt hi)

theorem tracked_rollback {size : Nat} (h : Tracked size e) (hnone : ¬ e.RollsBack) :
    Tracked size (e.rollback w).2 := by
  rw [rollback]
  split
  · exact h
  · rename_i hstate
    have hfound : ∀ i < e.currentStepIndex, e.completed i = false := by
      intro i hi
      refine Bool.eq_false_iff.mpr fun hcompleted => hnone ⟨?_, i, hi, hcompleted⟩
      by_cases hfailed : e.state = .failed
      · exact .inl hfailed
      · exact .inr (Decidable.not_not.mp fun hcancelled => hstate ⟨hfailed, hcancelled⟩)
    rw [rollbackSteps_of_none (e := { e with state := .rollingBack }) hfound]
    refine ⟨h.count, h.completed, fun _ i hi => ?_⟩
    -- a step before the current one that is not completed means a warned run
    rcases h.completed i hi with hcompleted | hwarned
    · rw [hfound i hi] at hcompleted
      cases hcompleted
    · exact .inr hwarned

theorem tracked_create (world : σ) (size : Nat) (options : WorkflowOptions) :
    Tracked size (create world size options) where
  count := List.length_replicate
  completed i hi := absurd hi (Nat.not_lt_zero i)
  inForce _ i hi := absurd hi (Nat.not_lt_zero i)

theorem tracked_step {size : Nat} {call : WorkflowCall} (h : Tracked size e)
    (hfits : call = .run → e.Fits (size - e.currentStepIndex))
    (hnone : call = .rollback → ¬ e.RollsBack) : Tracked size (call.step w e).2 := by
  cases call with
  | run => exact (tracked_run h (hfits rfl)).1
  | pause =>
    simp only [WorkflowCall.step, pause]
    split
    · exact h
    · rename_i hrunning
      exact h.quiet (.of_same rfl) fun _ =>
        .inr (.inr (.inl (Decidable.not_not.mp hrunning)))
  | resume =>
    simp only [WorkflowCall.step, resume]
    split
    · exact h
    · rename_i hpaused
      exact h.quiet (.of_same rfl) fun _ =>
        .inr (.inr (.inr (Decidable.not_not.mp hpaused)))
  | cancel =>
    refine h.quiet (.of_same rfl) ?_
    rintro (hstate | hstate | hstate | hstate) <;> cases hstate
  | rollback => exact tracked_rollback h (hnone rfl)

/-- As long as no rollback finds a step to roll back, and the counter of the warnings has
room for one of each step from the current one on, a run that succeeds has all its steps
in force. -/
theorem run_inForce_of_noRollback (w : Surroundings σ) (world : σ) (size : Nat)
    (options : WorkflowOptions) (calls : List WorkflowCall)
    (hnone : ∀ r ∈ CallRun.records (WorkflowCall.step w) calls (create world size options),
      r.call = .rollback → ¬ r.before.RollsBack)
    (hfits : ∀ r ∈ CallRun.records (WorkflowCall.step w) calls (create world size options),
      r.call = .run → r.before.Fits (size - r.before.currentStepIndex)) :
    ∀ r ∈ CallRun.records (WorkflowCall.step w) calls (create world size options),
      r.call = .run → r.result = .ok () → ∀ index < size, InForce r.after.log index := by
  have htracked := (CallRun.records_invariant (Tracked size) (by
    intro r hr hbefore
    have hrollback := hnone r hr
    have hroom := hfits r hr
    obtain ⟨_, call, _, -, rfl⟩ := CallRun.mem_records.mp hr
    exact tracked_step hbefore hroom hrollback) (tracked_create world size options)).1
  intro r hr hcall hok
  have hbefore := (htracked r hr).1
  have hroom := hfits r hr hcall
  obtain ⟨_, call, _, -, rfl⟩ := CallRun.mem_records.mp hr
  cases (show call = .run from hcall)
  exact (tracked_run hbefore hroom).2 hok

/-- Without a step to roll back the second run executes all steps. -/
theorem run_inForce_of_noRollback_twoSteps :
    (CallRun.records (WorkflowCall.step (failingOnce 0)) [.run, .rollback, .run]
        (create 0 2 {})).map (·.result) = [.error .jobDataMismatch, .ok (), .ok ()] ∧
      ∀ r ∈ CallRun.records (WorkflowCall.step (failingOnce 0)) [.run, .rollback, .run]
          (create 0 2 {}),
        r.call = .run → r.result = .ok () → ∀ index < 2, InForce r.after.log index := by
  refine ⟨rfl, run_inForce_of_noRollback _ _ _ _ _ ?_ ?_⟩ <;>
    intro r hr hcall <;>
    simp only [CallRun.records_cons, CallRun.records_nil, List.mem_cons, List.not_mem_nil,
      or_false] at hr
  · rcases hr with rfl | rfl | rfl
    · cases hcall
    · rintro ⟨_, index, hindex, -⟩
      exact absurd hindex (Nat.not_lt_zero index)
    · cases hcall
  · intro hcontinue
    rcases hr with rfl | rfl | rfl <;> cases hcontinue

/-- A run succeeds after a rollback, without the step rolled back. -/
theorem run_after_rollback :
    ¬ ∀ {σ : Type} (w : Surroundings σ) (world : σ) (size : Nat) (options : WorkflowOptions)
        (calls : List WorkflowCall),
        ∀ r ∈ CallRun.records (WorkflowCall.step w) calls (create world size options),
          r.call = .run → r.result = .ok () → ∀ index < size, InForce r.after.log index := by
  intro h
  have hrun := h (failingOnce 1) 0 2 {} [.run, .rollback, .run] _
    (List.mem_of_getElem? (i := 2) rfl) rfl rfl 0 (by decide)
  exact absurd hrun (by decide)

end WorkflowEngine

end MBootCore.Workflow
