import Mathlib.Logic.Relation
import MBootCore.Support.CallRun
import MBootCore.Workflow.Engine

/-!
# Workflow — CancelPoints

A run of the engine taken apart at the points where the engine tests its flag of
cancellation or changes its state. `cancel` may come at each of them: from a step,
from a callback or from another thread. Left alone, the points are those of
`WorkflowEngine.runSteps`.

The flag is tested before a step and before an attempt at a step, and nowhere else:
what comes after the last test is not seen by the engine.
-/

namespace MBootCore.Workflow

/-- Where a run is. -/
inductive Point where
  /-- Before the steps that are left. -/
  | top (rest : List Nat)
  /-- Before an attempt at a step, with so many attempts left. -/
  | attempting (index left : Nat) (rest : List Nat)
  /-- The step is asked to execute. -/
  | executing (index left : Nat) (rest : List Nat)
  /-- The step failed, and `m_recovery` is asked. -/
  | recovering (index left : Nat) (rest : List Nat) (error : ErrorCode)
  /-- `executeStep` has its result. -/
  | ended (rest : List Nat) (result : Except ErrorCode Unit)
  /-- The final state was set, and its callback told. -/
  | leaving (result : Except ErrorCode Unit)
  | returned (result : Except ErrorCode Unit)

/-- A run at one of its points. -/
structure RunningEngine (σ : Type) where
  point : Point
  engine : WorkflowEngine σ

inductive RunMove where
  | advance | cancel
  deriving DecidableEq, Repr

namespace RunningEngine

open WorkflowEngine (failingOnce)

variable {σ : Type} (w : Surroundings σ)

/-- `retryCount > 0 ? retryCount : 1`. -/
def maxRetries (options : WorkflowOptions) : Nat :=
  if options.retryCount > 0 then options.retryCount.toNat else 1

def leave (outcome : Except ErrorCode Unit × WorkflowEngine σ) : RunningEngine σ :=
  ⟨.leaving outcome.1, outcome.2⟩

def endStep (rest : List Nat) (outcome : Except ErrorCode Unit × WorkflowEngine σ) :
    RunningEngine σ :=
  ⟨.ended rest outcome.1, outcome.2⟩

/-- The run enters the state `Running`. -/
def enter (e : WorkflowEngine σ) : RunningEngine σ :=
  ⟨.top e.remaining, { e with cancelled := false, paused := false, state := .running }⟩

/-- To the next point. -/
def advance : RunningEngine σ → RunningEngine σ
  | ⟨.top [], e⟩ => leave e.finish
  | ⟨.top (index :: rest), e⟩ =>
    let e := e.listen w
    if e.checkCancelled w then leave e.stopCancelled
    else
      let e := e.waitWhilePaused w
      if e.checkCancelled w then leave e.stopCancelled
      else ⟨.attempting index (maxRetries e.options) rest, { e with currentStepIndex := index }⟩
  | ⟨.attempting index 0 rest, e⟩ =>
    endStep rest (.error .workflowStepFailed, (e.fail index).countError)
  | ⟨.attempting index (left + 1) rest, e⟩ =>
    let e := e.listen w
    if e.checkCancelled w then endStep rest (.error .cancelled, e)
    else ⟨.executing index left rest, e⟩
  | ⟨.executing index left rest, e⟩ =>
    match WorkflowEngine.ask w.execute index e with
    | (.ok (), e) => endStep rest (.ok (), (e.complete index).record (.executed index))
    | (.error error, e) =>
      if error = .cancelled then endStep rest (.error error, e.fail index)
      else ⟨.recovering index left rest error, e⟩
  | ⟨.recovering index left rest error, e⟩ =>
    let (action, world) := w.recovery index error e.world
    let e := { e.countRetry with world }
    if action = .retry then ⟨.attempting index left rest, e⟩
    else endStep rest (WorkflowEngine.recover w (fun e => (.error error, e)) index error action e)
  | ⟨.ended rest (.ok ()), e⟩ => ⟨.top rest, e⟩
  | ⟨.ended rest (.error error), e⟩ =>
    if error = .cancelled then leave (.error error, { e with state := .cancelled })
    else if e.options.continueOnWarning then
      ⟨.top rest, { e.countWarning with result := { e.result with error } }⟩
    else leave (.error error, { e with state := .failed })
  | ⟨.leaving result, e⟩ => ⟨.returned result, e⟩
  | ⟨.returned result, e⟩ => ⟨.returned result, e⟩

/-- What comes after the return is not part of the run. -/
def interrupt (r : RunningEngine σ) : RunningEngine σ :=
  match r.point with
  | .returned _ => r
  | _ => { r with engine := r.engine.cancel }

def act : RunMove → RunningEngine σ → Unit × RunningEngine σ
  | .advance, r => ((), advance w r)
  | .cancel, r => ((), r.interrupt)

/-! ## Runs that are left alone -/

/-- The engine comes from one point to another by itself. -/
def Reaches (r r' : RunningEngine σ) : Prop :=
  Relation.ReflTransGen (fun r r' => advance w r = r') r r'

variable {w} {r r' : RunningEngine σ} {e : WorkflowEngine σ}

theorem Reaches.next (h : Reaches w (advance w r) r') : Reaches w r r' :=
  Relation.ReflTransGen.head rfl h

theorem advance_recovering (index left : Nat) (rest : List Nat) (error : ErrorCode)
    (e : WorkflowEngine σ) :
    advance w ⟨.recovering index left rest error, e⟩
      = if (w.recovery index error e.world).1 = .retry then
          ⟨.attempting index left rest,
            { e.countRetry with world := (w.recovery index error e.world).2 }⟩
        else endStep rest (WorkflowEngine.recover w (fun e => (.error error, e)) index error
          (w.recovery index error e.world).1
          { e.countRetry with world := (w.recovery index error e.world).2 }) := rfl

theorem recover_retry {retry : WorkflowEngine σ → Except ErrorCode Unit × WorkflowEngine σ}
    {index : Nat} {error : ErrorCode} {action : RecoveryAction} (h : action = .retry) :
    WorkflowEngine.recover w retry index error action e = retry e := by
  rw [h]
  rfl

theorem recover_of_ne {index : Nat} {error : ErrorCode} {action : RecoveryAction}
    (h : action ≠ .retry)
    (retry retry' : WorkflowEngine σ → Except ErrorCode Unit × WorkflowEngine σ) :
    WorkflowEngine.recover w retry index error action e
      = WorkflowEngine.recover w retry' index error action e := by
  cases action with
  | retry => exact absurd rfl h
  | rollback | skip | abort | resume | «continue» => rfl

/-- The attempts at a step. -/
theorem reaches_attempts (index left : Nat) (rest : List Nat) (e : WorkflowEngine σ) :
    Reaches w ⟨.attempting index left rest, e⟩
      (endStep rest (WorkflowEngine.attempts w index left e)) := by
  induction left generalizing e with
  | zero => exact .next .refl
  | succ left ih =>
    apply Reaches.next
    rw [WorkflowEngine.attempts, advance]
    simp only
    split
    · exact .refl
    · apply Reaches.next
      rw [advance]
      rcases WorkflowEngine.ask w.execute index (e.listen w) with ⟨error | _, e₁⟩
      · simp only
        split
        · exact .refl
        · apply Reaches.next
          rw [advance_recovering]
          split
          · rename_i hretry
            rw [recover_retry hretry]
            exact ih _
          · rename_i hretry
            rw [recover_of_ne hretry _ (WorkflowEngine.attempts w index left)]
            exact .refl
      · exact .refl

/-- A run that nobody cancels between its points is `runSteps`. -/
theorem reaches_runSteps (steps : List Nat) (e : WorkflowEngine σ) :
    Reaches w ⟨.top steps, e⟩
      ⟨.returned (WorkflowEngine.runSteps w steps e).1, (WorkflowEngine.runSteps w steps e).2⟩ := by
  have hleave : ∀ outcome : Except ErrorCode Unit × WorkflowEngine σ,
      Reaches w (leave outcome) ⟨.returned outcome.1, outcome.2⟩ := fun _ => .next .refl
  induction steps generalizing e with
  | nil => exact .next (hleave e.finish)
  | cons index rest ih =>
    apply Reaches.next
    rw [WorkflowEngine.runSteps, advance]
    simp only
    split
    · exact hleave _
    · split
      · exact hleave _
      · refine Relation.ReflTransGen.trans (reaches_attempts ..) ?_
        rw [WorkflowEngine.executeStep]
        show Reaches w (endStep rest (WorkflowEngine.attempts w index
          (maxRetries ((e.listen w).waitWhilePaused w).options) _)) _
        rw [maxRetries]
        generalize WorkflowEngine.attempts w index _ _ = outcome
        rcases outcome with ⟨error | _, e₁⟩
        · apply Reaches.next
          rw [endStep, advance]
          simp only
          split
          · exact hleave (.error error, _)
          · split
            · exact ih _
            · exact hleave (.error error, _)
        · exact .next (ih e₁)

/-! ## The flag is kept -/

/-- Nothing takes a cancellation back. -/
def KeepsFlag (e e' : WorkflowEngine σ) : Prop := e.cancelled = true → e'.cancelled = true

namespace KeepsFlag

variable {e' e'' : WorkflowEngine σ}

theorem refl (e : WorkflowEngine σ) : KeepsFlag e e := id

theorem of_eq (h : e'.cancelled = e.cancelled) : KeepsFlag e e' := fun hset => h.trans hset

theorem trans (h : KeepsFlag e e') (h' : KeepsFlag e' e'') : KeepsFlag e e'' :=
  fun hset => h' (h hset)

theorem request (e : WorkflowEngine σ) (request : Request) : KeepsFlag e (e.request request) := by
  cases request with
  | cancel => exact fun _ => rfl
  | pause =>
    rw [WorkflowEngine.request, WorkflowEngine.pause]
    split <;> exact .refl e
  | resume =>
    rw [WorkflowEngine.request, WorkflowEngine.resume]
    split <;> exact .refl e

theorem requests (requests : List Request) (e : WorkflowEngine σ) :
    KeepsFlag e (requests.foldl WorkflowEngine.request e) := by
  induction requests generalizing e with
  | nil => exact .refl e
  | cons first requests ih => exact (request e first).trans (ih _)

theorem ask (method : Nat → σ → Answer σ) (index : Nat) (e : WorkflowEngine σ) :
    KeepsFlag e (WorkflowEngine.ask method index e).2 :=
  (of_eq rfl : KeepsFlag e { e with world := (method index e.world).world }).trans (requests _ _)

theorem listen (e : WorkflowEngine σ) : KeepsFlag e (e.listen w) :=
  (of_eq rfl : KeepsFlag e { e with world := (w.between e.world).2 }).trans (requests _ _)

theorem waitWhilePaused (e : WorkflowEngine σ) : KeepsFlag e (e.waitWhilePaused w) := by
  rw [WorkflowEngine.waitWhilePaused]
  split
  · rcases w.wake e.world with ⟨_ | _, world⟩
    · exact (of_eq rfl : KeepsFlag e { e with state := .paused, world }).trans (request _ .resume)
    · exact fun _ => rfl
  · exact .refl e

theorem rollbackStep (index : Nat) (lastError : ErrorCode) (e : WorkflowEngine σ) :
    KeepsFlag e (WorkflowEngine.rollbackStep w index lastError e).2 := by
  rw [WorkflowEngine.rollbackStep]
  split
  · have hask := ask w.rollback index e
    rcases hr : WorkflowEngine.ask w.rollback index e with ⟨_ | _, e₁⟩ <;> rw [hr] at hask
    · exact hask
    · exact hask
  · exact .refl e

theorem rollbackSteps (count : Nat) (lastError : ErrorCode) (e : WorkflowEngine σ) :
    KeepsFlag e (WorkflowEngine.rollbackSteps w count lastError e).2 := by
  induction count generalizing lastError e with
  | zero => exact .refl e
  | succ count ih => exact (rollbackStep count lastError e).trans (ih _ _)

theorem rollback (e : WorkflowEngine σ) : KeepsFlag e (e.rollback w).2 := by
  rw [WorkflowEngine.rollback]
  split
  · exact .refl e
  · have hsteps := rollbackSteps (w := w) e.currentStepIndex .success
      { e with state := .rollingBack }
    simp only
    split
    · exact hsteps
    · exact hsteps

theorem recover {retry : WorkflowEngine σ → Except ErrorCode Unit × WorkflowEngine σ}
    (hretry : ∀ e, KeepsFlag e (retry e).2) (index : Nat) (error : ErrorCode)
    (action : RecoveryAction) (e : WorkflowEngine σ) :
    KeepsFlag e (WorkflowEngine.recover w retry index error action e).2 := by
  cases action with
  | retry => exact hretry e
  | rollback =>
    have hrollback := rollback (w := w) e
    rw [WorkflowEngine.recover]
    rcases hr : e.rollback w with ⟨_ | _, e₁⟩ <;> rw [hr] at hrollback
    · exact hrollback
    · exact hrollback
  | skip | abort | resume | «continue» => exact .refl e

theorem finish (e : WorkflowEngine σ) : KeepsFlag e e.finish.2 := by
  rw [WorkflowEngine.finish]
  split <;> exact .refl e

end KeepsFlag

theorem keepsFlag_advance (r : RunningEngine σ) : KeepsFlag r.engine (advance w r).engine := by
  obtain ⟨point, e⟩ := r
  cases point with
  | top rest =>
    cases rest with
    | nil => exact .finish e
    | cons index rest =>
      have hlisten := KeepsFlag.listen (w := w) e
      have hpaused := hlisten.trans (KeepsFlag.waitWhilePaused (w := w) (e.listen w))
      rw [advance]
      simp only
      split
      · exact hlisten
      · split
        · exact hpaused
        · exact hpaused
  | attempting index left rest =>
    cases left with
    | zero => exact .refl e
    | succ left =>
      rw [advance]
      simp only
      split
      · exact .listen e
      · exact .listen e
  | executing index left rest =>
    have hask := KeepsFlag.ask w.execute index e
    rw [advance]
    rcases hr : WorkflowEngine.ask w.execute index e with ⟨error | _, e₁⟩ <;> rw [hr] at hask
    · simp only
      split
      · exact hask
      · exact hask
    · exact hask
  | recovering index left rest error =>
    rw [advance_recovering]
    split
    · exact .refl e
    · have hrecover := @KeepsFlag.recover σ w (fun e => (.error error, e)) (fun e => .refl e)
        index error (w.recovery index error e.world).1
        { e.countRetry with world := (w.recovery index error e.world).2 }
      exact hrecover
  | ended rest result =>
    cases result with
    | ok => exact .refl e
    | error error =>
      rw [advance]
      split
      · exact .refl e
      · split <;> exact .refl e
  | leaving result => exact .refl e
  | returned result => exact .refl e

/-- What was cancelled on the way is so for the rest of the run. -/
theorem flag_of_cancel (hrunning : ∀ result, r.point ≠ .returned result) (moves : List RunMove) :
    (CallRun.final (act w) (.cancel :: moves) r).engine.cancelled = true := by
  rw [CallRun.final_cons]
  refine (CallRun.run_invariant (fun r : RunningEngine σ => r.engine.cancelled = true)
    ?_ ?_).2
  · intro move _ r hset
    cases move with
    | advance => exact keepsFlag_advance r hset
    | cancel =>
      show r.interrupt.engine.cancelled = true
      rw [interrupt]
      split
      · exact hset
      · rfl
  · show r.interrupt.engine.cancelled = true
    rw [interrupt]
    split
    · rename_i result hreturned
      exact absurd hreturned (hrunning result)
    · rfl

/-! ## Cancellations that are kept -/

/-- A run that was cancelled and has returned says so. -/
def KeepsCancel (r : RunningEngine σ) : Prop :=
  ∀ result, r.point = .returned result → r.engine.cancelled = true →
    (∃ error, result = .error error) ∧ r.engine.state = .cancelled

/-- The move finds no cancellation that came after the last test of the flag. -/
def heeds : RunMove → RunningEngine σ → Bool
  | .advance, ⟨.top [], e⟩ => !e.cancelled
  | .advance, ⟨.ended _ (.error error), e⟩ =>
    error = .cancelled || e.options.continueOnWarning || !e.cancelled
  | .cancel, ⟨.leaving (.ok ()), _⟩ => false
  | _, _ => true

/-- A run that is about to return, or has returned, says that it was cancelled. -/
def SaysCancelled (r : RunningEngine σ) : Prop :=
  match r.point with
  | .leaving result | .returned result =>
    r.engine.cancelled = true → (∃ error, result = .error error) ∧ r.engine.state = .cancelled
  | _ => True

theorem finish_cancelled (e : WorkflowEngine σ) : e.finish.2.cancelled = e.cancelled := by
  rw [WorkflowEngine.finish]
  split <;> rfl

theorem saysCancelled_advance (h : SaysCancelled r) (hheeds : heeds .advance r = true) :
    SaysCancelled (advance w r) := by
  obtain ⟨point, e⟩ := r
  cases point with
  | top rest =>
    cases rest with
    | nil =>
      intro hcancelled
      have hset : e.cancelled = true := (finish_cancelled e).symm.trans hcancelled
      simp [heeds, hset] at hheeds
    | cons index rest =>
      rw [advance]
      simp only
      split
      · exact fun _ => ⟨⟨_, rfl⟩, rfl⟩
      · split
        · exact fun _ => ⟨⟨_, rfl⟩, rfl⟩
        · trivial
  | attempting index left rest =>
    cases left with
    | zero => trivial
    | succ left =>
      rw [advance]
      split <;> trivial
  | executing index left rest =>
    rw [advance]
    rcases WorkflowEngine.ask w.execute index e with ⟨error | _, e₁⟩
    · simp only
      split <;> trivial
    · trivial
  | recovering index left rest error =>
    rw [advance_recovering]
    split <;> trivial
  | ended rest result =>
    cases result with
    | ok => trivial
    | error error =>
      rw [advance]
      split
      · exact fun _ => ⟨⟨error, rfl⟩, rfl⟩
      · split
        · trivial
        · rename_i herror hcontinue
          intro hcancelled
          have hset : e.cancelled = true := hcancelled
          simp [heeds, herror, hcontinue, hset] at hheeds
  | leaving result => exact h
  | returned result => exact h

theorem saysCancelled_interrupt (h : SaysCancelled r) (hheeds : heeds .cancel r = true) :
    SaysCancelled r.interrupt := by
  obtain ⟨point, e⟩ := r
  cases point with
  | leaving result =>
    cases result with
    | ok => cases hheeds
    | error error => exact fun _ => ⟨⟨error, rfl⟩, rfl⟩
  | returned result => exact h
  | _ => trivial

/-- As long as no cancellation comes after the last test of the flag, every
cancellation is kept. -/
theorem run_keepsCancel (w : Surroundings σ) (e : WorkflowEngine σ) (moves : List RunMove)
    (hheeds : ∀ r ∈ CallRun.records (act w) moves (enter e), heeds r.call r.before = true) :
    ∀ r ∈ CallRun.records (act w) moves (enter e), KeepsCancel r.after := by
  have hsaid := (CallRun.records_invariant SaysCancelled (by
    intro r hr hbefore
    have hmove := hheeds r hr
    obtain ⟨_, move, _, -, rfl⟩ := CallRun.mem_records.mp hr
    cases move with
    | advance => exact saysCancelled_advance hbefore hmove
    | cancel => exact saysCancelled_interrupt hbefore hmove) (s := enter e) trivial).1
  intro r hr result hresult hcancelled
  have hafter := (hsaid r hr).2
  rw [SaysCancelled, hresult] at hafter
  exact hafter hcancelled

/-- Cancelled while the first of two steps executes. -/
def cancelledEarly : List RunMove :=
  [.advance, .advance, .cancel, .advance, .advance, .advance, .advance]

theorem run_keepsCancel_twoSteps :
    (CallRun.final (act (failingOnce 9)) cancelledEarly (enter (.create 0 2 {}))).engine.state
        = .cancelled ∧
      ∀ r ∈ CallRun.records (act (failingOnce 9)) cancelledEarly (enter (.create 0 2 {})),
        KeepsCancel r.after :=
  ⟨rfl, run_keepsCancel _ _ _ (by decide)⟩

/-- Cancelled while the only step executes, the run completes. -/
theorem run_cancelledLate :
    ¬ ∀ {σ : Type} (w : Surroundings σ) (e : WorkflowEngine σ) (moves : List RunMove),
        ∀ r ∈ CallRun.records (act w) moves (enter e), KeepsCancel r.after := by
  intro h
  have hkept := h (failingOnce 9) (.create 0 1 {}) cancelledEarly _
    (List.mem_of_getElem? (i := 6) rfl) (.ok ()) rfl rfl
  exact absurd hkept.2 (by decide)

end RunningEngine

end MBootCore.Workflow
