import MBootCore.Pipeline.StagesInOrder

/-!
# Pipeline — BoundedWork

How many handler calls a run can make. Going on, a stage is called once; only a recovery
goes back, and there are at most `kMaxRecoveryAttempts` of them. So what is left to call
is bounded by a pass over the stages for each recovery left, and the rest of this one.
-/

namespace MBootCore

namespace BootPipeline

open Program (Preserves)

variable {W : Type}

/-! ## The calls of a round -/

/-- What keeps the registry keeps the log of the calls. -/
theorem invocations_of_registry {α : Type} {m : Method W α} (h : Preserves registry m) :
    Preserves invocations m :=
  fun p => congrArg Registry.invocations (h p)

theorem announce_invocations (stage : PipelineStage) :
    Preserves invocations (announce (W := W) stage) :=
  invocations_of_registry (announce_registry stage)

theorem giveUp_invocations (stage : PipelineStage) (e : ErrorCode) :
    Preserves invocations (giveUp (W := W) stage e) :=
  Preserves.bind (announce_invocations stage) fun _ => Preserves.fail e

theorem advance_invocations (stage : PipelineStage) :
    Preserves invocations (advance (W := W) stage) := by
  rw [advance]
  by_cases hlast : nextStage stage = .ready ∨ nextStage stage = .error
  · rw [if_pos hlast]
    exact Preserves.bind (invocations_of_registry (enterStage_registry _)) fun _ =>
      Preserves.pure none
  · rw [if_neg hlast]
    exact Preserves.bind (invocations_of_registry (enterStage_registry _)) fun _ =>
      Preserves.pure _

theorem recover_invocations (strategy : RecoveryStrategy W) (rc : RecoveryContext) :
    Preserves invocations (recover strategy rc) := by
  refine Preserves.bind (fun _ => rfl) fun action => ?_
  cases action with
  | retry => exact fun _ => rfl
  | restartStage => exact fun _ => rfl
  | rollback => exact fun _ => rfl
  | abort => exact fun _ => rfl

theorem performRecovery_invocations (rc : RecoveryContext) :
    Preserves invocations (performRecovery (W := W) rc) := by
  refine Preserves.bind (fun _ => rfl) fun p => ?_
  cases p.recoveryStrategy with
  | none => exact Preserves.fail _
  | some strategy =>
    by_cases hspent : p.recoveryAttempts ≥ kMaxRecoveryAttempts
    · simp only [if_pos hspent]
      exact Preserves.fail _
    · simp only [if_neg hspent]
      exact recover_invocations strategy rc

theorem handleStageFailure_invocations (stage : PipelineStage) (e : ErrorCode) :
    Preserves invocations (handleStageFailure (W := W) stage e) := by
  refine Preserves.bind (fun _ => rfl) fun _ => Preserves.bind (fun _ => rfl) fun p => ?_
  by_cases hcancelled : e = .cancelled
  · rw [if_pos hcancelled]
    exact giveUp_invocations _ e
  rw [if_neg hcancelled]
  by_cases hrecovery : p.enableRecovery = false
  · rw [if_pos hrecovery]
    exact giveUp_invocations _ e
  rw [if_neg hrecovery]
  refine Preserves.bind (fun _ => rfl) fun _ => ?_
  refine Preserves.bind (Preserves.attempt (performRecovery_invocations _)) fun outcome => ?_
  cases outcome with
  | error e' => exact giveUp_invocations _ e'
  | ok => exact Preserves.pure ()

/-- A round calls one handler at most, whatever comes of it. -/
theorem stageRound_invocations (stage : PipelineStage) (p : BootPipeline W) :
    (stageRound stage p).2.invocations.length ≤ p.invocations.length + 1 := by
  rw [stageRound, Program.run_bind_ok (Program.run_get p)]
  cases p.cancelled with
  | true =>
    have hkept : Preserves invocations (do
        becomeCancelled
        announce .cancelled
        Program.fail .cancelled : Method W (Option PipelineStage)) :=
      Preserves.bind (fun _ => rfl) fun _ => Preserves.bind (announce_invocations _) fun _ =>
        Preserves.fail _
    rw [if_pos rfl, hkept p]
    exact Nat.le_succ _
  | false =>
    rw [if_neg (by decide)]
    cases p.handlers stage with
    | none =>
      have hkept := advance_invocations stage p
      simp only [hkept]
      exact Nat.le_succ _
    | some handler =>
      rcases hinvoke : invoke stage handler p with ⟨e | result, p₁⟩
      · cases hinvoke
      · have hlog : p₁.invocations = p.invocations ++ [⟨stage, result⟩] :=
          congrArg Registry.invocations (invoke_ok hinvoke)
        have hlength : p₁.invocations.length = p.invocations.length + 1 := by
          rw [hlog, List.length_append, List.length_singleton]
        simp only [Program.run_bind_ok hinvoke]
        rw [← hlength]
        cases result with
        | ok =>
          have hkept : Preserves invocations (do
              setContext fun context => { context with previousStage := stage }
              advance stage : Method W (Option PipelineStage)) :=
            Preserves.bind (fun _ => rfl) fun _ => advance_invocations stage
          exact Nat.le_of_eq (congrArg List.length (hkept p₁))
        | error e =>
          have hkept : Preserves invocations (do
              handleStageFailure stage e
              let p ← Program.get
              announce p.context.currentStage
              pure (some p.context.currentStage) : Method W (Option PipelineStage)) :=
            Preserves.bind (handleStageFailure_invocations stage e) fun _ =>
              Preserves.bind (fun _ => rfl) fun p =>
                Preserves.bind (announce_invocations _) fun _ => Preserves.pure _
          exact Nat.le_of_eq (congrArg List.length (hkept p₁))

/-! ## The calls of a run -/

/-- The stages of a pass that begins with this one; Ready and what is outside the order
are passes of their own. -/
def passLength (stage : PipelineStage) : Nat := max 1 (kStageOrder.length - stage.number)

/-- What the calls left are at most. -/
def callsLeft (l : PipelineStage × BootPipeline W) : Nat :=
  (kMaxRecoveryAttempts - l.2.recoveryAttempts) * kStageOrder.length + passLength l.1

/-- At the head of a round: the calls made and those left stay within a pass for each
recovery and one more. -/
def WithinBudget (l : PipelineStage × BootPipeline W) : Prop :=
  l.2.invocations.length + callsLeft l ≤ (kMaxRecoveryAttempts + 1) * kStageOrder.length

theorem passLength_pos (stage : PipelineStage) : 0 < passLength stage :=
  Nat.lt_of_lt_of_le Nat.one_pos (Nat.le_max_left _ _)

theorem passLength_le (stage : PipelineStage) : passLength stage ≤ kStageOrder.length := by
  cases stage <;> decide

theorem passLength_following {stage next : PipelineStage} (h : following stage = some next) :
    passLength next + 1 = passLength stage := by
  cases stage <;> first
    | cases h
      decide
    | cases h

theorem WithinBudget.loopRound {l l' : PipelineStage × BootPipeline W} (h : WithinBudget l)
    (hround : loopRound l = (.ok true, l')) : WithinBudget l' := by
  unfold WithinBudget callsLeft at h ⊢
  rcases stageRound_ok (loopRound_continue hround) with ⟨hnext, hpassed⟩ | ⟨resumed, hnext, hrec⟩
  · have hpass := passLength_following hnext.symm
    cases hpassed with
    | skipped hhandler hregistry =>
      have hattempts : l'.2.recoveryAttempts = l.2.recoveryAttempts :=
        congrArg Registry.recoveryAttempts hregistry
      have hlog : l'.2.invocations = l.2.invocations := congrArg Registry.invocations hregistry
      rw [hattempts, hlog]
      omega
    | done hregistry =>
      have hattempts : l'.2.recoveryAttempts = l.2.recoveryAttempts :=
        congrArg Registry.recoveryAttempts hregistry
      have hlog : l'.2.invocations = l.2.invocations ++ [⟨l.1, .ok ()⟩] :=
        congrArg Registry.invocations hregistry
      rw [hattempts, hlog, List.length_append, List.length_singleton]
      omega
  · obtain ⟨e, hregistry⟩ := hrec.registry_eq
    have hattempts : l'.2.recoveryAttempts = l.2.recoveryAttempts + 1 :=
      congrArg Registry.recoveryAttempts hregistry
    have hlog : l'.2.invocations = l.2.invocations ++ [⟨l.1, .error e⟩] :=
      congrArg Registry.invocations hregistry
    have hmax := hrec.attempts_lt
    have hpass := passLength_pos l.1
    have hpass' := passLength_le l'.1
    -- a recovery pays for the whole pass it may begin
    have hpaid : (kMaxRecoveryAttempts - l.2.recoveryAttempts) * kStageOrder.length
        = (kMaxRecoveryAttempts - (l.2.recoveryAttempts + 1)) * kStageOrder.length
          + kStageOrder.length := by
      rw [← Nat.succ_mul]
      congr 1
      omega
    rw [hattempts, hlog, List.length_append, List.length_singleton]
    omega

/-- The loop, however it ends. -/
theorem stageLoop_bounded {stage : PipelineStage} {p : BootPipeline W}
    (h : WithinBudget (stage, p)) (fuel : Nat) :
    (stageLoop fuel stage p).2.invocations.length
      ≤ (kMaxRecoveryAttempts + 1) * kStageOrder.length := by
  refine Program.repeatWhile_final WithinBudget
    (fun l : PipelineStage × BootPipeline W =>
      l.2.invocations.length ≤ (kMaxRecoveryAttempts + 1) * kStageOrder.length)
    (fun _ _ hl hround => hl.loopRound hround) ?_ ?_ h fuel
  · rintro ⟨stage, p⟩ hl
    have hpass := passLength_pos stage
    have hround := stageRound_invocations stage p
    unfold WithinBudget callsLeft at hl
    rw [loopRound]
    rcases hrun : stageRound stage p with ⟨e | _ | next, p'⟩ <;>
    · rw [hrun] at hround
      simp only at hl hround ⊢
      omega
  · rintro l hl
    unfold WithinBudget at hl
    omega

theorem executeStage_bounded (p : BootPipeline W) :
    (executeStage .connected p.started).2.invocations.length
      ≤ (kMaxRecoveryAttempts + 1) * kStageOrder.length := by
  have hregistry := enterStage_registry .connected p.started
  rcases henter : enterStage .connected p.started with ⟨e | ⟨⟩, p₁⟩
  · have hlog := invocations_of_registry (enterStage_registry .connected) p.started
    rw [henter] at hlog
    have hnone : p₁.invocations = [] := hlog
    rw [executeStage, Program.run_bind_error henter]
    simp only [hnone]
    exact Nat.zero_le _
  · rw [henter] at hregistry
    rw [executeStage, Program.run_bind_ok henter]
    refine stageLoop_bounded ?_ 91
    have hlog : p₁.invocations = [] := congrArg Registry.invocations hregistry
    have hattempts : p₁.recoveryAttempts = 0 := congrArg Registry.recoveryAttempts hregistry
    simp only [WithinBudget, callsLeft, hlog, hattempts]
    decide

/-- What `run` makes of the stages' outcome. -/
def finish (r : Except ErrorCode Unit × BootPipeline W) :
    Except ErrorCode Unit × BootPipeline W :=
  (match r.1 with
    | .error e => .error e
    | .ok () =>
      if r.2.context.currentStage = .ready then .ok () else .error r.2.context.lastError,
    { r.2 with running := false })

theorem run_running {p : BootPipeline W} (h : p.running = true) :
    run p = (.error .alreadyExists, p) := by
  rw [run, Program.run_bind_ok (Program.run_get p), if_pos h]
  rfl

theorem run_cancelled {p : BootPipeline W} (hrunning : p.running = false)
    (h : p.cancelled = true) : run p = (do
      becomeCancelled
      announce .cancelled
      Program.fail .cancelled : Method W Unit) p := by
  rw [run, Program.run_bind_ok (Program.run_get p), if_neg (by rw [hrunning]; decide), if_pos h]

/-- A cancelled pipeline makes no calls. -/
theorem cancelled_invocations : Preserves (invocations (W := W)) (do
    becomeCancelled
    announce .cancelled
    Program.fail .cancelled : Method W Unit) :=
  Preserves.bind (fun _ => rfl) fun _ => Preserves.bind (announce_invocations _) fun _ =>
    Preserves.fail _

/-- A pipeline that is cancelled before it runs ends cancelled, without a call. -/
theorem cancel_run {p : BootPipeline W} (hrunning : p.running = false) :
    ((cancel >>= fun _ => run : Method W Unit) p).1 = .error .cancelled ∧
      ((cancel >>= fun _ => run : Method W Unit) p).2.invocations = p.invocations := by
  obtain ⟨q, hcancel, hq, hcancelled, hlog⟩ : ∃ q, cancel p = (.ok (), q) ∧ q.running = false ∧
      q.cancelled = true ∧ q.invocations = p.invocations := by
    rw [cancel]
    simp only [Program.run_bind, Program.run_modify, Program.run_get]
    cases p.cancelTransport with
    | none => exact ⟨_, rfl, hrunning, rfl, rfl⟩
    | some cancelTransport => exact ⟨_, rfl, hrunning, rfl, rfl⟩
  rw [Program.run_bind_ok hcancel, run_cancelled hq hcancelled, ← hlog]
  refine ⟨?_, cancelled_invocations q⟩
  have hbecome : becomeCancelled q = (.ok (), (becomeCancelled q).2) := rfl
  have hannounce : announce .cancelled (becomeCancelled q).2
      = (.ok (), (announce .cancelled (becomeCancelled q).2).2) := by
    rw [announce, reportProgress]
    simp only [Program.run_bind, updateProgress, setContext, Program.run_modify, Program.run_get]
    cases (becomeCancelled q).2.progressCb <;> rfl
  rw [Program.run_bind_ok hbecome, Program.run_bind_ok hannounce, Program.run_fail]

theorem run_free {p : BootPipeline W} (hrunning : p.running = false)
    (h : p.cancelled = false) : run p = finish (executeStage .connected p.started) := by
  rw [run, Program.run_bind_ok (Program.run_get p), if_neg (by rw [hrunning]; decide),
    if_neg (by rw [h]; decide)]
  have hstarted : (Program.modify fun p : BootPipeline W => { p with
      running := true
      cancelled := false
      recoveryAttempts := 0
      context := { p.context with currentStage := .disconnected, lastError := .success }
      invocations := [] } : Method W Unit) p = (.ok (), p.started) := rfl
  rw [Program.run_bind_ok hstarted, Program.run_bind_ok (Program.run_attempt _ _)]
  rcases executeStage .connected p.started with ⟨e | ⟨⟩, p₁⟩
  · rfl
  · simp only [finish, Program.run_bind, Program.run_modify, Program.run_get]
    by_cases hready : p₁.context.currentStage = .ready
    · rw [if_pos hready, if_pos hready]
      rfl
    · rw [if_neg hready, if_neg hready]
      rfl

theorem run_calls {p : BootPipeline W} (hlog : p.invocations = []) :
    (run p).2.invocations.length ≤ (kMaxRecoveryAttempts + 1) * kStageOrder.length := by
  cases hrunning : p.running with
  | true =>
    rw [run_running hrunning, hlog]
    exact Nat.zero_le _
  | false =>
    cases hcancelled : p.cancelled with
    | true =>
      rw [run_cancelled hrunning hcancelled, cancelled_invocations p, hlog]
      exact Nat.zero_le _
    | false =>
      rw [run_free hrunning hcancelled]
      exact executeStage_bounded p

/-- Any run of any pipeline, with the log cleared before it: the calls of its handlers are
bounded, its loop ends within the rounds it allows for, and more of them change nothing. -/
theorem run_bounded (p : BootPipeline W) :
    (run { p with invocations := [] }).2.invocations.length
        ≤ (kMaxRecoveryAttempts + 1) * kStageOrder.length ∧
      (∀ stage (q : BootPipeline W), Program.EndsWithin loopRound 91 (stage, q)) ∧
      ∀ stage (q : BootPipeline W) (more : Nat),
        stageLoop (91 + more) stage q = stageLoop 91 stage q := by
  refine ⟨run_calls rfl, loopRound_ends, fun stage q more => ?_⟩
  rw [stageLoop, stageLoop, (loopRound_ends stage q).repeatWhile_add]

end BootPipeline

end MBootCore
