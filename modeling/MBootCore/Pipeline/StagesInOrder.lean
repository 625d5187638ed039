import MBootCore.Pipeline.BootPipeline

/-!
# Pipeline — StagesInOrder

What a run of the pipeline that returns Ok says about its handlers. At the
head of every round the stages before the current one are settled: the last
call of each one's handler succeeded, and since then only later stages ran.
A failure goes back to a stage that is not later, and so keeps that.
-/

namespace MBootCore

namespace BootPipeline

variable {W : Type}

/-! ## What the statements leave alone -/

/-- The part of a pipeline no statement but `invoke` and `countAttempt` touches. -/
structure Registry (W : Type) where
  handlers : PipelineStage → Option (StageHandler W)
  recoveryStrategy : Option (RecoveryStrategy W)
  recoveryAttempts : Nat
  invocations : List Invocation

def registry (p : BootPipeline W) : Registry W :=
  ⟨p.handlers, p.recoveryStrategy, p.recoveryAttempts, p.invocations⟩

open Program (Preserves)

theorem call_registry {α : Type} (code : Client W α) : Preserves registry (call code) :=
  fun _ => rfl

theorem setContext_registry (f : BootContext → BootContext) :
    Preserves registry (setContext (W := W) f) :=
  fun _ => rfl

theorem announce_registry (stage : PipelineStage) :
    Preserves registry (announce (W := W) stage) := by
  refine Preserves.bind (setContext_registry _) fun _ p => ?_
  rw [reportProgress, Program.run_bind_ok (Program.run_get p)]
  cases p.progressCb with
  | none => rfl
  | some progressCb => rfl

theorem enterStage_registry (stage : PipelineStage) :
    Preserves registry (enterStage (W := W) stage) :=
  Preserves.bind (setContext_registry _) fun _ => announce_registry stage

/-! ## What a step can do -/

/-- The stage of the next round after a stage that is done. -/
def following (stage : PipelineStage) : Option PipelineStage :=
  if nextStage stage = .ready ∨ nextStage stage = .error then none else some (nextStage stage)

theorem advance_ok {stage : PipelineStage} {p p' : BootPipeline W} {next : Option PipelineStage}
    (h : advance stage p = (.ok next, p')) :
    next = following stage ∧ p'.registry = p.registry := by
  rw [advance] at h
  rw [following]
  split at h
  · rename_i hlast
    obtain ⟨_, p₁, henter, hnext⟩ := Program.bind_eq_ok.mp h
    rw [Program.run_pure, Prod.mk.injEq, Except.ok.injEq] at hnext
    obtain ⟨rfl, rfl⟩ := hnext
    have hframe := enterStage_registry .ready p
    rw [henter] at hframe
    exact ⟨(if_pos hlast).symm, hframe⟩
  · rename_i hlast
    obtain ⟨_, p₁, henter, hnext⟩ := Program.bind_eq_ok.mp h
    rw [Program.run_pure, Prod.mk.injEq, Except.ok.injEq] at hnext
    obtain ⟨rfl, rfl⟩ := hnext
    have hframe := enterStage_registry (nextStage stage) p
    rw [henter] at hframe
    exact ⟨(if_neg hlast).symm, hframe⟩

/-- Where a recovery takes the pipeline. -/
def ResumesAt (p : BootPipeline W) (failed next : PipelineStage) : Prop :=
  next = failed ∨
    ∃ strategy, p.recoveryStrategy = some strategy ∧ next = strategy.rollbackTarget failed 2

/-- One more recovery attempt, and nothing else of the registry. -/
def Attempted (p p' : BootPipeline W) : Prop :=
  p'.registry = { p.registry with recoveryAttempts := p.recoveryAttempts + 1 }

theorem recover_ok {strategy : RecoveryStrategy W} {rc : RecoveryContext}
    {p p' : BootPipeline W} (h : recover strategy rc p = (.ok (), p')) :
    Attempted p p' ∧ (p'.context.currentStage = rc.failedStage ∨
      p'.context.currentStage = strategy.rollbackTarget rc.failedStage 2) := by
  obtain ⟨action, p₁, hdecide, hact⟩ := Program.bind_eq_ok.mp h
  have hframe := call_registry (strategy.decide rc) p
  rw [hdecide] at hframe
  have hattempts : p₁.recoveryAttempts = p.recoveryAttempts :=
    congrArg Registry.recoveryAttempts hframe
  cases action with
  | retry =>
    obtain rfl : p' = _ := (Prod.mk.inj hact).2.symm
    refine ⟨?_, .inl rfl⟩
    rw [Attempted, ← hframe, ← hattempts]
    rfl
  | restartStage =>
    obtain rfl : p' = _ := (Prod.mk.inj hact).2.symm
    refine ⟨?_, .inl rfl⟩
    rw [Attempted, ← hframe, ← hattempts]
    rfl
  | rollback =>
    obtain rfl : p' = _ := (Prod.mk.inj hact).2.symm
    refine ⟨?_, .inr rfl⟩
    rw [Attempted, ← hframe, ← hattempts]
    rfl
  | abort => cases (Prod.mk.inj hact).1

theorem performRecovery_ok {rc : RecoveryContext} {p p' : BootPipeline W}
    (h : performRecovery rc p = (.ok (), p')) :
    p.recoveryAttempts < kMaxRecoveryAttempts ∧ Attempted p p' ∧
      ResumesAt p rc.failedStage p'.context.currentStage := by
  rw [performRecovery, Program.run_bind_ok (Program.run_get p)] at h
  cases hstrategy : p.recoveryStrategy with
  | none =>
    rw [hstrategy] at h
    cases (Prod.mk.inj h).1
  | some strategy =>
    simp only [hstrategy] at h
    split at h
    · cases (Prod.mk.inj h).1
    · rename_i hattempts
      obtain ⟨hattempted, hstage⟩ := recover_ok h
      refine ⟨by omega, hattempted, ?_⟩
      rcases hstage with hstage | hstage
      · exact .inl hstage
      · exact .inr ⟨strategy, hstrategy, hstage⟩

theorem giveUp_ne_ok (stage : PipelineStage) (e : ErrorCode) (p p' : BootPipeline W) :
    giveUp stage e p ≠ (.ok (), p') := by
  intro h
  obtain ⟨_, _, _, hfail⟩ := Program.bind_eq_ok.mp h
  cases (Prod.mk.inj hfail).1

/-- A failure the pipeline goes on after. -/
theorem handleStageFailure_ok {stage : PipelineStage} {e : ErrorCode} {p p' : BootPipeline W}
    (h : handleStageFailure stage e p = (.ok (), p')) :
    p.recoveryAttempts < kMaxRecoveryAttempts ∧ Attempted p p' ∧
      ResumesAt p stage p'.context.currentStage := by
  obtain ⟨_, p₁, hset, h₁⟩ := Program.bind_eq_ok.mp h
  obtain rfl : p₁ = _ := (Prod.mk.inj hset).2.symm
  rw [Program.run_bind_ok (Program.run_get _)] at h₁
  split at h₁
  · exact absurd h₁ (giveUp_ne_ok _ _ _ _)
  split at h₁
  · exact absurd h₁ (giveUp_ne_ok _ _ _ _)
  obtain ⟨_, p₂, hcount, h₂⟩ := Program.bind_eq_ok.mp h₁
  obtain rfl : p₂ = _ := (Prod.mk.inj hcount).2.symm
  obtain ⟨outcome, p₃, hrecovery, h₃⟩ := Program.bind_eq_ok.mp h₂
  rw [Program.run_attempt, Prod.mk.injEq, Except.ok.injEq] at hrecovery
  obtain ⟨houtcome, rfl⟩ := hrecovery
  cases outcome with
  | error e' => exact absurd h₃ (giveUp_ne_ok _ _ _ _)
  | ok =>
    obtain rfl : p' = _ := (Prod.mk.inj h₃).2.symm
    exact performRecovery_ok (Prod.ext houtcome rfl)

theorem invoke_ok {stage : PipelineStage} {handler : StageHandler W} {p p' : BootPipeline W}
    {result : Except ErrorCode Unit} (h : invoke stage handler p = (.ok result, p')) :
    p'.registry = { p.registry with invocations := p.invocations ++ [⟨stage, result⟩] } := by
  obtain ⟨hresult, rfl⟩ := Prod.mk.inj h
  obtain rfl := Except.ok.inj hresult
  rfl

/-- The stage has no handler, or its handler succeeded. -/
inductive Passed (stage : PipelineStage) (p p' : BootPipeline W) : Prop where
  | skipped (hhandler : p.handlers stage = none) (hregistry : p'.registry = p.registry)
  | done (hregistry : p'.registry
      = { p.registry with invocations := p.invocations ++ [⟨stage, .ok ()⟩] })

/-- The stage's handler failed, and the pipeline resumes at `resumed`. -/
structure Recovered (stage resumed : PipelineStage) (p p' : BootPipeline W) : Prop where
  resumesAt : ResumesAt p stage resumed
  attempts_lt : p.recoveryAttempts < kMaxRecoveryAttempts
  registry_eq : ∃ e, p'.registry = { p.registry with
    recoveryAttempts := p.recoveryAttempts + 1
    invocations := p.invocations ++ [⟨stage, .error e⟩] }

/-- A round that does not end the run. -/
theorem stageRound_ok {stage : PipelineStage} {p p' : BootPipeline W}
    {next : Option PipelineStage} (h : stageRound stage p = (.ok next, p')) :
    next = following stage ∧ Passed stage p p' ∨
      ∃ resumed, next = some resumed ∧ Recovered stage resumed p p' := by
  rw [stageRound, Program.run_bind_ok (Program.run_get p)] at h
  split at h
  · obtain ⟨_, _, -, h₁⟩ := Program.bind_eq_ok.mp h
    obtain ⟨_, _, -, hfail⟩ := Program.bind_eq_ok.mp h₁
    cases (Prod.mk.inj hfail).1
  cases hhandler : p.handlers stage with
  | none =>
    simp only [hhandler] at h
    obtain ⟨hnext, hregistry⟩ := advance_ok h
    exact .inl ⟨hnext, .skipped hhandler hregistry⟩
  | some handler =>
    simp only [hhandler] at h
    obtain ⟨result, p₁, hinvoke, h₁⟩ := Program.bind_eq_ok.mp h
    have hinvoked := invoke_ok hinvoke
    cases result with
    | ok =>
      obtain ⟨_, p₂, hset, hadvance⟩ := Program.bind_eq_ok.mp h₁
      obtain rfl : p₂ = _ := (Prod.mk.inj hset).2.symm
      obtain ⟨hnext, hregistry⟩ := advance_ok hadvance
      exact .inl ⟨hnext, .done (hregistry.trans hinvoked)⟩
    | error e =>
      obtain ⟨_, p₂, hfailure, h₂⟩ := Program.bind_eq_ok.mp h₁
      obtain ⟨hattempts, hattempted, hresumed⟩ := handleStageFailure_ok hfailure
      rw [Program.run_bind_ok (Program.run_get p₂)] at h₂
      obtain ⟨_, p₃, hannounce, hnext⟩ := Program.bind_eq_ok.mp h₂
      rw [Program.run_pure, Prod.mk.injEq, Except.ok.injEq] at hnext
      obtain ⟨rfl, rfl⟩ := hnext
      have hframe := announce_registry p₂.context.currentStage p₂
      rw [hannounce] at hframe
      have hcount : p₁.recoveryAttempts = p.recoveryAttempts :=
        congrArg Registry.recoveryAttempts hinvoked
      have hstrategy : p₁.recoveryStrategy = p.recoveryStrategy :=
        congrArg Registry.recoveryStrategy hinvoked
      refine .inr ⟨_, rfl, ?_, by omega, e, ?_⟩
      · rw [ResumesAt, ← hstrategy]
        exact hresumed
      · rw [hframe, hattempted, hinvoked, hcount]

/-! ## The invariant -/

/-- Rollback targets are never later than the failed stage. -/
def RollsBack (p : BootPipeline W) : Prop :=
  ∀ strategy, p.recoveryStrategy = some strategy →
    ∀ stage, (strategy.rollbackTarget stage 2).number ≤ stage.number

/-- The last call of the stage's handler succeeded, and since then only later
stages ran. -/
def Settled (invocations : List Invocation) (stage : PipelineStage) : Prop :=
  ∃ earlier later, invocations = earlier ++ ⟨stage, .ok ()⟩ :: later ∧
    ∀ i ∈ later, stage.number < i.stage.number

theorem Settled.append {invocations : List Invocation} {stage : PipelineStage}
    (h : Settled invocations stage) {i : Invocation} (hi : stage.number < i.stage.number) :
    Settled (invocations ++ [i]) stage := by
  obtain ⟨earlier, later, rfl, hlater⟩ := h
  refine ⟨earlier, later ++ [i], by simp, ?_⟩
  intro j hj
  rw [List.mem_append, List.mem_singleton] at hj
  rcases hj with hj | rfl
  · exact hlater j hj
  · exact hi

theorem Settled.last (invocations : List Invocation) (stage : PipelineStage) :
    Settled (invocations ++ [⟨stage, .ok ()⟩]) stage :=
  ⟨invocations, [], rfl, by simp⟩

/-- The stages between Disconnected and Ready. -/
def IsWorking (stage : PipelineStage) : Prop :=
  1 ≤ stage.number ∧ stage.number ≤ 11

def Invoked (invocations : List Invocation) (stage : PipelineStage) : Prop :=
  ∃ i ∈ invocations, i.stage = stage

/-- The stages a run that returned Ok owes a success. -/
def Owed (handlers : PipelineStage → Option (StageHandler W)) (invocations : List Invocation)
    (stage : PipelineStage) : Prop :=
  (handlers stage).isSome = true ∧ (IsWorking stage ∨ Invoked invocations stage)

/-- At the head of a round. -/
structure InOrder (handlers : PipelineStage → Option (StageHandler W))
    (l : PipelineStage × BootPipeline W) : Prop where
  handlers_eq : l.2.handlers = handlers
  rollsBack : l.2.RollsBack
  stage_le : l.1.number ≤ 11
  invoked_le : ∀ i ∈ l.2.invocations, i.stage.number ≤ 11
  settled : ∀ stage, stage.number < l.1.number → Owed handlers l.2.invocations stage →
    Settled l.2.invocations stage

theorem following_some {stage next : PipelineStage} (hstage : stage.number ≤ 11)
    (h : following stage = some next) : next.number = stage.number + 1 ∧ next.number ≤ 11 := by
  cases stage <;> first
    | exact absurd hstage (by decide)
    | cases h
      decide
    | cases h

theorem following_none {stage : PipelineStage} (hstage : stage.number ≤ 11)
    (h : following stage = none) : stage.number = 11 := by
  cases stage <;> first
    | exact absurd hstage (by decide)
    | rfl
    | cases h

namespace InOrder

variable {handlers : PipelineStage → Option (StageHandler W)} {stage : PipelineStage}
  {p p' : BootPipeline W}

/-- A call of the current stage's handler does not unsettle the earlier ones. -/
theorem settled_append (h : InOrder handlers (stage, p)) (result : Except ErrorCode Unit)
    {s : PipelineStage} (hs : s.number < stage.number)
    (howed : Owed handlers (p.invocations ++ [⟨stage, result⟩]) s) :
    Settled (p.invocations ++ [⟨stage, result⟩]) s := by
  obtain ⟨hhandler, hwhy⟩ := howed
  refine Settled.append (h.settled s hs ⟨hhandler, ?_⟩) hs
  rcases hwhy with hworking | ⟨i, hi, rfl⟩
  · exact .inl hworking
  · rw [List.mem_append, List.mem_singleton] at hi
    rcases hi with hi | rfl
    · exact .inr ⟨i, hi, rfl⟩
    · exact absurd hs (Nat.lt_irrefl _)

/-- A stage without a handler owes nothing, and one whose handler just
succeeded is settled. -/
theorem settled_passed (h : InOrder handlers (stage, p)) (hpassed : Passed stage p p')
    {s : PipelineStage} (hs : s.number ≤ stage.number) (howed : Owed handlers p'.invocations s) :
    Settled p'.invocations s := by
  cases hpassed with
  | skipped hhandler hregistry =>
    have hlog : p'.invocations = p.invocations := congrArg Registry.invocations hregistry
    rw [hlog] at howed ⊢
    rcases Nat.lt_or_eq_of_le hs with hlt | heq
    · exact h.settled s hlt howed
    · obtain rfl := PipelineStage.number_injective heq
      have hsome := howed.1
      rw [← h.handlers_eq, hhandler] at hsome
      cases hsome
  | done hregistry =>
    have hlog : p'.invocations = p.invocations ++ [⟨stage, .ok ()⟩] :=
      congrArg Registry.invocations hregistry
    rw [hlog] at howed ⊢
    rcases Nat.lt_or_eq_of_le hs with hlt | heq
    · exact h.settled_append _ hlt howed
    · obtain rfl := PipelineStage.number_injective heq
      exact Settled.last _ _

theorem invoked_le_append (h : InOrder handlers (stage, p)) (result : Except ErrorCode Unit) :
    ∀ i ∈ p.invocations ++ [⟨stage, result⟩], i.stage.number ≤ 11 := by
  intro i hi
  rw [List.mem_append, List.mem_singleton] at hi
  rcases hi with hi | rfl
  · exact h.invoked_le i hi
  · exact h.stage_le

theorem invoked_le_passed (h : InOrder handlers (stage, p)) (hpassed : Passed stage p p') :
    ∀ i ∈ p'.invocations, i.stage.number ≤ 11 := by
  cases hpassed with
  | skipped hhandler hregistry =>
    rw [show p'.invocations = p.invocations from congrArg Registry.invocations hregistry]
    exact h.invoked_le
  | done hregistry =>
    rw [show p'.invocations = p.invocations ++ [⟨stage, .ok ()⟩] from
      congrArg Registry.invocations hregistry]
    exact h.invoked_le_append _

/-- The next stage after one that passed. -/
theorem passed (h : InOrder handlers (stage, p)) (hpassed : Passed stage p p')
    {next : PipelineStage} (hnext : following stage = some next) :
    InOrder handlers (next, p') := by
  obtain ⟨hsucc, hle⟩ : next.number = stage.number + 1 ∧ next.number ≤ 11 :=
    following_some h.stage_le hnext
  obtain ⟨hhandlers, hstrategy⟩ : p'.handlers = p.handlers ∧
      p'.recoveryStrategy = p.recoveryStrategy := by
    cases hpassed with
    | skipped hhandler hregistry =>
      exact ⟨congrArg Registry.handlers hregistry, congrArg Registry.recoveryStrategy hregistry⟩
    | done hregistry =>
      exact ⟨congrArg Registry.handlers hregistry, congrArg Registry.recoveryStrategy hregistry⟩
  exact
    { handlers_eq := hhandlers.trans h.handlers_eq
      rollsBack := fun strategy hs => h.rollsBack strategy (hstrategy.symm.trans hs)
      stage_le := hle
      invoked_le := h.invoked_le_passed hpassed
      settled := by
        intro s hs howed
        exact h.settled_passed hpassed (Nat.le_of_lt_succ (Nat.lt_of_lt_of_eq hs hsucc)) howed }

/-- The stage a recovery resumes at. -/
theorem recovered (h : InOrder handlers (stage, p)) {resumed : PipelineStage}
    (hrecovered : Recovered stage resumed p p') : InOrder handlers (resumed, p') := by
  obtain ⟨hresumed, -, e, hregistry⟩ := hrecovered
  have hback : resumed.number ≤ stage.number := by
    rcases hresumed with rfl | ⟨strategy, hstrategy, rfl⟩
    · exact Nat.le_refl _
    · exact h.rollsBack strategy hstrategy stage
  have hstrategy : p'.recoveryStrategy = p.recoveryStrategy :=
    congrArg Registry.recoveryStrategy hregistry
  have hlog : p'.invocations = p.invocations ++ [⟨stage, .error e⟩] :=
    congrArg Registry.invocations hregistry
  exact
    { handlers_eq := (congrArg Registry.handlers hregistry).trans h.handlers_eq
      rollsBack := fun strategy hs => h.rollsBack strategy (hstrategy.symm.trans hs)
      stage_le := Nat.le_trans hback h.stage_le
      invoked_le := by
        rw [hlog]
        exact h.invoked_le_append _
      settled := by
        intro s hs howed
        rw [hlog] at howed ⊢
        exact h.settled_append _ (Nat.lt_of_lt_of_le hs hback) howed }

end InOrder

/-! ## The loop -/

theorem loopRound_continue {l l' : PipelineStage × BootPipeline W}
    (h : loopRound l = (.ok true, l')) : stageRound l.1 l.2 = (.ok (some l'.1), l'.2) := by
  rw [loopRound] at h
  rcases hround : stageRound l.1 l.2 with ⟨e | _ | next, p⟩
  · simp [hround] at h
  · simp [hround] at h
  · simp only [hround, Prod.mk.injEq, true_and] at h
    rw [← h]

theorem loopRound_break {l l' : PipelineStage × BootPipeline W}
    (h : loopRound l = (.ok false, l')) : stageRound l.1 l.2 = (.ok none, l'.2) := by
  rw [loopRound] at h
  rcases hround : stageRound l.1 l.2 with ⟨e | _ | next, p⟩
  · simp [hround] at h
  · simp only [hround, Prod.mk.injEq, true_and] at h
    rw [← h]
  · simp [hround] at h

theorem InOrder.loopRound {handlers : PipelineStage → Option (StageHandler W)}
    {l l' : PipelineStage × BootPipeline W} (h : InOrder handlers l)
    (hround : loopRound l = (.ok true, l')) : InOrder handlers l' := by
  rcases stageRound_ok (loopRound_continue hround) with ⟨hnext, hpassed⟩ | ⟨resumed, hnext, hrec⟩
  · exact h.passed hpassed hnext.symm
  · obtain rfl := Option.some.inj hnext
    exact h.recovered hrec

/-- What the rounds left: one for each stage, and all of them again for each
recovery attempt. -/
def roundsLeft (l : PipelineStage × BootPipeline W) : Nat :=
  (kMaxRecoveryAttempts - l.2.recoveryAttempts) * 15 + (15 - l.1.number)

theorem following_number {stage next : PipelineStage} (h : following stage = some next) :
    next.number = stage.number + 1 := by
  cases stage <;> first
    | cases h
      decide
    | cases h

theorem roundsLeft_loopRound {l l' : PipelineStage × BootPipeline W}
    (h : loopRound l = (.ok true, l')) : roundsLeft l' < roundsLeft l := by
  have hlt := l.1.number_lt
  have hlt' := l'.1.number_lt
  rcases stageRound_ok (loopRound_continue h) with ⟨hnext, hpassed⟩ | ⟨resumed, hnext, hrec⟩
  · have hnumber := following_number hnext.symm
    have hattempts : l'.2.recoveryAttempts = l.2.recoveryAttempts := by
      cases hpassed with
      | skipped hhandler hregistry => exact congrArg Registry.recoveryAttempts hregistry
      | done hregistry => exact congrArg Registry.recoveryAttempts hregistry
    rw [roundsLeft, roundsLeft, hattempts]
    omega
  · obtain ⟨e, hregistry⟩ := hrec.registry_eq
    have hattempts : l'.2.recoveryAttempts = l.2.recoveryAttempts + 1 :=
      congrArg Registry.recoveryAttempts hregistry
    have hmax := hrec.attempts_lt
    rw [roundsLeft, roundsLeft, hattempts]
    omega

/-- The rounds `executeStage` allows for are more than the loop makes. -/
theorem loopRound_ends (stage : PipelineStage) (p : BootPipeline W) :
    Program.EndsWithin loopRound 91 (stage, p) := by
  refine Program.endsWithin_of_measure roundsLeft (fun _ _ => roundsLeft_loopRound) ?_
  simp only [roundsLeft, kMaxRecoveryAttempts]
  omega

/-- A loop that is left has settled every stage. -/
theorem stageLoop_ok {handlers : PipelineStage → Option (StageHandler W)} {fuel : Nat}
    {stage : PipelineStage} {p p' : BootPipeline W} (h : InOrder handlers (stage, p))
    (hloop : stageLoop fuel stage p = (.ok (), p')) {s : PipelineStage}
    (howed : Owed handlers p'.invocations s) : Settled p'.invocations s := by
  obtain ⟨hok, rfl⟩ := Prod.mk.inj hloop
  obtain ⟨l, hl, hbreak⟩ := Program.repeatWhile_ok (InOrder handlers)
    (fun _ _ hl hround => hl.loopRound hround) h (Prod.ext hok rfl)
  rcases stageRound_ok (loopRound_break hbreak) with ⟨hnext, hpassed⟩ | ⟨resumed, hnext, -⟩
  · have hlast := following_none hl.stage_le hnext.symm
    refine hl.settled_passed hpassed ?_ howed
    rw [hlast]
    rcases howed.2 with hworking | ⟨i, hi, rfl⟩
    · exact hworking.2
    · exact hl.invoked_le_passed hpassed i hi
  · cases hnext

/-! ## Runs -/

/-- The pipeline as `run` hands it to `executeStage`. -/
def started (p : BootPipeline W) : BootPipeline W :=
  { p with
    running := true
    cancelled := false
    recoveryAttempts := 0
    context := { p.context with currentStage := .disconnected, lastError := .success }
    invocations := [] }

theorem run_ok {p p' : BootPipeline W} (h : run p = (.ok (), p')) :
    ∃ p₁, executeStage .connected p.started = (.ok (), p₁) ∧ p'.registry = p₁.registry := by
  rw [run, Program.run_bind_ok (Program.run_get p)] at h
  split at h
  · cases (Prod.mk.inj h).1
  split at h
  · obtain ⟨_, _, -, h₁⟩ := Program.bind_eq_ok.mp h
    obtain ⟨_, _, -, hfail⟩ := Program.bind_eq_ok.mp h₁
    cases (Prod.mk.inj hfail).1
  obtain ⟨_, p₁, hstart, h₁⟩ := Program.bind_eq_ok.mp h
  obtain rfl : p₁ = p.started := (Prod.mk.inj hstart).2.symm
  obtain ⟨outcome, p₂, hexecute, h₂⟩ := Program.bind_eq_ok.mp h₁
  rw [Program.run_attempt, Prod.mk.injEq, Except.ok.injEq] at hexecute
  obtain ⟨houtcome, rfl⟩ := hexecute
  cases outcome with
  | error e =>
    obtain ⟨_, _, -, hfail⟩ := Program.bind_eq_ok.mp h₂
    cases (Prod.mk.inj hfail).1
  | ok =>
    refine ⟨_, Prod.ext houtcome rfl, ?_⟩
    obtain ⟨_, p₃, hstop, h₃⟩ := Program.bind_eq_ok.mp h₂
    obtain rfl : p₃ = _ := (Prod.mk.inj hstop).2.symm
    rw [Program.run_bind_ok (Program.run_get _)] at h₃
    split at h₃
    · obtain rfl : p' = _ := (Prod.mk.inj h₃).2.symm
      rfl
    · cases (Prod.mk.inj h₃).1

/-- The first round: nothing ran yet, and only Disconnected comes before. -/
theorem InOrder.start {p : BootPipeline W} (hback : p.RollsBack) {p₁ : BootPipeline W}
    (hregistry : p₁.registry = p.started.registry) : InOrder p.handlers (.connected, p₁) := by
  have hstrategy : p₁.recoveryStrategy = p.recoveryStrategy :=
    congrArg Registry.recoveryStrategy hregistry
  have hlog : p₁.invocations = [] := congrArg Registry.invocations hregistry
  refine
    { handlers_eq := congrArg Registry.handlers hregistry
      rollsBack := fun strategy hs => hback strategy (hstrategy.symm.trans hs)
      stage_le := show PipelineStage.connected.number ≤ 11 by decide
      invoked_le := by simp [hlog]
      settled := ?_ }
  rintro stage hstage ⟨-, hworking | ⟨i, hi, -⟩⟩
  · exact absurd hstage (Nat.not_lt_of_le hworking.1)
  · rw [hlog] at hi
    cases hi

/-- In a run that returns Ok, the last call of the handler of every working
stage, and of every other stage that ran, succeeded, and only later stages ran
since. -/
theorem run_settles (p : BootPipeline W) (hback : p.RollsBack) (hok : (run p).1.isOk = true) :
    ∀ stage, Owed p.handlers (run p).2.invocations stage →
      Settled (run p).2.invocations stage := by
  intro stage howed
  obtain ⟨⟨⟩, hrun⟩ := Program.eq_ok_of_isOk hok
  obtain ⟨p₁, hexecute, hregistry⟩ := run_ok hrun
  have hlog : (run p).2.invocations = p₁.invocations := congrArg Registry.invocations hregistry
  obtain ⟨_, p₂, henter, hloop⟩ := Program.bind_eq_ok.mp hexecute
  have hframe := enterStage_registry .connected p.started
  rw [henter] at hframe
  rw [hlog] at howed ⊢
  exact stageLoop_ok (InOrder.start hback hframe) hloop howed

/-- A handler that succeeds. -/
def succeeding : StageHandler Unit := fun context _ => ((.ok (), context), (), false)

/-- A pipeline whose one handler is that of a stage. -/
def withHandler (stage : PipelineStage) : BootPipeline Unit where
  world := ()
  handlers s := if s = stage then some succeeding else none

theorem withHandler_rollsBack (stage : PipelineStage) : (withHandler stage).RollsBack := by
  intro strategy hstrategy
  obtain rfl := Option.some.inj hstrategy
  exact RecoveryStrategy.rollbackTarget_number_le _ rfl

theorem run_settles_connected :
    Settled (run (withHandler .connected)).2.invocations .connected :=
  run_settles (withHandler .connected) (withHandler_rollsBack .connected) (by decide +kernel)
    .connected ⟨by decide, .inl ⟨by decide, by decide⟩⟩

/-- A handler for Ready is never called. -/
theorem run_skips_ready :
    ¬ ∀ (W : Type) (p : BootPipeline W), p.RollsBack → (run p).1.isOk = true →
      ∀ stage, (p.handlers stage).isSome = true → Settled (run p).2.invocations stage := by
  intro hall
  obtain ⟨earlier, later, hlog, -⟩ := hall Unit (withHandler .ready)
    (withHandler_rollsBack .ready) (by decide +kernel) .ready (by decide)
  have hnone : (run (withHandler .ready)).2.invocations.isEmpty = true := by decide +kernel
  rw [hlog] at hnone
  simp at hnone

end BootPipeline

end MBootCore
