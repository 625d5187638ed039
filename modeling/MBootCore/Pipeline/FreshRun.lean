import MBootCore.Pipeline.BoundedWork

/-!
# Pipeline — FreshRun

Whether a pipeline that has run before behaves like a new one. Two pipelines with the same
client code are run side by side; the code is given the context of its pipeline but does
not look at it. What a run begins with anew is the same for both, and of what it does not
begin anew only the retry counts of the stages are ever looked at, by the recovery.
-/

namespace MBootCore

namespace BootPipeline

open Program (Preserves)

variable {W : Type} {α β : Type}

/-! ## Side by side -/

/-- The pipeline's handlers and its callback answer alike whatever the context is. -/
structure Blind (p : BootPipeline W) : Prop where
  handlers : ∀ stage handler, p.handlers stage = some handler → ∀ context context' world,
    (handler context world).1.1 = (handler context' world).1.1 ∧
      (handler context world).2 = (handler context' world).2
  progress : ∀ progressCb, p.progressCb = some progressCb → ∀ context context',
    progressCb context = progressCb context'

/-- The same but for the context, and for retry counts that nobody will look at. -/
def Alike (p q : BootPipeline W) : Prop :=
  p.Blind ∧ ∃ context counts, q = { p with context := context, stageRetryCounts := counts } ∧
    (p.enableRecovery = true → counts = p.stageRetryCounts)

section Alike

variable {p q : BootPipeline W}

theorem Alike.world_eq (h : Alike p q) : q.world = p.world := by
  obtain ⟨-, context, counts, rfl, -⟩ := h
  rfl

theorem Alike.handlers_eq (h : Alike p q) : q.handlers = p.handlers := by
  obtain ⟨-, context, counts, rfl, -⟩ := h
  rfl

theorem Alike.progressCb_eq (h : Alike p q) : q.progressCb = p.progressCb := by
  obtain ⟨-, context, counts, rfl, -⟩ := h
  rfl

theorem Alike.recoveryStrategy_eq (h : Alike p q) : q.recoveryStrategy = p.recoveryStrategy := by
  obtain ⟨-, context, counts, rfl, -⟩ := h
  rfl

theorem Alike.recoveryAttempts_eq (h : Alike p q) : q.recoveryAttempts = p.recoveryAttempts := by
  obtain ⟨-, context, counts, rfl, -⟩ := h
  rfl

theorem Alike.enableRecovery_eq (h : Alike p q) : q.enableRecovery = p.enableRecovery := by
  obtain ⟨-, context, counts, rfl, -⟩ := h
  rfl

theorem Alike.cancelled_eq (h : Alike p q) : q.cancelled = p.cancelled := by
  obtain ⟨-, context, counts, rfl, -⟩ := h
  rfl

theorem Alike.invocations_eq (h : Alike p q) : q.invocations = p.invocations := by
  obtain ⟨-, context, counts, rfl, -⟩ := h
  rfl

theorem Alike.counts_eq (h : Alike p q) (hrecovery : p.enableRecovery = true) :
    q.stageRetryCounts = p.stageRetryCounts := by
  obtain ⟨-, context, counts, rfl, hcounts⟩ := h
  exact hcounts hrecovery

end Alike

/-- Two methods, each from its pipeline: the same outcome, and pipelines alike; after a
success `Post` holds of them. -/
def RelatedAt (Post : BootPipeline W → BootPipeline W → Prop) (m m' : Method W α)
    (p q : BootPipeline W) : Prop :=
  (m p).1 = (m' q).1 ∧ Alike (m p).2 (m' q).2 ∧ ((m p).1.isOk = true → Post (m p).2 (m' q).2)

def Related (Post : BootPipeline W → BootPipeline W → Prop) (m m' : Method W α) : Prop :=
  ∀ p q, Alike p q → RelatedAt Post m m' p q

/-- Nothing more is asked of the pipelines. -/
def Any (_ _ : BootPipeline W) : Prop := True

namespace Related

variable {Post : BootPipeline W → BootPipeline W → Prop}

theorem any {m m' : Method W α} (h : Related Post m m') : Related Any m m' := by
  intro p q hpq
  obtain ⟨hresult, halike, -⟩ := h p q hpq
  exact ⟨hresult, halike, fun _ => trivial⟩

protected theorem pure (a : α) : Related (W := W) Any (pure a) (pure a) :=
  fun _ _ h => ⟨rfl, h, fun _ => trivial⟩

protected theorem fail (e : ErrorCode) :
    Related (W := W) Post (Program.fail e : Method W α) (Program.fail e) :=
  fun _ _ h => ⟨rfl, h, by rintro ⟨⟩⟩

protected theorem bind {m m' : Method W α} {k k' : α → Method W β} (hm : Related Any m m')
    (hk : ∀ a, Related Post (k a) (k' a)) : Related Post (m >>= k) (m' >>= k') := by
  intro p q hpq
  obtain ⟨hresult, halike, -⟩ := hm p q hpq
  unfold RelatedAt
  rw [Program.run_bind, Program.run_bind]
  rcases hp : m p with ⟨e | a, p₁⟩ <;> rcases hq : m' q with ⟨e' | a', q₁⟩ <;>
    rw [hp, hq] at hresult halike
  · cases hresult
    exact ⟨rfl, halike, by rintro ⟨⟩⟩
  · cases hresult
  · cases hresult
  · cases hresult
    exact hk a p₁ q₁ halike

/-- Both look at their pipelines. -/
theorem get_bind {k k' : BootPipeline W → Method W α}
    (h : ∀ p q, Alike p q → RelatedAt Post (k p) (k' q) p q) :
    Related Post (Program.get >>= k) (Program.get >>= k') :=
  fun p q hpq => h p q hpq

end Related

/-! ## The statements -/

theorem call_related (code : Client W α) : Related (W := W) Any (call code) (call code) := by
  rintro p q ⟨hblind, context, counts, rfl, hcounts⟩
  exact ⟨rfl, ⟨⟨hblind.handlers, hblind.progress⟩, context, counts, rfl, hcounts⟩,
    fun _ => trivial⟩

theorem setContext_related (f f' : BootContext → BootContext) :
    Related (W := W) Any (setContext f) (setContext f') := by
  rintro p q ⟨hblind, context, counts, rfl, hcounts⟩
  exact ⟨rfl, ⟨⟨hblind.handlers, hblind.progress⟩, f' context, counts, rfl, hcounts⟩,
    fun _ => trivial⟩

theorem reportProgress_related : Related (W := W) Any reportProgress reportProgress := by
  refine Related.get_bind ?_
  intro p q hpq
  rw [hpq.progressCb_eq]
  cases hprogress : p.progressCb with
  | none => exact Related.pure () p q hpq
  | some progressCb =>
    simp only [hpq.1.progress progressCb hprogress p.context q.context]
    exact call_related _ p q hpq

theorem announce_related (stage : PipelineStage) :
    Related (W := W) Any (announce stage) (announce stage) :=
  Related.bind (setContext_related _ _) fun _ => reportProgress_related

theorem enterStage_related (stage : PipelineStage) :
    Related (W := W) Any (enterStage stage) (enterStage stage) :=
  Related.bind (setContext_related _ _) fun _ => announce_related stage

theorem advance_related (stage : PipelineStage) :
    Related (W := W) Any (advance stage) (advance stage) := by
  unfold advance
  by_cases hlast : nextStage stage = .ready ∨ nextStage stage = .error
  · simp only [if_pos hlast]
    exact Related.bind (enterStage_related _) fun _ => Related.pure none
  · simp only [if_neg hlast]
    exact Related.bind (enterStage_related _) fun _ => Related.pure _

theorem countAttempt_related : Related (W := W) Any countAttempt countAttempt := by
  rintro p q ⟨hblind, context, counts, rfl, hcounts⟩
  exact ⟨rfl, ⟨⟨hblind.handlers, hblind.progress⟩, context, counts, rfl, hcounts⟩,
    fun _ => trivial⟩

theorem setRetryCount_related (stage : PipelineStage) (count : Int) :
    Related (W := W) Any (setRetryCount stage count) (setRetryCount stage count) := by
  rintro p q ⟨hblind, context, counts, rfl, hcounts⟩
  refine ⟨rfl, ⟨⟨hblind.handlers, hblind.progress⟩, context,
    fun s => if s = stage then count else counts s, rfl, fun hrecovery => ?_⟩, fun _ => trivial⟩
  rw [hcounts hrecovery]
  rfl

/-! ## Recovery -/

/-- They go on at the same stage. -/
def SameStage (p q : BootPipeline W) : Prop := p.context.currentStage = q.context.currentStage

theorem resumeAt_related (stage : PipelineStage) :
    Related (W := W) SameStage (resumeAt stage) (resumeAt stage) := by
  rintro p q ⟨hblind, context, counts, rfl, hcounts⟩
  exact ⟨rfl, ⟨⟨hblind.handlers, hblind.progress⟩, _, counts, rfl, hcounts⟩, fun _ => rfl⟩

theorem recover_related (strategy : RecoveryStrategy W) (rc : RecoveryContext) :
    Related SameStage (recover strategy rc) (recover strategy rc) := by
  refine Related.bind (call_related _) fun action => ?_
  cases action with
  | retry => exact Related.bind countAttempt_related fun _ => resumeAt_related _
  | restartStage =>
    exact Related.bind countAttempt_related fun _ =>
      Related.bind (setRetryCount_related _ _) fun _ => resumeAt_related _
  | rollback => exact Related.bind countAttempt_related fun _ => resumeAt_related _
  | abort => exact Related.bind (resumeAt_related _).any fun _ => Related.fail _

theorem performRecovery_related (rc : RecoveryContext) :
    Related (W := W) SameStage (performRecovery rc) (performRecovery rc) := by
  refine Related.get_bind ?_
  intro p q hpq
  rw [hpq.recoveryStrategy_eq, hpq.recoveryAttempts_eq]
  cases p.recoveryStrategy with
  | none => exact Related.fail _ p q hpq
  | some strategy =>
    by_cases hspent : p.recoveryAttempts ≥ kMaxRecoveryAttempts
    · simp only [if_pos hspent]
      exact Related.fail _ p q hpq
    · simp only [if_neg hspent]
      exact recover_related strategy rc p q hpq

theorem giveUp_related {Post : BootPipeline W → BootPipeline W → Prop} (stage : PipelineStage)
    (e : ErrorCode) : Related Post (giveUp stage e) (giveUp stage e) :=
  Related.bind (announce_related stage) fun _ => Related.fail e

theorem handleStageFailure_related (stage : PipelineStage) (e : ErrorCode) :
    Related (W := W) SameStage (handleStageFailure stage e) (handleStageFailure stage e) := by
  refine Related.bind (setContext_related _ _) fun _ => Related.get_bind ?_
  intro p q hpq
  rw [hpq.enableRecovery_eq]
  by_cases hcancelled : e = .cancelled
  · simp only [if_pos hcancelled]
    exact giveUp_related _ e p q hpq
  simp only [if_neg hcancelled]
  by_cases hrecovery : p.enableRecovery = false
  · simp only [if_pos hrecovery]
    exact giveUp_related _ e p q hpq
  simp only [if_neg hrecovery, hpq.counts_eq (by simpa using hrecovery)]
  refine Related.bind (setRetryCount_related _ _) (fun _ => ?_) p q hpq
  -- what a recovery that succeeds says of the stage is said of the method
  intro p q hpq
  obtain ⟨hresult, halike, hstage⟩ := performRecovery_related _ p q hpq
  unfold RelatedAt
  rw [Program.run_bind_ok (Program.run_attempt _ _), Program.run_bind_ok (Program.run_attempt _ _),
    ← hresult]
  cases hok : (performRecovery _ p).1 with
  | error e' => exact giveUp_related _ e' _ _ halike
  | ok =>
    rw [hok] at hstage
    exact ⟨rfl, halike, fun _ => hstage rfl⟩

/-! ## The rounds -/

theorem invoke_run (stage : PipelineStage) (handler : StageHandler W) (p : BootPipeline W) :
    invoke stage handler p = (.ok (handler p.context p.world).1.1,
      { p with
        world := (handler p.context p.world).2.1
        cancelled := p.cancelled || (handler p.context p.world).2.2
        context := (handler p.context p.world).1.2
        invocations := p.invocations ++ [⟨stage, (handler p.context p.world).1.1⟩] }) := rfl

theorem invoke_related (stage : PipelineStage) {handler : StageHandler W}
    (hhandler : ∀ context context' world,
      (handler context world).1.1 = (handler context' world).1.1 ∧
        (handler context world).2 = (handler context' world).2) :
    Related Any (invoke stage handler) (invoke stage handler) := by
  rintro p q ⟨hblind, context, counts, rfl, hcounts⟩
  obtain ⟨hresult, hworld⟩ := hhandler p.context context p.world
  unfold RelatedAt
  rw [invoke_run, invoke_run]
  simp only [hresult, hworld]
  exact ⟨trivial, ⟨⟨hblind.handlers, hblind.progress⟩, _, counts, rfl, hcounts⟩, fun _ => trivial⟩

/-- What a round does about a failed handler. -/
theorem recovered_related (stage : PipelineStage) (e : ErrorCode) :
    Related (W := W) Any
      (do
        handleStageFailure stage e
        let p ← Program.get
        announce p.context.currentStage
        pure (some p.context.currentStage))
      (do
        handleStageFailure stage e
        let p ← Program.get
        announce p.context.currentStage
        pure (some p.context.currentStage)) := by
  intro p q hpq
  obtain ⟨hresult, halike, hstage⟩ := handleStageFailure_related stage e p q hpq
  unfold RelatedAt
  rw [Program.run_bind, Program.run_bind]
  rcases hp : handleStageFailure stage e p with ⟨e' | ⟨⟩, p₁⟩ <;>
    rcases hq : handleStageFailure stage e q with ⟨e'' | ⟨⟩, q₁⟩ <;>
    rw [hp, hq] at hresult halike
  · cases hresult
    exact ⟨rfl, halike, by rintro ⟨⟩⟩
  · cases hresult
  · cases hresult
  · rw [hp, hq] at hstage
    -- both go on at the stage both are at
    have hsame : p₁.context.currentStage = q₁.context.currentStage := hstage rfl
    simp only [Program.run_bind_ok (Program.run_get _), hsame]
    exact Related.bind (announce_related _) (fun _ => Related.pure _) p₁ q₁ halike

theorem stageRound_related (stage : PipelineStage) :
    Related (W := W) Any (stageRound stage) (stageRound stage) := by
  refine Related.get_bind ?_
  intro p q hpq
  rw [hpq.cancelled_eq, hpq.handlers_eq]
  by_cases hcancelled : p.cancelled = true
  · simp only [if_pos hcancelled]
    exact Related.bind (setContext_related _ _) (fun _ => Related.bind (announce_related _)
      fun _ => Related.fail _) p q hpq
  simp only [if_neg hcancelled]
  cases hhandler : p.handlers stage with
  | none => exact advance_related stage p q hpq
  | some handler =>
    refine Related.bind (invoke_related stage (hpq.1.handlers stage handler hhandler))
      (fun result => ?_) p q hpq
    cases result with
    | ok => exact Related.bind (setContext_related _ _) fun _ => advance_related stage
    | error e => exact recovered_related stage e

theorem stageLoop_succ (fuel : Nat) (stage : PipelineStage) (p : BootPipeline W) :
    stageLoop (fuel + 1) stage p =
      match stageRound stage p with
      | (.ok (some next), p') => stageLoop fuel next p'
      | (.ok none, p') => (.ok (), p')
      | (.error e, p') => (.error e, p') := by
  unfold stageLoop
  rcases hround : stageRound stage p with ⟨e | _ | next, p'⟩
  · have hloop : loopRound (stage, p) = (.error e, (stage, p')) := by rw [loopRound, hround]
    rw [Program.repeatWhile_error hloop]
  · have hloop : loopRound (stage, p) = (.ok false, (stage, p')) := by rw [loopRound, hround]
    rw [Program.repeatWhile_break hloop]
  · have hloop : loopRound (stage, p) = (.ok true, (next, p')) := by rw [loopRound, hround]
    rw [Program.repeatWhile_continue hloop]

/-- Two loops from the same stage. -/
theorem stageLoop_related (fuel : Nat) (stage : PipelineStage) :
    Related (W := W) Any (stageLoop fuel stage) (stageLoop fuel stage) := by
  induction fuel generalizing stage with
  | zero => exact fun p q hpq => ⟨rfl, hpq, by rintro ⟨⟩⟩
  | succ fuel ih =>
    intro p q hpq
    obtain ⟨hresult, halike, -⟩ := stageRound_related stage p q hpq
    unfold RelatedAt
    rw [stageLoop_succ, stageLoop_succ]
    rcases hp : stageRound stage p with ⟨r, p₁⟩
    rcases hq : stageRound stage q with ⟨r', q₁⟩
    rw [hp, hq] at hresult halike
    obtain rfl : r = r' := hresult
    rcases r with e | _ | next
    · exact ⟨rfl, halike, fun _ => trivial⟩
    · exact ⟨rfl, halike, fun _ => trivial⟩
    · exact ih next p₁ q₁ halike

theorem executeStage_related (stage : PipelineStage) :
    Related (W := W) Any (executeStage stage) (executeStage stage) :=
  Related.bind (enterStage_related stage) fun _ => stageLoop_related 91 stage

/-! ## A success -/

theorem announce_currentStage (stage : PipelineStage) :
    Preserves (fun p => p.context.currentStage) (announce (W := W) stage) := by
  refine Preserves.bind (fun _ => rfl) fun _ => Preserves.bind (fun _ => rfl) fun p => ?_
  cases p.progressCb with
  | none => exact Preserves.pure ()
  | some progressCb => exact fun _ => rfl

theorem advance_none {stage : PipelineStage} {p p' : BootPipeline W}
    (h : advance stage p = (.ok none, p')) : p'.context.currentStage = .ready := by
  rw [advance] at h
  by_cases hlast : nextStage stage = .ready ∨ nextStage stage = .error
  · rw [if_pos hlast] at h
    obtain ⟨⟨⟩, p₁, henter, hpure⟩ := Program.bind_eq_ok.mp h
    obtain ⟨⟨⟩, p₂, hset, hannounce⟩ := Program.bind_eq_ok.mp henter
    obtain rfl : p₁ = p' := (Prod.mk.inj hpure).2
    have hready : p₂.context.currentStage = .ready := by
      rw [← (Prod.mk.inj hset).2]
    have hkept := announce_currentStage .ready p₂
    rw [hannounce] at hkept
    exact hkept.trans hready
  · rw [if_neg hlast] at h
    obtain ⟨⟨⟩, p₁, -, hpure⟩ := Program.bind_eq_ok.mp h
    cases (Prod.mk.inj hpure).1

/-- A round that leaves the loop has made the pipeline ready. -/
theorem stageRound_none {stage : PipelineStage} {p p' : BootPipeline W}
    (h : stageRound stage p = (.ok none, p')) : p'.context.currentStage = .ready := by
  rw [stageRound, Program.run_bind_ok (Program.run_get p)] at h
  by_cases hcancelled : p.cancelled = true
  · rw [if_pos hcancelled] at h
    obtain ⟨⟨⟩, _, _, h₁⟩ := Program.bind_eq_ok.mp h
    obtain ⟨⟨⟩, _, _, hfail⟩ := Program.bind_eq_ok.mp h₁
    cases (Prod.mk.inj hfail).1
  rw [if_neg hcancelled] at h
  cases hhandler : p.handlers stage with
  | none =>
    rw [hhandler] at h
    exact advance_none h
  | some handler =>
    rw [hhandler] at h
    obtain ⟨result, p₁, _, hact⟩ := Program.bind_eq_ok.mp h
    cases result with
    | ok =>
      obtain ⟨⟨⟩, _, _, hadvance⟩ := Program.bind_eq_ok.mp hact
      exact advance_none hadvance
    | error e =>
      obtain ⟨⟨⟩, p₂, _, hgoesOn⟩ := Program.bind_eq_ok.mp hact
      rw [Program.run_bind_ok (Program.run_get p₂)] at hgoesOn
      obtain ⟨⟨⟩, _, _, hpure⟩ := Program.bind_eq_ok.mp hgoesOn
      cases (Prod.mk.inj hpure).1

theorem executeStage_ready {stage : PipelineStage} {p p' : BootPipeline W}
    (h : executeStage stage p = (.ok (), p')) : p'.context.currentStage = .ready := by
  obtain ⟨⟨⟩, p₁, -, hloop⟩ := Program.bind_eq_ok.mp h
  obtain ⟨hok, rfl⟩ := Prod.mk.inj hloop
  have hrounds : Program.repeatWhile loopRound .unknown 91 (stage, p₁)
      = (.ok (), (Program.repeatWhile loopRound .unknown 91 (stage, p₁)).2) := Prod.ext hok rfl
  obtain ⟨l, -, hbreak⟩ := Program.repeatWhile_ok (fun _ => True) (fun _ _ _ _ => trivial)
    trivial hrounds
  exact stageRound_none (loopRound_break hbreak)

/-! ## Client code, and what earlier runs leave -/

/-- The result of the stages is that of the run: a success leaves the pipeline ready. -/
theorem finish_result (p : BootPipeline W) (stage : PipelineStage) :
    (finish (executeStage stage p)).1 = (executeStage stage p).1 := by
  rcases hstages : executeStage stage p with ⟨e | ⟨⟩, p'⟩
  · rfl
  · have hready := executeStage_ready hstages
    rw [finish]
    exact if_pos hready

end BootPipeline

/-- A decision of the strategy, and what it was told of the failure. -/
abbrev Decision : Type := RecoveryContext × RecoveryAction

/-- The code a pipeline is set up with. A handler may write to the context, but answers
without it. -/
structure ClientCode (W : Type) where
  handlers : PipelineStage →
    Option (Client W (Except ErrorCode Unit × (BootContext → BootContext))) := fun _ => none
  recoveryStrategy : Option (RecoveryStrategy W) := some {}
  progressCb : Option (Client W Unit) := none
  cancelTransport : Option (Client W Unit) := none

/-- What runs change of a pipeline; a new one has the defaults. -/
structure Remains where
  context : BootContext := {}
  stageRetryCounts : PipelineStage → Int := fun _ => 0
  recoveryAttempts : Nat := 0
  cancelled : Bool := false
  running : Bool := false
  invocations : List Invocation := []

namespace Remains

/-- `retry` drops a cancellation, and puts a failed pipeline back to its beginning. -/
def retried (remains : Remains) : Remains :=
  { remains with
    cancelled := false
    context := if remains.context.currentStage = .error then
      { remains.context with currentStage := .disconnected } else remains.context }

def terminal (remains : Remains) : Bool :=
  remains.context.currentStage = .ready || remains.context.currentStage = .error ||
    remains.context.currentStage = .cancelled

end Remains

namespace ClientCode

variable {W : Type}

/-- The code leaves the log alone. -/
def besideLog {α : Type} (code : Client W α) : Client (W × List Decision) α := fun world =>
  let outcome := code world.1
  (outcome.1, (outcome.2.1, world.2), outcome.2.2)

/-- The strategy, with a log of its decisions. -/
def logged (strategy : RecoveryStrategy W) : RecoveryStrategy (W × List Decision) where
  rollbackMap := strategy.rollbackMap
  customDecisions _ := some fun rc world =>
    let outcome := strategy.decide rc world.1
    (outcome.1, (outcome.2.1, world.2 ++ [(rc, outcome.1)]), outcome.2.2)

def pipeline (code : ClientCode W) (enableRecovery : Bool) (remains : Remains) (world : W) :
    BootPipeline (W × List Decision) where
  world := (world, [])
  enableRecovery := enableRecovery
  handlers stage := (code.handlers stage).map fun handler context world =>
    let outcome := besideLog handler world
    ((outcome.1.1, outcome.1.2 context), outcome.2)
  recoveryStrategy := code.recoveryStrategy.map logged
  progressCb := code.progressCb.map fun progressCb _ => besideLog progressCb
  cancelTransport := code.cancelTransport.map besideLog
  context := remains.context
  stageRetryCounts := remains.stageRetryCounts
  recoveryAttempts := remains.recoveryAttempts
  cancelled := remains.cancelled
  running := remains.running
  invocations := remains.invocations

theorem pipeline_blind (code : ClientCode W) (enableRecovery : Bool) (remains : Remains)
    (world : W) : (code.pipeline enableRecovery remains world).Blind where
  handlers := by
    intro stage handler hhandler context context' w
    obtain ⟨answer, -, rfl⟩ := Option.map_eq_some_iff.mp hhandler
    exact ⟨rfl, rfl⟩
  progress := by
    intro progressCb hprogress context context'
    obtain ⟨callback, -, rfl⟩ := Option.map_eq_some_iff.mp hprogress
    rfl

end ClientCode

namespace BootPipeline

variable {W : Type}

def remains (p : BootPipeline W) : Remains :=
  ⟨p.context, p.stageRetryCounts, p.recoveryAttempts, p.cancelled, p.running, p.invocations⟩

/-- The same result, handler calls, decisions and effects on the client as `run` has on a new
pipeline, whatever client code and whatever state of it the two are given. -/
def BehavesFresh (operation : (W : Type) → Method (W × List Decision) Unit)
    (enableRecovery : Bool) (remains : Remains) : Prop :=
  ∀ (W : Type) (code : ClientCode W) (world : W),
    (operation W (code.pipeline enableRecovery remains world)).1
        = (run (code.pipeline enableRecovery {} world)).1 ∧
      (operation W (code.pipeline enableRecovery remains world)).2.invocations
        = (run (code.pipeline enableRecovery {} world)).2.invocations ∧
      (operation W (code.pipeline enableRecovery remains world)).2.world
        = (run (code.pipeline enableRecovery {} world)).2.world

/-- Nothing that the recovery would look at. -/
def NoRetriesLeft (enableRecovery : Bool) (remains : Remains) : Prop :=
  enableRecovery = true → ∀ stage, remains.stageRetryCounts stage = 0

theorem run_fresh {enableRecovery : Bool} {remains : Remains} (hrunning : remains.running = false)
    (hcancelled : remains.cancelled = false) (hcounts : NoRetriesLeft enableRecovery remains) :
    BehavesFresh (fun _ => run) enableRecovery remains := by
  intro W code world
  have halike : Alike (code.pipeline enableRecovery {} world).started
      (code.pipeline enableRecovery remains world).started := by
    have hblind := code.pipeline_blind enableRecovery {} world
    refine ⟨⟨hblind.handlers, hblind.progress⟩, _, remains.stageRetryCounts, rfl, ?_⟩
    intro hrecovery
    exact funext (hcounts hrecovery)
  obtain ⟨hresult, hafter, -⟩ := executeStage_related .connected _ _ halike
  have hrun : run (code.pipeline enableRecovery remains world) = _ :=
    run_free hrunning hcancelled
  have hnew : run (code.pipeline enableRecovery {} world) = _ := run_free rfl rfl
  simp only [hrun, hnew]
  exact ⟨by rw [finish_result, finish_result, hresult], hafter.invocations_eq, hafter.world_eq⟩

/-! ## What else makes a difference -/

/-- No handler at all: a run that starts succeeds. -/
theorem run_idle (enableRecovery : Bool) :
    (run (({} : ClientCode Unit).pipeline enableRecovery {} ())).1.isOk = true := by
  cases enableRecovery <;> decide +kernel

/-- The stage and the first one fail; the run is rolled back to the stage and aborted there. -/
def failingAt (stage : PipelineStage) : ClientCode Unit where
  handlers s := if s = stage ∨ s = .connected then
      some fun _ => ((.error .transportError, id), (), false)
    else none
  recoveryStrategy := some {
    rollbackMap := fun _ => some stage
    customDecisions := fun s => some fun _ _ =>
      (if s = stage then .abort else .rollback, (), false) }

/-- At the stage the strategy is told the retry count the pipeline had for it. -/
theorem failingAt_told (stage : PipelineStage) {remains : Remains}
    (hrunning : remains.running = false) (hcancelled : remains.cancelled = false) :
    ((run ((failingAt stage).pipeline true remains ())).2.world.2.getLast?).map
      (fun decision => decision.1.retryCount) = some (remains.stageRetryCounts stage) := by
  obtain ⟨context, counts, attempts, cancelled, running, invocations⟩ := remains
  obtain rfl : running = false := hrunning
  obtain rfl : cancelled = false := hcancelled
  rw [run_free rfl rfl, finish, executeStage, enterStage]
  -- the first stage fails, and where it is not the stage itself, that one after it
  by_cases hfirst : stage = .connected
  · subst hfirst
    simp [announce, updateProgress, setContext, reportProgress, started, stageLoop_succ,
      stageRound, ClientCode.pipeline, failingAt, invoke, call, ClientCode.besideLog,
      handleStageFailure, performRecovery, recover, giveUp, setRetryCount, resumeAt,
      RecoveryStrategy.decide, ClientCode.logged, Program.run_bind, kMaxRecoveryAttempts]
  · simp [announce, updateProgress, setContext, reportProgress, started, stageLoop_succ,
      stageRound, ClientCode.pipeline, failingAt, invoke, call, ClientCode.besideLog,
      handleStageFailure, performRecovery, recover, giveUp, setRetryCount, resumeAt, countAttempt,
      RecoveryStrategy.decide, RecoveryStrategy.rollbackTarget, ClientCode.logged,
      Program.run_bind, kMaxRecoveryAttempts, hfirst, Ne.symm hfirst]

theorem run_fresh_iff (enableRecovery : Bool) (remains : Remains) :
    BehavesFresh (fun _ => run) enableRecovery remains ↔
      remains.running = false ∧ remains.cancelled = false ∧
        NoRetriesLeft enableRecovery remains := by
  constructor
  · intro hfresh
    have hidle := (hfresh Unit {} ()).1
    have hstarts := run_idle enableRecovery
    simp only [← hidle] at hstarts
    have hrunning : remains.running = false := by
      cases hrunning : remains.running with
      | false => rfl
      | true =>
        rw [run_running hrunning] at hstarts
        cases hstarts
    have hcancelled : remains.cancelled = false := by
      cases hcancelled : remains.cancelled with
      | false => rfl
      | true =>
        rw [run_cancelled hrunning hcancelled] at hstarts
        cases hstarts
    refine ⟨hrunning, hcancelled, ?_⟩
    intro hrecovery stage
    subst hrecovery
    have htold := failingAt_told stage hrunning hcancelled
    have hnew := @failingAt_told stage {} rfl rfl
    have hworld := (hfresh Unit (failingAt stage) ()).2.2
    simp only [hworld, hnew] at htold
    exact (Option.some.inj htold).symm
  · rintro ⟨hrunning, hcancelled, hcounts⟩
    exact run_fresh hrunning hcancelled hcounts

/-! ## Resets -/

/-- After a `reset` a pipeline always runs like a new one. -/
theorem reset_fresh (enableRecovery : Bool) (remains : Remains) :
    BehavesFresh (fun _ => reset >>= fun _ => run) enableRecovery remains := by
  let left : Remains :=
    { context := { remains.context with
        currentStage := .disconnected
        previousStage := .disconnected
        lastError := .success
        stageRetryCount := 0 }
      invocations := remains.invocations }
  have hreset (W : Type) (code : ClientCode W) (world : W) :
      reset (code.pipeline enableRecovery remains world)
        = (.ok (), code.pipeline enableRecovery left world) := rfl
  have hfresh : BehavesFresh (fun _ => run) enableRecovery left :=
    run_fresh rfl rfl fun _ _ => rfl
  intro W code world
  dsimp only
  rw [Program.run_bind_ok (hreset W code world)]
  exact hfresh W code world

/-! ## Retries -/

theorem retry_pipeline (code : ClientCode W) (enableRecovery : Bool) (remains : Remains)
    (world : W) : retry (code.pipeline enableRecovery remains world) =
      if remains.terminal then run (code.pipeline enableRecovery remains.retried world)
      else (.error .invalidArgument, code.pipeline enableRecovery remains world) := by
  rw [retry, Program.run_bind_ok (Program.run_get _)]
  change (if remains.terminal = true then _ else _ : Method _ _) _ = _
  by_cases hterminal : remains.terminal = true
  · rw [if_pos hterminal, if_pos hterminal]
    rfl
  · rw [if_neg hterminal, if_neg hterminal]
    rfl

/-- A run, or a retry, behaves like a run of a new pipeline exactly where the recovery is
off or no retry counts are left, and nothing else keeps it from starting. -/
theorem behavesFresh_iff (enableRecovery : Bool) (remains : Remains) :
    (BehavesFresh (fun _ => run) enableRecovery remains ↔
      remains.running = false ∧ remains.cancelled = false ∧
        NoRetriesLeft enableRecovery remains) ∧
    (BehavesFresh (fun _ => retry) enableRecovery remains ↔
      remains.running = false ∧ remains.terminal = true ∧
        NoRetriesLeft enableRecovery remains) := by
  refine ⟨run_fresh_iff enableRecovery remains, ?_⟩
  unfold BehavesFresh
  simp only [retry_pipeline]
  cases hterminal : remains.terminal with
  | false =>
    constructor
    · intro hfresh
      have hidle := (hfresh Unit {} ()).1
      have hstarts := run_idle enableRecovery
      rw [← hidle] at hstarts
      cases hstarts
    · rintro ⟨-, hterminal', -⟩
      cases hterminal'
  | true =>
    -- what is left to say is said of a run of what the retry makes of it
    have hiff := run_fresh_iff enableRecovery remains.retried
    constructor
    · intro hfresh
      obtain ⟨hrunning, -, hcounts⟩ := hiff.mp hfresh
      exact ⟨hrunning, rfl, hcounts⟩
    · rintro ⟨hrunning, -, hcounts⟩
      exact hiff.mpr ⟨hrunning, rfl, hcounts⟩

/-- A first handler that fails as often as its world still says. -/
def failing : ClientCode Nat where
  handlers s := if s = .connected then
      some fun
        | 0 => ((.ok (), id), 0, false)
        | left + 1 => ((.error .transportError, id), left, false)
    else none

/-- With the default strategy: after a run that failed, a retry is aborted at a failure
that a new pipeline recovers from. -/
theorem retry_not_fresh :
    (run (failing.pipeline true {} 4)).1.isOk = false ∧
      ¬ BehavesFresh (fun _ => retry) true (run (failing.pipeline true {} 4)).2.remains := by
  refine ⟨by decide +kernel, fun hfresh => ?_⟩
  have hresult := congrArg Except.isOk (hfresh Nat failing 1).1
  exact absurd hresult (by decide +kernel)

end BootPipeline

end MBootCore
