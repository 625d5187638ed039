import MBootCore.Job.JobPipeline

/-!
# Job — PipelineLog

What a run leaves of the log and of the counters. The methods of a job change
neither counter and only add to the log; the loop counts each job it has
executed, and one failure at most.
-/

namespace MBootCore.Job.JobPipeline

variable {J σ : Type} {w : Surroundings J σ} {p p' p'' : JobPipeline J σ}

/-- The log has grown, and nothing was counted. -/
structure Extends (p p' : JobPipeline J σ) : Prop where
  log : p.log <+: p'.log
  completedCount : p'.completedCount = p.completedCount
  failedCount : p'.failedCount = p.failedCount

theorem Extends.refl (p : JobPipeline J σ) : Extends p p := ⟨List.prefix_refl _, rfl, rfl⟩

theorem Extends.trans (h : Extends p p') (h' : Extends p' p'') : Extends p p'' :=
  ⟨h.log.trans h'.log, h'.completedCount.trans h.completedCount,
    h'.failedCount.trans h.failedCount⟩

theorem extends_ask_record (method : J → σ → Answer σ) (job : J) (event : JobEvent J)
    (p : JobPipeline J σ) : Extends p ((p.ask w method job).2.record event) :=
  ⟨List.prefix_append _ _, rfl, rfl⟩

theorem extends_executeJob (job : J) (p : JobPipeline J σ) :
    Extends p (executeJob w job p).2 := by
  have hprepared := extends_ask_record (w := w) w.prepare job
    (.prepared job (p.ask w w.prepare job).1) p
  rw [executeJob]
  rcases hask : p.ask w w.prepare job with ⟨error | _, p₁⟩ <;> rw [hask] at hprepared
  · exact hprepared
  · exact hprepared.trans (extends_ask_record ..)

/-! ## Rollbacks -/

theorem rollbackJob_state {job : J} (hallowed : w.canRollback job p.world = true)
    (lastErr : ErrorCode) :
    (p.rollbackJob w job lastErr).2
      = (p.ask w w.rollback job).2.record (.rolledBack job (p.ask w w.rollback job).1) := by
  rw [rollbackJob, if_pos hallowed]
  rcases p.ask w w.rollback job with ⟨_ | _, p₁⟩ <;> rfl

theorem extends_rollbackJob (job : J) (lastErr : ErrorCode) (p : JobPipeline J σ) :
    Extends p (p.rollbackJob w job lastErr).2 := by
  by_cases hallowed : w.canRollback job p.world = true
  · rw [rollbackJob_state hallowed]
    exact extends_ask_record ..
  · rw [rollbackJob, if_neg hallowed]
    exact .refl p

theorem extends_rollbackJobs (jobs : List J) (lastErr : ErrorCode) (p : JobPipeline J σ) :
    Extends p (p.rollbackJobs w jobs lastErr).2 := by
  induction jobs generalizing lastErr p with
  | nil => exact .refl p
  | cons job rest ih => exact (extends_rollbackJob job lastErr p).trans (ih _ _)

theorem extends_rollbackAll (p : JobPipeline J σ) : Extends p (p.rollbackAll w).2 :=
  extends_rollbackJobs ..

/-! ## The run -/

/-- A run over the jobs left: what it says is what it has counted. -/
structure RunEnds (jobs : List J) (p : JobPipeline J σ)
    (r : Except ErrorCode Unit × JobPipeline J σ) : Prop where
  running : r.2.running = false
  log : p.log <+: r.2.log
  ok : r.1 = .ok () →
    r.2.completedCount ≤ p.completedCount + jobs.length ∧ r.2.failedCount = p.failedCount
  error : ∀ error, r.1 = .error error →
    r.2.completedCount < p.completedCount + jobs.length ∧ r.2.failedCount = p.failedCount + 1

theorem RunEnds.of_extends {jobs : List J} {r : Except ErrorCode Unit × JobPipeline J σ}
    (h : Extends p p') (hr : RunEnds jobs p' r) : RunEnds jobs p r where
  running := hr.running
  log := h.log.trans hr.log
  ok hok := by
    rw [← h.completedCount, ← h.failedCount]
    exact hr.ok hok
  error error herror := by
    rw [← h.completedCount, ← h.failedCount]
    exact hr.error error herror

/-- One job is done and counted, the others are left. -/
theorem RunEnds.cons {job : J} {rest : List J} {r : Except ErrorCode Unit × JobPipeline J σ}
    (hr : RunEnds rest { p with completedCount := p.completedCount + 1 } r) :
    RunEnds (job :: rest) p r := by
  have hcount : p.completedCount + (job :: rest).length
      = p.completedCount + 1 + rest.length := by
    rw [List.length_cons]
    omega
  refine ⟨hr.running, hr.log, ?_, ?_⟩
  · intro hok
    rw [hcount]
    exact hr.ok hok
  · intro error herror
    rw [hcount]
    exact hr.error error herror

theorem runEnds_failed (error : ErrorCode) (job : J) (rest : List J) (p : JobPipeline J σ) :
    RunEnds (job :: rest) p
      (.error error, { p with failedCount := p.failedCount + 1, running := false }) := by
  refine ⟨rfl, List.prefix_refl _, ?_, ?_⟩
  · intro hok
    cases hok
  · intro _ _
    simp

theorem runEnds_fail (job : J) (error : ErrorCode) (rest : List J) (p : JobPipeline J σ) :
    RunEnds (job :: rest) p (p.fail w job error) := by
  rw [fail]
  by_cases hcancelled : error = .cancelled
  · rw [if_pos hcancelled]
    exact runEnds_failed ..
  · rw [if_neg hcancelled]
    split
    · exact (runEnds_failed ..).of_extends (extends_rollbackAll p)
    · exact runEnds_failed ..

/-- The loop is left before its next job. -/
theorem runEnds_left (jobs : List J) (p : JobPipeline J σ) :
    RunEnds jobs p (.ok (), { p with running := false }) := by
  refine ⟨rfl, List.prefix_refl _, ?_, ?_⟩
  · intro _
    simp
  · intro error herror
    cases herror

theorem runEnds_runJobs (index : Nat) (jobs : List J) (p : JobPipeline J σ) :
    RunEnds jobs p (runJobs w index jobs p) := by
  induction jobs generalizing index p with
  | nil => exact runEnds_left [] p
  | cons job rest ih =>
    have hdue : ∀ i, Extends p { p with toControl := p.due w, currentIndex := i } :=
      fun _ => ⟨List.prefix_refl _, rfl, rfl⟩
    rw [runJobs]
    by_cases hcancelled : (p.due w).cancelled = true
    · simp only [hcancelled, if_true]
      exact (runEnds_left (job :: rest) _).of_extends (hdue p.currentIndex)
    · simp only [hcancelled, Bool.false_eq_true, if_false]
      have hdone := (hdue index).trans (extends_executeJob (w := w) job _)
      rcases hjob : executeJob w job { p with toControl := p.due w, currentIndex := index }
        with ⟨error | _, p₁⟩ <;> rw [hjob] at hdone
      · exact (runEnds_fail job error rest p₁).of_extends hdone
      · exact (ih (index + 1) _).cons.of_extends hdone

end MBootCore.Job.JobPipeline
