import MBootCore.Job.JobPipeline

/-!
# Job — PipelineSuccess

When `run` returns Ok, were all jobs done? The loop is left on `cancel` by the
same way as after the last job, so Ok says so only of runs in which `cancel` is
not seen while jobs are left.
-/

namespace MBootCore.Job.JobPipeline

variable {J σ : Type} {w : Surroundings J σ} {p p' : JobPipeline J σ}

/-- The job was prepared and executed, and both went well. -/
def jobDone (job : J) : List (JobEvent J) := [.prepared job (.ok ()), .executed job (.ok ())]

/-- A result of Ok means that all jobs were done, once and in order. -/
def Truthful (p : JobPipeline J σ) (r : Except ErrorCode Unit × JobPipeline J σ) : Prop :=
  r.1 = .ok () →
    r.2.log = p.log ++ p.jobs.flatMap jobDone ∧ r.2.completedCount = p.jobs.length

/-- All jobs so far answering Ok, `cancel` is seen when the next one is due. -/
def CancelledEarly (w : Surroundings J σ) : List J → Control J σ → Prop
  | [], _ => False
  | job :: rest, c =>
    (c.due w).cancelled = true ∨
      let prepared := (c.due w).ask w w.prepare job
      prepared.1 = .ok () ∧
        let executed := prepared.2.ask w w.execute job
        executed.1 = .ok () ∧ CancelledEarly w rest executed.2

/-! ## One job -/

/-- How a job ends: it is done, or one of its methods failed. -/
inductive JobEnds (w : Surroundings J σ) (job : J) (p : JobPipeline J σ) :
    Except ErrorCode Unit × JobPipeline J σ → Prop
  | done {p₁ : JobPipeline J σ} (hjobs : p₁.jobs = p.jobs)
      (hcount : p₁.completedCount = p.completedCount) (hlog : p₁.log = p.log ++ jobDone job)
      (hprepared : (p.toControl.ask w w.prepare job).1 = .ok ())
      (hexecuted : ((p.toControl.ask w w.prepare job).2.ask w w.execute job).1 = .ok ())
      (hcontrol : p₁.toControl = ((p.toControl.ask w w.prepare job).2.ask w w.execute job).2) :
      JobEnds w job p (.ok (), p₁)
  | failed {p₁ : JobPipeline J σ} {error : ErrorCode}
      (hfailed : (p.toControl.ask w w.prepare job).1 = .ok () →
        ((p.toControl.ask w w.prepare job).2.ask w w.execute job).1 ≠ .ok ()) :
      JobEnds w job p (.error error, p₁)

theorem jobs_requests (requests : List Request) (c : Control J σ) :
    (requests.foldl (Control.request w) c).jobs = c.jobs := by
  induction requests generalizing c with
  | nil => rfl
  | cons request requests ih =>
    rw [List.foldl_cons, ih]
    cases request <;> rfl

theorem jobs_ask (method : J → σ → Answer σ) (job : J) (c : Control J σ) :
    (c.ask w method job).2.jobs = c.jobs := jobs_requests ..

theorem jobs_waitWhilePaused (c : Control J σ) : (c.waitWhilePaused w).jobs = c.jobs := by
  rw [Control.waitWhilePaused]
  split
  · rcases w.wake c.world with ⟨_ | _, world⟩ <;> rfl
  · rfl

theorem jobs_due (c : Control J σ) : (c.due w).jobs = c.jobs :=
  (jobs_waitWhilePaused _).trans (jobs_requests ..)

theorem jobEnds_executeJob (job : J) (p : JobPipeline J σ) :
    JobEnds w job p (executeJob w job p) := by
  rw [executeJob, ask]
  rcases hprepared : p.toControl.ask w w.prepare job with ⟨error | _, c⟩
  · refine .failed fun h => ?_
    rw [hprepared] at h
    cases h
  · simp only [ask, record]
    rcases hexecuted : c.ask w w.execute job with ⟨error | _, c₁⟩
    · refine .failed fun _ h => ?_
      rw [hprepared, hexecuted] at h
      cases h
    · have hjobs : c₁.jobs = p.jobs := by
        have hfirst := jobs_ask (w := w) w.prepare job p.toControl
        have hsecond := jobs_ask (w := w) w.execute job c
        rw [hprepared] at hfirst
        rw [hexecuted] at hsecond
        exact hsecond.trans hfirst
      exact .done hjobs rfl (by simp [jobDone]) (by rw [hprepared]) (by rw [hprepared, hexecuted])
        (by rw [hprepared, hexecuted])

/-! ## All jobs -/

/-- Left early, the loop returns Ok with jobs undone. -/
theorem runJobs_of_cancelledEarly (index : Nat) {jobs : List J} (p : JobPipeline J σ)
    (h : CancelledEarly w jobs p.toControl) :
    (runJobs w index jobs p).1 = .ok () ∧
      (runJobs w index jobs p).2.completedCount < p.completedCount + jobs.length := by
  induction jobs generalizing index p with
  | nil => exact h.elim
  | cons job rest ih =>
    rw [runJobs]
    simp only
    split
    · exact ⟨rfl, by simp⟩
    · rename_i hcancelled
      obtain ⟨hprepared, hexecuted, hrest⟩ := h.resolve_left hcancelled
      have hends := jobEnds_executeJob (w := w) job
        { p with toControl := p.due w, currentIndex := index }
      generalize executeJob w job _ = r at hends ⊢
      cases hends with
      | failed hfailed => exact absurd hexecuted (hfailed hprepared)
      | @done p₁ _ hcount _ _ _ hcontrol =>
        simp only at hcount hcontrol
        rw [← hcontrol] at hrest
        obtain ⟨hok, hless⟩ :=
          ih (index + 1) { p₁ with completedCount := p₁.completedCount + 1 } hrest
        refine ⟨hok, Nat.lt_of_lt_of_eq hless ?_⟩
        simp only [List.length_cons, hcount]
        omega

theorem fail_error (job : J) (error : ErrorCode) (p : JobPipeline J σ) :
    (p.fail w job error).1 ≠ .ok () := by
  rw [fail]
  split <;> simp

/-- Not left early, the loop returns Ok when all jobs are done. -/
theorem runJobs_done (index : Nat) {jobs : List J} (p : JobPipeline J σ)
    (h : ¬ CancelledEarly w jobs p.toControl)
    (hok : (runJobs w index jobs p).1 = .ok ()) :
    (runJobs w index jobs p).2.log = p.log ++ jobs.flatMap jobDone ∧
      (runJobs w index jobs p).2.completedCount = p.completedCount + jobs.length := by
  induction jobs generalizing index p with
  | nil => exact ⟨(List.append_nil _).symm, rfl⟩
  | cons job rest ih =>
    rw [runJobs] at hok ⊢
    obtain ⟨hdue, hrest⟩ := not_or.mp h
    simp only [hdue, Bool.false_eq_true, if_false] at hok ⊢
    have hends := jobEnds_executeJob (w := w) job
      { p with toControl := p.due w, currentIndex := index }
    generalize executeJob w job _ = r at hends hok ⊢
    cases hends with
    | @failed p₁ error => exact absurd hok (fail_error job error p₁)
    | @done p₁ hjobs hcount hlog hprepared hexecuted hcontrol =>
      simp only at hcount hlog hcontrol
      have hlater : ¬ CancelledEarly w rest p₁.toControl := by
        rw [hcontrol]
        exact fun hearly => hrest ⟨hprepared, hexecuted, hearly⟩
      obtain ⟨hlogged, hcounted⟩ :=
        ih (index + 1) { p₁ with completedCount := p₁.completedCount + 1 } hlater hok
      refine ⟨?_, ?_⟩
      · exact hlogged.trans (by simp [hlog])
      · refine hcounted.trans ?_
        simp only [List.length_cons, hcount]
        omega

/-- A run tells the truth exactly when `cancel` is not seen while jobs are left. -/
theorem run_truthful_iff (w : Surroundings J σ) (p : JobPipeline J σ) :
    Truthful p (p.run w) ↔
      (p.running = false → ¬ CancelledEarly w p.jobs p.start.toControl) := by
  rw [run]
  cases hrunning : p.running with
  | true => exact ⟨fun _ h => (by cases h), fun _ h => by cases h⟩
  | false =>
    constructor
    · intro htruthful _ hearly
      obtain ⟨hok, hless⟩ := runJobs_of_cancelledEarly 0 p.start hearly
      have hcounted := (htruthful hok).2
      simp only [start, Bool.false_eq_true, if_false] at hcounted hless
      omega
    · intro hlate hok
      obtain ⟨hlog, hcounted⟩ := runJobs_done 0 p.start (hlate rfl) hok
      exact ⟨hlog, hcounted.trans (Nat.zero_add _)⟩

/-- Jobs that succeed, with `cancel` called after the first one. -/
def cancelledBetween : Surroundings Nat Nat where
  prepare _ count := ⟨.ok (), [], count⟩
  execute _ count := ⟨.ok (), [], count + 1⟩
  rollback _ count := ⟨.ok (), [], count⟩
  cancel _ count := count
  canRollback _ _ := true
  recoveryPolicy _ _ := some true
  between count := (if count = 1 then [.cancel] else [], count)
  wake count := (.resumed, count)

/-- A run cancelled between two jobs returns Ok. -/
theorem run_cancelledBetween :
    ¬ ∀ {J σ : Type} (w : Surroundings J σ) (p : JobPipeline J σ), Truthful p (p.run w) := by
  intro h
  have hcount := (h cancelledBetween { world := 0, jobs := [0, 1] } rfl).2
  exact absurd hcount (by decide)

end MBootCore.Job.JobPipeline
