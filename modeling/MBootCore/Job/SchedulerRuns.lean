import MBootCore.Job.JobScheduler
import MBootCore.Job.PipelineLog
import MBootCore.Support.CallRun

/-!
# Job — SchedulerRuns

What one step of the scheduler does with the jobs. A job is pushed to the queue,
taken from it by the worker, and let go again (`Moves`); the worker holds one
job at most. What the pipeline has counted when the worker comes to count is
what its run of that one job counted (`PipelinePhase`).
-/

namespace MBootCore.Job

variable {J σ : Type}

/-- The job the worker has taken from the queue and not let go. -/
def Worker.holding : Worker J → Option (QueuedJob J)
  | .taken queued => some queued
  | .testing job dependencies | .pausing job dependencies | .woken job dependencies
  | .starting job dependencies | .running job dependencies
  | .counting job dependencies _ => some { job := some job, dependencies }
  | .unstarted | .looping | .locking | .leaving | .finished | .terminated => none

/-- The job a call enqueues. -/
def SchedulerCall.queued : SchedulerCall J → Option (QueuedJob J)
  | enqueue job => some { job }
  | enqueueWithDependencies job dependencies => some { job, dependencies }
  | start | pause | resume | proceed _ | cancel _ | work => none

namespace JobScheduler

variable {w : Surroundings J σ} {s : JobScheduler J σ}

/-- The next step of the worker lets go of the job it holds. -/
def LetsGo (s : JobScheduler J σ) : Prop :=
  match s.worker with
  | .taken queued => queued.job = none
  | .woken _ _ => s.state ≠ .running
  | .counting _ _ _ => True
  | _ => False

/-- What a step does with the jobs. -/
inductive Moves (call : SchedulerCall J) (s : JobScheduler J σ) : JobScheduler J σ → Prop
  | pushed {queued : QueuedJob J} (hcall : call.queued = some queued) : Moves call s (s.push queued)
  | kept {pipeline : JobPipeline J σ} {state : SchedulerState} {worker : Worker J}
      {clients : List Client} {started : Bool} {lastRequest : Option Request}
      (hkept : call = .work → ¬ s.LetsGo) (hholding : worker.holding = s.worker.holding)
      (hlog : s.pipeline.log <+: pipeline.log) :
      Moves call s { s with pipeline, state, worker, clients, started, lastRequest }
  | took {queued : QueuedJob J} {rest : List (QueuedJob J)} (hworker : s.worker = .locking)
      (hqueue : s.queue = queued :: rest) :
      Moves call s { s with queue := rest, worker := .taken queued }
  | dropped {worker : Worker J} (hcall : call = .work) (hletsGo : s.LetsGo)
      (hcounting : ∀ job dependencies result, s.worker ≠ .counting job dependencies result)
      (hholding : worker.holding = none) : Moves call s { s with worker }
  | counted {job : J} {dependencies : List String} {result : Except ErrorCode Unit}
      (hcall : call = .work) (hworker : s.worker = .counting job dependencies result) :
      Moves call s { (s.countResult job result).updateCounters with worker := .looping }

/-- What the pipeline holds at each place of the worker. -/
def PipelinePhase (s : JobScheduler J σ) : Prop :=
  match s.worker with
  | .running job _ =>
    s.pipeline.jobs = [job] ∧ s.pipeline.completedCount = 0 ∧ s.pipeline.failedCount = 0
  | .counting job _ result =>
    ∃ p : JobPipeline J σ, p.completedCount = 0 ∧ p.failedCount = 0 ∧
      JobPipeline.RunEnds [job] p (result, s.pipeline)
  | _ => s.pipeline.running = false

structure InPhase (s : JobScheduler J σ) : Prop where
  idle : s.state = .idle → s.worker.holding = none
  pipeline : s.PipelinePhase

theorem inPhase_create (world : σ) : (create world : JobScheduler J σ).InPhase :=
  ⟨fun _ => rfl, rfl⟩

theorem LetsGo.holds (h : s.LetsGo) : ∃ queued, s.worker.holding = some queued := by
  rw [LetsGo] at h
  split at h
  · rename_i queued hworker
    exact ⟨queued, congrArg Worker.holding hworker⟩
  · rename_i job dependencies hworker
    exact ⟨_, congrArg Worker.holding hworker⟩
  · rename_i job dependencies result hworker
    exact ⟨_, congrArg Worker.holding hworker⟩
  · exact h.elim

theorem countResult_eq (s : JobScheduler J σ) (job : J) (result : Except ErrorCode Unit) :
    ∃ totalCompleted totalFailed totalCancelled, s.countResult job result =
      { s with totalCompleted, totalFailed, totalCancelled
               ended := s.ended ++ [(job, outcome s.pipeline result)] } := by
  rcases result with error | _
  · simp only [countResult]
    split <;> exact ⟨_, _, _, rfl⟩
  · exact ⟨_, _, _, rfl⟩

/-! ## Steps of the worker -/

theorem InPhase.busy {queued : QueuedJob J} (hs : s.InPhase)
    (hholding : s.worker.holding = some queued) : s.state ≠ .idle := by
  intro hidle
  rw [hs.idle hidle] at hholding
  cases hholding

/-- A step of the worker alone that does not let go of a job. -/
theorem InPhase.goes {worker : Worker J} (hs : s.InPhase) (hkept : ¬ s.LetsGo)
    (hholding : worker.holding = s.worker.holding)
    (hphase : ({ s with worker } : JobScheduler J σ).PipelinePhase) :
    ({ s with worker } : JobScheduler J σ).InPhase ∧ Moves .work s { s with worker } :=
  ⟨⟨fun hidle => hholding.trans (hs.idle hidle), hphase⟩,
    .kept (fun _ => hkept) hholding (List.prefix_refl _)⟩

theorem popQueue_moves (hs : s.InPhase) (hworker : s.worker = .locking) :
    s.popQueue.InPhase ∧ Moves .work s s.popQueue := by
  have hready := hs.pipeline
  rw [PipelinePhase, hworker] at hready
  have hkept : ¬ s.LetsGo := by simp [LetsGo, hworker]
  have hheld : none = s.worker.holding := (congrArg Worker.holding hworker).symm
  cases hqueue : s.queue with
  | nil =>
    have hpop : s.popQueue = { s with worker := .looping } := by rw [popQueue, hqueue]
    rw [hpop]
    exact hs.goes hkept hheld hready
  | cons queued rest =>
    by_cases hstate : s.state = .running
    · have hpop : s.popQueue = { s with queue := rest, worker := .taken queued } := by
        simp [popQueue, hqueue, hstate]
      rw [hpop]
      refine ⟨⟨fun hidle => ?_, hready⟩, .took hworker hqueue⟩
      cases hstate.symm.trans hidle
    · have hpop : s.popQueue = { s with worker := .leaving } := by
        simp [popQueue, hqueue, hstate]
      rw [hpop]
      exact hs.goes hkept hheld hready

theorem startPipeline_moves {job : J} {dependencies : List String} (hs : s.InPhase)
    (hworker : s.worker = .starting job dependencies) :
    (s.startPipeline job dependencies).InPhase ∧
      Moves .work s (s.startPipeline job dependencies) := by
  have hready := hs.pipeline
  rw [PipelinePhase, hworker] at hready
  have hbusy : s.state ≠ .idle := hs.busy (congrArg Worker.holding hworker)
  have hkept : ¬ s.LetsGo := by simp [LetsGo, hworker]
  have hclear : (s.pipeline.clearJobs.addJob job).running = false := hready
  rw [startPipeline]
  simp only [hclear, Bool.false_eq_true, if_false]
  refine ⟨⟨fun hidle => absurd hidle hbusy, rfl, rfl, rfl⟩, ?_⟩
  exact .kept (fun _ => hkept) (by rw [hworker]; rfl) (List.prefix_refl _)

theorem runPipeline_moves {job : J} {dependencies : List String} (hs : s.InPhase)
    (hworker : s.worker = .running job dependencies) :
    (s.runPipeline w job dependencies).InPhase ∧
      Moves .work s (s.runPipeline w job dependencies) := by
  have hphase := hs.pipeline
  rw [PipelinePhase, hworker] at hphase
  obtain ⟨hjobs, hcompleted, hfailed⟩ := hphase
  have hbusy : s.state ≠ .idle := hs.busy (congrArg Worker.holding hworker)
  have hkept : ¬ s.LetsGo := by simp [LetsGo, hworker]
  rw [runPipeline]
  by_cases hpaused : s.pipeline.paused = true ∧ s.pipeline.cancelled = false
  · rw [if_pos hpaused]
    exact ⟨hs, .kept (fun _ => hkept) rfl (List.prefix_refl _)⟩
  · rw [if_neg hpaused]
    have hends := JobPipeline.runEnds_runJobs (w := w) 0 [job] s.pipeline
    rw [hjobs]
    refine ⟨⟨fun hidle => absurd hidle hbusy, s.pipeline, hcompleted, hfailed, hends⟩, ?_⟩
    exact .kept (fun _ => hkept) (by rw [hworker]; rfl) hends.log


theorem processQueue_moves (hs : s.InPhase) :
    (s.processQueue w).InPhase ∧ Moves .work s (s.processQueue w) := by
  have hphase := hs.pipeline
  have hidle := hs.idle
  have hstays : ¬ s.LetsGo → s.InPhase ∧ Moves .work s s := fun hkept =>
    ⟨hs, .kept (fun _ => hkept) rfl (List.prefix_refl _)⟩
  unfold PipelinePhase at hphase
  rw [processQueue]
  cases hworker : s.worker with
  | unstarted | finished | terminated => exact hstays (by simp [LetsGo, hworker])
  | looping =>
    have hkept : ¬ s.LetsGo := by simp [LetsGo, hworker]
    rw [hworker] at hphase
    dsimp only
    split <;> exact hs.goes hkept (by rw [hworker]; rfl) hphase
  | locking => exact popQueue_moves hs hworker
  | taken queued =>
    rw [hworker] at hphase
    dsimp only
    split
    · rename_i hjob
      exact ⟨⟨fun _ => rfl, hphase⟩, .dropped rfl (by simp [LetsGo, hworker, hjob])
        (by simp [hworker]) rfl⟩
    · rename_i job hjob
      have hsame : { job := some job, dependencies := queued.dependencies } = queued := by
        rw [← hjob]
      exact hs.goes (by simp [LetsGo, hworker, hjob])
        (by rw [hworker]; exact congrArg some hsame) hphase
  | testing job dependencies =>
    have hkept : ¬ s.LetsGo := by simp [LetsGo, hworker]
    rw [hworker] at hphase
    dsimp only
    split <;> exact hs.goes hkept (by rw [hworker]; rfl) hphase
  | pausing job dependencies =>
    have hkept : ¬ s.LetsGo := by simp [LetsGo, hworker]
    rw [hworker] at hphase
    dsimp only
    split
    · exact hstays hkept
    · exact hs.goes hkept (by rw [hworker]; rfl) hphase
  | woken job dependencies =>
    rw [hworker] at hphase
    dsimp only
    split
    · rename_i hstate
      exact hs.goes (by simp [LetsGo, hworker, hstate]) (by rw [hworker]; rfl) hphase
    · rename_i hstate
      exact ⟨⟨fun _ => rfl, hphase⟩, .dropped rfl (by simp [LetsGo, hworker, hstate])
        (by simp [hworker]) rfl⟩
  | starting job dependencies => exact startPipeline_moves hs hworker
  | running job dependencies => exact runPipeline_moves hs hworker
  | counting job dependencies result =>
    rw [hworker] at hphase
    obtain ⟨p, -, -, hends⟩ := hphase
    refine ⟨⟨fun _ => rfl, ?_⟩, .counted rfl hworker⟩
    dsimp only
    obtain ⟨_, _, _, hcount⟩ := countResult_eq s job result
    rw [hcount]
    exact hends.running
  | leaving =>
    rw [hworker] at hphase
    exact ⟨⟨fun _ => rfl, hphase⟩,
      .kept (fun _ => by simp [LetsGo, hworker]) (by rw [hworker]; rfl) (List.prefix_refl _)⟩

/-! ## Steps of the clients -/

/-- What others ask of the pipeline changes nothing that was counted. -/
theorem PipelinePhase.control (hphase : s.PipelinePhase) {control : Control J σ}
    (hjobs : control.jobs = s.pipeline.jobs) :
    ({ s with pipeline := { s.pipeline with toControl := control } } :
      JobScheduler J σ).PipelinePhase := by
  unfold PipelinePhase at hphase ⊢
  dsimp only
  split at hphase
  · exact ⟨hjobs.trans hphase.1, hphase.2⟩
  · obtain ⟨p, hcompleted, hfailed, hends⟩ := hphase
    exact ⟨p, hcompleted, hfailed, hends.running, hends.log, hends.ok, hends.error⟩
  · exact hphase

theorem start_moves {call : SchedulerCall J} (hs : s.InPhase) (hcall : call ≠ .work) :
    s.start.InPhase ∧ Moves call s s.start := by
  by_cases hstate : s.state = .idle
  · have hnone : none = s.worker.holding := (hs.idle hstate).symm
    have hready : s.pipeline.running = false := by
      have hphase := hs.pipeline
      unfold PipelinePhase at hphase
      cases hworker : s.worker <;> rw [hworker] at hphase hnone <;>
        first | exact hphase | cases hnone
    have hthread : ∀ worker : Worker J, worker = .looping ∨ worker = .terminated →
        ({ s with started := true, state := .running, worker } : JobScheduler J σ).InPhase ∧
          Moves call s { s with started := true, state := .running, worker } := by
      rintro worker (rfl | rfl) <;>
        exact ⟨⟨fun _ => rfl, hready⟩,
          .kept (fun hwork => absurd hwork hcall) hnone (List.prefix_refl _)⟩
    rw [start]
    simp only [ne_eq, hstate, not_true_eq_false, if_false]
    split
    · exact hthread _ (.inl rfl)
    · exact hthread _ (.inr rfl)
  · have hstart : s.start = { s with started := true } := by simp [start, hstate]
    rw [hstart]
    exact ⟨⟨hs.idle, hs.pipeline⟩,
      .kept (fun hwork => absurd hwork hcall) rfl (List.prefix_refl _)⟩

theorem proceed_moves {call : SchedulerCall J} (hs : s.InPhase) (hcall : call ≠ .work)
    (client : Client) : (s.proceed client).InPhase ∧ Moves call s (s.proceed client) := by
  have hkept : call = .work → ¬ s.LetsGo := fun hwork => absurd hwork hcall
  by_cases hclient : client ∈ s.clients
  · rw [proceed, if_pos hclient]
    have hpipeline : ∀ control : Control J σ, control.jobs = s.pipeline.jobs →
        ({ s with pipeline := { s.pipeline with toControl := control } } :
          JobScheduler J σ).PipelinePhase := fun _ => hs.pipeline.control
    cases client with
    | pausing =>
      exact ⟨⟨hs.idle, hpipeline _ rfl⟩, .kept hkept rfl (List.prefix_refl _)⟩
    | resuming =>
      refine ⟨⟨fun hidle => ?_, hs.pipeline⟩, .kept hkept rfl (List.prefix_refl _)⟩
      cases hidle
    | resumed =>
      exact ⟨⟨hs.idle, hpipeline _ rfl⟩, .kept hkept rfl (List.prefix_refl _)⟩
  · rw [proceed, if_neg hclient]
    exact ⟨hs, .kept hkept rfl (List.prefix_refl _)⟩

theorem act_moves (hs : s.InPhase) (call : SchedulerCall J) :
    (call.act w s).InPhase ∧ Moves call s (call.act w s) := by
  have hkept : call ≠ .work → call = .work → ¬ s.LetsGo := fun hcall hwork =>
    absurd hwork hcall
  rw [SchedulerCall.act.eq_def]
  cases call with
  | enqueue job => exact ⟨⟨hs.idle, hs.pipeline⟩, .pushed rfl⟩
  | enqueueWithDependencies job dependencies =>
    exact ⟨⟨hs.idle, hs.pipeline⟩, .pushed rfl⟩
  | start => exact start_moves hs nofun
  | pause =>
    refine ⟨⟨fun hidle => ?_, hs.pipeline⟩, .kept (hkept nofun) rfl (List.prefix_refl _)⟩
    cases hidle
  | resume =>
    simp only [resume]
    split <;> exact ⟨⟨hs.idle, hs.pipeline⟩, .kept (hkept nofun) rfl (List.prefix_refl _)⟩
  | proceed client =>
    have hcall : (SchedulerCall.proceed client : SchedulerCall J) ≠ .work := nofun
    exact proceed_moves hs hcall client
  | cancel jobId =>
    exact ⟨⟨hs.idle, hs.pipeline.control rfl⟩,
      .kept (hkept nofun) rfl (List.prefix_refl _)⟩
  | work => exact processQueue_moves hs

/-- Every step keeps the phases, and is one of `Moves`. -/
theorem step_moves (hs : s.InPhase) (call : SchedulerCall J) :
    (call.step w s).2.InPhase ∧ Moves call s (call.step w s).2 := by
  rw [SchedulerCall.step.eq_def]
  split
  · rename_i hworker
    exact ⟨hs, .kept (fun _ => by simp [LetsGo, hworker]) rfl (List.prefix_refl _)⟩
  · exact act_moves hs call

/-! ## Samples -/

/-- The worker after some steps, the clients having made theirs. -/
def afterSteps (calls : List (SchedulerCall String)) (steps : Nat) : JobScheduler String Unit :=
  CallRun.final (SchedulerCall.step successful) (calls ++ List.replicate steps .work) (create ())

theorem mem_afterSteps (calls : List (SchedulerCall String)) (steps : Nat) :
    CallRun.record (SchedulerCall.step successful) .work (afterSteps calls steps)
      ∈ CallRun.records (SchedulerCall.step successful)
          (calls ++ List.replicate (steps + 1) .work) (create ()) := by
  refine CallRun.mem_records.mpr ⟨calls ++ List.replicate steps .work, .work, [], ?_, rfl⟩
  rw [List.replicate_succ', List.append_assoc]

end JobScheduler

end MBootCore.Job
