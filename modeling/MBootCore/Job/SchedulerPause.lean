import MBootCore.Job.SchedulerRuns
import Mathlib

/-!
# Job — SchedulerPause

Does a pause lose anything once it is over? The worker takes a pause for the end
of its loop when it meets one at the condition of the loop, under the lock with
a job in the queue, or right after another pause; it then ends for good, and in
the last case drops the job it holds. And `start` makes no worker during a
pause. Otherwise nothing is lost.
-/

namespace MBootCore.Job

variable {J σ : Type}

/-- The worker is in its loop. -/
def Worker.Live : Worker J → Prop
  | .unstarted | .leaving | .finished | .terminated => False
  | _ => True

namespace JobScheduler

variable {w : Surroundings J σ} {s s' : JobScheduler J σ}

/-- The jobs that were enqueued have ended, are with the worker or in the queue,
each once and in order. -/
def NoneDropped (s : JobScheduler J σ) : Prop :=
  s.scheduled.filterMap QueuedJob.job
    = s.ended.map Prod.fst
        ++ (s.worker.holding.toList ++ s.queue).filterMap QueuedJob.job

/-- After the last pause the scheduler goes on, with all jobs. -/
def Lossless (s : JobScheduler J σ) : Prop :=
  s.started = true → s.lastRequest = some .resume →
    s.state = .running ∧ s.worker.Live ∧ s.NoneDropped

/-- The next step of the worker ends its loop. -/
def Breaks (s : JobScheduler J σ) : Prop :=
  match s.worker with
  | .looping | .woken _ _ => s.state ≠ .running
  | .locking => s.queue ≠ [] ∧ s.state ≠ .running
  | _ => False

/-- The step is not caught by a pause: the worker goes on, and the first `start`
finds the scheduler idle. -/
def Uncaught (call : SchedulerCall J) (s : JobScheduler J σ) : Prop :=
  (call = .work → ¬ s.Breaks) ∧ (call = .start → s.started = false → s.state = .idle)

/-- The state follows the requests, and a worker once started is in its loop. -/
structure InStep (s : JobScheduler J σ) : Prop where
  unstarted : s.started = false → s.worker = .unstarted
  live : s.started = true → s.worker.Live ∧ s.state ≠ .idle
  shutdown : s.state ≠ .shutdown
  paused : s.state = .paused → s.lastRequest = some .pause

theorem inStep_create (world : σ) : InStep (create world : JobScheduler J σ) where
  unstarted := fun _ => rfl
  live := nofun
  shutdown := nofun
  paused := nofun

/-! ## No job is dropped -/

theorem Moves.noneDropped {call : SchedulerCall J} (hmoves : Moves call s s')
    (huncaught : Uncaught call s) (hs : s.NoneDropped) : s'.NoneDropped := by
  rw [NoneDropped] at hs ⊢
  cases hmoves with
  | @pushed queued hqueued =>
    show (s.scheduled ++ [queued]).filterMap _ = s.ended.map Prod.fst
      ++ (s.worker.holding.toList ++ (s.queue ++ [queued])).filterMap _
    rw [List.filterMap_append, hs, ← List.append_assoc s.worker.holding.toList,
      List.filterMap_append (l := _ ++ _), List.append_assoc]
  | kept hkept hholding hlog => rw [hs, hholding]
  | took hworker hqueue =>
    rw [hs, hworker, hqueue]
    rfl
  | dropped hwork hletsGo hcounting hnone =>
    have hnull : s.worker.holding.toList.filterMap QueuedJob.job = [] := by
      rw [LetsGo] at hletsGo
      split at hletsGo
      · rename_i queued hworker
        rw [hworker]
        exact List.filterMap_cons_none hletsGo
      · rename_i job dependencies hworker
        exact absurd (by simpa [Breaks, hworker] using hletsGo) (huncaught.1 hwork)
      · rename_i job dependencies result hworker
        exact absurd hworker (hcounting _ _ _)
      · exact hletsGo.elim
    rw [hs, hnone, List.filterMap_append, hnull]
    rfl
  | @counted job dependencies result hwork hworker =>
    obtain ⟨_, _, _, hcount⟩ := countResult_eq s job result
    rw [hcount]
    simp only [updateCounters]
    rw [hs, hworker]
    simp [Worker.holding]

/-! ## The worker goes on -/

/-- The worker has moved, and what the clients see has not. -/
def Goes (s s' : JobScheduler J σ) : Prop :=
  s'.worker.Live ∧ s'.state = s.state ∧ s'.started = s.started ∧ s'.lastRequest = s.lastRequest

theorem popQueue_goes (hworker : s.worker = .locking) (hgoes : ¬ s.Breaks) :
    Goes s s.popQueue := by
  rw [Breaks, hworker] at hgoes
  cases hqueue : s.queue with
  | nil =>
    rw [popQueue, hqueue]
    exact ⟨trivial, rfl, rfl, rfl⟩
  | cons queued rest =>
    have hstate : s.state = .running :=
      Decidable.byContradiction fun hstate => hgoes ⟨by simp [hqueue], hstate⟩
    rw [popQueue, hqueue]
    simp only [hstate, ne_eq, not_true_eq_false, if_false]
    exact ⟨trivial, hstate.symm, rfl, rfl⟩

theorem processQueue_goes (hlive : s.worker.Live) (hgoes : ¬ s.Breaks) :
    Goes s (s.processQueue w) := by
  have hmoved : ∀ worker : Worker J, worker.Live → Goes s { s with worker } :=
    fun _ h => ⟨h, rfl, rfl, rfl⟩
  rw [processQueue]
  cases hworker : s.worker with
  | unstarted | leaving | finished | terminated =>
    rw [hworker] at hlive
    exact hlive.elim
  | looping =>
    have hstate : s.state = .running := by simpa [Breaks, hworker] using hgoes
    simp only [hstate, if_true]
    exact ⟨trivial, hstate.symm, rfl, rfl⟩
  | locking => exact popQueue_goes hworker hgoes
  | taken queued =>
    dsimp only
    split <;> exact hmoved _ trivial
  | testing job dependencies =>
    dsimp only
    split <;> exact hmoved _ trivial
  | pausing job dependencies =>
    dsimp only
    split
    · exact ⟨hlive, rfl, rfl, rfl⟩
    · exact hmoved _ trivial
  | woken job dependencies =>
    have hstate : s.state = .running := by simpa [Breaks, hworker] using hgoes
    simp only [hstate, if_true]
    exact ⟨trivial, hstate.symm, rfl, rfl⟩
  | starting job dependencies =>
    simp only [startPipeline]
    split <;> exact ⟨trivial, rfl, rfl, rfl⟩
  | running job dependencies =>
    simp only [runPipeline]
    split
    · exact ⟨hlive, rfl, rfl, rfl⟩
    · exact ⟨trivial, rfl, rfl, rfl⟩
  | counting job dependencies result =>
    obtain ⟨_, _, _, hcount⟩ := countResult_eq s job result
    dsimp only
    rw [hcount]
    exact ⟨trivial, rfl, rfl, rfl⟩

theorem Goes.inStep (hs : s.InStep) (hgoes : Goes s s') (hstarted : s.started = true) :
    s'.InStep := by
  obtain ⟨hlive, hstate, hsame, hrequest⟩ := hgoes
  refine ⟨fun h => ?_, fun _ => ⟨hlive, ?_⟩, ?_, ?_⟩
  · rw [hsame, hstarted] at h
    cases h
  · rw [hstate]
    exact (hs.live hstarted).2
  · rw [hstate]
    exact hs.shutdown
  · rw [hstate, hrequest]
    exact hs.paused

/-! ## The clients -/

theorem InStep.start (hs : s.InStep)
    (hidle : s.started = false → s.state = .idle) : s.start.InStep := by
  cases hstarted : s.started with
  | true =>
    obtain ⟨hlive, hstate⟩ := hs.live hstarted
    have hsame : s.start = s := by
      rw [JobScheduler.start]
      simp only [ne_eq, hstate, not_false_eq_true, if_true, ← hstarted]
    rw [hsame]
    exact hs
  | false =>
    rw [JobScheduler.start]
    simp only [hidle hstarted, hs.unstarted hstarted, ne_eq, not_true_eq_false, if_false]
    exact ⟨fun h => (by cases h), fun _ => ⟨trivial, fun h => by cases h⟩, fun h => (by cases h),
      fun h => by cases h⟩

theorem InStep.proceed (hs : s.InStep) (client : Client) : (s.proceed client).InStep := by
  by_cases hclient : client ∈ s.clients
  · rw [JobScheduler.proceed, if_pos hclient]
    cases client with
    | pausing | resumed => exact ⟨hs.unstarted, hs.live, hs.shutdown, hs.paused⟩
    | resuming =>
      exact ⟨hs.unstarted, fun h => ⟨(hs.live h).1, fun h => by cases h⟩, fun h => (by cases h),
        fun h => by cases h⟩
  · rw [JobScheduler.proceed, if_neg hclient]
    exact hs

theorem InStep.step (hs : s.InStep) {call : SchedulerCall J} (huncaught : Uncaught call s) :
    (call.step w s).2.InStep := by
  rw [SchedulerCall.step.eq_def]
  split
  · exact hs
  · cases call with
    | enqueue job | enqueueWithDependencies job dependencies | cancel jobId =>
      exact ⟨hs.unstarted, hs.live, hs.shutdown, hs.paused⟩
    | start => exact hs.start (huncaught.2 rfl)
    | pause =>
      exact ⟨hs.unstarted, fun h => ⟨(hs.live h).1, fun h => by cases h⟩, fun h => (by cases h),
        fun _ => rfl⟩
    | resume =>
      show s.resume.InStep
      rw [resume]
      split
      · exact ⟨hs.unstarted, hs.live, hs.shutdown, hs.paused⟩
      · rename_i hstate
        exact ⟨hs.unstarted, hs.live, hs.shutdown, fun h => absurd h hstate⟩
    | proceed client => exact hs.proceed client
    | work =>
      cases hstarted : s.started with
      | true => exact (processQueue_goes (hs.live hstarted).1 (huncaught.1 rfl)).inStep hs hstarted
      | false =>
        show (s.processQueue w).InStep
        rw [processQueue, hs.unstarted hstarted]
        exact hs

theorem InStep.lossless (hs : s.InStep) (hnone : s.NoneDropped) : s.Lossless := by
  intro hstarted hresumed
  obtain ⟨hlive, hidle⟩ := hs.live hstarted
  refine ⟨?_, hlive, hnone⟩
  cases hstate : s.state with
  | running => rfl
  | idle => exact absurd hstate hidle
  | shutdown => exact absurd hstate hs.shutdown
  | paused =>
    rw [hs.paused hstate] at hresumed
    cases hresumed

/-- In a run in which no step is caught by a pause, a pause that is over has
lost nothing. -/
theorem run_lossless (w : Surroundings J σ) (calls : List (SchedulerCall J)) (world : σ)
    (huncaught : ∀ r ∈ CallRun.records (SchedulerCall.step w) calls (create world),
      Uncaught r.call r.before) :
    ∀ r ∈ CallRun.records (SchedulerCall.step w) calls (create world), r.after.Lossless := by
  have hruns := CallRun.records_invariant
    (fun s : JobScheduler J σ => s.InPhase ∧ s.InStep ∧ s.NoneDropped)
    (fun r hr hs => by
      have hgoes := huncaught r hr
      obtain ⟨earlier, call, later, -, rfl⟩ := CallRun.mem_records.mp hr
      obtain ⟨hphase, hmoves⟩ := step_moves (w := w) hs.1 call
      exact ⟨hphase, hs.2.1.step hgoes, hmoves.noneDropped hgoes hs.2.2⟩)
    ⟨inPhase_create world, inStep_create world, rfl⟩
  exact fun r hr => (hruns.1 r hr).2.2.1.lossless (hruns.1 r hr).2.2.2

/-- A pause while the worker holds a job, over before the worker looks again. -/
def pausedHolding : List (SchedulerCall String) :=
  [.enqueue (some "flash"), .start, .work, .work, .work, .pause, .proceed .pausing, .work, .work,
    .resume, .proceed .resuming, .proceed .resumed, .work]

theorem run_lossless_pausedHolding : (afterSteps pausedHolding 3).Lossless := by
  refine run_lossless successful (pausedHolding ++ List.replicate 3 .work) () ?_ _
    (mem_afterSteps pausedHolding 2)
  simp [CallRun.record, Uncaught, Breaks, pausedHolding, List.replicate, SchedulerCall.step,
    SchedulerCall.act, create, enqueue, push, start, pause, resume, proceed,
      JobScheduler.processQueue,
    popQueue, startPipeline, JobPipeline.clearJobs, JobPipeline.addJob, JobPipeline.start,
    Control.pause, Control.resume]

/-- A pause that the worker meets at the condition of its loop. -/
def pausedLooping : List (SchedulerCall String) :=
  [.enqueue (some "flash"), .start, .pause, .proceed .pausing, .work, .work, .resume]

/-- The worker has ended, and `resume` finds the scheduler idle. -/
theorem run_pausedLooping :
    ¬ ∀ {J σ : Type} (w : Surroundings J σ) (calls : List (SchedulerCall J)) (world : σ),
      ∀ r ∈ CallRun.records (SchedulerCall.step w) calls (create world), r.after.Lossless := by
  intro h
  have hstate := (h successful (pausedLooping ++ List.replicate 1 .work) () _
    (mem_afterSteps pausedLooping 0) rfl rfl).1
  cases hstate

end JobScheduler

end MBootCore.Job
