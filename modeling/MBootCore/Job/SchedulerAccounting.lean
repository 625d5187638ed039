import MBootCore.Job.SchedulerRuns

/-!
# Job — SchedulerAccounting

Do the totals of the scheduler add up? The worker counts each job and then
overwrites two of the totals with the counters of the pipeline, which know of
the last job only; a null job and a job left in a pause are not counted at all.
The totals are right as long as no step forgets a job (`KeepsAccount`).
-/

namespace MBootCore.Job.JobScheduler

variable {J σ : Type} {w : Surroundings J σ} {s s' : JobScheduler J σ}

/-- How many jobs ended that way. -/
def endings (s : JobScheduler J σ) (outcome : JobOutcome) : Nat :=
  (s.ended.map Prod.snd).count outcome

/-- Each job that was scheduled is in the queue, with the worker or in a total,
and the totals are right. -/
structure Accounted (s : JobScheduler J σ) : Prop where
  scheduled : s.totalScheduled = s.queue.length + s.worker.holding.toList.length
    + s.totalCompleted + s.totalFailed + s.totalCancelled
  completed : s.totalCompleted = s.endings .completed
  failed : s.totalFailed = s.endings .failed
  cancelled : s.totalCancelled = s.endings .cancelled

/-- The next step of the worker forgets no job: it drops none, and when it
counts one the totals it overwrites are those the pipeline's counters give. -/
def KeepsAccount (s : JobScheduler J σ) : Prop :=
  match s.worker with
  | .counting _ _ result =>
    s.totalCompleted = 0 ∧
      match result with
      | .ok () => s.totalFailed = 0 ∧ s.pipeline.completedCount = 1
      | .error error => s.totalFailed = if error = .cancelled then 1 else 0
  | _ => ¬ s.LetsGo

theorem accounted_create (world : σ) : Accounted (create world : JobScheduler J σ) :=
  ⟨rfl, rfl, rfl, rfl⟩

theorem Accounted.push {queued : QueuedJob J} (ha : s.Accounted) : (s.push queued).Accounted := by
  refine ⟨?_, ha.completed, ha.failed, ha.cancelled⟩
  have hscheduled := ha.scheduled
  simp only [JobScheduler.push, List.length_append, List.length_singleton]
  omega

/-- The jobs stay with the worker or in the queue. -/
theorem Accounted.of_keeps (ha : s.Accounted) {pipeline : JobPipeline J σ}
    {queue : List (QueuedJob J)} {state : SchedulerState} {worker : Worker J}
    {clients : List Client} {started : Bool} {lastRequest : Option Request}
    (hleft : queue.length + worker.holding.toList.length
      = s.queue.length + s.worker.holding.toList.length) :
    Accounted { s with pipeline, queue, state, worker, clients, started, lastRequest } := by
  refine ⟨?_, ha.completed, ha.failed, ha.cancelled⟩
  rw [hleft]
  exact ha.scheduled

theorem endings_append (s : JobScheduler J σ) (job : J) (ended outcome : JobOutcome) :
    ({ s with ended := s.ended ++ [(job, ended)] } : JobScheduler J σ).endings outcome
      = s.endings outcome + if ended = outcome then 1 else 0 := by
  by_cases h : ended = outcome <;>
    simp [endings, List.map_append, List.count_append, h]

/-- The accounts after a job has ended. -/
theorem accounted_ended_iff (s : JobScheduler J σ) (job : J) (ended : JobOutcome)
    (completed failed cancelled : Nat) :
    Accounted { s with
        totalCompleted := completed
        totalFailed := failed
        totalCancelled := cancelled
        ended := s.ended ++ [(job, ended)]
        worker := .looping } ↔
      s.totalScheduled = s.queue.length + completed + failed + cancelled ∧
        completed = s.endings .completed + (if ended = .completed then 1 else 0) ∧
        failed = s.endings .failed + (if ended = .failed then 1 else 0) ∧
        cancelled = s.endings .cancelled + if ended = .cancelled then 1 else 0 := by
  rw [← endings_append s job, ← endings_append s job, ← endings_append s job]
  exact ⟨fun h => ⟨h.scheduled, h.completed, h.failed, h.cancelled⟩,
    fun h => ⟨h.1, h.2.1, h.2.2.1, h.2.2.2⟩⟩

/-- A job is counted right when the totals before are those of no earlier job. -/
theorem counted_accounted_iff {job : J} {dependencies : List String}
    {result : Except ErrorCode Unit} (hs : s.InPhase) (ha : s.Accounted)
    (hworker : s.worker = .counting job dependencies result) :
    Accounted { (s.countResult job result).updateCounters with worker := .looping } ↔
      s.KeepsAccount := by
  have hphase := hs.pipeline
  rw [PipelinePhase, hworker] at hphase
  obtain ⟨p, hcompleted, hfailed, hends⟩ := hphase
  have hscheduled := ha.scheduled
  have htotals := And.intro ha.completed (And.intro ha.failed ha.cancelled)
  simp only [hworker, Worker.holding, Option.toList_some, List.length_singleton] at hscheduled
  rw [KeepsAccount, hworker]
  rcases result with error | _
  · obtain ⟨hnone, hone⟩ := hends.error error rfl
    simp only [hcompleted, hfailed, List.length_singleton] at hnone hone
    by_cases hcancelled : error = .cancelled
    · have hcount := accounted_ended_iff s job .cancelled s.pipeline.completedCount
        s.pipeline.failedCount (s.totalCancelled + 1)
      simp only [countResult, updateCounters, outcome, hcancelled, if_true]
      rw [hcount]
      simp only [reduceCtorEq, if_false, if_true]
      omega
    · have hcount := accounted_ended_iff s job .failed s.pipeline.completedCount
        s.pipeline.failedCount s.totalCancelled
      simp only [countResult, updateCounters, outcome, hcancelled, if_false]
      rw [hcount]
      simp only [reduceCtorEq, if_false, if_true]
      omega
  · obtain ⟨hone, hnone⟩ := hends.ok rfl
    simp only [hcompleted, hfailed, List.length_singleton] at hone hnone
    have hcount := accounted_ended_iff s job (outcome s.pipeline (.ok ()))
      s.pipeline.completedCount s.pipeline.failedCount s.totalCancelled
    refine hcount.trans ?_
    by_cases hran : s.pipeline.completedCount = 1
    · simp only [outcome, hran, if_true, reduceCtorEq, if_false, and_true]
      omega
    · simp only [outcome, hran, if_true, reduceCtorEq, if_false, and_false, iff_false]
      omega

/-- What a step does to accounts that are right. -/
theorem Moves.accounted_iff {call : SchedulerCall J} (hmoves : Moves call s s')
    (hs : s.InPhase) (ha : s.Accounted) :
    s'.Accounted ↔ (call = .work → s.KeepsAccount) := by
  have hkeeps : ¬ s.LetsGo → s.KeepsAccount := by
    intro hkept
    rw [KeepsAccount]
    split
    · rename_i hworker
      exact absurd (by simp [LetsGo, hworker]) hkept
    · exact hkept
  cases hmoves with
  | pushed hqueued =>
    refine iff_of_true ha.push fun hwork => ?_
    subst hwork
    cases hqueued
  | kept hkept hholding hlog =>
    refine iff_of_true (ha.of_keeps ?_) fun hwork => hkeeps (hkept hwork)
    rw [hholding]
  | took hworker hqueue =>
    refine iff_of_true (ha.of_keeps ?_) fun _ => hkeeps (by simp [LetsGo, hworker])
    rw [hworker, hqueue]
    rfl
  | dropped hwork hletsGo hcounting hnone =>
    refine iff_of_false ?_ ?_
    · intro hafter
      have hbefore := ha.scheduled
      have hlost := hafter.scheduled
      obtain ⟨queued, hholding⟩ := hletsGo.holds
      simp only [hnone, hholding, Option.toList_none, Option.toList_some, List.length_nil,
        List.length_singleton] at hbefore hlost
      omega
    · intro hgood
      have hkeeps := hgood hwork
      rw [KeepsAccount] at hkeeps
      split at hkeeps
      · rename_i hworker
        exact hcounting _ _ _ hworker
      · exact hkeeps hletsGo
  | counted hwork hworker =>
    rw [counted_accounted_iff hs ha hworker]
    exact ⟨fun hgood _ => hgood, fun hgood => hgood hwork⟩

/-- The accounts are right in every state of a run exactly when no step of the
worker forgets a job. -/
theorem run_accounted_iff (w : Surroundings J σ) (calls : List (SchedulerCall J)) (world : σ) :
    (∀ r ∈ CallRun.records (SchedulerCall.step w) calls (create world), r.after.Accounted) ↔
      ∀ r ∈ CallRun.records (SchedulerCall.step w) calls (create world),
        r.call = .work → r.before.KeepsAccount := by
  have hstep : ∀ r ∈ CallRun.records (SchedulerCall.step w) calls (create world),
      r.before.InPhase → r.after.InPhase ∧
        (r.before.Accounted → (r.after.Accounted ↔ (r.call = .work → r.before.KeepsAccount))) := by
    intro r hr hs
    obtain ⟨earlier, call, later, -, rfl⟩ := CallRun.mem_records.mp hr
    obtain ⟨hphase, hmoves⟩ := step_moves (w := w) hs call
    exact ⟨hphase, fun ha => hmoves.accounted_iff hs ha⟩
  constructor
  · intro haccounted
    have hruns := CallRun.records_invariant (fun s => s.InPhase ∧ s.Accounted)
      (fun r hr hs => ⟨(hstep r hr hs.1).1, haccounted r hr⟩)
      ⟨inPhase_create world, accounted_create world⟩
    intro r hr
    obtain ⟨hs, ha⟩ := (hruns.1 r hr).1
    exact ((hstep r hr hs).2 ha).mp (haccounted r hr)
  · intro hkeeps
    have hruns := CallRun.records_invariant (fun s => s.InPhase ∧ s.Accounted)
      (fun r hr hs => ⟨(hstep r hr hs.1).1, ((hstep r hr hs.1).2 hs.2).mpr (hkeeps r hr)⟩)
      ⟨inPhase_create world, accounted_create world⟩
    exact fun r hr => (hruns.1 r hr).2.2

def twoJobs : List (SchedulerCall String) :=
  [.enqueue (some "backup"), .enqueue (some "flash"), .start]

/-- Two jobs that succeed are counted as one. -/
theorem run_twoJobs :
    ¬ ∀ {J σ : Type} (w : Surroundings J σ) (calls : List (SchedulerCall J)) (world : σ),
      ∀ r ∈ CallRun.records (SchedulerCall.step w) calls (create world), r.after.Accounted := by
  intro h
  have hcompleted :=
    (h successful (twoJobs ++ List.replicate 14 .work) () _ (mem_afterSteps twoJobs 13)).completed
  simp [afterSteps, CallRun.record, endings, twoJobs, List.replicate, SchedulerCall.step,
    SchedulerCall.act, create, enqueue, push, start, processQueue, popQueue, startPipeline,
    JobPipeline.clearJobs, JobPipeline.addJob, JobPipeline.start, runPipeline, JobPipeline.runJobs,
    Control.due, Control.waitWhilePaused, JobPipeline.executeJob, JobPipeline.ask, Control.ask,
    JobPipeline.record, successful, countResult, updateCounters, outcome] at hcompleted

end MBootCore.Job.JobScheduler
