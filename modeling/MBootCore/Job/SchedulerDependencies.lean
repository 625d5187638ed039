import MBootCore.Job.SchedulerRuns

/-!
# Job — SchedulerDependencies

Does a job start only after the jobs it depends on? The worker never looks at
the dependencies: it runs the jobs in the order they were enqueued, however the
earlier ones ended. So they hold when the clients enqueue the jobs in that order
and those that others depend on succeed.
-/

namespace MBootCore.Job.JobScheduler

variable {J σ : Type} {w : Surroundings J σ} {id : J → String} {calls : List (SchedulerCall J)}
  {s s' : JobScheduler J σ}

/-- One step of a run. -/
abbrev StepRecord (J σ : Type) := CallRecord (SchedulerCall J) (JobScheduler J σ) Unit

/-- A job of that name was executed with success. -/
def Succeeded (id : J → String) (name : String) (s : JobScheduler J σ) : Prop :=
  ∃ job, id job = name ∧ .executed job (.ok ()) ∈ s.pipeline.log

/-- The pipeline starts with the job. -/
def Starts (job : J) (dependencies : List String) (r : StepRecord J σ) : Prop :=
  r.before.worker = .running job dependencies ∧
    ∃ result, r.before.pipeline.log ++ [.prepared job result] <+: r.after.pipeline.log

/-- A job that starts finds the jobs it depends on done. -/
def RespectsDependencies (id : J → String) (r : StepRecord J σ) : Prop :=
  ∀ job dependencies, Starts job dependencies r →
    ∀ name ∈ dependencies, Succeeded id name r.before

/-- Some job that is enqueued depends on the job. -/
def Needed (id : J → String) (calls : List (SchedulerCall J)) (job : J) : Prop :=
  ∃ call ∈ calls, ∃ queued, call.queued = some queued ∧ id job ∈ queued.dependencies

/-- Each dependency of a job that is enqueued names a job enqueued before. -/
def EnqueuedAfter (id : J → String) (r : StepRecord J σ) : Prop :=
  ∀ queued, r.call.queued = some queued → ∀ name ∈ queued.dependencies,
    ∃ earlier ∈ r.before.scheduled, ∃ job, earlier.job = some job ∧ id job = name

/-- The worker lets go of a job others depend on only when it has succeeded. -/
def NeededSucceeds (id : J → String) (calls : List (SchedulerCall J)) (r : StepRecord J σ) :
    Prop :=
  r.call = .work → r.before.LetsGo → ∀ job dependencies,
    r.before.worker.holding = some { job := some job, dependencies } → Needed id calls job →
      .executed job (.ok ()) ∈ r.before.pipeline.log

/-- The jobs the worker has let go of are the first ones that were enqueued, and
those among them that others depend on have succeeded. -/
structure Served (id : J → String) (calls : List (SchedulerCall J)) (s : JobScheduler J σ) :
    Prop where
  done : ∃ done, s.scheduled = done ++ (s.worker.holding.toList ++ s.queue) ∧
    ∀ queued ∈ done, ∀ job, queued.job = some job → Needed id calls job →
      .executed job (.ok ()) ∈ s.pipeline.log
  ordered : ∀ earlier queued later, s.scheduled = earlier ++ queued :: later →
    ∀ name ∈ queued.dependencies, ∃ first ∈ earlier, ∃ job, first.job = some job ∧ id job = name
  needed : ∀ queued ∈ s.scheduled, ∀ job, id job ∈ queued.dependencies → Needed id calls job

theorem served_create (world : σ) : Served id calls (create world : JobScheduler J σ) where
  done := ⟨[], rfl, nofun⟩
  ordered := by
    intro earlier queued later h
    cases earlier <;> cases h
  needed := nofun

theorem Served.push {call : SchedulerCall J} {queued : QueuedJob J} (hs : Served id calls s)
    (hcall : call ∈ calls) (hqueued : call.queued = some queued)
    (hafter : ∀ name ∈ queued.dependencies,
      ∃ earlier ∈ s.scheduled, ∃ job, earlier.job = some job ∧ id job = name) :
    Served id calls (s.push queued) where
  done := by
    obtain ⟨done, hscheduled, hdone⟩ := hs.done
    refine ⟨done, ?_, hdone⟩
    show s.scheduled ++ [queued] = done ++ (s.worker.holding.toList ++ (s.queue ++ [queued]))
    rw [hscheduled]
    simp
  ordered := by
    intro earlier other later h
    rcases List.eq_nil_or_concat later with rfl | ⟨later, last, rfl⟩
    · obtain ⟨rfl, hlast⟩ := List.append_inj' h rfl
      cases hlast
      exact hafter
    · rw [List.concat_eq_append, ← List.cons_append, ← List.append_assoc] at h
      exact hs.ordered earlier other later (List.append_inj' h rfl).1
  needed := by
    intro other hother job hname
    rcases List.mem_append.mp hother with hother | hother
    · exact hs.needed other hother job hname
    · rw [List.mem_singleton.mp hother] at hname
      exact ⟨call, hcall, queued, hqueued, hname⟩

/-- The jobs stay with the worker or in the queue, and the log grows. -/
theorem Served.of_keeps (hs : Served id calls s) (hscheduled : s'.scheduled = s.scheduled)
    (hleft : s'.worker.holding.toList ++ s'.queue = s.worker.holding.toList ++ s.queue)
    (hlog : s.pipeline.log <+: s'.pipeline.log) : Served id calls s' := by
  obtain ⟨done, hdone, hsucceeded⟩ := hs.done
  refine ⟨⟨done, by rw [hscheduled, hleft, hdone], ?_⟩, ?_, ?_⟩
  · exact fun queued hqueued job hjob hneeded =>
      hlog.subset (hsucceeded queued hqueued job hjob hneeded)
  · rw [hscheduled]
    exact hs.ordered
  · rw [hscheduled]
    exact hs.needed

/-- The worker lets go of its job. -/
theorem Served.letsGo {queued : QueuedJob J} (hs : Served id calls s)
    (hholding : s.worker.holding = some queued) (hnone : s'.worker.holding = none)
    (hscheduled : s'.scheduled = s.scheduled) (hqueue : s'.queue = s.queue)
    (hpipeline : s'.pipeline = s.pipeline)
    (hsucceeds : ∀ job, queued.job = some job → Needed id calls job →
      .executed job (.ok ()) ∈ s.pipeline.log) : Served id calls s' := by
  obtain ⟨done, hdone, hsucceeded⟩ := hs.done
  refine ⟨⟨done ++ [queued], ?_, ?_⟩, ?_, ?_⟩
  · rw [hscheduled, hnone, hqueue, hdone, hholding]
    simp
  · intro other hother
    rw [hpipeline]
    rcases List.mem_append.mp hother with hother | hother
    · exact hsucceeded other hother
    · rw [List.mem_singleton.mp hother]
      exact hsucceeds
  · rw [hscheduled]
    exact hs.ordered
  · rw [hscheduled]
    exact hs.needed

theorem Moves.served {call : SchedulerCall J} (hmoves : Moves call s s')
    (hs : Served id calls s) (hcall : call ∈ calls)
    (hafter : EnqueuedAfter id ⟨call, s, (), s'⟩)
    (hneeded : NeededSucceeds id calls ⟨call, s, (), s'⟩) : Served id calls s' := by
  have hsucceeds : ∀ queued, s.worker.holding = some queued → call = .work → s.LetsGo →
      ∀ job, queued.job = some job → Needed id calls job →
        .executed job (.ok ()) ∈ s.pipeline.log := by
    rintro ⟨_, dependencies⟩ hholding hwork hletsGo job rfl
    exact hneeded hwork hletsGo job dependencies hholding
  cases hmoves with
  | @pushed queued hqueued => exact hs.push hcall hqueued (hafter queued hqueued)
  | kept hkept hholding hlog =>
    exact hs.of_keeps rfl (congrArg (·.toList ++ s.queue) hholding) hlog
  | took hworker hqueue =>
    refine hs.of_keeps rfl ?_ (List.prefix_refl _)
    rw [hworker, hqueue]
    rfl
  | dropped hwork hletsGo hcounting hnone =>
    obtain ⟨queued, hholding⟩ := hletsGo.holds
    exact hs.letsGo hholding hnone rfl rfl rfl (hsucceeds queued hholding hwork hletsGo)
  | @counted job dependencies result hwork hworker =>
    have hletsGo : s.LetsGo := by simp [LetsGo, hworker]
    have hholding := congrArg Worker.holding hworker
    obtain ⟨_, _, _, hcount⟩ := countResult_eq s job result
    rw [hcount]
    exact hs.letsGo hholding rfl rfl rfl rfl (hsucceeds _ hholding hwork hletsGo)

theorem Served.respects {r : StepRecord J σ} (hs : Served id calls r.before) :
    RespectsDependencies id r := by
  intro job dependencies hstarts name hname
  obtain ⟨done, hscheduled, hdone⟩ := hs.done
  rw [congrArg Worker.holding hstarts.1] at hscheduled
  let running : QueuedJob J := { job := some job, dependencies }
  obtain ⟨first, hfirst, other, hother, rfl⟩ :=
    hs.ordered done running r.before.queue hscheduled name hname
  have hmember : running ∈ r.before.scheduled := by
    rw [hscheduled]
    exact List.mem_append_right _ List.mem_cons_self
  exact ⟨other, rfl, hdone first hfirst other hother (hs.needed running hmember other hname)⟩

/-- In a run in which each job is enqueued after those it depends on, and those
succeed, no job starts before those it depends on are done. -/
theorem run_respectsDependencies (w : Surroundings J σ) (id : J → String)
    (calls : List (SchedulerCall J)) (world : σ)
    (hordered : ∀ r ∈ CallRun.records (SchedulerCall.step w) calls (create world),
      EnqueuedAfter id r ∧ NeededSucceeds id calls r) :
    ∀ r ∈ CallRun.records (SchedulerCall.step w) calls (create world),
      RespectsDependencies id r := by
  have hserved := CallRun.records_invariant (fun s => s.InPhase ∧ Served id calls s)
    (fun r hr hs => by
      obtain ⟨earlier, call, later, hcalls, rfl⟩ := CallRun.mem_records.mp hr
      obtain ⟨hafter, hneeded⟩ := hordered _ hr
      obtain ⟨hphase, hmoves⟩ := step_moves (w := w) hs.1 call
      have hcall : call ∈ calls := hcalls ▸ List.mem_append_right _ List.mem_cons_self
      exact ⟨hphase, hmoves.served hs.2 hcall hafter hneeded⟩)
    ⟨inPhase_create world, served_create world⟩
  exact fun r hr => (hserved.1 r hr).1.2.respects

def backupThenFlash : List (SchedulerCall String) :=
  [.enqueue (some "backup"), .enqueueWithDependencies (some "flash") ["backup"], .start]

theorem run_respectsDependencies_backupThenFlash :
    RespectsDependencies (fun job => job) (CallRun.record (SchedulerCall.step successful) .work
      (afterSteps backupThenFlash 12)) := by
  refine run_respectsDependencies successful (fun job => job)
    (backupThenFlash ++ List.replicate 13 .work) () ?_ _ (mem_afterSteps backupThenFlash 12)
  simp [CallRun.record, EnqueuedAfter, NeededSucceeds, SchedulerCall.queued, LetsGo,
    Worker.holding, backupThenFlash, List.replicate, SchedulerCall.step, SchedulerCall.act, create,
    enqueue, enqueueWithDependencies, push, start, processQueue, popQueue, startPipeline,
    JobPipeline.clearJobs, JobPipeline.addJob, JobPipeline.start, runPipeline, JobPipeline.runJobs,
    Control.due, Control.waitWhilePaused, JobPipeline.executeJob, JobPipeline.ask, Control.ask,
    JobPipeline.record, successful, countResult, updateCounters]

def flashBeforeBackup : List (SchedulerCall String) :=
  [.enqueueWithDependencies (some "flash") ["backup"], .enqueue (some "backup"), .start]

theorem afterSteps_flashBeforeBackup :
    afterSteps flashBeforeBackup 5
      = { pipeline := { world := (), jobs := ["flash"], running := true }
          queue := [{ job := some "backup" }]
          state := .running
          worker := .running "flash" ["backup"]
          totalScheduled := 2
          scheduled := [{ job := some "flash", dependencies := ["backup"] },
            { job := some "backup" }]
          started := true } := by
  simp [afterSteps, flashBeforeBackup, List.replicate, SchedulerCall.step, SchedulerCall.act,
    create, enqueue, enqueueWithDependencies, push, start, processQueue, popQueue, startPipeline,
    JobPipeline.clearJobs, JobPipeline.addJob, JobPipeline.start]

/-- A job enqueued before the one it depends on starts first. -/
theorem run_flashBeforeBackup :
    ¬ ∀ {J σ : Type} (w : Surroundings J σ) (id : J → String) (calls : List (SchedulerCall J))
      (world : σ), ∀ r ∈ CallRun.records (SchedulerCall.step w) calls (create world),
        RespectsDependencies id r := by
  intro h
  have hrespects := h successful (fun job => job) (flashBeforeBackup ++ List.replicate 6 .work) ()
    _ (mem_afterSteps flashBeforeBackup 5)
  rw [afterSteps_flashBeforeBackup] at hrespects
  obtain ⟨job, -, hdone⟩ := hrespects "flash" ["backup"]
    ⟨rfl, .ok (), [.executed "flash" (.ok ())], rfl⟩ "backup" List.mem_cons_self
  exact List.not_mem_nil hdone

end MBootCore.Job.JobScheduler
