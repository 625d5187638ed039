import MBootCore.Job.JobPipeline

/-!
# Job — JobScheduler

`JobScheduler` of `job/JobScheduler.cpp`: clients enqueue jobs, and a worker
thread takes them from the queue and runs each in a pipeline of its own.

A step is one access to what the threads share: a read or a write of the state,
a section under the lock, a call of the pipeline. The worker and any number of
clients make their steps in any order; `stop` is left out. Waiting on the
condition variable is a step that finds the queue empty. The counters only the
worker changes, so a job is counted in one step.
-/

namespace MBootCore.Job

inductive SchedulerState where
  | idle | running | paused | shutdown
  deriving DecidableEq, Repr

/-- A job in the queue; the pointer may be null. -/
structure QueuedJob (J : Type) where
  job : Option J
  dependencies : List String := []
  deriving DecidableEq, Repr

/-- Where the worker stands in `processQueue`. -/
inductive Worker (J : Type) where
  | unstarted
  /-- At the condition of the loop. -/
  | looping
  /-- At the section under the lock. -/
  | locking
  | taken (queued : QueuedJob J)
  /-- At the test for a pause. -/
  | testing (job : J) (dependencies : List String)
  | pausing (job : J) (dependencies : List String)
  /-- The pause is over; the state is read once more. -/
  | woken (job : J) (dependencies : List String)
  | starting (job : J) (dependencies : List String)
  /-- In `run` of the pipeline, before the first job. -/
  | running (job : J) (dependencies : List String)
  | counting (job : J) (dependencies : List String) (result : Except ErrorCode Unit)
  /-- Out of the loop, before the state is set to idle. -/
  | leaving
  | finished
  /-- `std::terminate`: a thread that was not joined was replaced. -/
  | terminated

/-- How a job ended. -/
inductive JobOutcome where
  | completed | failed | cancelled
  deriving DecidableEq, Repr

/-- Where a client stands in `pause` or `resume`. -/
inductive Client where
  /-- The state is written, the pipeline is not told. -/
  | pausing
  /-- `resume` has found the state paused. -/
  | resuming
  /-- The state is written, the pipeline is not told. -/
  | resumed
  deriving DecidableEq, Repr

structure JobScheduler (J σ : Type) where
  pipeline : JobPipeline J σ
  queue : List (QueuedJob J) := []
  state : SchedulerState := .idle
  worker : Worker J := .unstarted
  /-- The calls of `pause` and `resume` under way. -/
  clients : List Client := []
  totalScheduled : Nat := 0
  totalCompleted : Nat := 0
  totalFailed : Nat := 0
  totalCancelled : Nat := 0
  /-- All jobs enqueued so far. -/
  scheduled : List (QueuedJob J) := []
  /-- The jobs that ended so far, and how. -/
  ended : List (J × JobOutcome) := []
  /-- `start` was called. -/
  started : Bool := false
  /-- The last of `pause` and `resume` to have met the state. -/
  lastRequest : Option Request := none

namespace JobScheduler

variable {J σ : Type} (w : Surroundings J σ)

/-! ## Clients -/

def push (queued : QueuedJob J) (s : JobScheduler J σ) : JobScheduler J σ :=
  { s with
    queue := s.queue ++ [queued]
    totalScheduled := s.totalScheduled + 1
    scheduled := s.scheduled ++ [queued] }

def enqueue (job : Option J) (s : JobScheduler J σ) : JobScheduler J σ := s.push { job }

def enqueueWithDependencies (job : Option J) (dependencies : List String)
    (s : JobScheduler J σ) : JobScheduler J σ :=
  s.push { job, dependencies }

def start (s : JobScheduler J σ) : JobScheduler J σ :=
  let s := { s with started := true }
  if s.state ≠ .idle then s
  else
    match s.worker with
    | .unstarted => { s with state := .running, worker := .looping }
    | _ => { s with state := .running, worker := .terminated }

/-- The first step of `pause`. -/
def pause (s : JobScheduler J σ) : JobScheduler J σ :=
  { s with state := .paused, lastRequest := some .pause, clients := .pausing :: s.clients }

/-- The first step of `resume`. -/
def resume (s : JobScheduler J σ) : JobScheduler J σ :=
  if s.state = .paused then { s with clients := .resuming :: s.clients }
  else { s with lastRequest := some .resume }

/-- The next step of a call of `pause` or `resume`. -/
def proceed (client : Client) (s : JobScheduler J σ) : JobScheduler J σ :=
  if client ∈ s.clients then
    let clients := s.clients.erase client
    match client with
    | .pausing =>
      { s with clients, pipeline := { s.pipeline with toControl := s.pipeline.pause } }
    | .resuming =>
      { s with clients := .resumed :: clients, state := .running, lastRequest := some .resume }
    | .resumed =>
      { s with clients, pipeline := { s.pipeline with toControl := s.pipeline.resume } }
  else s

/-- The job is not looked at. -/
def cancel (_ : String) (s : JobScheduler J σ) : JobScheduler J σ :=
  { s with pipeline := { s.pipeline with toControl := s.pipeline.cancel w } }

/-! ## The worker -/

/-- How the job of a pipeline ended that holds no other job. -/
def outcome (p : JobPipeline J σ) : Except ErrorCode Unit → JobOutcome
  | .ok () => if p.completedCount = 1 then .completed else .cancelled
  | .error error => if error = .cancelled then .cancelled else .failed

/-- The section under the lock. -/
def popQueue (s : JobScheduler J σ) : JobScheduler J σ :=
  match s.queue with
  | [] => { s with worker := .looping }
  | queued :: rest =>
    if s.state ≠ .running then { s with worker := .leaving }
    else { s with queue := rest, worker := .taken queued }

def startPipeline (job : J) (dependencies : List String) (s : JobScheduler J σ) :
    JobScheduler J σ :=
  let p := s.pipeline.clearJobs.addJob job
  if p.running then
    { s with pipeline := p, worker := .counting job dependencies (.error .jobAlreadyRunning) }
  else { s with pipeline := p.start, worker := .running job dependencies }

/-- A paused pipeline does not get on. -/
def runPipeline (job : J) (dependencies : List String) (s : JobScheduler J σ) :
    JobScheduler J σ :=
  if s.pipeline.paused = true ∧ s.pipeline.cancelled = false then s
  else
    let (result, pipeline) := s.pipeline.runJobs w 0 s.pipeline.jobs
    { s with pipeline, worker := .counting job dependencies result }

def updateCounters (s : JobScheduler J σ) : JobScheduler J σ :=
  { s with
    totalCompleted := s.pipeline.completedCount
    totalFailed := s.pipeline.failedCount }

def countResult (job : J) (result : Except ErrorCode Unit) (s : JobScheduler J σ) :
    JobScheduler J σ :=
  let s := { s with ended := s.ended ++ [(job, outcome s.pipeline result)] }
  match result with
  | .ok () => { s with totalCompleted := s.totalCompleted + 1 }
  | .error error =>
    if error = .cancelled then { s with totalCancelled := s.totalCancelled + 1 }
    else { s with totalFailed := s.totalFailed + 1 }

/-- The next step of the worker. -/
def processQueue (s : JobScheduler J σ) : JobScheduler J σ :=
  match s.worker with
  | .unstarted | .finished | .terminated => s
  | .looping =>
    if s.state = .running then { s with worker := .locking } else { s with worker := .leaving }
  | .locking => s.popQueue
  | .taken queued =>
    match queued.job with
    | none => { s with worker := .looping }
    | some job => { s with worker := .testing job queued.dependencies }
  | .testing job dependencies =>
    if s.state = .paused then { s with worker := .pausing job dependencies }
    else { s with worker := .starting job dependencies }
  | .pausing job dependencies =>
    if s.state = .paused then s else { s with worker := .woken job dependencies }
  | .woken job dependencies =>
    if s.state = .running then { s with worker := .starting job dependencies }
    else { s with worker := .leaving }
  | .starting job dependencies => s.startPipeline job dependencies
  | .running job dependencies => s.runPipeline w job dependencies
  | .counting job _ result =>
    { (s.countResult job result).updateCounters with worker := .looping }
  | .leaving => { s with state := .idle, worker := .finished }

/-- A scheduler that was not started. -/
def create (world : σ) : JobScheduler J σ where
  pipeline := { world }

end JobScheduler

/-- Jobs that all succeed. -/
def successful : Surroundings String Unit where
  prepare _ _ := ⟨.ok (), [], ()⟩
  execute _ _ := ⟨.ok (), [], ()⟩
  rollback _ _ := ⟨.ok (), [], ()⟩
  cancel _ _ := ()
  canRollback _ _ := false
  recoveryPolicy _ _ := none
  between _ := ([], ())
  wake _ := (.resumed, ())

/-- What happens next: a client or the worker makes a step. -/
inductive SchedulerCall (J : Type) where
  | enqueue (job : Option J)
  | enqueueWithDependencies (job : Option J) (dependencies : List String)
  | start
  | pause
  | resume
  | proceed (client : Client)
  | cancel (jobId : String)
  | work

def SchedulerCall.act {J σ : Type} (w : Surroundings J σ) (call : SchedulerCall J)
    (s : JobScheduler J σ) : JobScheduler J σ :=
  match call with
  | enqueue job => s.enqueue job
  | enqueueWithDependencies job dependencies => s.enqueueWithDependencies job dependencies
  | start => s.start
  | pause => s.pause
  | resume => s.resume
  | proceed client => s.proceed client
  | cancel jobId => s.cancel w jobId
  | work => s.processQueue w

/-- After `std::terminate` nothing happens. -/
def SchedulerCall.step {J σ : Type} (w : Surroundings J σ) (call : SchedulerCall J)
    (s : JobScheduler J σ) : Unit × JobScheduler J σ :=
  match s.worker with
  | .terminated => ((), s)
  | _ => ((), call.act w s)

end MBootCore.Job
