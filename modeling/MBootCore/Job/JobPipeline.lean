import MBootCore.Domain.Interruption

/-!
# Job — JobPipeline

`JobPipeline` of `job/JobPipeline.cpp`: the jobs are prepared and executed one
after the other, and when one fails those before it are rolled back.

A job is a handle; what its methods do is for the surroundings to say, and so is
what other threads ask of the pipeline meanwhile. The pipeline keeps a log of
the answers. Left out are the callbacks, the progress and the history.
-/

namespace MBootCore.Job

/-- The methods of the jobs, and what goes on around the pipeline. -/
structure Surroundings (J σ : Type) where
  prepare : J → σ → Answer σ
  execute : J → σ → Answer σ
  rollback : J → σ → Answer σ
  cancel : J → σ → σ
  canRollback : J → σ → Bool
  /-- `canRollback` of the recovery policy, if the job has one. -/
  recoveryPolicy : J → σ → Option Bool
  /-- What is asked of the pipeline between two jobs. -/
  between : σ → List Request × σ
  wake : σ → Wake × σ

/-- What a job answered. -/
inductive JobEvent (J : Type) where
  | prepared (job : J) (result : Except ErrorCode Unit)
  | executed (job : J) (result : Except ErrorCode Unit)
  | rolledBack (job : J) (result : Except ErrorCode Unit)

/-- What the requests and the jobs act on. -/
structure Control (J σ : Type) where
  world : σ
  jobs : List J := []
  paused : Bool := false
  cancelled : Bool := false

structure JobPipeline (J σ : Type) extends Control J σ where
  running : Bool := false
  currentIndex : Nat := 0
  completedCount : Nat := 0
  failedCount : Nat := 0
  log : List (JobEvent J) := []

/-! ## Requests -/

namespace Control

variable {J σ : Type} (w : Surroundings J σ)

def cancel (c : Control J σ) : Control J σ :=
  { c with
    cancelled := true
    world := c.jobs.foldl (fun world job => w.cancel job world) c.world }

def pause (c : Control J σ) : Control J σ := { c with paused := true }

def resume (c : Control J σ) : Control J σ := { c with paused := false }

def request (c : Control J σ) : Request → Control J σ
  | .cancel => c.cancel w
  | .pause => c.pause
  | .resume => c.resume

/-- A method of a job, with what is asked of the pipeline meanwhile. -/
def ask (method : J → σ → Answer σ) (job : J) (c : Control J σ) :
    Except ErrorCode Unit × Control J σ :=
  let answer := method job c.world
  (answer.result, answer.requests.foldl (request w) { c with world := answer.world })

/-- A paused pipeline waits until it is resumed or cancelled. -/
def waitWhilePaused (c : Control J σ) : Control J σ :=
  if c.paused = true ∧ c.cancelled = false then
    let (wake, world) := w.wake c.world
    match wake with
    | .resumed => { c with world }.resume
    | .cancelled => { c with world }.cancel w
  else c

/-- The next job is due. -/
def due (c : Control J σ) : Control J σ :=
  let (requests, world) := w.between c.world
  (requests.foldl (request w) { c with world }).waitWhilePaused w

end Control

namespace JobPipeline

variable {J σ : Type} (w : Surroundings J σ)

def addJob (job : J) (p : JobPipeline J σ) : JobPipeline J σ := { p with jobs := p.jobs ++ [job] }

def clearJobs (p : JobPipeline J σ) : JobPipeline J σ :=
  { p with jobs := [], completedCount := 0, failedCount := 0, currentIndex := 0 }

/-! ## Jobs -/

def record (event : JobEvent J) (p : JobPipeline J σ) : JobPipeline J σ :=
  { p with log := p.log ++ [event] }

def ask (method : J → σ → Answer σ) (job : J) (p : JobPipeline J σ) :
    Except ErrorCode Unit × JobPipeline J σ :=
  let (result, control) := p.toControl.ask w method job
  (result, { p with toControl := control })

def executeJob (job : J) (p : JobPipeline J σ) : Except ErrorCode Unit × JobPipeline J σ :=
  let (result, p) := ask w w.prepare job p
  let p := p.record (.prepared job result)
  match result with
  | .error error => (.error error, p)
  | .ok () =>
    let (result, p) := ask w w.execute job p
    (result, p.record (.executed job result))

/-- One job is rolled back. -/
def rollbackJob (job : J) (lastErr : ErrorCode) (p : JobPipeline J σ) :
    ErrorCode × JobPipeline J σ :=
  if w.canRollback job p.world then
    let (result, p) := ask w w.rollback job p
    let p := p.record (.rolledBack job result)
    match result with
    | .error error => (error, p)
    | .ok () => (lastErr, p)
  else (lastErr, p)

def rollbackJobs : List J → ErrorCode → JobPipeline J σ → ErrorCode × JobPipeline J σ
  | [], lastErr, p => (lastErr, p)
  | job :: rest, lastErr, p =>
    let (lastErr, p) := rollbackJob w job lastErr p
    rollbackJobs rest lastErr p

/-- The jobs before the current one, the last one first. -/
def rollbackAll (p : JobPipeline J σ) : Except ErrorCode Unit × JobPipeline J σ :=
  let (lastErr, p) := rollbackJobs w (p.jobs.take p.currentIndex).reverse .success p
  (if lastErr ≠ .success then .error lastErr else .ok (), p)

/-- The run ends with the error of a job. -/
def fail (job : J) (error : ErrorCode) (p : JobPipeline J σ) :
    Except ErrorCode Unit × JobPipeline J σ :=
  if error = .cancelled then
    (.error .cancelled, { p with failedCount := p.failedCount + 1, running := false })
  else
    let p :=
      if (w.recoveryPolicy job p.world).getD false && w.canRollback job p.world then
        (p.rollbackAll w).2
      else p
    (.error error, { p with failedCount := p.failedCount + 1, running := false })

/-- The jobs from the given index on. -/
def runJobs : Nat → List J → JobPipeline J σ → Except ErrorCode Unit × JobPipeline J σ
  | _, [], p => (.ok (), { p with running := false })
  | index, job :: rest, p =>
    let p : JobPipeline J σ := { p with toControl := p.due w }
    if p.cancelled then (.ok (), { p with running := false })
    else
      match executeJob w job { p with currentIndex := index } with
      | (.error error, p) => p.fail w job error
      | (.ok (), p) => runJobs (index + 1) rest { p with completedCount := p.completedCount + 1 }

def start (p : JobPipeline J σ) : JobPipeline J σ :=
  { p with running := true, paused := false, cancelled := false, completedCount := 0,
           failedCount := 0 }

def run (p : JobPipeline J σ) : Except ErrorCode Unit × JobPipeline J σ :=
  if p.running then (.error .jobAlreadyRunning, p)
  else runJobs w 0 p.jobs p.start

end JobPipeline

end MBootCore.Job
