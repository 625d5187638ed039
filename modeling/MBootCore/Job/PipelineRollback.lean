import MBootCore.Job.FaithfulJobs
import MBootCore.Job.PipelineLog
import Mathlib.Data.List.Basic

/-!
# Job — PipelineRollback

What a pipeline of generic jobs that fails leaves of the partitions. A job that
restores or erases a partition reads it first and writes that copy back when it
is rolled back; a flash keeps no copy, and the job that fails is not rolled
back. Of each byte the copy written last is the oldest one, so nothing is lost
as long as each byte was copied before, or when, a job changed it
(`restored_iff`).
-/

namespace MBootCore.Job

variable {τ : Type}

/-! ## Copies -/

/-- The copy the job writes back when it is rolled back, and where. -/
def GenericJob.copy (region : String → Option (Nat × Nat)) (job : GenericJob) :
    Option (Nat × ByteBuffer) :=
  if job.canRollback = false ∨ job.originalData = [] then none
  else
    match job.kind with
    | .restore _ => (region job.partitionName).map fun r => (r.1, job.originalData)
    | .erase =>
      if job.backedUp then (region job.partitionName).map fun r => (r.1, job.originalData)
      else none
    | .gptUpdate => if job.backedUp then some (0, job.originalData) else none
    | .flash _ | .backup | .read | .verify _ | .programmerUpload _ => none

/-- Byte `i` of the first copy that has it, or else of the memory. -/
def oldest (copies : List (Nat × ByteBuffer)) (store : ByteStore) (i : Nat) : UInt8 :=
  match copies.find? fun copy => copy.1 ≤ i ∧ i < copy.1 + copy.2.length with
  | some copy => copy.2.getD (i - copy.1) 0
  | none => store i

theorem foldr_overlay (copies : List (Nat × ByteBuffer)) (store : ByteStore) :
    copies.foldr (fun copy store => store.overlay copy.1 copy.2) store = oldest copies store := by
  induction copies with
  | nil => rfl
  | cons copy copies ih =>
    rw [List.foldr_cons, ih]
    funext i
    by_cases h : copy.1 ≤ i ∧ i < copy.1 + copy.2.length
    · rw [ByteStore.overlay_inside h.1 h.2]
      simp only [oldest, List.find?_cons, decide_eq_true h]
    · rw [ByteStore.overlay, if_neg h]
      simp only [oldest, List.find?_cons, decide_eq_false h]

/-- One of the copies has byte `i`. -/
def Has (copies : List (Nat × ByteBuffer)) (i : Nat) : Prop :=
  ∃ copy ∈ copies, copy.1 ≤ i ∧ i < copy.1 + copy.2.length

/-- The copies have all bytes of the extent, if there is one. -/
def Covers (copies : List (Nat × ByteBuffer)) (extent : Option (Nat × Nat)) : Prop :=
  ∀ address size, extent = some (address, size) →
    ∀ i, address ≤ i → i < address + size → Has copies i

theorem find_of_not_has {copies : List (Nat × ByteBuffer)} {i : Nat} (h : ¬ Has copies i) :
    copies.find? (fun copy => copy.1 ≤ i ∧ i < copy.1 + copy.2.length) = none := by
  rw [List.find?_eq_none]
  intro copy hcopy hbyte
  exact h ⟨copy, hcopy, of_decide_eq_true hbyte⟩

theorem oldest_of_not_has {copies : List (Nat × ByteBuffer)} {i : Nat} (h : ¬ Has copies i)
    (store : ByteStore) : oldest copies store i = store i := by
  rw [oldest, find_of_not_has h]

theorem oldest_append {copies : List (Nat × ByteBuffer)} {i : Nat} (h : Has copies i)
    (rest : List (Nat × ByteBuffer)) (store store' : ByteStore) :
    oldest (copies ++ rest) store' i = oldest copies store i := by
  obtain ⟨copy, hcopy, hbyte⟩ := h
  obtain ⟨first, hfirst⟩ : ∃ first,
      copies.find? (fun copy => copy.1 ≤ i ∧ i < copy.1 + copy.2.length) = some first := by
    rw [← Option.isSome_iff_exists, List.find?_isSome]
    exact ⟨copy, hcopy, decide_eq_true hbyte⟩
  rw [oldest, oldest, List.find?_append, hfirst, Option.some_or]

theorem oldest_congr {copies : List (Nat × ByteBuffer)} {store store' : ByteStore}
    (hsame : ∀ i, ¬ Has copies i → store' i = store i) :
    oldest copies store' = oldest copies store := by
  funext i
  by_cases hhas : Has copies i
  · have happend := oldest_append hhas [] store store'
    rwa [List.append_nil] at happend
  · rw [oldest_of_not_has hhas, oldest_of_not_has hhas, hsame i hhas]

/-- With one more copy of what the store holds, the oldest bytes stay what they
were if what is changed has been copied. -/
theorem oldest_snoc {copies : List (Nat × ByteBuffer)} {copy : Option (Nat × ByteBuffer)}
    {store store' : ByteStore}
    (hcopy : ∀ c, copy = some c → ∀ i, c.1 ≤ i → i < c.1 + c.2.length → ¬ Has copies i →
      c.2.getD (i - c.1) 0 = store i)
    (hsame : ∀ i, ¬ Has (copies ++ copy.toList) i → store' i = store i) :
    oldest (copies ++ copy.toList) store' = oldest copies store := by
  funext i
  by_cases hearlier : Has copies i
  · exact oldest_append hearlier _ _ _
  rw [oldest_of_not_has hearlier]
  by_cases hhas : Has (copies ++ copy.toList) i
  · -- the last copy is the first one that has the byte
    obtain ⟨c, hc, hlo, hhi⟩ := hhas
    have hlast : copy = some c := by
      rcases List.mem_append.mp hc with hc | hc
      · exact absurd ⟨c, hc, hlo, hhi⟩ hearlier
      · exact Option.mem_toList.mp hc
    rw [oldest, List.find?_append, find_of_not_has hearlier, Option.none_or, hlast]
    simp only [Option.toList_some, List.find?_cons, hlo, hhi, and_self, decide_true]
    exact hcopy c hlast i hlo hhi hearlier
  · rw [oldest_of_not_has hhas, hsame i hhas]

section
variable {ctx : JobContext τ} {memory : τ → ByteStore} {region : String → Option (Nat × Nat)}

theorem GenericJob.copy_lasting {job job' : GenericJob} (h : job'.lasting = job.lasting) :
    job'.copy region = job.copy region := by
  have hcopy := congrArg (GenericJob.copy region) h
  exact hcopy

theorem eq_ok_of_toOption {r : Except ErrorCode ByteBuffer} {data : ByteBuffer}
    (h : r.toOption = some data) : r = .ok data := by
  cases r with
  | error e => cases h
  | ok a =>
    cases h
    rfl

/-- What a job has read is a copy of what it has found. -/
theorem keeping_copy (hfaithful : Faithful memory region ctx) {job : GenericJob} {device : τ}
    {data : ByteBuffer} (hdata : job.original ctx device = some data) {copy : Nat × ByteBuffer}
    (hcopy : (job.keeping ctx device).copy region = some copy) :
    copy.2 = (memory device).slice copy.1 copy.2.length := by
  rw [GenericJob.keeping, hdata, GenericJob.withOriginal, GenericJob.copy] at hcopy
  split at hcopy
  · cases hcopy
  rw [GenericJob.original] at hdata
  have hpartition : (ctx.flashDevice.readPartition job.partitionName device).1.toOption
      = some data → (region job.partitionName).map (fun r => (r.1, data)) = some copy →
        copy.2 = (memory device).slice copy.1 copy.2.length := by
    intro hread hregion
    obtain ⟨address, size, hsome, hslice⟩ :=
      (hfaithful.readPartition job.partitionName device).2 data (eq_ok_of_toOption hread)
    rw [hsome, Option.map_some, Option.some.injEq] at hregion
    subst hregion
    simp only [hslice, ByteStore.slice_length]
  cases hkind : job.kind with
  | restore =>
    simp only [hkind] at hcopy hdata
    exact hpartition hdata hcopy
  | erase =>
    simp only [hkind, if_true] at hcopy hdata
    exact hpartition hdata hcopy
  | gptUpdate =>
    simp only [hkind, if_true, Option.some.injEq] at hcopy hdata
    subst hcopy
    exact readPrimary_slice hfaithful (eq_ok_of_toOption hdata)
  | flash | backup | read | verify | programmerUpload => simp [hkind] at hcopy

/-! ## The rollback of one job -/

/-- A rollback that succeeds writes the copy of the job back. -/
theorem rollback_copy (hfaithful : Faithful memory region ctx) {job : GenericJob} {s : AtWork τ}
    (hallowed : job.canRollback = true) (hok : (job.rollback ctx s).1 = .ok ()) :
    (job.rollback ctx s).2.job = s.job ∧
      memory (job.rollback ctx s).2.device
        = match job.copy region with
          | some copy => (memory s.device).overlay copy.1 copy.2
          | none => memory s.device := by
  by_cases hkept : job.originalData = []
  · have hcopy : job.copy region = none := if_pos (.inr hkept)
    rw [hcopy]
    cases hkind : job.kind <;>
      simp [GenericJob.rollback, hkind, FlashJob.rollback, BackupJob.rollback, RestoreJob.rollback,
        ReadJob.rollback, EraseJob.rollback, VerifyJob.rollback, GPTUpdateJob.rollback,
        ProgrammerUploadJob.rollback, hkept]
  · have hcopy : ¬ (job.canRollback = false ∨ job.originalData = []) := by simp [hallowed, hkept]
    rw [GenericJob.copy, if_neg hcopy]
    rw [GenericJob.rollback] at hok ⊢
    cases hkind : job.kind with
    | restore =>
      simp only [hkind, RestoreJob.rollback, if_pos hkept] at hok ⊢
      obtain ⟨hjob, address, size, hregion, hmemory⟩ := restore_write hfaithful hok
      simp only [hregion, Option.map_some]
      exact ⟨hjob, hmemory⟩
    | erase =>
      simp only [hkind, EraseJob.rollback] at hok ⊢
      by_cases hbacked : job.backedUp = true
      · rw [if_pos ⟨hbacked, hkept⟩] at hok ⊢
        obtain ⟨address, size, hregion, -, hmemory⟩ :=
          (hfaithful.writePartition job.partitionName job.originalData s.device).1 hok
        simp only [hbacked, if_true, hregion, Option.map_some]
        exact ⟨rfl, hmemory⟩
      · rw [if_neg fun h => hbacked h.1]
        simp [hbacked]
    | gptUpdate =>
      simp only [hkind, GPTUpdateJob.rollback] at hok ⊢
      by_cases hbacked : job.backedUp = true
      · rw [if_pos ⟨hbacked, hkept⟩] at hok ⊢
        simp only [hbacked, if_true]
        exact ⟨rfl, (hfaithful.writeMemory 0 job.originalData s.device).1 hok⟩
      · rw [if_neg fun h => hbacked h.1]
        simp [hbacked]
    | flash | backup | read | verify | programmerUpload =>
      simp [FlashJob.rollback, BackupJob.rollback, ReadJob.rollback, VerifyJob.rollback,
        ProgrammerUploadJob.rollback]

/-! ## The rollback of the jobs -/

/-- The copies are written, the first one first. -/
def writeBack (copies : List (Nat × ByteBuffer)) (store : ByteStore) : ByteStore :=
  copies.foldl (fun store copy => store.overlay copy.1 copy.2) store

theorem ask_rollback (hfaithful : Faithful memory region ctx) {place : Nat}
    {c : Control Nat (JobWorld τ)} (hallowed : (c.world.jobs place).canRollback = true)
    (hok : (c.ask (genericSurroundings ctx) (genericSurroundings ctx).rollback place).1
      = .ok ()) :
    let c' := (c.ask (genericSurroundings ctx) (genericSurroundings ctx).rollback place).2
    SameJobs c.world c'.world ∧
      memory c'.world.device
        = writeBack ((c.world.jobs place).copy region).toList (memory c.world.device) := by
  obtain ⟨hresult, hdevice, hjobs⟩ := ask_same ctx (GenericJob.rollback ctx) place c
  obtain ⟨hjob, hmemory⟩ := rollback_copy (s := ⟨c.world.jobs place, c.world.device⟩) hfaithful
    hallowed (hresult.symm.trans hok)
  refine ⟨SameJobs.trans (fun other => ?_) hjobs, (congrArg memory hdevice).trans
    (hmemory.trans ?_)⟩
  · simp only [answer, hjob]
    split
    · rename_i heq
      rw [heq]
    · rfl
  · cases (c.world.jobs place).copy region <;> rfl

/-- Rollbacks that all succeed write the copies of their jobs back. -/
theorem rollbackJobs_writesBack (hfaithful : Faithful memory region ctx) (places : List Nat)
    (lastErr : ErrorCode) (p : JobPipeline Nat (JobWorld τ))
    (hok : ∀ place result, .rolledBack place result ∈
      (p.rollbackJobs (genericSurroundings ctx) places lastErr).2.log → result = .ok ()) :
    memory (p.rollbackJobs (genericSurroundings ctx) places lastErr).2.world.device
      = writeBack (places.filterMap fun place => (p.world.jobs place).copy region)
          (memory p.world.device) := by
  induction places generalizing lastErr p with
  | nil => rfl
  | cons place rest ih =>
    rw [JobPipeline.rollbackJobs] at hok ⊢
    have hrest := ih (p.rollbackJob (genericSurroundings ctx) place lastErr).1
      (p.rollbackJob (genericSurroundings ctx) place lastErr).2 hok
    by_cases hallowed : (genericSurroundings ctx).canRollback place p.world = true
    · have hstate := JobPipeline.rollbackJob_state hallowed lastErr
      have hlogged : .rolledBack place (p.ask (genericSurroundings ctx)
          (genericSurroundings ctx).rollback place).1
            ∈ (p.rollbackJob (genericSurroundings ctx) place lastErr).2.log := by
        rw [hstate]
        exact List.mem_append_right _ List.mem_cons_self
      have hresult := hok _ _ ((JobPipeline.extends_rollbackJobs rest _ _).log.subset hlogged)
      obtain ⟨hjobs, hmemory⟩ := ask_rollback hfaithful hallowed hresult
      have hsame : (fun other =>
          (((p.rollbackJob (genericSurroundings ctx) place lastErr).2).world.jobs other).copy
            region) = fun other => (p.world.jobs other).copy region := by
        rw [hstate]
        exact funext fun other => GenericJob.copy_lasting (hjobs other)
      have hdevice : memory (p.rollbackJob (genericSurroundings ctx) place lastErr).2.world.device
          = writeBack ((p.world.jobs place).copy region).toList (memory p.world.device) := by
        rw [hstate]
        exact hmemory
      rw [hsame, hdevice] at hrest
      rw [hrest, List.filterMap_cons]
      cases (p.world.jobs place).copy region <;> rfl
    · have hcopy : (p.world.jobs place).copy region = none :=
        if_pos (.inl (Bool.eq_false_iff.mpr hallowed))
      rw [List.filterMap_cons, hcopy]
      rw [JobPipeline.rollbackJob, if_neg hallowed] at hrest ⊢
      exact hrest

end

/-! ## The run -/

namespace JobPipeline

variable {J σ : Type}

/-- A run that fails: the jobs that are done before, each with the world in which it
was executed, the job that fails with its world and its error, and the pipeline
that it leaves. -/
structure Failure (J σ : Type) where
  done : List (J × σ) := []
  job : J
  world : σ
  error : ErrorCode
  pipeline : JobPipeline J σ

variable (w : Surroundings J σ)

/-- The world in which a job that is due is executed. -/
def readied (job : J) (c : Control J σ) : σ := (c.ask w w.prepare job).2.world

def failure : Nat → List J → JobPipeline J σ → Option (Failure J σ)
  | _, [], _ => none
  | index, job :: rest, p =>
    let p : JobPipeline J σ := { p with toControl := p.due w }
    if p.cancelled then none
    else
      match executeJob w job { p with currentIndex := index } with
      | (.error error, pipeline) =>
        some { job, world := readied w job p.toControl, error, pipeline }
      | (.ok (), p') =>
        (failure (index + 1) rest { p' with completedCount := p'.completedCount + 1 }).map
          fun f => { f with done := (job, readied w job p.toControl) :: f.done }

variable {w}

theorem runJobs_failure {index : Nat} {jobs : List J} {p : JobPipeline J σ} {f : Failure J σ}
    (h : failure w index jobs p = some f) :
    runJobs w index jobs p = f.pipeline.fail w f.job f.error := by
  induction jobs generalizing index p f with
  | nil => cases h
  | cons first rest ih =>
    rw [failure] at h
    rw [runJobs]
    simp only at h ⊢
    split at h
    · cases h
    · rename_i hdue
      rw [if_neg hdue]
      rcases hr : executeJob w first _ with ⟨failed | _, p₂⟩ <;> rw [hr] at h
      · cases h
        rfl
      · obtain ⟨f', hf', rfl⟩ := Option.map_eq_some_iff.mp h
        have hrun := ih hf'
        exact hrun

/-- A job fails when it is prepared, or else ends as its execution does. -/
theorem executeJob_control (w : Surroundings J σ) (job : J) (p : JobPipeline J σ) :
    let prepared := p.toControl.ask w w.prepare job
    let executed := prepared.2.ask w w.execute job
    (executeJob w job p).2.currentIndex = p.currentIndex ∧
      ((prepared.1 ≠ .ok () ∧ (executeJob w job p).1 ≠ .ok () ∧
          (executeJob w job p).2.toControl = prepared.2) ∨
        prepared.1 = .ok () ∧ (executeJob w job p).1 = executed.1 ∧
          (executeJob w job p).2.toControl = executed.2) := by
  rw [executeJob, ask]
  rcases p.toControl.ask w w.prepare job with ⟨error | _, c⟩
  · exact ⟨rfl, .inl ⟨by simp, by simp, rfl⟩⟩
  · exact ⟨rfl, .inr ⟨rfl, rfl, rfl⟩⟩

theorem jobs_executeJob (job : J) (p : JobPipeline J σ) :
    (executeJob w job p).2.jobs = p.jobs := by
  have hprepared := jobs_ask (w := w) w.prepare job p.toControl
  rw [executeJob, ask]
  rcases hask : p.toControl.ask w w.prepare job with ⟨error | _, c⟩ <;> rw [hask] at hprepared
  · exact hprepared
  · exact (jobs_ask w.execute job c).trans hprepared

end JobPipeline

section
variable (ctx : JobContext τ) (memory : τ → ByteStore) (region : String → Option (Nat × Nat))

/-- The partitions the jobs write or erase hold what they held. -/
def Restored (jobs : List GenericJob) (before after : τ) : Prop :=
  ∀ job ∈ jobs, job.writes = true → ∀ address size,
    region job.partitionName = some (address, size) →
      (memory after).slice address size = (memory before).slice address size

/-- The copies with which a run that ends with the error is rolled back, the oldest
one first: none if it was cancelled. -/
def kept (error : ErrorCode) (places : List Nat) (world : JobWorld τ) :
    List (Nat × ByteBuffer) :=
  if error = .cancelled then [] else places.filterMap fun place => (world.jobs place).copy region

/-- The copy of these that a job adds when it is done. -/
def GenericJob.saved (error : ErrorCode) (job : GenericJob) (device : τ) :
    Option (Nat × ByteBuffer) :=
  if error = .cancelled then none else (job.keeping ctx device).copy region

/-- Each byte that the device changes when it answers the job is in the copies. -/
def Covered (copies : List (Nat × ByteBuffer)) (job : GenericJob) (device : τ) : Prop :=
  ∀ i, memory (job.answered ctx device) i ≠ memory device i → Has copies i

/-- A job that is done loses nothing: an older copy that it still holds has no byte
before the others, and what it changes is in the copies taken up to now, its own
included. -/
structure Secures (error : ErrorCode) (copies : List (Nat × ByteBuffer)) (job : GenericJob)
    (device : τ) : Prop where
  fresh : job.original ctx device = none → Covers copies
    ((job.saved ctx region error device).map fun copy => (copy.1, copy.2.length))
  covered : Covered ctx memory (copies ++ (job.saved ctx region error device).toList) job device

/-- A job that fails loses nothing: it does not come to write, or what it changes is
in the copies of the jobs before. -/
inductive Spares (copies : List (Nat × ByteBuffer)) (job : GenericJob) (device : τ) : Prop
  | unprepared (h : (job.prepare (⟨job, device⟩ : AtWork τ)).1 ≠ .ok ())
  | cancelled (h : job.cancelled = true)
  | covered (h : Covered ctx memory copies job device)

/-- None of these jobs loses anything, each in the world in which it is executed. -/
def SecuredFrom (error : ErrorCode) :
    List (Nat × ByteBuffer) → List (Nat × JobWorld τ) → Prop
  | _, [] => True
  | copies, (place, world) :: rest =>
    Secures ctx memory region error copies (world.jobs place) world.device ∧
      SecuredFrom error
        (copies ++ ((world.jobs place).saved ctx region error world.device).toList) rest

/-- The jobs that are done before a run fails lose nothing. -/
def JobPipeline.Failure.Secured (f : JobPipeline.Failure Nat (JobWorld τ)) : Prop :=
  SecuredFrom ctx memory region f.error [] f.done

/-- The copies that the jobs have taken when the run fails, the oldest one first. -/
def JobPipeline.Failure.copies (f : JobPipeline.Failure Nat (JobWorld τ)) :
    List (Nat × ByteBuffer) :=
  f.done.flatMap fun d => ((d.2.jobs d.1).saved ctx region f.error d.2.device).toList

end

section
variable {ctx : JobContext τ} {memory : τ → ByteStore} {region : String → Option (Nat × Nat)}

/-- What a run that fails leaves in the memory. -/
theorem memory_fail (hfaithful : Faithful memory region ctx)
    {p : JobPipeline Nat (JobWorld τ)} {place : Nat} {error : ErrorCode}
    (hallowed : (p.world.jobs place).canRollback = true)
    (hrolled : ∀ other result, .rolledBack other result ∈
      (p.fail (genericSurroundings ctx) place error).2.log → result = .ok ()) :
    memory (p.fail (genericSurroundings ctx) place error).2.world.device
      = oldest (kept region error (p.jobs.take p.currentIndex) p.world)
          (memory p.world.device) := by
  rw [JobPipeline.fail] at hrolled ⊢
  rw [kept]
  by_cases hcancelled : error = .cancelled
  · rw [if_pos hcancelled, if_pos hcancelled]
    rfl
  · have hpolicy : (((genericSurroundings ctx).recoveryPolicy place p.world).getD false
        && (genericSurroundings ctx).canRollback place p.world) = true :=
      Bool.and_eq_true_iff.mpr ⟨hallowed, hallowed⟩
    rw [if_neg hcancelled, if_pos hpolicy] at hrolled ⊢
    rw [if_neg hcancelled, ← foldr_overlay]
    have hwritten := rollbackJobs_writesBack hfaithful (p.jobs.take p.currentIndex).reverse
      .success p hrolled
    refine hwritten.trans ?_
    rw [List.filterMap_reverse, writeBack, List.foldl_reverse]

/-- What the execution of a job makes of the world. -/
structure Executed (ctx : JobContext τ) (place : Nat) (world world' : JobWorld τ) : Prop where
  device : world'.device
    = ((world.jobs place).execute ctx ⟨world.jobs place, world.device⟩).2.device
  job : (world'.jobs place).lasting
    = ((world.jobs place).execute ctx ⟨world.jobs place, world.device⟩).2.job.lasting
  others : ∀ other, other ≠ place → (world'.jobs other).lasting = (world.jobs other).lasting

theorem Executed.work {place : Nat} {world world' : JobWorld τ}
    (h : Executed ctx place world world') : SameWork world world' := by
  intro other
  by_cases hother : other = place
  · subst hother
    have hjob := congrArg GenericJob.work h.job
    exact hjob.trans (preserves_execute _ _)
  · have hjob := congrArg GenericJob.work (h.others other hother)
    exact hjob

theorem executed_ask (ctx : JobContext τ) (place : Nat) (c : Control Nat (JobWorld τ)) :
    Executed ctx place c.world
      (c.ask (genericSurroundings ctx) (genericSurroundings ctx).execute place).2.world := by
  obtain ⟨-, hdevice, hjobs⟩ := ask_same ctx (GenericJob.execute ctx) place c
  refine ⟨hdevice, (hjobs place).trans ?_, fun other hother => (hjobs other).trans ?_⟩
  · simp only [answer, if_true]
  · simp only [answer, if_neg hother]

theorem prepare_congr {job job' : GenericJob} (h : job'.lasting = job.lasting) (s s' : AtWork τ) :
    (job'.prepare s').1 = (job.prepare s).1 := by
  have hkind := congrArg GenericJob.kind h
  change job'.kind = job.kind at hkind
  rw [GenericJob.prepare, GenericJob.prepare, hkind]
  cases job.kind with
  | backup | read | erase | gptUpdate => rfl
  | flash data | restore data | verify data | programmerUpload data =>
    simp only [prepareData]
    split <;> rfl

/-- A job of a run, from the world in which it is executed: it is not executed since
it could not be prepared, or it ends as its execution does. -/
theorem executeJob_executed {place : Nat} {p : JobPipeline Nat (JobWorld τ)}
    {world : JobWorld τ}
    (hworld : JobPipeline.readied (genericSurroundings ctx) place p.toControl = world) :
    let job := world.jobs place
    let r := JobPipeline.executeJob (genericSurroundings ctx) place p
    r.1 ≠ .ok () ∧ (job.prepare (⟨job, world.device⟩ : AtWork τ)).1 ≠ .ok () ∧
        r.2.world = world ∨
      (job.prepare (⟨job, world.device⟩ : AtWork τ)).1 = .ok () ∧
        r.1 = (job.execute ctx ⟨job, world.device⟩).1 ∧ Executed ctx place world r.2.world := by
  intro job r
  obtain ⟨-, hjobs⟩ := prepare_same ctx place p.toControl
  subst hworld
  have hsame : (job.prepare (⟨job, (JobPipeline.readied (genericSurroundings ctx) place
        p.toControl).device⟩ : AtWork τ)).1
      = (p.toControl.ask (genericSurroundings ctx) (genericSurroundings ctx).prepare place).1 :=
    prepare_congr (hjobs place) ⟨p.world.jobs place, p.world.device⟩ _
  obtain ⟨-, ⟨hprepared, hfailed, hcontrol⟩ | ⟨hprepared, hresult, hcontrol⟩⟩ :=
    JobPipeline.executeJob_control (genericSurroundings ctx) place p
  · exact .inl ⟨hfailed, fun hok => hprepared (hsame.symm.trans hok),
      congrArg Control.world hcontrol⟩
  · refine .inr ⟨hsame.trans hprepared, hresult, ?_⟩
    show Executed ctx place _ r.2.toControl.world
    rw [hcontrol]
    exact executed_ask ctx place _

/-- Exactly a job that loses nothing changes, failing, only what has been copied. -/
theorem spares_iff (hfaithful : Faithful memory region ctx) {copies : List (Nat × ByteBuffer)}
    {place : Nat} {p : JobPipeline Nat (JobWorld τ)} {world : JobWorld τ}
    (hworld : JobPipeline.readied (genericSurroundings ctx) place p.toControl = world) :
    Spares ctx memory copies (world.jobs place) world.device ↔ ∀ i, ¬ Has copies i →
      memory (JobPipeline.executeJob (genericSurroundings ctx) place p).2.world.device i
        = memory world.device i := by
  obtain ⟨-, hunprepared, hsame⟩ | ⟨hprepared, -, hexecuted⟩ := executeJob_executed hworld
  · refine iff_of_true (.unprepared hunprepared) fun i _ => ?_
    rw [hsame]
  rw [hexecuted.device]
  cases hcancelled : (world.jobs place).cancelled with
  | true =>
    refine iff_of_true (.cancelled hcancelled) fun i _ => ?_
    rw [execute_cancelled _ hcancelled]
  | false =>
    rw [memory_execute hfaithful hcancelled]
    constructor
    · intro hspares i hfree
      cases hspares with
      | unprepared h => exact absurd hprepared h
      | cancelled h =>
        rw [hcancelled] at h
        cases h
      | covered h =>
        by_contra hchanged
        exact hfree (h i hchanged)
    · intro hsame
      refine .covered fun i hchanged => ?_
      by_contra hfree
      exact hchanged (hsame i hfree)

theorem kept_congr {error : ErrorCode} {places : List Nat} {world world' : JobWorld τ}
    (h : ∀ place ∈ places, (world'.jobs place).lasting = (world.jobs place).lasting) :
    kept region error places world' = kept region error places world := by
  rw [kept, kept, List.filterMap_congr fun place hplace => GenericJob.copy_lasting (h place hplace)]

/-- A job that is done adds its copy. -/
theorem kept_snoc {error : ErrorCode} {done : List Nat}
    {place : Nat} {world world' : JobWorld τ} (hexecuted : Executed ctx place world world')
    (hok : ((world.jobs place).execute ctx ⟨world.jobs place, world.device⟩).1 = .ok ())
    (hplace : place ∉ done) :
    kept region error (done ++ [place]) world'
      = kept region error done world
        ++ ((world.jobs place).saved ctx region error world.device).toList := by
  have hdone : ∀ other ∈ done, (world'.jobs other).lasting = (world.jobs other).lasting :=
    fun other hother => hexecuted.others other (ne_of_mem_of_not_mem hother hplace)
  have hjob := hexecuted.job
  rw [execute_keeps hok] at hjob
  rw [← kept_congr hdone, kept, kept, GenericJob.saved]
  by_cases hcancelled : error = .cancelled
  · simp [hcancelled]
  · rw [if_neg hcancelled, if_neg hcancelled, if_neg hcancelled, List.filterMap_append,
      ← GenericJob.copy_lasting hjob]
    cases hcopy : (world'.jobs place).copy region <;> simp [hcopy]

/-- A job that is done and loses nothing leaves the oldest bytes as they were. -/
theorem Secures.same (hfaithful : Faithful memory region ctx) {error : ErrorCode}
    {copies : List (Nat × ByteBuffer)} {place : Nat} {world world' : JobWorld τ}
    (hsecures : Secures ctx memory region error copies (world.jobs place) world.device)
    (hexecuted : Executed ctx place world world')
    (hok : ((world.jobs place).execute ctx ⟨world.jobs place, world.device⟩).1 = .ok ()) :
    oldest (copies ++ ((world.jobs place).saved ctx region error world.device).toList)
        (memory world'.device)
      = oldest copies (memory world.device) := by
  apply oldest_snoc
  · intro copy hcopy i hlo hhi hfree
    rcases hdata : (world.jobs place).original ctx world.device with _ | data
    · have hcovers := hsecures.fresh hdata copy.1 copy.2.length (by rw [hcopy]; rfl)
      exact absurd (hcovers i hlo hhi) hfree
    · have hslice : copy.2 = (memory world.device).slice copy.1 copy.2.length := by
        rw [GenericJob.saved] at hcopy
        split at hcopy
        · cases hcopy
        · exact keeping_copy hfaithful hdata hcopy
      rw [hslice, ByteStore.slice_getD _ _ (by omega), Nat.add_sub_cancel' hlo]
  · intro i hfree
    rw [hexecuted.device, memory_execute hfaithful (idle_of_done hok)]
    by_contra hchanged
    exact hfree (hsecures.covered i hchanged)

/-- What a job has written, when it is done, is what it changes at most. -/
theorem Covered.of_extent (hfaithful : Faithful memory region ctx)
    {copies : List (Nat × ByteBuffer)} {job : GenericJob} {device : τ}
    (hok : (job.execute ctx ⟨job, device⟩).1 = .ok ())
    (hcovers : Covers copies (job.extent region)) : Covered ctx memory copies job device := by
  intro i hchanged
  by_contra hfree
  rw [← memory_execute hfaithful (idle_of_done hok)] at hchanged
  refine hchanged (execute_extent hfaithful hok fun address size hextent => ?_)
  by_contra hinside
  rw [ByteStore.Apart, not_or] at hinside
  exact hfree (hcovers address size hextent i (by omega) (by omega))

/-- A job that comes due and is prepared finds the memory and the jobs as they were. -/
theorem readied_same (hfaithful : Faithful memory region ctx) (place : Nat)
    (c : Control Nat (JobWorld τ)) :
    let world := JobPipeline.readied (genericSurroundings ctx) place
      (c.due (genericSurroundings ctx))
    memory world.device = memory c.world.device ∧ SameJobs c.world world := by
  obtain ⟨hdue, hdueJobs⟩ := due_same hfaithful c
  obtain ⟨hready, hreadyJobs⟩ := prepare_same ctx place (c.due (genericSurroundings ctx))
  exact ⟨(congrArg memory hready).trans hdue, hdueJobs.trans hreadyJobs⟩

/-- What the job that fails finds: one of these jobs, with the work it had, all copies
still with the jobs that took them, and the oldest bytes as they were. -/
structure Found (ctx : JobContext τ) (memory : τ → ByteStore)
    (region : String → Option (Nat × Nat)) (done places : List Nat)
    (p : JobPipeline Nat (JobWorld τ)) (f : JobPipeline.Failure Nat (JobWorld τ)) : Prop where
  run : ∃ q : JobPipeline Nat (JobWorld τ),
    JobPipeline.readied (genericSurroundings ctx) f.job q.toControl = f.world ∧
      (JobPipeline.executeJob (genericSurroundings ctx) f.job q).2 = f.pipeline
  job : f.job ∈ places
  work : SameWork p.world f.world
  kept : kept region f.error (f.pipeline.jobs.take f.pipeline.currentIndex) f.pipeline.world
    = kept region f.error done p.world ++ f.copies ctx region
  oldest : oldest (Job.kept region f.error done p.world ++ f.copies ctx region)
      (memory f.world.device)
    = oldest (Job.kept region f.error done p.world) (memory p.world.device)

/-- If no job that is done loses anything, the oldest bytes where a run fails are those of
before the run. -/
theorem found_of_secured (hfaithful : Faithful memory region ctx) {places done : List Nat}
    {p : JobPipeline Nat (JobWorld τ)} {f : JobPipeline.Failure Nat (JobWorld τ)}
    (hjobs : p.jobs = done ++ places) (hnodup : (done ++ places).Nodup)
    (hfails : JobPipeline.failure (genericSurroundings ctx) done.length places p = some f)
    (hsecured : SecuredFrom ctx memory region f.error (kept region f.error done p.world) f.done) :
    Found ctx memory region done places p f := by
  induction places generalizing done p f with
  | nil => cases hfails
  | cons place places ih =>
    rw [JobPipeline.failure] at hfails
    simp only at hfails
    split at hfails
    · cases hfails
    obtain ⟨hmemory, hsame⟩ := readied_same hfaithful place p.toControl
    obtain ⟨world, hworld⟩ : ∃ world, JobPipeline.readied (genericSurroundings ctx) place
      (p.due (genericSurroundings ctx)) = world := ⟨_, rfl⟩
    obtain ⟨q, hq⟩ : ∃ q : JobPipeline Nat (JobWorld τ), q = { p with
      toControl := p.due (genericSurroundings ctx), currentIndex := done.length } := ⟨_, rfl⟩
    rw [hworld] at hfails hmemory hsame
    rw [← hq] at hfails
    have hqueued : JobPipeline.readied (genericSurroundings ctx) place q.toControl = world := by
      rw [hq]
      exact hworld
    have hkept : ∀ error, kept region error done world = kept region error done p.world :=
      fun _ => kept_congr fun other _ => hsame other
    have hplace : place ∉ done := fun hmem =>
      (List.nodup_append.mp hnodup).2.2 place hmem place List.mem_cons_self rfl
    have hindex : (JobPipeline.executeJob (genericSurroundings ctx) place q).2.currentIndex
        = done.length := by
      rw [(JobPipeline.executeJob_control (genericSurroundings ctx) place q).1, hq]
    have hleft : (JobPipeline.executeJob (genericSurroundings ctx) place q).2.jobs
        = done ++ place :: places := by
      rw [JobPipeline.jobs_executeJob, hq]
      exact (JobPipeline.jobs_due p.toControl).trans hjobs
    have hends := executeJob_executed hqueued
    rcases hrun : JobPipeline.executeJob (genericSurroundings ctx) place q with ⟨error | _, p₁⟩ <;>
      rw [hrun] at hfails hindex hleft hends
    · -- it fails
      cases hfails
      have hdone : ∀ other ∈ done, (p₁.world.jobs other).lasting = (world.jobs other).lasting := by
        intro other hother
        obtain ⟨-, -, hsame⟩ | ⟨-, -, hexecuted⟩ := hends
        · rw [hsame]
        · exact hexecuted.others other (ne_of_mem_of_not_mem hother hplace)
      have htake : p₁.jobs.take p₁.currentIndex = done := by
        rw [hleft, hindex, List.take_left']
        rfl
      constructor
      · exact ⟨q, hqueued, congrArg Prod.snd hrun⟩
      · exact List.mem_cons_self
      · exact hsame.work
      · rw [htake, kept_congr hdone, hkept]
        exact (List.append_nil _).symm
      · rw [JobPipeline.Failure.copies, List.flatMap_nil, List.append_nil, hmemory]
    · -- it is done, and the others are left
      obtain ⟨f, hrest, rfl⟩ := Option.map_eq_some_iff.mp hfails
      obtain ⟨hsecures, hlater⟩ := hsecured
      obtain ⟨hfailed, -⟩ | ⟨-, hok, hexecuted⟩ := hends
      · exact absurd rfl hfailed
      have hsnoc : kept region f.error (done ++ [place]) p₁.world = _ :=
        kept_snoc hexecuted hok.symm hplace
      rw [hkept] at hsnoc
      have hoverall := Secures.same hfaithful hsecures hexecuted hok.symm
      have hlength : (done ++ [place]).length = done.length + 1 := List.length_append
      have hjobs₁ : p₁.jobs = (done ++ [place]) ++ places := by simpa using hleft
      have hfound := ih (p := { p₁ with completedCount := p₁.completedCount + 1 }) (f := f) hjobs₁
        (by simpa using hnodup) (by rw [hlength]; exact hrest) (by rw [hsnoc]; exact hlater)
      have hcopies : JobPipeline.Failure.copies ctx region
            { f with done := (place, world) :: f.done }
          = ((world.jobs place).saved ctx region f.error world.device).toList
            ++ f.copies ctx region := rfl
      constructor
      · exact hfound.run
      · exact List.mem_cons_of_mem _ hfound.job
      · exact hsame.work.trans (hexecuted.work.trans hfound.work)
      · rw [hcopies, ← List.append_assoc, ← hsnoc]
        exact hfound.kept
      · rw [hcopies, ← List.append_assoc, ← hsnoc]
        refine hfound.oldest.trans ?_
        rw [hsnoc, ← hmemory]
        exact hoverall

/-- A byte that the failing job changes is in a partition that one of the jobs writes. -/
theorem Found.changed (hfaithful : Faithful memory region ctx) {jobs : List GenericJob}
    {device : τ} {f : JobPipeline.Failure Nat (JobWorld τ)}
    (hfound : Found ctx memory region [] (List.range jobs.length) (pipelineOf jobs device).start f)
    {i : Nat} (hchanged : memory f.pipeline.world.device i ≠ memory f.world.device i) :
    ∃ job ∈ jobs, job.writes = true ∧ ∃ address size,
      region job.partitionName = some (address, size) ∧ address ≤ i ∧ i < address + size := by
  obtain ⟨q, hqueued, hends⟩ := hfound.run
  obtain ⟨-, -, hsame⟩ | ⟨-, -, hexecuted⟩ := executeJob_executed hqueued
  · rw [hends] at hsame
    rw [hsame] at hchanged
    exact absurd rfl hchanged
  rw [hends] at hexecuted
  obtain ⟨hwrites, address, size, hregion, hlo, hhi⟩ :=
    execute_changed hfaithful (hexecuted.device ▸ hchanged)
  have hlength : f.job < jobs.length := List.mem_range.mp hfound.job
  have hwork : (f.world.jobs f.job).work = jobs[f.job].work := by
    rw [hfound.work f.job]
    show (jobs.getD f.job _).work = _
    rw [List.getD_eq_getElem _ _ hlength]
  have hname : (f.world.jobs f.job).partitionName = jobs[f.job].partitionName :=
    congrArg Prod.snd hwork
  exact ⟨jobs[f.job], List.getElem_mem hlength,
    (GenericJob.writes_congr hwork).symm.trans hwrites, address, size, hname ▸ hregion, hlo, hhi⟩

/-- Where the jobs that are done lose nothing, a run that fails restores what its jobs have
written exactly if the job that fails loses nothing either. -/
theorem restored_iff (hfaithful : Faithful memory region ctx) (jobs : List GenericJob)
    (device : τ) {f : JobPipeline.Failure Nat (JobWorld τ)}
    (hfails : JobPipeline.failure (genericSurroundings ctx) 0 (pipelineOf jobs device).jobs
      (pipelineOf jobs device).start = some f)
    (hallowed : (f.pipeline.world.jobs f.job).canRollback = true)
    (hrolled : ∀ other result, .rolledBack other result ∈
      ((pipelineOf jobs device).run (genericSurroundings ctx)).2.log → result = .ok ())
    (hsecured : f.Secured ctx memory region) :
    Restored memory region jobs device
        ((pipelineOf jobs device).run (genericSurroundings ctx)).2.world.device ↔
      Spares ctx memory (f.copies ctx region) (f.world.jobs f.job) f.world.device := by
  have hrun : (pipelineOf jobs device).run (genericSurroundings ctx)
      = f.pipeline.fail (genericSurroundings ctx) f.job f.error :=
    JobPipeline.runJobs_failure hfails
  have hjobs : (pipelineOf jobs device).start.jobs = [] ++ List.range jobs.length := rfl
  have hnone : kept region f.error [] (pipelineOf jobs device).start.world = [] := by simp [kept]
  have hfound := found_of_secured hfaithful hjobs List.nodup_range hfails (by rwa [hnone])
  have hkept := hfound.kept
  have holdest := hfound.oldest
  rw [hnone, List.nil_append] at hkept holdest
  have hafter : memory ((pipelineOf jobs device).run (genericSurroundings ctx)).2.world.device
      = oldest (f.copies ctx region) (memory f.pipeline.world.device) := by
    rw [hrun] at hrolled ⊢
    rw [memory_fail hfaithful hallowed hrolled, hkept]
  have hbefore : memory device = oldest (f.copies ctx region) (memory f.world.device) :=
    holdest.symm
  obtain ⟨q, hqueued, hends⟩ := hfound.run
  rw [spares_iff hfaithful hqueued, hends]
  constructor
  · intro hrestored i hfree
    by_contra hchanged
    -- the byte is in a partition of one of the jobs, and no copy has it
    obtain ⟨job, hjob, hwrites, address, size, hregion, hlo, hhi⟩ :=
      hfound.changed hfaithful hchanged
    have hslice := hrestored job hjob hwrites address size hregion
    have hbyte := congrArg (fun data => data.getD (i - address) 0) hslice
    simp only [ByteStore.slice_getD _ _ (Nat.sub_lt_left_of_lt_add hlo hhi),
      Nat.add_sub_cancel' hlo] at hbyte
    rw [hafter, hbefore, oldest_of_not_has hfree, oldest_of_not_has hfree] at hbyte
    exact hchanged hbyte
  · intro hsame job _ _ address size _
    rw [hafter, hbefore, oldest_congr hsame]

end

/-! ## A device in memory -/

/-- A device that never fails. -/
def memoryContext (region : String → Option (Nat × Nat)) : JobContext ByteStore where
  flashDevice :=
    { readPartition := fun name store =>
        match region name with
        | some (address, size) => (.ok (store.slice address size), store)
        | none => (.error .partitionNotFound, store)
      writePartition := fun name data store =>
        match region name with
        | some (address, size) =>
          if data.length ≤ size then (.ok (), store.overlay address data)
          else (.error .imageTooLarge, store)
        | none => (.error .partitionNotFound, store)
      erasePartition := fun name store =>
        match region name with
        | some (address, size) => (.ok (), store.overlay address (List.replicate size 0xFF))
        | none => (.error .partitionNotFound, store)
      readMemory := fun address size store => (.ok (store.slice address.toNat size.toNat), store)
      writeMemory := fun address data store => (.ok (), store.overlay address.toNat data)
      getStorageInfo := pure {}
      uploadLoader := fun _ => pure () }

theorem faithful_memoryContext (region : String → Option (Nat × Nat)) :
    Faithful id region (memoryContext region) where
  readPartition name store := by
    simp only [memoryContext]
    rcases region name with _ | ⟨address, size⟩
    · exact ⟨rfl, fun _ h => by cases h⟩
    · refine ⟨rfl, fun data h => ⟨address, size, rfl, ?_⟩⟩
      cases h
      rfl
  writePartition name data store := by
    simp only [memoryContext, ChangesPartition]
    rcases region name with _ | ⟨address, size⟩
    · exact ⟨fun h => (by cases h), fun _ _ => rfl⟩
    · by_cases hsize : data.length ≤ size
      · simp only [if_pos hsize]
        refine ⟨fun _ => ⟨address, size, rfl, hsize, rfl⟩, fun i hi => ?_⟩
        exact ByteStore.overlay_apart ((hi address size rfl).mono (Nat.le_refl _) hsize)
      · simp only [if_neg hsize]
        exact ⟨fun h => (by cases h), fun _ _ => trivial⟩
  erasePartition name store := by
    simp only [memoryContext, ChangesPartition]
    rcases region name with _ | ⟨address, size⟩
    · exact ⟨fun h => (by cases h), fun _ _ => rfl⟩
    · refine ⟨fun _ => ⟨address, size, 0xFF, rfl, rfl⟩, fun i hi => ?_⟩
      refine ByteStore.overlay_apart ?_
      rw [List.length_replicate]
      exact hi address size rfl
  readMemory address size := by
    refine ⟨fun _ => rfl, fun store data h => ?_⟩
    cases h
    rfl
  writeMemory address data store := ⟨fun _ => rfl, fun i hi => ByteStore.overlay_apart hi⟩
  getStorageInfo _ := rfl
  uploadLoader _ _ := rfl
  openTable _ h := by cases h
  refreshTable _ h := by cases h
  backupPartition _ h := by cases h
  restorePartition _ h := by cases h
  between _ := rfl
  wake _ := rfl

def bootRegion (name : String) : Option (Nat × Nat) := if name = "boot" then some (0, 4) else none

/-- A verification that fails, after the partition was changed. -/
def andVerify (kind : JobKind) : List GenericJob :=
  [{ kind, partitionName := "boot" }, { kind := .verify [2], partitionName := "boot" }]

def blank : ByteStore := fun _ => 0

/-- A partition that is erased before it is flashed is written back after a
verification that fails. -/
theorem restored_erase :
    Restored id bootRegion ({ kind := .erase, partitionName := "boot" } :: andVerify (.flash [1]))
      blank ((pipelineOf ({ kind := .erase, partitionName := "boot" } :: andVerify (.flash [1]))
        blank).run (genericSurroundings (memoryContext bootRegion))).2.world.device := by
  have hfaithful := faithful_memoryContext bootRegion
  have hcopy : Covers [(0, [0, 0, 0, 0])] (some (0, 4)) := by
    intro address size hextent i hlo hhi
    cases hextent
    exact ⟨_, List.mem_singleton_self _, hlo, hhi⟩
  have hflashed : Covers [(0, [0, 0, 0, 0])] (some (0, 1)) := by
    intro address size hextent i hlo hhi
    cases hextent
    exact hcopy 0 4 rfl i hlo (Nat.lt_of_lt_of_le hhi (by decide))
  refine (restored_iff hfaithful _ _ rfl rfl ?_ ?_).mpr ?_
  · intro other result hevent
    rw [show JobPipeline.log _ = [.prepared 0 (.ok ()), .executed 0 (.ok ()),
      .prepared 1 (.ok ()), .executed 1 (.ok ()), .prepared 2 (.ok ()),
      .executed 2 (.error .jobDataMismatch), .rolledBack 1 (.ok ()), .rolledBack 0 (.ok ())]
      from rfl] at hevent
    simp only [List.mem_cons, reduceCtorEq, JobEvent.rolledBack.injEq, List.not_mem_nil, or_false,
      false_or] at hevent
    rcases hevent with ⟨-, rfl⟩ | ⟨-, rfl⟩ <;> rfl
  · refine ⟨⟨fun hnone => ?_, .of_extent hfaithful rfl hcopy⟩,
      ⟨fun _ _ _ hnone => ?_, .of_extent hfaithful rfl hflashed⟩, trivial⟩
    · cases hnone
    · cases hnone
  · exact .covered fun i hchanged => absurd rfl hchanged

/-- A partition that is only flashed is not. -/
theorem flash_notRestored :
    ¬ ∀ {τ : Type} {ctx : JobContext τ} {memory : τ → ByteStore}
        {region : String → Option (Nat × Nat)} (_ : Faithful memory region ctx)
        (jobs : List GenericJob) (device : τ) {f : JobPipeline.Failure Nat (JobWorld τ)},
        JobPipeline.failure (genericSurroundings ctx) 0 (pipelineOf jobs device).jobs
          (pipelineOf jobs device).start = some f →
        (f.pipeline.world.jobs f.job).canRollback = true →
        (∀ other result, .rolledBack other result ∈
          ((pipelineOf jobs device).run (genericSurroundings ctx)).2.log → result = .ok ()) →
        Restored memory region jobs device
          ((pipelineOf jobs device).run (genericSurroundings ctx)).2.world.device := by
  intro h
  have hrestored := h (faithful_memoryContext bootRegion) (andVerify (.flash [1])) blank
    rfl rfl (by
      intro other result hevent
      rw [show JobPipeline.log _ = [.prepared 0 (.ok ()), .executed 0 (.ok ()),
        .prepared 1 (.ok ()), .executed 1 (.error .jobDataMismatch), .rolledBack 0 (.ok ())]
        from rfl] at hevent
      simp at hevent
      exact hevent.2)
  have hslice := hrestored _ List.mem_cons_self rfl 0 4 rfl
  exact absurd hslice (by decide)

end MBootCore.Job
