import MBootCore.Job.GenericJobs
import MBootCore.Job.PipelineSuccess

/-!
# Job — FaithfulJobs

Generic jobs on a device whose reads return what was last written: the bytes a
job changes, and the copy it keeps of them for its rollback. What is asked of
the pipeline meanwhile changes neither; it only marks jobs as cancelled.
-/

namespace MBootCore.Job

variable {τ : Type}

/-! ## Faithful devices -/

section
variable (memory : τ → ByteStore) (region : String → Option (Nat × Nat))

/-- The memory is changed by nothing but the bytes of the partition. -/
def ChangesPartition (name : String) (before after : ByteStore) : Prop :=
  ∀ i, (∀ address size, region name = some (address, size) → ByteStore.Apart i 1 address size) →
    after i = before i

/-- The operation leaves the memory alone. -/
def Harmless {α : Type} (operation : Program τ ErrorCode α) : Prop :=
  ∀ t, memory (operation t).2 = memory t

/-- The operation reads the bytes of a partition. -/
def ReadsPartition (read : String → Program τ ErrorCode ByteBuffer) : Prop :=
  ∀ name t, memory (read name t).2 = memory t ∧
    ∀ data, (read name t).1 = .ok data →
      ∃ address size, region name = some (address, size) ∧ data = (memory t).slice address size

/-- The operation writes to the start of a partition; failing, it may have
changed bytes of the partition only. -/
def WritesPartition (write : String → ByteBuffer → Program τ ErrorCode Unit) : Prop :=
  ∀ name data t,
    ((write name data t).1 = .ok () → ∃ address size, region name = some (address, size) ∧
      data.length ≤ size ∧ memory (write name data t).2 = (memory t).overlay address data) ∧
    ChangesPartition region name (memory t) (memory (write name data t).2)

/-- Reads return what was last written or erased, and an operation that fails
has changed only the bytes it names. -/
structure Faithful (ctx : JobContext τ) : Prop where
  readPartition : ReadsPartition memory region ctx.flashDevice.readPartition
  writePartition : WritesPartition memory region ctx.flashDevice.writePartition
  erasePartition : ∀ name t,
    ((ctx.flashDevice.erasePartition name t).1 = .ok () → ∃ address size byte,
      region name = some (address, size) ∧ memory (ctx.flashDevice.erasePartition name t).2
        = (memory t).overlay address (List.replicate size byte)) ∧
    ChangesPartition region name (memory t) (memory (ctx.flashDevice.erasePartition name t).2)
  readMemory : ∀ address size, Harmless memory (ctx.flashDevice.readMemory address size) ∧
    ∀ t data, (ctx.flashDevice.readMemory address size t).1 = .ok data →
      data = (memory t).slice address.toNat size.toNat
  writeMemory : ∀ address data t,
    ((ctx.flashDevice.writeMemory address data t).1 = .ok () →
      memory (ctx.flashDevice.writeMemory address data t).2
        = (memory t).overlay address.toNat data) ∧
    ∀ i, ByteStore.Apart i 1 address.toNat data.length →
      memory (ctx.flashDevice.writeMemory address data t).2 i = memory t i
  getStorageInfo : Harmless memory ctx.flashDevice.getStorageInfo
  uploadLoader : ∀ data, Harmless memory (ctx.flashDevice.uploadLoader data)
  openTable : ∀ manager ∈ ctx.partitionManager, Harmless memory manager.openTable
  refreshTable : ∀ manager ∈ ctx.partitionManager, Harmless memory manager.refreshTable
  backupPartition : ∀ manager ∈ ctx.partitionManager,
    ReadsPartition memory region manager.backupPartition
  restorePartition : ∀ manager ∈ ctx.partitionManager,
    WritesPartition memory region manager.restorePartition
  between : ∀ t, memory (ctx.between t).2 = memory t
  wake : ∀ t, memory (ctx.wake t).2 = memory t

end

variable {ctx : JobContext τ} {memory : τ → ByteStore} {region : String → Option (Nat × Nat)}

theorem ChangesPartition.refl (name : String) (store : ByteStore) :
    ChangesPartition region name store store := fun _ _ => rfl

theorem ChangesPartition.trans {name : String} {store store' store'' : ByteStore}
    (h : ChangesPartition region name store store')
    (h' : ChangesPartition region name store' store'') :
    ChangesPartition region name store store'' :=
  fun i hi => (h' i hi).trans (h i hi)

/-! ## What a job is -/

/-- The part of a job that no method changes. -/
def GenericJob.work (job : GenericJob) : JobKind × String := (job.kind, job.partitionName)

theorem preserves_onDevice {α : Type} (operation : Program τ ErrorCode α) :
    Program.Preserves (fun s : AtWork τ => s.job.work) (onDevice operation) :=
  fun _ => rfl

theorem preserves_checkCancelled :
    Program.Preserves (fun s : AtWork τ => s.job.work) (checkCancelled (τ := τ)) := by
  intro s
  rw [checkCancelled, Program.run_failIf]

theorem preserves_keepOriginal (data : ByteBuffer) :
    Program.Preserves (fun s : AtWork τ => s.job.work) (keepOriginal (τ := τ) data) :=
  fun _ => rfl

theorem preserves_readOriginal (name : String) :
    Program.Preserves (fun s : AtWork τ => s.job.work) (readOriginal ctx name) := by
  refine .bind (.attempt (preserves_onDevice _)) fun result => ?_
  cases result with
  | ok data => exact preserves_keepOriginal data
  | error _ => exact .pure ()

theorem preserves_gptUpdate :
    Program.Preserves (fun s : AtWork τ => s.job.work) (GPTUpdateJob.execute ctx) := by
  refine .bind preserves_checkCancelled fun _ => ?_
  dsimp only
  -- the steps after the two that are left out without a partition manager
  repeat' first
    | exact .pure _
    | exact preserves_onDevice _
    | exact preserves_keepOriginal _
    | exact .attempt (preserves_onDevice _)
    | exact .void (.attempt (preserves_onDevice _))
    | refine .bind ?_ fun _ => ?_
    | split

theorem preserves_execute (job : GenericJob) :
    Program.Preserves (fun s : AtWork τ => s.job.work) (job.execute ctx) := by
  rw [GenericJob.execute]
  cases job.kind with
  | flash data =>
    refine .bind preserves_checkCancelled fun _ => ?_
    split
    · exact preserves_onDevice _
    · exact .pure ()
  | backup =>
    refine .bind preserves_checkCancelled fun _ => ?_
    cases ctx.partitionManager with
    | some manager => exact .void (preserves_onDevice _)
    | none => exact .void (preserves_onDevice _)
  | restore data =>
    refine .bind preserves_checkCancelled fun _ => .bind (preserves_readOriginal _) fun _ => ?_
    rw [RestoreJob.write]
    cases ctx.partitionManager with
    | some manager => exact preserves_onDevice _
    | none => exact preserves_onDevice _
  | read => exact .bind preserves_checkCancelled fun _ => .void (preserves_onDevice _)
  | erase =>
    exact .bind preserves_checkCancelled fun _ =>
      .bind (preserves_readOriginal _) fun _ => preserves_onDevice _
  | verify data =>
    refine .bind preserves_checkCancelled fun _ => .bind (preserves_onDevice _) fun _ => ?_
    split
    · exact .fail _
    split
    · exact .fail _
    · exact .pure ()
  | gptUpdate => exact preserves_gptUpdate
  | programmerUpload data =>
    exact .bind preserves_checkCancelled fun _ => preserves_onDevice _

/-- The jobs have the same work. -/
def SameWork (world world' : JobWorld τ) : Prop :=
  ∀ place, (world'.jobs place).work = (world.jobs place).work

theorem SameWork.trans {world world' world'' : JobWorld τ} (h : SameWork world world')
    (h' : SameWork world' world'') : SameWork world world'' :=
  fun place => (h' place).trans (h place)

theorem SameWork.kind {world world' : JobWorld τ} (h : SameWork world world') (place : Nat) :
    (world'.jobs place).kind = (world.jobs place).kind := congrArg Prod.fst (h place)

theorem SameWork.partitionName {world world' : JobWorld τ} (h : SameWork world world')
    (place : Nat) : (world'.jobs place).partitionName = (world.jobs place).partitionName :=
  congrArg Prod.snd (h place)

/-! ## What is asked of the pipeline -/

/-- The job but for its flag. -/
def GenericJob.lasting (job : GenericJob) : GenericJob := { job with cancelled := false }

/-- The jobs are the same but for their flags. -/
def SameJobs (world world' : JobWorld τ) : Prop :=
  ∀ place, (world'.jobs place).lasting = (world.jobs place).lasting

theorem SameJobs.refl (world : JobWorld τ) : SameJobs world world := fun _ => rfl

theorem SameJobs.trans {world world' world'' : JobWorld τ} (h : SameJobs world world')
    (h' : SameJobs world' world'') : SameJobs world world'' :=
  fun place => (h' place).trans (h place)

theorem SameJobs.work {world world' : JobWorld τ} (h : SameJobs world world') :
    SameWork world world' := by
  intro place
  have hwork := congrArg GenericJob.work (h place)
  exact hwork

theorem cancel_same (ctx : JobContext τ) (places : List Nat) (world : JobWorld τ) :
    let cancelled := places.foldl (fun world place => (genericSurroundings ctx).cancel place world)
      world
    cancelled.device = world.device ∧ SameJobs world cancelled := by
  induction places generalizing world with
  | nil => exact ⟨rfl, SameJobs.refl world⟩
  | cons place places ih =>
    obtain ⟨hdevice, hjobs⟩ := ih ((genericSurroundings ctx).cancel place world)
    refine ⟨hdevice, SameJobs.trans (fun other => ?_) hjobs⟩
    simp only [genericSurroundings]
    split <;> rfl

theorem requests_same (ctx : JobContext τ) (requests : List Request)
    (c : Control Nat (JobWorld τ)) :
    let c' := requests.foldl (Control.request (genericSurroundings ctx)) c
    c'.world.device = c.world.device ∧ SameJobs c.world c'.world := by
  induction requests generalizing c with
  | nil => exact ⟨rfl, SameJobs.refl c.world⟩
  | cons request requests ih =>
    obtain ⟨hdevice, hjobs⟩ := ih (c.request (genericSurroundings ctx) request)
    cases request with
    | cancel =>
      obtain ⟨hfirst, hsame⟩ := cancel_same ctx c.jobs c.world
      exact ⟨hdevice.trans hfirst, hsame.trans hjobs⟩
    | pause => exact ⟨hdevice, hjobs⟩
    | resume => exact ⟨hdevice, hjobs⟩

theorem waitWhilePaused_same (hfaithful : Faithful memory region ctx)
    (c : Control Nat (JobWorld τ)) :
    memory (c.waitWhilePaused (genericSurroundings ctx)).world.device = memory c.world.device ∧
      SameJobs c.world (c.waitWhilePaused (genericSurroundings ctx)).world := by
  rw [Control.waitWhilePaused]
  split
  · have hwake : memory ((genericSurroundings ctx).wake c.world).2.device
        = memory c.world.device := hfaithful.wake c.world.device
    have hjobs : SameJobs c.world ((genericSurroundings ctx).wake c.world).2 := fun _ => rfl
    rcases hwoken : (genericSurroundings ctx).wake c.world with ⟨_ | _, world⟩ <;>
      rw [hwoken] at hwake hjobs
    · exact ⟨hwake, hjobs⟩
    · obtain ⟨hdevice, hsame⟩ := cancel_same ctx c.jobs world
      exact ⟨(congrArg memory hdevice).trans hwake, hjobs.trans hsame⟩
  · exact ⟨rfl, SameJobs.refl c.world⟩

/-- What comes between two jobs changes no byte and no job. -/
theorem due_same (hfaithful : Faithful memory region ctx) (c : Control Nat (JobWorld τ)) :
    memory (c.due (genericSurroundings ctx)).world.device = memory c.world.device ∧
      SameJobs c.world (c.due (genericSurroundings ctx)).world := by
  obtain ⟨hdevice, hjobs⟩ := requests_same ctx
    ((genericSurroundings ctx).between c.world).1
    { c with world := ((genericSurroundings ctx).between c.world).2 }
  have hbetween : memory ((genericSurroundings ctx).between c.world).2.device
      = memory c.world.device := hfaithful.between c.world.device
  have hwaited := waitWhilePaused_same hfaithful
    (((genericSurroundings ctx).between c.world).1.foldl (Control.request (genericSurroundings ctx))
      { c with world := ((genericSurroundings ctx).between c.world).2 })
  exact ⟨hwaited.1.trans ((congrArg memory hdevice).trans hbetween),
    SameJobs.trans hjobs hwaited.2⟩

/-- What is asked while a method works comes on top of what the method does. -/
theorem ask_same (ctx : JobContext τ) (method : GenericJob → Method τ Unit) (place : Nat)
    (c : Control Nat (JobWorld τ)) :
    let asked := c.ask (genericSurroundings ctx) (answer ctx method) place
    asked.1 = (answer ctx method place c.world).result ∧
      asked.2.world.device = (answer ctx method place c.world).world.device ∧
      SameJobs (answer ctx method place c.world).world asked.2.world :=
  ⟨rfl, requests_same ctx (answer ctx method place c.world).requests
    { c with world := (answer ctx method place c.world).world }⟩

theorem ask_sameWork (ctx : JobContext τ) (method : GenericJob → Method τ Unit)
    (hmethod : ∀ job, Program.Preserves (fun s : AtWork τ => s.job.work) (method job))
    (place : Nat) (c : Control Nat (JobWorld τ)) :
    let r := method (c.world.jobs place) ⟨c.world.jobs place, c.world.device⟩
    let asked := c.ask (genericSurroundings ctx) (answer ctx method) place
    asked.1 = r.1 ∧ asked.2.world.device = r.2.device ∧ SameWork c.world asked.2.world := by
  intro r asked
  obtain ⟨hresult, hdevice, hjobs⟩ := ask_same ctx method place c
  refine ⟨hresult, hdevice, SameWork.trans (fun other => ?_) hjobs.work⟩
  have hkept : r.2.job.work = (c.world.jobs place).work := hmethod _ _
  show (if other = place then r.2.job else c.world.jobs other).work = _
  split
  · rename_i heq
    rw [hkept, heq]
  · rfl

theorem preserves_prepare (job : GenericJob) :
    Program.Preserves (fun s : AtWork τ => s) (job.prepare (τ := τ)) := by
  rw [GenericJob.prepare]
  split
  all_goals first
    | exact .pure ()
    | (rw [prepareData]; split <;> first | exact .fail _ | exact .pure ())

/-- A job that is prepared is as it was, and so is the device. -/
theorem prepare_same (ctx : JobContext τ) (place : Nat) (c : Control Nat (JobWorld τ)) :
    let prepared := (c.ask (genericSurroundings ctx) (genericSurroundings ctx).prepare place).2
    prepared.world.device = c.world.device ∧ SameJobs c.world prepared.world := by
  obtain ⟨-, hdevice, hjobs⟩ := ask_same ctx GenericJob.prepare place c
  have hprepare := preserves_prepare (c.world.jobs place) ⟨c.world.jobs place, c.world.device⟩
  refine ⟨hdevice.trans (congrArg AtWork.device hprepare), SameJobs.trans (fun other => ?_) hjobs⟩
  simp only [answer, hprepare]
  split
  · rename_i heq
    rw [heq]
  · rfl

/-! ## What a job changes -/

/-- A job that is not cancelled goes on after it has looked. -/
theorem run_checkCancelled {α : Type} {rest : Method τ α} {s : AtWork τ}
    (h : s.job.cancelled = false) : (do checkCancelled; rest : Method τ α) s = rest s :=
  Program.run_bind_ok (by rw [checkCancelled, Program.run_failIf, h]; rfl)

/-- A job that was cancelled does nothing. -/
theorem execute_cancelled (job : GenericJob) {s : AtWork τ} (h : s.job.cancelled = true) :
    job.execute ctx s = (.error .cancelled, s) := by
  have hrefused (rest : Method τ Unit) :
      (do checkCancelled; rest : Method τ Unit) s = (.error .cancelled, s) :=
    Program.run_bind_error (by rw [checkCancelled, Program.run_failIf, h]; rfl)
  rw [GenericJob.execute]
  cases job.kind <;> exact hrefused _

theorem idle_of_done {job : GenericJob} {s : AtWork τ} (h : (job.execute ctx s).1 = .ok ()) :
    s.job.cancelled = false := by
  rw [← Bool.not_eq_true]
  intro hcancelled
  rw [execute_cancelled job hcancelled] at h
  cases h

/-- The job with what it has read; a read that fails leaves an older copy as it
is. -/
def GenericJob.withOriginal (job : GenericJob) : Option ByteBuffer → GenericJob
  | some data => { job with originalData := data, backedUp := true }
  | none => job

theorem readOriginal_eq (ctx : JobContext τ) (name : String) (s : AtWork τ) :
    readOriginal ctx name s
      = (.ok (),
          { job := s.job.withOriginal (ctx.flashDevice.readPartition name s.device).1.toOption
            device := (ctx.flashDevice.readPartition name s.device).2 }) := by
  rw [readOriginal, Program.run_bind, Program.run_attempt, onDevice, Program.run_zoom]
  rcases ctx.flashDevice.readPartition name s.device with ⟨error | data, device⟩ <;> rfl

/-- The job writes to its partition, or erases it. -/
def GenericJob.writes (job : GenericJob) : Bool :=
  match job.kind with
  | .flash _ => job.partitionName ≠ ""
  | .restore _ | .erase => true
  | .backup | .read | .verify _ | .gptUpdate | .programmerUpload _ => false

theorem GenericJob.writes_congr {job job' : GenericJob} (h : job'.work = job.work) :
    job'.writes = job.writes := by
  obtain ⟨hkind, hname⟩ := Prod.mk.inj h
  rw [GenericJob.writes, GenericJob.writes, hkind, hname]

/-- The bytes a job has written when it is done. -/
def GenericJob.extent (region : String → Option (Nat × Nat)) (job : GenericJob) :
    Option (Nat × Nat) :=
  match job.kind with
  | .flash data =>
    if job.partitionName = "" then none
    else (region job.partitionName).map fun r => (r.1, data.length)
  | .restore data => (region job.partitionName).map fun r => (r.1, data.length)
  | .erase => region job.partitionName
  | .backup | .read | .verify _ | .gptUpdate | .programmerUpload _ => none

section
variable {R : ByteStore → ByteStore → Prop} (hr : ∀ store, R store store)
  (ht : ∀ ⦃a b c⦄, R a b → R b c → R a c)

theorem steps_onDevice {α : Type} {operation : Program τ ErrorCode α}
    (h : ∀ t, R (memory t) (memory (operation t).2)) :
    Program.Steps (fun s s' : AtWork τ => R (memory s.device) (memory s'.device))
      (onDevice operation) :=
  fun s => h s.device

include hr

theorem steps_harmless {α : Type} {operation : Program τ ErrorCode α}
    (h : Harmless memory operation) :
    Program.Steps (fun s s' : AtWork τ => R (memory s.device) (memory s'.device))
      (onDevice operation) := by
  refine steps_onDevice fun t => ?_
  rw [h t]
  exact hr _

theorem steps_readOriginal (hfaithful : Faithful memory region ctx) (name : String) :
    Program.Steps (fun s s' : AtWork τ => R (memory s.device) (memory s'.device))
      (readOriginal ctx name) := by
  intro s
  rw [readOriginal_eq]
  show R (memory s.device) (memory (ctx.flashDevice.readPartition name s.device).2)
  rw [(hfaithful.readPartition name s.device).1]
  exact hr _

include ht

/-- Whatever a change of its partition keeps to is kept to by a job. -/
theorem steps_execute (hfaithful : Faithful memory region ctx) (job : GenericJob)
    (hwrites : job.writes = true → ∀ store store',
      ChangesPartition region job.partitionName store store' → R store store') :
    Program.Steps (fun s s' : AtWork τ => R (memory s.device) (memory s'.device))
      (job.execute ctx) := by
  have hstay : ∀ s : AtWork τ, R (memory s.device) (memory s.device) := fun _ => hr _
  have htrans : ∀ ⦃s s' s'' : AtWork τ⦄, R (memory s.device) (memory s'.device) →
      R (memory s'.device) (memory s''.device) → R (memory s.device) (memory s''.device) :=
    fun _ _ _ h h' => ht h h'
  have hcheck : Program.Steps (fun s s' : AtWork τ => R (memory s.device) (memory s'.device))
      (checkCancelled (τ := τ)) := .failIf hstay _ _
  rw [GenericJob.writes] at hwrites
  rw [GenericJob.execute]
  cases hkind : job.kind with
  | flash data =>
    refine .bind htrans hcheck fun _ => ?_
    split
    · rename_i hname
      exact steps_onDevice fun t => hwrites (by simp [hkind, hname]) _ _
        (hfaithful.writePartition job.partitionName data t).2
    · exact .pure hstay ()
  | backup =>
    refine .bind htrans hcheck fun _ => ?_
    cases hmanager : ctx.partitionManager with
    | some manager =>
      exact .void (steps_harmless hr fun t => (hfaithful.backupPartition manager hmanager _ t).1)
    | none => exact .void (steps_harmless hr fun t => (hfaithful.readPartition _ t).1)
  | restore data =>
    refine .bind htrans hcheck fun _ =>
      .bind htrans (steps_readOriginal hr hfaithful _) fun _ => ?_
    rw [RestoreJob.write]
    cases hmanager : ctx.partitionManager with
    | some manager =>
      exact steps_onDevice fun t => hwrites (by simp [hkind]) _ _
        (hfaithful.restorePartition manager hmanager job.partitionName data t).2
    | none =>
      exact steps_onDevice fun t => hwrites (by simp [hkind]) _ _
        (hfaithful.writePartition job.partitionName data t).2
  | read =>
    exact .bind htrans hcheck fun _ =>
      .void (steps_harmless hr fun t => (hfaithful.readPartition _ t).1)
  | erase =>
    refine .bind htrans hcheck fun _ =>
      .bind htrans (steps_readOriginal hr hfaithful _) fun _ => ?_
    exact steps_onDevice fun t => hwrites (by simp [hkind]) _ _
      (hfaithful.erasePartition job.partitionName t).2
  | verify data =>
    refine .bind htrans hcheck fun _ =>
      .bind htrans (steps_harmless hr fun t => (hfaithful.readPartition _ t).1) fun _ => ?_
    split
    · exact .fail hstay _
    split
    · exact .fail hstay _
    · exact .pure hstay ()
  | gptUpdate =>
    refine .bind htrans hcheck fun _ => ?_
    dsimp only
    repeat' first
      | exact .pure hstay _
      | exact .modify hstay
      | exact .attempt (steps_harmless hr hfaithful.getStorageInfo)
      | exact .attempt (steps_harmless hr (hfaithful.readMemory _ _).1)
      | exact .void (.attempt (steps_harmless hr (hfaithful.readMemory _ _).1))
      | exact steps_harmless hr (hfaithful.openTable _ ‹_›)
      | exact steps_harmless hr (hfaithful.refreshTable _ ‹_›)
      | refine .bind htrans ?_ fun _ => ?_
      | split
  | programmerUpload data =>
    exact .bind htrans hcheck fun _ => steps_harmless hr (hfaithful.uploadLoader data)

end

/-- A job changes bytes of its partition only. -/
theorem execute_changes (hfaithful : Faithful memory region ctx) (job : GenericJob)
    (s : AtWork τ) :
    ChangesPartition region job.partitionName (memory s.device)
      (memory (job.execute ctx s).2.device) :=
  steps_execute (ChangesPartition.refl _) (fun _ _ _ h h' => h.trans h') hfaithful job
    (fun _ _ _ h => h) s

/-- A job that does not write changes nothing. -/
theorem execute_harmless (hfaithful : Faithful memory region ctx) {job : GenericJob}
    (h : job.writes = false) (s : AtWork τ) :
    memory (job.execute ctx s).2.device = memory s.device := by
  refine (steps_execute (R := Eq) (fun _ => rfl) (fun _ _ _ h h' => h.trans h') hfaithful job
    (fun hwrites => ?_) s).symm
  rw [h] at hwrites
  cases hwrites

/-- A byte that a job changes is one of the partition it writes. -/
theorem execute_changed (hfaithful : Faithful memory region ctx) {job : GenericJob}
    {s : AtWork τ} {i : Nat} (h : memory (job.execute ctx s).2.device i ≠ memory s.device i) :
    job.writes = true ∧ ∃ address size, region job.partitionName = some (address, size) ∧
      address ≤ i ∧ i < address + size := by
  constructor
  · by_contra hwrites
    rw [execute_harmless hfaithful (by simpa using hwrites)] at h
    exact h rfl
  · by_contra houtside
    refine h (execute_changes hfaithful job s i fun address size hregion => ?_)
    by_contra hinside
    rw [ByteStore.Apart, not_or] at hinside
    exact houtside ⟨address, size, hregion, by omega, by omega⟩

/-- The device after it has answered the write or the erasure of the job. -/
def GenericJob.answered (ctx : JobContext τ) (job : GenericJob) (device : τ) : τ :=
  let read := (ctx.flashDevice.readPartition job.partitionName device).2
  match job.kind with
  | .flash data =>
    if job.partitionName = "" then device
    else (ctx.flashDevice.writePartition job.partitionName data device).2
  | .restore data =>
    match ctx.partitionManager with
    | some manager => (manager.restorePartition job.partitionName data read).2
    | none => (ctx.flashDevice.writePartition job.partitionName data read).2
  | .erase => (ctx.flashDevice.erasePartition job.partitionName read).2
  | .backup | .read | .verify _ | .gptUpdate | .programmerUpload _ => device

/-- A job that writes leaves the device as it is after this answer. -/
theorem execute_answered {job : GenericJob} {device : τ} (hidle : job.cancelled = false)
    (hwrites : job.writes = true) :
    (job.execute ctx ⟨job, device⟩).2.device = job.answered ctx device := by
  have hidle : (⟨job, device⟩ : AtWork τ).job.cancelled = false := hidle
  have hread := readOriginal_eq ctx job.partitionName ⟨job, device⟩
  rw [GenericJob.writes] at hwrites
  rw [GenericJob.execute, GenericJob.answered]
  cases hkind : job.kind with
  | flash data =>
    simp only [FlashJob.execute, run_checkCancelled hidle]
    by_cases hname : job.partitionName = ""
    · simp [hkind, hname] at hwrites
    · simp only [ne_eq, hname, not_false_eq_true, if_true, if_false]
      rfl
  | restore data =>
    simp only [RestoreJob.execute, run_checkCancelled hidle, Program.run_bind, hread,
      RestoreJob.write]
    cases ctx.partitionManager <;> rfl
  | erase =>
    simp only [EraseJob.execute, run_checkCancelled hidle, Program.run_bind, hread]
    rfl
  | backup | read | verify _ | gptUpdate | programmerUpload _ =>
    simp [hkind] at hwrites

theorem answered_of_not_writes {job : GenericJob} {device : τ} (h : job.writes = false) :
    job.answered ctx device = device := by
  rw [GenericJob.writes] at h
  rw [GenericJob.answered]
  cases hkind : job.kind with
  | flash data =>
    have hname : job.partitionName = "" := by simpa [hkind] using h
    simp only [hname, if_true]
  | restore | erase => simp [hkind] at h
  | backup | read | verify | gptUpdate | programmerUpload => rfl

/-- A job that goes on leaves the memory as the device answers to it. -/
theorem memory_execute (hfaithful : Faithful memory region ctx) {job : GenericJob} {device : τ}
    (hidle : job.cancelled = false) :
    memory (job.execute ctx ⟨job, device⟩).2.device = memory (job.answered ctx device) := by
  cases hwrites : job.writes with
  | false => rw [execute_harmless hfaithful hwrites, answered_of_not_writes hwrites]
  | true => rw [execute_answered hidle hwrites]

theorem restore_write (hfaithful : Faithful memory region ctx) {name : String} {data : ByteBuffer}
    {s : AtWork τ} (hok : (RestoreJob.write ctx name data s).1 = .ok ()) :
    (RestoreJob.write ctx name data s).2.job = s.job ∧
      ∃ address size, region name = some (address, size) ∧
        memory (RestoreJob.write ctx name data s).2.device
          = (memory s.device).overlay address data := by
  rw [RestoreJob.write] at hok ⊢
  cases hmanager : ctx.partitionManager with
  | some manager =>
    rw [hmanager] at hok
    obtain ⟨address, size, hregion, -, hmemory⟩ :=
      (hfaithful.restorePartition manager hmanager name data s.device).1 hok
    exact ⟨rfl, address, size, hregion, hmemory⟩
  | none =>
    rw [hmanager] at hok
    obtain ⟨address, size, hregion, -, hmemory⟩ :=
      (hfaithful.writePartition name data s.device).1 hok
    exact ⟨rfl, address, size, hregion, hmemory⟩

/-! ## What a job keeps -/

/-- The steps of `GPTUpdateJob::execute` up to its copy of the primary table. -/
def GPTUpdateJob.readPrimary (ctx : JobContext τ) : Program τ ErrorCode ByteBuffer := do
  match ctx.partitionManager with
  | some manager => manager.openTable
  | none => pure ()
  let info ← ctx.flashDevice.getStorageInfo
  let sectorSize : UInt64 := if info.sectorSize > 0 then info.sectorSize.toUInt64 else 512
  ctx.flashDevice.readMemory 0 ((34 + 128 * 128 / sectorSize) * sectorSize)

/-- What the job reads of the device to keep it: all of its partition before it is
restored or erased, and the primary partition table before it is updated. -/
def GenericJob.original (ctx : JobContext τ) (job : GenericJob) (device : τ) :
    Option ByteBuffer :=
  match job.kind with
  | .restore _ | .erase => (ctx.flashDevice.readPartition job.partitionName device).1.toOption
  | .gptUpdate => (GPTUpdateJob.readPrimary ctx device).1.toOption
  | .flash _ | .backup | .read | .verify _ | .programmerUpload _ => none

def GenericJob.keeping (ctx : JobContext τ) (job : GenericJob) (device : τ) : GenericJob :=
  job.withOriginal (job.original ctx device)

theorem gptUpdate_keeps {s : AtWork τ} (hok : (GPTUpdateJob.execute ctx s).1 = .ok ()) :
    (GPTUpdateJob.execute ctx s).2.job
      = s.job.withOriginal (GPTUpdateJob.readPrimary ctx s.device).1.toOption := by
  have hdone : (GenericJob.execute ctx { kind := .gptUpdate } s).1 = .ok () := hok
  have hidle := idle_of_done hdone
  rw [GPTUpdateJob.execute, run_checkCancelled hidle] at hok ⊢
  rw [GPTUpdateJob.readPrimary]
  cases hmanager : ctx.partitionManager with
  | none =>
    simp only [Program.run_bind, Program.run_attempt, onDevice, Program.run_zoom]
    rcases ctx.flashDevice.getStorageInfo s.device with ⟨e | info, device⟩
    · rfl
    · simp only [Program.run_bind, Program.run_attempt, Program.run_zoom]
      rcases ctx.flashDevice.readMemory 0 _ device with ⟨e | data, device⟩
      · rfl
      · rfl
  | some manager =>
    simp only [hmanager, Program.run_bind, onDevice, Program.run_zoom] at hok ⊢
    rcases hopen : manager.openTable s.device with ⟨e | ⟨⟩, device⟩
    · rw [hopen] at hok
      cases hok
    · simp only [Program.run_attempt, Program.run_zoom]
      rcases ctx.flashDevice.getStorageInfo device with ⟨e | info, device⟩
      · rfl
      · simp only [Program.run_bind, Program.run_attempt, Program.run_zoom]
        rcases ctx.flashDevice.readMemory 0 _ device with ⟨e | data, device⟩
        · rfl
        · rfl

/-- A job that is done has kept what it could read. -/
theorem execute_keeps {job : GenericJob} {device : τ}
    (hok : (job.execute ctx ⟨job, device⟩).1 = .ok ()) :
    (job.execute ctx ⟨job, device⟩).2.job = job.keeping ctx device := by
  have hidle : (⟨job, device⟩ : AtWork τ).job.cancelled = false := idle_of_done hok
  rw [GenericJob.keeping, GenericJob.original]
  rw [GenericJob.execute] at hok ⊢
  cases hkind : job.kind with
  | gptUpdate =>
    simp only [hkind] at hok
    exact gptUpdate_keeps hok
  | flash data =>
    simp only [FlashJob.execute, run_checkCancelled hidle]
    by_cases hname : job.partitionName ≠ ""
    · rw [if_pos hname]
      rfl
    · rw [if_neg hname]
      rfl
  | backup =>
    simp only [BackupJob.execute, run_checkCancelled hidle]
    cases ctx.partitionManager with
    | some manager => exact congrArg AtWork.job (Program.run_void_state _ _)
    | none => exact congrArg AtWork.job (Program.run_void_state _ _)
  | restore data =>
    simp only [RestoreJob.execute, run_checkCancelled hidle,
      Program.run_bind_ok (readOriginal_eq ctx job.partitionName _), RestoreJob.write]
    cases ctx.partitionManager with
    | some manager => rfl
    | none => rfl
  | read =>
    simp only [ReadJob.execute, run_checkCancelled hidle]
    exact congrArg AtWork.job (Program.run_void_state _ _)
  | erase =>
    simp only [EraseJob.execute, run_checkCancelled hidle,
      Program.run_bind_ok (readOriginal_eq ctx job.partitionName _)]
    rfl
  | verify data =>
    simp only [VerifyJob.execute, run_checkCancelled hidle, Program.run_bind, onDevice,
      Program.run_zoom]
    rcases ctx.flashDevice.readPartition job.partitionName device with ⟨error | actual, device⟩
    · rfl
    · dsimp only
      split
      · rfl
      · split <;> rfl
  | programmerUpload data =>
    simp only [ProgrammerUploadJob.execute, run_checkCancelled hidle]
    rfl

/-- What is read of the primary table is what is there. -/
theorem readPrimary_slice (hfaithful : Faithful memory region ctx) {device : τ}
    {data : ByteBuffer} (h : (GPTUpdateJob.readPrimary ctx device).1 = .ok data) :
    data = (memory device).slice 0 data.length := by
  obtain ⟨left, hrun⟩ : ∃ left, GPTUpdateJob.readPrimary ctx device = (.ok data, left) :=
    ⟨_, Prod.ext h rfl⟩
  have hread {opened : τ} (hopened : memory opened = memory device)
      (hrun : (do
        let info ← ctx.flashDevice.getStorageInfo
        let sectorSize : UInt64 := if info.sectorSize > 0 then info.sectorSize.toUInt64 else 512
        ctx.flashDevice.readMemory 0 ((34 + 128 * 128 / sectorSize) * sectorSize)
          : Program τ ErrorCode ByteBuffer) opened = (.ok data, left)) :
      data = (memory device).slice 0 data.length := by
    obtain ⟨info, informed, hinfo, hread⟩ := Program.bind_eq_ok.mp hrun
    have hinformed := hfaithful.getStorageInfo opened
    have hslice := (hfaithful.readMemory 0 _).2 informed data (congrArg Prod.fst hread)
    rw [hinfo] at hinformed
    rw [hinformed, hopened] at hslice
    rw [hslice, ByteStore.slice_length]
    rfl
  rw [GPTUpdateJob.readPrimary] at hrun
  cases hmanager : ctx.partitionManager with
  | none =>
    simp only [hmanager] at hrun
    exact hread rfl hrun
  | some manager =>
    simp only [hmanager] at hrun
    obtain ⟨⟨⟩, opened, hopen, hrun⟩ := Program.bind_eq_ok.mp hrun
    have hopened := hfaithful.openTable manager hmanager device
    rw [hopen] at hopened
    exact hread hopened hrun
/-- A job that is done has changed only what it has written. -/
theorem execute_extent (hfaithful : Faithful memory region ctx) {job : GenericJob} {s : AtWork τ}
    (hok : (job.execute ctx s).1 = .ok ()) {i : Nat}
    (h : ∀ address size, job.extent region = some (address, size) →
      ByteStore.Apart i 1 address size) :
    memory (job.execute ctx s).2.device i = memory s.device i := by
  cases hwrites : job.writes with
  | false => rw [execute_harmless hfaithful hwrites]
  | true =>
    have hidle := idle_of_done hok
    have hread := congrFun (hfaithful.readPartition job.partitionName s.device).1 i
    rw [GenericJob.extent] at h
    rw [GenericJob.execute] at hok ⊢
    rw [GenericJob.writes] at hwrites
    cases hkind : job.kind with
    | flash data =>
      have hname : job.partitionName ≠ "" := by simpa [hkind] using hwrites
      simp only [hkind, FlashJob.execute, run_checkCancelled hidle, if_pos hname] at hok ⊢
      obtain ⟨address, size, hregion, -, hmemory⟩ :=
        (hfaithful.writePartition job.partitionName data s.device).1 hok
      have happart := h address data.length (by simp [hkind, hname, hregion])
      exact (congrFun hmemory i).trans (ByteStore.overlay_apart happart)
    | restore data =>
      simp only [hkind, RestoreJob.execute, run_checkCancelled hidle,
        Program.run_bind_ok (readOriginal_eq ctx job.partitionName s)] at hok ⊢
      obtain ⟨-, address, size, hregion, hmemory⟩ := restore_write hfaithful hok
      have happart := h address data.length (by simp [hkind, hregion])
      exact (congrFun hmemory i).trans ((ByteStore.overlay_apart happart).trans hread)
    | erase =>
      simp only [hkind, EraseJob.execute, run_checkCancelled hidle,
        Program.run_bind_ok (readOriginal_eq ctx job.partitionName s)] at hok ⊢
      obtain ⟨address, size, byte, hregion, hmemory⟩ :=
        (hfaithful.erasePartition job.partitionName _).1 hok
      have happart : ByteStore.Apart i 1 address (List.replicate size byte).length := by
        rw [List.length_replicate]
        exact h address size (by simp [hkind, hregion])
      exact (congrFun hmemory i).trans ((ByteStore.overlay_apart happart).trans hread)
    | backup | read | verify | gptUpdate | programmerUpload => simp [hkind] at hwrites

end MBootCore.Job
