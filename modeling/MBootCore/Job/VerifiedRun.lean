import MBootCore.Job.FlashVerify
import MBootCore.Job.PipelineSuccess

/-!
# Job — VerifiedRun

A pipeline whose last jobs are verifications. They change nothing, so when a run succeeds with
all of its jobs done, each of their partitions holds at the end what was expected of it,
whatever the jobs before them did and whatever was asked of the pipeline meanwhile.
-/

namespace MBootCore.Job

variable {τ : Type} {ctx : JobContext τ} {memory : τ → ByteStore}
  {region : String → Option (Nat × Nat)}

/-- The partition is there, and holds the data and nothing else. -/
def Holds (memory : τ → ByteStore) (region : String → Option (Nat × Nat)) (name : String)
    (data : ByteBuffer) (device : τ) : Prop :=
  ∃ address size, region name = some (address, size) ∧
    (memory device).slice address size = data

/-! ## What a method does -/

/-- A verification that succeeds changes nothing and has found what it expects. -/
theorem verify_ok (hfaithful : Faithful memory region ctx) {name : String}
    {expected : ByteBuffer} {s : AtWork τ}
    (hok : (VerifyJob.execute ctx name expected s).1 = .ok ()) :
    memory (VerifyJob.execute ctx name expected s).2.device = memory s.device ∧
      Holds memory region name expected s.device := by
  rcases hrun : VerifyJob.execute ctx name expected s with ⟨_ | _, s'⟩
  · rw [hrun] at hok
    cases hok
  rw [VerifyJob.execute, Program.bind_eq_ok] at hrun
  obtain ⟨_, s₁, hcancelled, hrun⟩ := hrun
  obtain ⟨-, rfl⟩ := Program.failIf_eq_ok.mp hcancelled
  obtain ⟨actual, s₂, hread, hrun⟩ := Program.bind_eq_ok.mp hrun
  obtain ⟨device, hdevice, rfl⟩ := Program.zoom_eq_ok.mp hread
  obtain ⟨hharmless, hdata⟩ := hfaithful.readPartition name s.device
  rw [hdevice] at hharmless hdata
  obtain ⟨address, size, hregion, hactual⟩ := hdata actual rfl
  split at hrun
  · cases hrun
  split at hrun
  · cases hrun
  · rename_i hsame
    obtain ⟨-, rfl⟩ := Prod.mk.inj hrun
    exact ⟨hharmless, address, size, hregion, hactual ▸ Decidable.not_not.mp hsame⟩

/-! ## Runs -/

namespace JobPipeline

/-- The loop goes on after a job when it ends with all jobs done. -/
theorem runJobs_cons_ok {J σ : Type} {w : Surroundings J σ} {index : Nat} {job : J}
    {rest : List J} {p : JobPipeline J σ} (hok : (runJobs w index (job :: rest) p).1 = .ok ())
    (hall : (runJobs w index (job :: rest) p).2.completedCount
      = p.completedCount + (rest.length + 1)) :
    ∃ p₁ : JobPipeline J σ, p₁.completedCount = p.completedCount + 1 ∧
      runJobs w index (job :: rest) p = runJobs w (index + 1) rest p₁ ∧
      ((p.due w).ask w w.prepare job).1 = .ok () ∧
      (((p.due w).ask w w.prepare job).2.ask w w.execute job).1 = .ok () ∧
      p₁.toControl = (((p.due w).ask w w.prepare job).2.ask w w.execute job).2 := by
  rw [runJobs] at hok hall ⊢
  simp only at hok hall ⊢
  split at hall
  · exact absurd hall (by simp)
  · rename_i hdue
    rw [if_neg hdue] at hok ⊢
    have hends := jobEnds_executeJob (w := w) job
      { p with toControl := p.due w, currentIndex := index }
    generalize executeJob w job _ = r at hends hok hall ⊢
    cases hends with
    | @failed p₁ error => exact absurd hok (fail_error job error p₁)
    | @done p₁ _ hcount _ hprepared hexecuted hcontrol =>
      exact ⟨_, congrArg (· + 1) hcount, rfl, hprepared, hexecuted, hcontrol⟩

end JobPipeline

/-- The control after a job is due, prepared and executed. -/
def ran (ctx : JobContext τ) (place : Nat) (c : Control Nat (JobWorld τ)) :
    Control Nat (JobWorld τ) :=
  let w := genericSurroundings ctx
  (((c.due w).ask w w.prepare place).2.ask w w.execute place).2

theorem ran_sameWork (hfaithful : Faithful memory region ctx) (place : Nat)
    (c : Control Nat (JobWorld τ)) : SameWork c.world (ran ctx place c).world := by
  obtain ⟨-, hdue⟩ := due_same hfaithful c
  obtain ⟨-, hprepared⟩ := prepare_same ctx place (c.due (genericSurroundings ctx))
  obtain ⟨-, -, hexecuted⟩ := ask_sameWork ctx (GenericJob.execute ctx)
    preserves_execute place ((c.due (genericSurroundings ctx)).ask (genericSurroundings ctx)
      (genericSurroundings ctx).prepare place).2
  exact hdue.work.trans (hprepared.work.trans hexecuted)

/-- A verification that is done changes nothing and has found what it expects. -/
theorem ran_verify (hfaithful : Faithful memory region ctx) {place : Nat} {name : String}
    {expected : ByteBuffer} {c : Control Nat (JobWorld τ)}
    (hwork : (c.world.jobs place).work = (.verify expected, name))
    (hok : (((c.due (genericSurroundings ctx)).ask (genericSurroundings ctx)
      (genericSurroundings ctx).prepare place).2.ask (genericSurroundings ctx)
        (genericSurroundings ctx).execute place).1 = .ok ()) :
    memory (ran ctx place c).world.device = memory c.world.device ∧
      Holds memory region name expected c.world.device := by
  obtain ⟨hdue, hduework⟩ := due_same hfaithful c
  obtain ⟨hprepared, hpreparedwork⟩ := prepare_same ctx place
    (c.due (genericSurroundings ctx))
  obtain ⟨hresult, hdevice, -⟩ := ask_sameWork ctx (GenericJob.execute ctx)
    preserves_execute place ((c.due (genericSurroundings ctx)).ask (genericSurroundings ctx)
      (genericSurroundings ctx).prepare place).2
  generalize hready : ((c.due (genericSurroundings ctx)).ask (genericSurroundings ctx)
    (genericSurroundings ctx).prepare place).2 = ready at *
  have hsame : memory ready.world.device = memory c.world.device :=
    (congrArg memory hprepared).trans hdue
  have hjob : (ready.world.jobs place).work = (.verify expected, name) :=
    ((hduework.trans hpreparedwork).work place).trans hwork
  obtain ⟨hkind, hname⟩ := Prod.mk.inj hjob
  have hexecute : (ready.world.jobs place).execute ctx = VerifyJob.execute ctx name expected := by
    rw [GenericJob.execute, hkind, hname]
  rw [hexecute] at hresult hdevice
  obtain ⟨hmemory, address, size, hregion, hslice⟩ := verify_ok hfaithful (hresult.symm.trans hok)
  have hran : (ran ctx place c).world.device = (ready.ask (genericSurroundings ctx)
      (answer ctx (GenericJob.execute ctx)) place).2.world.device := by
    rw [← hready]
    rfl
  refine ⟨?_, address, size, hregion, ?_⟩
  · rw [hran, hdevice, hmemory, hsame]
  · rw [← hsame]
    exact hslice

section Runs

variable {p : JobPipeline Nat (JobWorld τ)} {index : Nat}

/-- The first jobs of a run that ends with all jobs done. -/
theorem runJobs_first (hfaithful : Faithful memory region ctx) {first rest : List Nat}
    (hok : (p.runJobs (genericSurroundings ctx) index (first ++ rest)).1 = .ok ())
    (hall : (p.runJobs (genericSurroundings ctx) index (first ++ rest)).2.completedCount
      = p.completedCount + (first ++ rest).length) :
    ∃ p₁ : JobPipeline Nat (JobWorld τ), p₁.completedCount = p.completedCount + first.length ∧
      SameWork p.world p₁.world ∧
      p.runJobs (genericSurroundings ctx) index (first ++ rest)
        = p₁.runJobs (genericSurroundings ctx) (index + first.length) rest := by
  induction first generalizing index p with
  | nil => exact ⟨p, rfl, fun _ => rfl, rfl⟩
  | cons place first ih =>
    rw [List.cons_append] at hok hall ⊢
    obtain ⟨p₁, hcount, hrun, -, -, hcontrol⟩ := JobPipeline.runJobs_cons_ok hok hall
    have hlength : p₁.completedCount + (first ++ rest).length
        = p.completedCount + (place :: (first ++ rest)).length := by
      rw [hcount, List.length_cons]
      omega
    rw [hrun] at hok hall ⊢
    obtain ⟨p₂, hcount₂, hwork, hlast⟩ := ih hok (hall.trans hlength.symm)
    have hsame : SameWork p.world p₁.world := by
      rw [hcontrol]
      exact ran_sameWork hfaithful place p.toControl
    refine ⟨p₂, ?_, hsame.trans hwork, ?_⟩
    · rw [hcount₂, hcount, List.length_cons]
      omega
    · rw [hlast, List.length_cons, Nat.add_right_comm, Nat.add_assoc]

/-- A run of verifications alone. -/
theorem runJobs_verifications (hfaithful : Faithful memory region ctx) {places : List Nat}
    (hverify : ∀ place ∈ places, ∃ expected, (p.world.jobs place).kind = .verify expected)
    (hok : (p.runJobs (genericSurroundings ctx) index places).1 = .ok ())
    (hall : (p.runJobs (genericSurroundings ctx) index places).2.completedCount
      = p.completedCount + places.length) :
    memory (p.runJobs (genericSurroundings ctx) index places).2.world.device
        = memory p.world.device ∧
      ∀ place ∈ places, ∀ expected, (p.world.jobs place).kind = .verify expected →
        Holds memory region (p.world.jobs place).partitionName expected p.world.device := by
  induction places generalizing index p with
  | nil => exact ⟨rfl, fun _ hplace => absurd hplace List.not_mem_nil⟩
  | cons place places ih =>
    obtain ⟨p₁, hcount, hrun, -, hexecuted, hcontrol⟩ := JobPipeline.runJobs_cons_ok hok hall
    obtain ⟨hhead, hrest⟩ := List.forall_mem_cons.mp hverify
    obtain ⟨expected, hkind⟩ := hhead
    obtain ⟨hmemory, hholds⟩ := ran_verify hfaithful
      (show (p.world.jobs place).work = (.verify expected, (p.world.jobs place).partitionName) from
        Prod.ext hkind rfl) hexecuted
    have hsame : SameWork p.world p₁.world := by
      rw [hcontrol]
      exact ran_sameWork hfaithful place p.toControl
    have hfirst : memory p₁.world.device = memory p.world.device := by
      rw [hcontrol]
      exact hmemory
    have hlength : p₁.completedCount + places.length
        = p.completedCount + (place :: places).length := by
      rw [hcount, List.length_cons]
      omega
    rw [hrun] at hok hall
    have hverify₁ : ∀ other ∈ places, ∃ expected,
        (p₁.world.jobs other).kind = .verify expected := by
      intro other hother
      obtain ⟨data, hdata⟩ := hrest other hother
      exact ⟨data, (hsame.kind other).trans hdata⟩
    obtain ⟨hlast, hlater⟩ := ih hverify₁ hok (hall.trans hlength.symm)
    refine ⟨?_, List.forall_mem_cons.mpr ⟨?_, ?_⟩⟩
    · rw [hrun, hlast, hfirst]
    · intro data hdata
      obtain rfl : expected = data := JobKind.verify.inj (hkind.symm.trans hdata)
      exact hholds
    · intro other hother data hdata
      obtain ⟨address, size, hregion, hslice⟩ :=
        hlater other hother data ((hsame.kind other).trans hdata)
      rw [hsame.partitionName] at hregion
      exact ⟨address, size, hregion, hfirst ▸ hslice⟩

end Runs

/-- When a run that ends with verifications succeeds with all of its jobs done, the partitions
hold at the end what is expected of them. -/
theorem run_holds (hfaithful : Faithful memory region ctx) (first verifications : List GenericJob)
    (device : τ) (hverify : ∀ job ∈ verifications, ∃ expected, job.kind = .verify expected)
    (hok : ((pipelineOf (first ++ verifications) device).run (genericSurroundings ctx)).1 = .ok ())
    (hall : ((pipelineOf (first ++ verifications) device).run
      (genericSurroundings ctx)).2.completedCount = (first ++ verifications).length) :
    ∀ job ∈ verifications, ∀ expected, job.kind = .verify expected →
      Holds memory region job.partitionName expected
        ((pipelineOf (first ++ verifications) device).run
          (genericSurroundings ctx)).2.world.device := by
  let p := pipelineOf (first ++ verifications) device
  -- the verifications have the places behind those of the other jobs
  have hplaces : p.jobs = List.range first.length
      ++ (List.range verifications.length).map (first.length + ·) := by
    rw [← List.range_add, ← List.length_append]
    rfl
  have hrun : p.run (genericSurroundings ctx)
      = p.start.runJobs (genericSurroundings ctx) 0 (List.range first.length
          ++ (List.range verifications.length).map (first.length + ·)) := by
    rw [← hplaces]
    rfl
  have hjob (i : Nat) : p.world.jobs (first.length + i)
      = verifications.getD i { kind := .read } := by
    show (first ++ verifications).getD _ _ = _
    rw [List.getD_append_right _ _ _ _ (Nat.le_add_right _ _), Nat.add_sub_cancel_left]
  have hstart : p.start.completedCount = 0 := rfl
  rw [hrun] at hok hall ⊢
  obtain ⟨p₁, hcount, hwork, hlast⟩ := runJobs_first hfaithful hok (by
    rw [hall, hstart]
    simp)
  rw [hlast] at hok hall ⊢
  have hkinds : ∀ place ∈ (List.range verifications.length).map (first.length + ·),
      ∃ expected, (p₁.world.jobs place).kind = .verify expected := by
    intro place hplace
    obtain ⟨i, hi, rfl⟩ := List.mem_map.mp hplace
    have hlt := List.mem_range.mp hi
    rw [hwork.kind]
    show ∃ expected, (p.world.jobs (first.length + i)).kind = _
    rw [hjob, List.getD_eq_getElem _ _ hlt]
    exact hverify _ (List.getElem_mem hlt)
  obtain ⟨hmemory, hholds⟩ := runJobs_verifications hfaithful hkinds hok (by
    rw [hall, hcount, hstart]
    simp)
  intro job hmem expected hkind
  obtain ⟨i, hlt, rfl⟩ := List.mem_iff_getElem.mp hmem
  have hsame : p.start.world.jobs (first.length + i) = verifications[i] :=
    (hjob i).trans (List.getD_eq_getElem _ _ hlt)
  obtain ⟨address, size, hregion, hslice⟩ := hholds (first.length + i)
    (List.mem_map.mpr ⟨i, List.mem_range.mpr hlt, rfl⟩) expected
    (by rw [hwork.kind, hsame, hkind])
  rw [hwork.partitionName, hsame] at hregion
  exact ⟨address, size, hregion, hmemory ▸ hslice⟩

/-! ## What a run comes to -/

/-- What a job does to the bytes of a device that can do all it is asked, or `none` when the job
fails. -/
def GenericJob.effect (region : String → Option (Nat × Nat)) (job : GenericJob)
    (store : ByteStore) : Option ByteStore :=
  match job.kind with
  | .flash data =>
    if data = [] then none
    else if job.partitionName = "" then some store
    else
      match region job.partitionName with
      | none => none
      | some (address, size) =>
        if data.length ≤ size then some (store.overlay address data) else none
  | .verify expected =>
    match region job.partitionName with
    | none => none
    | some (address, size) =>
      if expected ≠ [] ∧ store.slice address size = expected then some store else none
  | .gptUpdate => some store
  | .backup | .restore _ | .read | .erase | .programmerUpload _ => none

/-- The jobs one after the other. -/
def effects (region : String → Option (Nat × Nat)) :
    List GenericJob → ByteStore → Option ByteStore
  | [], store => some store
  | job :: rest, store => (job.effect region store).bind (effects region rest)

/-- The jobs plans are made of. -/
def GenericJob.IsPlanned (job : GenericJob) : Prop :=
  match job.kind with
  | .flash _ | .verify _ | .gptUpdate => True
  | .backup | .restore _ | .read | .erase | .programmerUpload _ => False

/-- Nothing is asked of the pipeline, and the partition table can be read. -/
structure Calm (ctx : JobContext τ) : Prop where
  asked : ∀ t, ctx.asked t = []
  between : ∀ t, (ctx.between t).1 = []
  openTable : ∀ manager ∈ ctx.partitionManager, ∀ t, (manager.openTable t).1 = .ok ()
  refreshTable : ∀ manager ∈ ctx.partitionManager, ∀ t, (manager.refreshTable t).1 = .ok ()

section Calm

/-- The method succeeds, and changes no byte. -/
def Silent (memory : τ → ByteStore) {α : Type} (method : Method τ α) : Prop :=
  ∀ s, ∃ a s', method s = (.ok a, s') ∧ memory s'.device = memory s.device

theorem Silent.pure {α : Type} (a : α) : Silent memory (pure a : Method τ α) :=
  fun s => ⟨a, s, rfl, rfl⟩

theorem Silent.bind {α β : Type} {method : Method τ α} {rest : α → Method τ β}
    (h : Silent memory method) (hrest : ∀ a, Silent memory (rest a)) :
    Silent memory (method >>= rest) := by
  intro s
  obtain ⟨a, s', hrun, hmemory⟩ := h s
  obtain ⟨b, s'', hlater, hkept⟩ := hrest a s'
  exact ⟨b, s'', Program.bind_eq_ok.mpr ⟨a, s', hrun, hlater⟩, hkept.trans hmemory⟩

theorem silent_attempt {α : Type} {operation : Program τ ErrorCode α}
    (h : Harmless memory operation) :
    Silent memory (Program.attempt (onDevice operation)) :=
  fun s => ⟨(operation s.device).1, { s with device := (operation s.device).2 }, rfl, h s.device⟩

theorem silent_onDevice {operation : Program τ ErrorCode Unit} (h : Harmless memory operation)
    (hok : ∀ t, (operation t).1 = .ok ()) : Silent memory (onDevice operation) := by
  intro s
  refine ⟨(), { s with device := (operation s.device).2 }, ?_, h s.device⟩
  rw [onDevice, Program.run_zoom, hok]

theorem silent_void {α : Type} {method : Method τ α} (h : Silent memory method) :
    Silent memory (Program.void method) := by
  intro s
  obtain ⟨a, s', hrun, hmemory⟩ := h s
  exact ⟨(), s', Program.void_eq_ok.mpr ⟨a, hrun⟩, hmemory⟩

theorem gptUpdate_silent (hfaithful : Faithful memory region ctx) (hcalm : Calm ctx)
    {s : AtWork τ} (h : s.job.cancelled = false) :
    ∃ s', GPTUpdateJob.execute ctx s = (.ok (), s') ∧ memory s'.device = memory s.device := by
  obtain ⟨rest, hrest, hsilent⟩ : ∃ rest : Method τ Unit,
      GPTUpdateJob.execute ctx = (do checkCancelled; rest) ∧ Silent memory rest := by
    refine ⟨_, rfl, ?_⟩
    dsimp only
    repeat' first
      | exact .pure _
      | exact fun s => ⟨(), _, rfl, rfl⟩
      | exact silent_attempt hfaithful.getStorageInfo
      | exact silent_attempt (hfaithful.readMemory _ _).1
      | exact silent_void (silent_attempt (hfaithful.readMemory _ _).1)
      | exact silent_onDevice (hfaithful.openTable _ ‹_›) (hcalm.openTable _ ‹_›)
      | exact silent_onDevice (hfaithful.refreshTable _ ‹_›) (hcalm.refreshTable _ ‹_›)
      | refine .bind ?_ fun _ => ?_
      | split
  obtain ⟨_, s', hrun, hmemory⟩ := hsilent s
  exact ⟨s', by rw [hrest, run_checkCancelled h, hrun], hmemory⟩

variable (hfaithful : Faithful memory region ctx) (hreliable : Reliable memory region ctx)
  (hcalm : Calm ctx)
include hfaithful hreliable hcalm

/-- A job that has an effect succeeds and has it, and one that has none fails. -/
theorem execute_effect {job : GenericJob} (hplanned : job.IsPlanned)
    (hcancelled : job.cancelled = false) (t : τ) :
    match job.effect region (memory t) with
    | some store => (job.prepare ⟨job, t⟩).1 = .ok () ∧
        (job.execute ctx ⟨job, t⟩).1 = .ok () ∧ memory (job.execute ctx ⟨job, t⟩).2.device = store
    | none => (job.prepare ⟨job, t⟩).1 = .ok () → (job.execute ctx ⟨job, t⟩).1 ≠ .ok () := by
  rw [GenericJob.IsPlanned] at hplanned
  rw [GenericJob.effect, GenericJob.prepare, GenericJob.execute]
  cases hkind : job.kind with
  | backup | restore | read | erase | programmerUpload =>
    rw [hkind] at hplanned
    exact hplanned.elim
  | gptUpdate =>
    obtain ⟨s', hrun, hmemory⟩ := gptUpdate_silent hfaithful hcalm (s := ⟨job, t⟩) hcancelled
    refine ⟨rfl, ?_, ?_⟩
    · simp only [hrun]
    · simp only [hrun]
      exact hmemory
  | flash data =>
    simp only [prepareData]
    by_cases hdata : data = []
    · simp [hdata]
    rw [FlashJob.execute, run_checkCancelled (s := ⟨job, t⟩) hcancelled]
    simp only [if_neg hdata]
    by_cases hname : job.partitionName = ""
    · simp [hname]
    simp only [if_neg hname, if_pos hname]
    obtain ⟨hwritten, -⟩ := hfaithful.writePartition job.partitionName data t
    rcases hregion : region job.partitionName with _ | ⟨address, size⟩
    · intro _ hok
      obtain ⟨address, size, hsome, -⟩ := hwritten hok
      cases hregion.symm.trans hsome
    · by_cases hfits : data.length ≤ size
      · obtain ⟨t', hwrite, hmemory⟩ :=
          hreliable.writePartition job.partitionName address size hregion data hfits t
        simp only [if_pos hfits]
        refine ⟨rfl, ?_, ?_⟩
        · rw [onDevice, Program.run_zoom, hwrite]
        · rw [onDevice, Program.run_zoom, hwrite]
          exact hmemory
      · simp only [if_neg hfits]
        intro _ hok
        obtain ⟨address', size', hsome, hless, -⟩ := hwritten hok
        obtain ⟨-, rfl⟩ := Prod.mk.inj (Option.some.inj (hregion.symm.trans hsome))
        exact hfits hless
  | verify expected =>
    simp only [prepareData]
    rcases hregion : region job.partitionName with _ | ⟨address, size⟩
    · intro _ hok
      obtain ⟨-, address, size, hsome, -⟩ := verify_ok hfaithful hok
      cases hregion.symm.trans hsome
    · by_cases hsame : expected ≠ [] ∧ (memory t).slice address size = expected
      · obtain ⟨t', hread, hmemory⟩ :=
          hreliable.readPartition job.partitionName address size hregion t
        rw [hsame.2] at hread
        have hactual : onDevice (ctx.flashDevice.readPartition job.partitionName) ⟨job, t⟩
            = (.ok expected, ⟨job, t'⟩) := by
          rw [onDevice, Program.run_zoom, hread]
        have hrun : VerifyJob.execute ctx job.partitionName expected ⟨job, t⟩
            = (.ok (), ⟨job, t'⟩) := by
          rw [VerifyJob.execute, run_checkCancelled (s := ⟨job, t⟩) hcancelled,
            Program.run_bind_ok hactual]
          simp
        simp only [if_pos hsame, if_neg hsame.1, hrun]
        exact ⟨rfl, trivial, hmemory⟩
      · simp only [if_neg hsame]
        by_cases hexpected : expected = []
        · simp [hexpected]
        · intro _ hok
          obtain ⟨-, address', size', hsome, hslice⟩ := verify_ok hfaithful hok
          obtain ⟨rfl, rfl⟩ := Prod.mk.inj (Option.some.inj (hregion.symm.trans hsome))
          exact hsame ⟨hexpected, hslice⟩

omit hfaithful hreliable in
/-- A method of a calm pipeline does what it does, and nothing comes in between. -/
theorem calm_ask (method : GenericJob → Method τ Unit) (place : Nat)
    (c : Control Nat (JobWorld τ)) :
    c.ask (genericSurroundings ctx) (answer ctx method) place
      = ((method (c.world.jobs place) ⟨c.world.jobs place, c.world.device⟩).1,
          { c with world := (answer ctx method place c.world).world }) := by
  have hnone : (answer ctx method place c.world).requests = [] := hcalm.asked _
  rw [Control.ask]
  simp only [hnone, List.foldl_nil]
  rfl

omit hfaithful hreliable in
theorem calm_due {c : Control Nat (JobWorld τ)} (hpaused : c.paused = false) :
    c.due (genericSurroundings ctx)
      = { c with world := { c.world with device := (ctx.between c.world.device).2 } } := by
  have hnone : ((genericSurroundings ctx).between c.world).1 = [] := hcalm.between _
  rw [Control.due]
  simp only [hnone, List.foldl_nil, Control.waitWhilePaused, hpaused, Bool.false_eq_true,
    false_and, if_false]
  rfl

omit hfaithful hreliable in
theorem calm_prepare (place : Nat) (c : Control Nat (JobWorld τ)) :
    c.ask (genericSurroundings ctx) (genericSurroundings ctx).prepare place
      = (((c.world.jobs place).prepare ⟨c.world.jobs place, c.world.device⟩).1, c) := by
  have hsame : ((c.world.jobs place).prepare ⟨c.world.jobs place, c.world.device⟩).2
      = ⟨c.world.jobs place, c.world.device⟩ := preserves_prepare _ _
  have hworld : (answer ctx GenericJob.prepare place c.world).world = c.world := by
    rw [answer]
    simp only [hsame]
    congr 1
    funext other
    split
    · rename_i heq
      rw [heq]
    · rfl
  refine (calm_ask hcalm GenericJob.prepare place c).trans ?_
  rw [hworld]

/-- A run over jobs of plans comes to their effects. -/
theorem runJobs_effects {places : List Nat} (hnodup : places.Nodup)
    (p : JobPipeline Nat (JobWorld τ)) (index : Nat) (hpaused : p.paused = false)
    (hcancelled : p.cancelled = false)
    (hjobs : ∀ place ∈ places, (p.world.jobs place).IsPlanned ∧
      (p.world.jobs place).cancelled = false) :
    match effects region (places.map p.world.jobs) (memory p.world.device) with
    | some store => (p.runJobs (genericSurroundings ctx) index places).1 = .ok () ∧
        memory (p.runJobs (genericSurroundings ctx) index places).2.world.device = store
    | none => (p.runJobs (genericSurroundings ctx) index places).1 ≠ .ok () := by
  induction places generalizing p index with
  | nil => exact ⟨rfl, rfl⟩
  | cons place places ih =>
    obtain ⟨hplace, hrest⟩ := List.nodup_cons.mp hnodup
    obtain ⟨⟨hplanned, hidle⟩, hothers⟩ := List.forall_mem_cons.mp hjobs
    have hdue := calm_due hcalm hpaused
    have hmemory : memory (ctx.between p.world.device).2 = memory p.world.device :=
      hfaithful.between p.world.device
    have heffect := execute_effect hfaithful hreliable hcalm hplanned hidle
      (ctx.between p.world.device).2
    rw [hmemory] at heffect
    let c : Control Nat (JobWorld τ) :=
      { p.toControl with
        world := { p.world with device := (ctx.between p.world.device).2 }
        cancelled := false }
    have hprepare := calm_prepare hcalm place c
    have hexecute : c.ask (genericSurroundings ctx) (genericSurroundings ctx).execute place = _ :=
      calm_ask hcalm (GenericJob.execute ctx) place c
    have hends := JobPipeline.jobEnds_executeJob (w := genericSurroundings ctx) place
      { p with toControl := p.due (genericSurroundings ctx), currentIndex := index }
    rw [JobPipeline.runJobs]
    simp only [List.map_cons, effects, hdue, hcancelled, Bool.false_eq_true, if_false] at hends ⊢
    generalize JobPipeline.executeJob (genericSurroundings ctx) place _ = r at hends ⊢
    rcases hstore : (p.world.jobs place).effect region (memory p.world.device) with _ | store
    · simp only [hstore] at heffect
      cases hends with
      | failed => exact JobPipeline.fail_error _ _ _
      | done _ _ _ hprepared hexecuted =>
        have hfirst : (c.ask (genericSurroundings ctx) (genericSurroundings ctx).prepare place).1
            = .ok () := hprepared
        have hsecond : ((c.ask (genericSurroundings ctx) (genericSurroundings ctx).prepare
            place).2.ask (genericSurroundings ctx) (genericSurroundings ctx).execute place).1
              = .ok () := hexecuted
        rw [hprepare] at hfirst hsecond
        rw [hexecute] at hsecond
        exact absurd hsecond (heffect hfirst)
    · simp only [hstore] at heffect
      obtain ⟨hprepared, hexecuted, hafter⟩ := heffect
      cases hends with
      | failed hfailed =>
        have hfirst : (c.ask (genericSurroundings ctx) (genericSurroundings ctx).prepare place).1
            = .ok () := by rw [hprepare, hprepared]
        have hsecond : ((c.ask (genericSurroundings ctx) (genericSurroundings ctx).prepare
            place).2.ask (genericSurroundings ctx) (genericSurroundings ctx).execute place).1
              = .ok () := by rw [hprepare, hexecute, hexecuted]
        exact absurd hsecond (hfailed hfirst)
      | @done p₁ _ _ _ _ _ hreached =>
        have hcontrol : p₁.toControl = ((c.ask (genericSurroundings ctx)
            (genericSurroundings ctx).prepare place).2.ask (genericSurroundings ctx)
              (genericSurroundings ctx).execute place).2 := hreached
        rw [hprepare, hexecute] at hcontrol
        -- no job has two places, so the jobs that come later are as they were
        have hkept : ∀ other ∈ places, p₁.world.jobs other = p.world.jobs other := by
          intro other hother
          rw [hcontrol]
          exact if_neg fun heq : other = place => hplace (heq ▸ hother)
        have hmap : places.map p₁.world.jobs = places.map p.world.jobs :=
          List.map_congr_left hkept
        have hlast := ih hrest { p₁ with completedCount := p₁.completedCount + 1 }
          (index + 1) (by rw [hcontrol]; exact hpaused)
          (by rw [hcontrol])
          (fun other hother => by rw [hkept other hother]; exact hothers other hother)
        have hstored : memory p₁.world.device = store := by
          rw [hcontrol]
          exact hafter
        simp only [hmap, hstored] at hlast
        exact hlast

/-- A run of the jobs of a plan succeeds exactly when they have effects one after the other, and
leaves what these come to. -/
theorem run_effects (jobs : List GenericJob) (device : τ)
    (hjobs : ∀ job ∈ jobs, job.IsPlanned ∧ job.cancelled = false) :
    match effects region jobs (memory device) with
    | some store => ((pipelineOf jobs device).run (genericSurroundings ctx)).1 = .ok () ∧
        memory ((pipelineOf jobs device).run (genericSurroundings ctx)).2.world.device = store
    | none => ((pipelineOf jobs device).run (genericSurroundings ctx)).1 ≠ .ok () := by
  have hplaces : (List.range jobs.length).map (pipelineOf jobs device).start.world.jobs = jobs := by
    refine List.ext_getElem (by simp) fun i hi hlt => ?_
    rw [List.getElem_map, List.getElem_range]
    exact List.getD_eq_getElem _ _ hlt
  have hrun := runJobs_effects hfaithful hreliable hcalm (List.nodup_range (n := jobs.length))
    (pipelineOf jobs device).start 0 rfl rfl (by
      intro place hplace
      have hlt := List.mem_range.mp hplace
      have hjob : (pipelineOf jobs device).start.world.jobs place = jobs[place] :=
        List.getD_eq_getElem _ _ hlt
      rw [hjob]
      exact hjobs _ (List.getElem_mem hlt))
  rw [hplaces] at hrun
  exact hrun

end Calm

theorem calm_memoryContext (region : String → Option (Nat × Nat)) :
    Calm (memoryContext region) where
  asked _ := rfl
  between _ := rfl
  openTable _ h := by cases h
  refreshTable _ h := by cases h

def flashAndVerify : List GenericJob :=
  [flashJob "boot" [1, 2, 3, 4], verifyJob "boot" [1, 2, 3, 4]]

theorem run_effects_boot :
    ((pipelineOf flashAndVerify blank).run (genericSurroundings (memoryContext bootRegion))).1
        = .ok () ∧
      ((pipelineOf flashAndVerify blank).run
        (genericSurroundings (memoryContext bootRegion))).2.world.device
          = blank.overlay 0 [1, 2, 3, 4] :=
  run_effects (faithful_memoryContext bootRegion) (reliable_memoryContext bootRegion)
    (calm_memoryContext bootRegion) flashAndVerify blank (by
      intro job hjob
      simp only [flashAndVerify, List.mem_cons, List.not_mem_nil, or_false] at hjob
      rcases hjob with rfl | rfl <;> exact ⟨trivial, rfl⟩)

end MBootCore.Job
