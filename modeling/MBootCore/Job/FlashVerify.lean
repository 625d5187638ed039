import MBootCore.Job.PipelineRollback

/-!
# Job — FlashVerify

A flash, and a verification of the same partition by the same image. A flash
takes any image that is not longer than the partition, but the verification
compares with all of the partition.
-/

namespace MBootCore.Job

variable {τ : Type}

/-- A job prepared and executed on a device. -/
def GenericJob.perform (ctx : JobContext τ) (job : GenericJob) (device : τ) :
    Except ErrorCode Unit × τ :=
  let (result, s) := (do job.prepare; job.execute ctx : Method τ Unit) { job, device }
  (result, s.device)

def flashJob (name : String) (image : ByteBuffer) : GenericJob where
  kind := .flash image
  partitionName := name

def verifyJob (name : String) (image : ByteBuffer) : GenericJob where
  kind := .verify image
  partitionName := name

/-- Partitions can be read, and written where the data fits; reads return what
was last written, and a write changes the given bytes and no others. -/
structure Reliable (memory : τ → ByteStore) (region : String → Option (Nat × Nat))
    (ctx : JobContext τ) : Prop where
  readPartition : ∀ name address size, region name = some (address, size) → ∀ t, ∃ t',
    ctx.flashDevice.readPartition name t = (.ok ((memory t).slice address size), t') ∧
      memory t' = memory t
  writePartition : ∀ name address size, region name = some (address, size) →
    ∀ data : ByteBuffer, data.length ≤ size → ∀ t, ∃ t',
      ctx.flashDevice.writePartition name data t = (.ok (), t') ∧
        memory t' = (memory t).overlay address data

/-- A verification after the flash succeeds, and one of a partition that begins
with other bytes does not. -/
structure FlashVerified (ctx : JobContext τ) (memory : τ → ByteStore) (address : Nat)
    (name : String) (image : ByteBuffer) (device : τ) : Prop where
  flashed : ((flashJob name image).perform ctx device).1 = .ok ()
  verified : ((verifyJob name image).perform ctx ((flashJob name image).perform ctx device).2).1
    = .ok ()
  differs : ∀ device, (memory device).slice address image.length ≠ image →
    ((verifyJob name image).perform ctx device).1 ≠ .ok ()

variable {ctx : JobContext τ} {memory : τ → ByteStore} {region : String → Option (Nat × Nat)}
  {name : String} {address size : Nat} {image : ByteBuffer}

theorem perform_flash (hreliable : Reliable memory region ctx)
    (hregion : region name = some (address, size)) (hfits : image.length ≤ size)
    (himage : image ≠ []) (device : τ) :
    ((flashJob name image).perform ctx device).1 = .ok () ∧
      memory ((flashJob name image).perform ctx device).2
        = if name = "" then memory device else (memory device).overlay address image := by
  obtain ⟨device', hwrite, hmemory⟩ :=
    hreliable.writePartition name address size hregion image hfits device
  by_cases hname : name = ""
  · simp [GenericJob.perform, flashJob, GenericJob.prepare, GenericJob.execute, prepareData,
      FlashJob.execute, checkCancelled, Program.run_bind, Program.run_failIf, himage, hname]
  · simp [GenericJob.perform, flashJob, GenericJob.prepare, GenericJob.execute, prepareData,
      FlashJob.execute, checkCancelled, onDevice, Program.run_bind, Program.run_failIf,
      Program.run_zoom, himage, hname, hwrite, hmemory]

/-- A verification compares the image with all of the partition. -/
theorem perform_verify (hreliable : Reliable memory region ctx)
    (hregion : region name = some (address, size)) (device : τ) :
    ((verifyJob name image).perform ctx device).1 = .ok () ↔
      image ≠ [] ∧ (memory device).slice address size = image := by
  obtain ⟨device', hread, -⟩ := hreliable.readPartition name address size hregion device
  by_cases himage : image = []
  · simp [GenericJob.perform, verifyJob, GenericJob.prepare, prepareData, Program.run_bind, himage]
  · have hexecute : ((verifyJob name image).perform ctx device).1
        = if (memory device).slice address size = image then .ok ()
          else .error .jobDataMismatch := by
      by_cases hsame : (memory device).slice address size = image
      · simp [GenericJob.perform, verifyJob, GenericJob.prepare, GenericJob.execute, prepareData,
          VerifyJob.execute, checkCancelled, onDevice, Program.run_bind, Program.run_failIf,
          Program.run_zoom, himage, hread, hsame]
      · by_cases hlength : image.length = size <;>
          simp [GenericJob.perform, verifyJob, GenericJob.prepare, GenericJob.execute, prepareData,
            VerifyJob.execute, checkCancelled, onDevice, Program.run_bind, Program.run_failIf,
            Program.run_zoom, himage, hread, hsame, hlength, eq_comm (a := size)]
    rw [hexecute]
    by_cases hsame : (memory device).slice address size = image <;> simp [himage, hsame]

/-- A flash is verified exactly when the image fills a partition that has a name
or holds the image already. -/
theorem flashVerified_iff (hreliable : Reliable memory region ctx)
    (hregion : region name = some (address, size)) (hfits : image.length ≤ size) (device : τ) :
    FlashVerified ctx memory address name image device ↔
      0 < size ∧ image.length = size ∧
        (name ≠ "" ∨ (memory device).slice address size = image) := by
  constructor
  · intro h
    obtain ⟨himage, hsame⟩ := (perform_verify hreliable hregion _).mp h.verified
    have hlength : image.length = size := by
      rw [← hsame, ByteStore.slice_length]
    refine ⟨?_, hlength, ?_⟩
    · rw [← hlength]
      exact List.length_pos_iff.mpr himage
    · refine Decidable.or_iff_not_imp_left.mpr fun hname => ?_
      obtain ⟨-, hmemory⟩ := perform_flash hreliable hregion hfits himage device
      rw [hmemory, if_pos (Decidable.not_not.mp hname)] at hsame
      exact hsame
  · rintro ⟨hpos, hlength, hholds⟩
    have himage : image ≠ [] := List.length_pos_iff.mp (hlength ▸ hpos)
    obtain ⟨hflashed, hmemory⟩ := perform_flash hreliable hregion hfits himage device
    refine ⟨hflashed, (perform_verify hreliable hregion _).mpr ⟨himage, ?_⟩, ?_⟩
    · rw [hmemory]
      split
      · rename_i hname
        exact hholds.resolve_left fun h => h hname
      · rw [← hlength, ByteStore.slice_overlay]
    · intro other hdiffers hverified
      obtain ⟨-, hsame⟩ := (perform_verify hreliable hregion other).mp hverified
      rw [hlength] at hdiffers
      exact hdiffers hsame

theorem reliable_memoryContext (region : String → Option (Nat × Nat)) :
    Reliable id region (memoryContext region) where
  readPartition name address size hregion store := by
    simp [memoryContext, hregion]
  writePartition name address size hregion data hfits store := by
    simp [memoryContext, hregion, hfits]

theorem flashVerified_boot :
    FlashVerified (memoryContext bootRegion) id 0 "boot" [1, 2, 3, 4] blank :=
  (flashVerified_iff (reliable_memoryContext bootRegion) rfl (Nat.le_refl 4) blank).mpr
    ⟨by decide, rfl, .inl (by decide)⟩

/-- An image shorter than the partition is flashed, but not verified. -/
theorem flash_notVerified :
    bootRegion "boot" = some (0, 4) ∧
      ((flashJob "boot" [1, 2]).perform (memoryContext bootRegion) blank).1 = .ok () ∧
      ((verifyJob "boot" [1, 2]).perform (memoryContext bootRegion)
        ((flashJob "boot" [1, 2]).perform (memoryContext bootRegion) blank).2).1
          = .error .jobDataMismatch :=
  ⟨rfl, rfl, rfl⟩

end MBootCore.Job
