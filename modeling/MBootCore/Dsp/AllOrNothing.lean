import MBootCore.Dsp.InstallCopy

/-!
# Dsp — AllOrNothing

How much of a package is there after `install`. The error code of a copy ends
the loop and is then forgotten, so that `install` reports success for a package
of which files are missing; an exception ends it with an error, but what was
copied before stays in the target directory. A symbolic link may be copied over a
file of the package.
-/

namespace MBootCore

open LexicalPath FileTree

namespace DSPManager

/-! ## The target directory -/

section Target

variable {site : InstallSite} {targetDir : String} {disk : Disk ByteBuffer} {place : Place}

theorem makeTarget_makes {op : Op ByteBuffer} (h : op ∈ (makeTarget site targetDir disk).1) :
    ∃ made, op = .makeDirectory made ∧ disk.node made = none := by
  obtain ⟨made, -, hop, hmissing⟩ := createDirectories_makes h
  exact ⟨made, hop, hmissing⟩

theorem makeTarget_done (h : (makeTarget site targetDir disk).2 = true)
    (hplace : place ∈ trail (start site.cwd targetDir) (components targetDir)) :
    (disk.run (makeTarget site targetDir disk).1).node place ≠ none := by
  apply createDirectories_done h
  rwa [List.append_nil]

theorem makeTarget_file {contents : ByteBuffer} :
    (disk.run (makeTarget site targetDir disk).1).node place = some (.file contents) ↔
      disk.node place = some (.file contents) := by
  constructor
  · intro hfile
    refine run_file (fun op hop c => ?_) hfile
    obtain ⟨made, rfl, -⟩ := makeTarget_makes hop
    simp
  · intro hfile
    rw [makeTarget, makeBelow, createDirectories_keeps (by simp [hfile]), hfile]

/-- A directory that was made is there, and was not there before. -/
theorem makeTarget_made {op : Op ByteBuffer} (h : op ∈ (makeTarget site targetDir disk).1) :
    (disk.run (makeTarget site targetDir disk).1).node op.place ≠ none ∧
      disk.node op.place = none := by
  obtain ⟨made, rfl, hmissing⟩ := makeTarget_makes h
  refine ⟨run_made (fun o ho removed => ?_) h, hmissing⟩
  obtain ⟨other, rfl, -⟩ := makeTarget_makes ho
  simp

/-- No directory below the target directory is made along with it. -/
def MadeAbove (site : InstallSite) (targetDir : String) (disk : Disk ByteBuffer) : Prop :=
  ∀ op ∈ (makeTarget site targetDir disk).1, ¬ Below (resolve site.cwd targetDir) op.place

theorem MadeAbove.same (h : MadeAbove site targetDir disk)
    (hplace : Below (resolve site.cwd targetDir) place) :
    (disk.run (makeTarget site targetDir disk).1).node place = disk.node place := by
  apply run_of_not_touches
  intro op hop
  have habove := h op hop
  obtain ⟨made, rfl, -⟩ := makeTarget_makes hop
  rintro rfl
  exact habove hplace

theorem unchanged_congr {disk' : Disk ByteBuffer} {target : Place} {steps : List CopyStep}
    (h : ∀ place, Below target place → disk'.node place = disk.node place) :
    Unchanged disk' target steps ↔ Unchanged disk target steps := by
  constructor
  · intro hsame
    constructor
    · intro place hbelow bytes hbytes
      rw [← h place hbelow, hsame.file place hbelow bytes hbytes]
    · intro step hstep hnode hfails place hplace hbelow
      rw [← h place hbelow]
      exact hsame.directory step hstep hnode hfails place hplace hbelow
  · intro hsame
    constructor
    · intro place hbelow bytes hbytes
      rw [h place hbelow, hsame.file place hbelow bytes hbytes]
    · intro step hstep hnode hfails place hplace hbelow
      rw [h place hbelow]
      exact hsame.directory step hstep hnode hfails place hplace hbelow

end Target

/-! ## The call -/

/-- The directory the package at a path is for. -/
def IsTarget (site : InstallSite) (packagePath targetDir : String) : Prop :=
  ∃ pkg path, site.loadPackageManifest packagePath = .ok pkg ∧
    site.repository.chosenPath = some path ∧ targetDir = join path pkg.manifest.packageId

/-- After a success every regular file of the package is in the target directory
with its contents; after an error the packages are the same and the target
directory holds nothing that it did not hold before. -/
structure AllOrNothing (site : InstallSite) (packagePath : String) (listing : PackageListing)
    (m : DSPManager) (disk : Disk ByteBuffer) : Prop where
  complete : (installOn site packagePath m disk).result = .ok () →
    ∀ targetDir, IsTarget site packagePath targetDir → ∀ step ∈ listing.steps,
      Held (disk.run (installOn site packagePath m disk).ops)
        (resolve site.cwd targetDir) step.entry
  nothing : ∀ e, (installOn site packagePath m disk).result = .error e →
    (installOn site packagePath m disk).manager = m ∧
      ∀ targetDir, IsTarget site packagePath targetDir →
        ∀ place, Below (resolve site.cwd targetDir) place →
          (disk.run (installOn site packagePath m disk).ops).node place = none ∨
            (disk.run (installOn site packagePath m disk).ops).node place = disk.node place

/-- What has to hold of the failing calls and the symbolic links. If the target
directory cannot be made, no directory below it is made before. If the copy ends
with an exception, the entries up to it, and the making of the target directory,
change nothing there. Else all regular files of the package arrive. -/
structure CleanCopy (site : InstallSite) (targetDir : String) (listing : PackageListing)
    (disk : Disk ByteBuffer) : Prop where
  made : ((makeTarget site targetDir disk).2 && listing.attempted.2) = false →
    MadeAbove site targetDir disk
  undone : (makeTarget site targetDir disk).2 = true → listing.attempted.2 = false →
    Unchanged disk (resolve site.cwd targetDir) listing.attempted.1
  complete : (makeTarget site targetDir disk).2 = true → listing.attempted.2 = true →
    ∀ step ∈ listing.steps,
      Arrives disk (resolve site.cwd targetDir) listing.attempted.1 step.entry

section Call

variable {site : InstallSite} {packagePath targetDir path : String} {listing : PackageListing}
  {m : DSPManager} {disk : Disk ByteBuffer} {pkg : DSPPackageMetadata}

theorem copyContents_eq (cwd : Place) (targetDir : String) (listing : PackageListing)
    (disk : Disk ByteBuffer) :
    copyContents cwd targetDir (.directory listing) disk
      = (copyAll cwd targetDir listing.attempted.1 disk, listing.attempted.2) := by
  simp only [copyContents, PackageListing.attempted]
  split
  · exact copyEntries_eq _ _
  · rfl

theorem storePackage_unmade (h : (makeTarget site targetDir disk).2 = false) :
    storePackage site packagePath targetDir pkg m disk
      = ⟨.error (.dsp .installFailed), m, (makeTarget site targetDir disk).1⟩ := by
  simp [storePackage, h]

theorem storePackage_made (hsource : site.package packagePath = .directory listing)
    (h : (makeTarget site targetDir disk).2 = true) :
    storePackage site packagePath targetDir pkg m disk
      = ⟨if listing.attempted.2 then .ok () else .error (.dsp .installFailed),
        if listing.attempted.2 then m.register (asInstalled pkg targetDir) else m,
        (makeTarget site targetDir disk).1 ++ copyAll site.cwd targetDir listing.attempted.1
          (disk.run (makeTarget site targetDir disk).1)⟩ := by
  simp only [storePackage, h, hsource, copyContents_eq]
  cases listing.attempted.2 <;> rfl

theorem Prepared.isTarget_iff (h : Prepared site packagePath m pkg path) :
    IsTarget site packagePath targetDir ↔ targetDir = join path pkg.manifest.packageId := by
  constructor
  · rintro ⟨other, chosen, hmanifest, hchosen, rfl⟩
    rw [h.manifest] at hmanifest
    rw [h.chosen] at hchosen
    cases hmanifest
    cases hchosen
    rfl
  · rintro rfl
    exact ⟨pkg, path, h.manifest, h.chosen, rfl⟩

/-- Nothing below the target directory is changed. -/
def NothingBelow (target : Place) (disk : Disk ByteBuffer) (ops : List (Op ByteBuffer)) : Prop :=
  ∀ place, Below target place →
    (disk.run ops).node place = none ∨ (disk.run ops).node place = disk.node place

theorem makeTarget_nothing_iff :
    NothingBelow (resolve site.cwd targetDir) disk (makeTarget site targetDir disk).1 ↔
      MadeAbove site targetDir disk := by
  constructor
  · intro h op hop hbelow
    obtain ⟨htaken, hmissing⟩ := makeTarget_made hop
    rcases h op.place hbelow with hnone | hsame
    · exact htaken hnone
    · exact htaken (hsame.trans hmissing)
  · intro h place hbelow
    exact .inr (h.same hbelow)

theorem copy_nothing_iff (steps : List CopyStep)
    (hmade : (makeTarget site targetDir disk).2 = true) :
    NothingBelow (resolve site.cwd targetDir) disk ((makeTarget site targetDir disk).1 ++
        copyAll site.cwd targetDir steps (disk.run (makeTarget site targetDir disk).1)) ↔
      MadeAbove site targetDir disk ∧ Unchanged disk (resolve site.cwd targetDir) steps := by
  have htaken : ∀ place ∈ trail (start site.cwd targetDir) (components targetDir),
      (disk.run (makeTarget site targetDir disk).1).node place ≠ none :=
    fun place hplace => makeTarget_done hmade hplace
  have hunchanged : MadeAbove site targetDir disk →
      (Unchanged (disk.run (makeTarget site targetDir disk).1) (resolve site.cwd targetDir) steps ↔
        Unchanged disk (resolve site.cwd targetDir) steps) :=
    fun habove => unchanged_congr fun place hplace => habove.same hplace
  rw [NothingBelow, run_append]
  constructor
  · intro h
    have habove : MadeAbove site targetDir disk := by
      intro op hop hbelow
      obtain ⟨hthere, hmissing⟩ := makeTarget_made hop
      -- what was made is still there after the copy
      rcases h op.place hbelow with hnone | hsame
      · exact copyAll_taken hthere steps hnone
      · exact copyAll_taken hthere steps (hsame.trans hmissing)
    refine ⟨habove, ?_⟩
    rw [← hunchanged habove, ← copyAll_nothing_iff htaken]
    intro place hbelow
    rw [habove.same hbelow]
    exact h place hbelow
  · rintro ⟨habove, hsteps⟩ place hbelow
    rw [← habove.same hbelow]
    exact (copyAll_nothing_iff htaken).mpr ((hunchanged habove).mpr hsteps) place hbelow

theorem arrives_makeTarget_iff {steps : List CopyStep} {entry : PackageEntry} {target : Place} :
    Arrives (disk.run (makeTarget site targetDir disk).1) target steps entry ↔
      Arrives disk target steps entry :=
  forall_congr' fun _ => forall₂_congr fun _ _ =>
    or_congr_right (and_congr_right fun _ => makeTarget_file)

/-- The files that are in the target directory after the copy are those that arrive. -/
theorem held_copied_iff (site : InstallSite) (targetDir : String) (disk : Disk ByteBuffer)
    (copied steps : List CopyStep) :
    (∀ step ∈ steps, Held (disk.run ((makeTarget site targetDir disk).1 ++
        copyAll site.cwd targetDir copied (disk.run (makeTarget site targetDir disk).1)))
          (resolve site.cwd targetDir) step.entry) ↔
      ∀ step ∈ steps, Arrives disk (resolve site.cwd targetDir) copied step.entry := by
  refine forall₂_congr fun step _ => ?_
  rw [run_append, held_copyAll_iff, arrives_makeTarget_iff]

theorem Prepared.cleanCopy_iff (h : Prepared site packagePath m pkg path)
    (hsource : site.package packagePath = .directory listing) :
    AllOrNothing site packagePath listing m disk ↔
      CleanCopy site (join path pkg.manifest.packageId) listing disk := by
  have hcall := installOn_prepared h disk
  generalize htarget : join path pkg.manifest.packageId = targetDir at hcall ⊢
  have hisTarget : ∀ other, IsTarget site packagePath other ↔ other = targetDir := by
    intro other
    rw [h.isTarget_iff, htarget]
  cases hmade : (makeTarget site targetDir disk).2 with
  | false =>
    rw [storePackage_unmade hmade] at hcall
    constructor
    · intro hall
      refine ⟨fun _ => ?_, fun hdone => by simp [hmade] at hdone,
        fun hdone => by simp [hmade] at hdone⟩
      rw [← makeTarget_nothing_iff]
      have hnothing := (hall.nothing _ (by rw [hcall])).2 targetDir ((hisTarget _).mpr rfl)
      rwa [hcall] at hnothing
    · intro hclean
      refine ⟨fun hok => by simp [hcall] at hok, fun _ _ => ?_⟩
      rw [hcall]
      refine ⟨rfl, fun other hother => ?_⟩
      rw [(hisTarget other).mp hother]
      exact makeTarget_nothing_iff.mpr (hclean.made (by simp [hmade]))
  | true =>
    rw [storePackage_made hsource hmade] at hcall
    cases hattempted : listing.attempted.2 with
    | false =>
      -- an exception has ended the copy
      rw [hattempted] at hcall
      have hnothing := copy_nothing_iff listing.attempted.1 hmade
      constructor
      · intro hall
        have hbelow := (hall.nothing _ (by rw [hcall]; rfl)).2 targetDir ((hisTarget _).mpr rfl)
        rw [hcall] at hbelow
        obtain ⟨habove, hsteps⟩ := hnothing.mp hbelow
        exact ⟨fun _ => habove, fun _ _ => hsteps, fun _ hdone => by simp [hattempted] at hdone⟩
      · intro hclean
        refine ⟨fun hok => by simp [hcall] at hok, fun _ _ => ?_⟩
        rw [hcall]
        refine ⟨rfl, fun other hother => ?_⟩
        rw [(hisTarget other).mp hother]
        exact hnothing.mpr ⟨hclean.made (by simp [hattempted]), hclean.undone hmade hattempted⟩
    | true =>
      rw [hattempted] at hcall
      have hcomplete := held_copied_iff site targetDir disk listing.attempted.1 listing.steps
      constructor
      · intro hall
        refine ⟨fun hdone => by simp [hmade, hattempted] at hdone,
          fun _ hdone => by simp [hattempted] at hdone, fun _ _ => ?_⟩
        have hthere := hall.complete (by rw [hcall]; rfl) targetDir ((hisTarget _).mpr rfl)
        rw [hcall] at hthere
        exact hcomplete.mp hthere
      · intro hclean
        refine ⟨fun _ other hother => ?_, fun e he => by simp [hcall] at he⟩
        rw [(hisTarget other).mp hother, hcall]
        exact hcomplete.mpr (hclean.complete hmade hattempted)

end Call

/-! ## A package of one file -/

/-- A package with a manifest that is copied, or is not. -/
def oneFile (faults : CopyFaults) : PackageListing where
  steps :=
    [{ entry :=
        { relative := ["manifest.json"]
          node := some (.file [0x7b, 0x7d])
          nonempty := by decide
          proper := by decide }
       faults }]
  distinct := by simp

def oneFileSite (faults : CopyFaults) : InstallSite where
  repository := { userPath := "/a" }
  pathExists _ := true
  loadPackageManifest _ := .ok { manifest := { packageId := "p" } }
  package _ := .directory (oneFile faults)

theorem oneFile_clean : CleanCopy (oneFileSite {}) "/a/p" (oneFile {}) ⟨fun _ => none⟩ := by
  constructor
  · intro hfailed
    exact absurd hfailed (by decide)
  · intro _ hfailed
    exact absurd hfailed (by decide)
  · intro _ _ step hstep contents _ hnode
    rw [List.mem_singleton.mp hstep] at hnode ⊢
    cases hnode
    exact .inl (by decide)

end DSPManager

end MBootCore
