import MBootCore.Dsp.Manager
import MBootCore.Domain.Types
import MBootCore.Support.FileTree

/-!
# Dsp — InstallFiles

The files behind `DSPManager::install` and `DSPManager::uninstall`: the
directories that are made for a package, the copy of its entries, and the
directory that is removed with it.

Which calls of the file system fail is part of what a call of `install` finds.
So is where the symbolic links of a package lead: a link is copied to the path of
what it leads to, seen from the package directory, and not to its own.
-/

namespace MBootCore

open LexicalPath FileTree

/-- An entry of a package directory, under the path at which it is listed. A
symbolic link has the node of what it leads to, and the way there from the package
directory; what is neither a directory nor a regular file has no node. -/
structure PackageEntry where
  relative : List String
  link : Option (List String) := none
  node : Option (Node ByteBuffer)
  nonempty : relative ≠ []
  proper : ∀ name ∈ relative, IsName name

/-- `fs::relative` from the package directory, which resolves symbolic links. -/
def PackageEntry.resolved (entry : PackageEntry) : List String := entry.link.getD entry.relative

/-- The place of the entry below a directory. -/
def PackageEntry.place (target : Place) (entry : PackageEntry) : Place := target ++ entry.relative

/-- Where the entry is copied to. -/
def PackageEntry.dest (target : Place) (entry : PackageEntry) : Place := walk target entry.resolved

theorem PackageEntry.dest_plain {entry : PackageEntry} (h : entry.link = none) (target : Place) :
    entry.dest target = entry.place target := by
  rw [dest, resolved, h, Option.getD_none, walk_names entry.proper, place]

/-- Which calls about an entry fail: looking at it and going on from it throw, a
copy that fails reports an error code and may leave a part of the file. -/
structure CopyFaults where
  examineThrows : Bool := false
  copyFails : Bool := false
  left : Option ByteBuffer := none
  advanceThrows : Bool := false
  deriving DecidableEq, Repr

structure CopyStep where
  entry : PackageEntry
  faults : CopyFaults := {}

/-- The entry under its own name, wherever it leads. -/
def CopyStep.direct (step : CopyStep) : CopyStep :=
  { step with entry := { step.entry with link := none } }

/-- The entries of a package directory, each once; a directory that cannot be
opened yields none of them. -/
structure PackageListing where
  opened : Bool := true
  steps : List CopyStep
  distinct : (steps.map (·.entry.relative)).Nodup

/-- No entry is a symbolic link. -/
def PackageListing.Plain (listing : PackageListing) : Prop :=
  ∀ step ∈ listing.steps, step.entry.link = none

inductive PackageSource where
  | directory (listing : PackageListing)
  | file (step : CopyStep)

/-- What a call finds outside the manager, its files included. -/
structure InstallSite where
  cwd : Place := []
  repository : DSPRepository
  pathExists : String → Bool
  loadPackageManifest : String → Except DSPError DSPPackageMetadata
  package : String → PackageSource
  makeFails : Nat → Bool := fun _ => false

def DSPRepository.chosenPath (repository : DSPRepository) : Option String :=
  if !repository.userPath.isEmpty then some repository.userPath
  else if !repository.systemPath.isEmpty then some repository.systemPath
  else if !repository.portablePath.isEmpty then some repository.portablePath
  else none

namespace DSPManager

variable (cwd : Place) (targetDir : String)

/-- `create_directories` on a path below the target directory. -/
def makeBelow (fails : Nat → Bool) (disk : Disk ByteBuffer) (relative : List String) :
    List (Op ByteBuffer) × Bool :=
  createDirectories fails disk 0 (start cwd targetDir) (components targetDir ++ relative)

/-- The copy of one entry, and whether it leaves an error code. -/
def copyEntry (step : CopyStep) (disk : Disk ByteBuffer) : List (Op ByteBuffer) × Bool :=
  match step.entry.node with
  | some .directory =>
    let made := makeBelow cwd targetDir (fun _ => step.faults.copyFails) disk step.entry.resolved
    (made.1, !made.2)
  | some (.file contents) =>
    let dest := step.entry.dest (resolve cwd targetDir)
    if step.faults.copyFails then (step.faults.left.toList.map (.writeFile dest), true)
    else ([.writeFile dest contents], false)
  | none => ([], false)

/-- The loop over the entries; `ec` is the error code of the entry before. The
second component is whether it ends without an exception. -/
def copyEntries (ec : Bool) : List CopyStep → Disk ByteBuffer → List (Op ByteBuffer) × Bool
  | [], _ => ([], true)
  | step :: steps, disk =>
    if ec then ([], true)
    else if step.faults.examineThrows then ([], false)
    else
      let copied := copyEntry cwd targetDir step disk
      if step.faults.advanceThrows then (copied.1, false)
      else
        let rest := copyEntries copied.2 steps (disk.run copied.1)
        (copied.1 ++ rest.1, rest.2)

def copyContents (source : PackageSource) (disk : Disk ByteBuffer) : List (Op ByteBuffer) × Bool :=
  match source with
  | .directory listing =>
    if listing.opened then copyEntries cwd targetDir false listing.steps disk else ([], true)
  | .file step => ((copyEntry cwd targetDir step.direct disk).1, true)

end DSPManager

/-- What a call does: its result, the manager after it, and its effects on the
files in their order. -/
structure CallEffect where
  result : Except DSPFailure Unit
  manager : DSPManager
  ops : List (Op ByteBuffer) := []

namespace DSPManager

variable (site : InstallSite)

def makeTarget (targetDir : String) (disk : Disk ByteBuffer) : List (Op ByteBuffer) × Bool :=
  makeBelow site.cwd targetDir site.makeFails disk []

/-- The last part of `install`: the target directory is made, the package copied
into it and registered. -/
def storePackage (packagePath targetDir : String) (pkg : DSPPackageMetadata) (m : DSPManager)
    (disk : Disk ByteBuffer) : CallEffect :=
  let made := makeTarget site targetDir disk
  if !made.2 then ⟨.error (.dsp .installFailed), m, made.1⟩
  else
    let copied := copyContents site.cwd targetDir (site.package packagePath) (disk.run made.1)
    if !copied.2 then ⟨.error (.dsp .installFailed), m, made.1 ++ copied.1⟩
    else ⟨.ok (), m.register (asInstalled pkg targetDir), made.1 ++ copied.1⟩

/-- `install` with its effects on the files. -/
def installOn (packagePath : String) (m : DSPManager) (disk : Disk ByteBuffer) : CallEffect :=
  if !site.pathExists packagePath then ⟨.error (.code .firmwarePackageNotFound), m, []⟩
  else
    match site.loadPackageManifest packagePath with
    | .error _ => ⟨.error (.code .firmwareInvalidManifest), m, []⟩
    | .ok pkg =>
      if pkg.manifest.packageId.isEmpty then ⟨.error (.dsp .manifestInvalid), m, []⟩
      else if pkg.manifest.packageId ∈ m.packages then ⟨.error (.code .alreadyExists), m, []⟩
      else if pkg.loaders.any m.hasLoaderConflict then ⟨.error (.dsp .packageConflict), m, []⟩
      else if !pkg.manifest.dependencies.all m.satisfies then
        ⟨.error (.dsp .dependencyMissing), m, []⟩
      else
        match site.repository.chosenPath with
        | none => ⟨.error (.dsp .installFailed), m, []⟩
        | some path => storePackage site packagePath (join path pkg.manifest.packageId) pkg m disk

/-- `uninstall` with the directory it removes. -/
def uninstallOn (cwd : Place) (packageId : String) (m : DSPManager) : CallEffect :=
  match m.packages.lookup packageId with
  | none => ⟨.error (.dsp .packageNotInstalled), m, []⟩
  | some pkg =>
    if m.hasDependents packageId then ⟨.error (.dsp .dependencyMissing), m, []⟩
    else
      ⟨.ok (), { m with packages := m.packages.erase packageId },
        if pkg.installPath.isEmpty then [] else [.removeAll (resolve cwd pkg.installPath)]⟩

end DSPManager

/-- What the manager itself sees of a site. -/
def InstallSite.host (site : InstallSite) (disk : Disk ByteBuffer) : DSPHost where
  repository := site.repository
  pathExists := site.pathExists
  loadPackageManifest := site.loadPackageManifest
  joinPath := join
  createDirectories targetDir := (DSPManager.makeTarget site targetDir disk).2
  copyContents packagePath targetDir :=
    (DSPManager.copyContents site.cwd targetDir (site.package packagePath)
      (disk.run (DSPManager.makeTarget site targetDir disk).1)).2

/-! ## The manager's part -/

namespace DSPManager

variable {site : InstallSite} {packagePath packageId : String} {m : DSPManager}
  {disk : Disk ByteBuffer} {pkg : DSPPackageMetadata} {path : String}

theorem targetDir_host (site : InstallSite) (disk : Disk ByteBuffer) (packageId : String) :
    targetDir (site.host disk) packageId = site.repository.chosenPath.map (join · packageId) := by
  rw [targetDir, DSPRepository.chosenPath]
  show (if !site.repository.userPath.isEmpty then some (join _ packageId)
    else if !site.repository.systemPath.isEmpty then some (join _ packageId)
    else if !site.repository.portablePath.isEmpty then some (join _ packageId) else none) = _
  split_ifs <;> rfl

/-- All that `install` asks before it touches the files. -/
structure Prepared (site : InstallSite) (packagePath : String) (m : DSPManager)
    (pkg : DSPPackageMetadata) (path : String) : Prop where
  present : site.pathExists packagePath = true
  manifest : site.loadPackageManifest packagePath = .ok pkg
  named : pkg.manifest.packageId.isEmpty = false
  absent : pkg.manifest.packageId ∉ m.packages
  loaders : pkg.loaders.any m.hasLoaderConflict = false
  dependencies : pkg.manifest.dependencies.all m.satisfies = true
  chosen : site.repository.chosenPath = some path

theorem installOn_prepared (h : Prepared site packagePath m pkg path) (disk : Disk ByteBuffer) :
    installOn site packagePath m disk
      = storePackage site packagePath (join path pkg.manifest.packageId) pkg m disk := by
  simp [installOn, h.present, h.manifest, h.named, h.absent, h.loaders, h.dependencies, h.chosen]

/-- A call that is not prepared fails and touches no file. -/
theorem installOn_cases (site : InstallSite) (packagePath : String) (m : DSPManager)
    (disk : Disk ByteBuffer) :
    (∃ e, installOn site packagePath m disk = ⟨.error e, m, []⟩) ∨
      ∃ pkg path, Prepared site packagePath m pkg path := by
  rw [installOn]
  split
  · exact .inl ⟨_, rfl⟩
  rename_i hpresent
  split
  · exact .inl ⟨_, rfl⟩
  rename_i pkg hmanifest
  split_ifs with hnamed habsent hloaders hall
  · exact .inl ⟨_, rfl⟩
  · exact .inl ⟨_, rfl⟩
  · exact .inl ⟨_, rfl⟩
  · exact .inl ⟨_, rfl⟩
  split
  · exact .inl ⟨_, rfl⟩
  rename_i path hchosen
  exact .inr ⟨pkg, path, by simpa using hpresent, hmanifest, by simpa using hnamed, habsent,
    by simpa using hloaders, by simpa using hall, hchosen⟩

/-- With its files, `install` does to the manager what it does without. -/
theorem installOn_install (site : InstallSite) (packagePath : String) (m : DSPManager)
    (disk : Disk ByteBuffer) :
    ((installOn site packagePath m disk).result, (installOn site packagePath m disk).manager)
      = install (site.host disk) packagePath m := by
  rw [installOn, install]
  by_cases hpresent : site.pathExists packagePath = true
  case neg => simp [InstallSite.host, hpresent]
  cases hmanifest : site.loadPackageManifest packagePath with
  | error e => simp [InstallSite.host, hpresent, hmanifest]
  | ok pkg =>
    have hhost : (site.host disk).loadPackageManifest packagePath = .ok pkg := hmanifest
    have hhostPresent : (site.host disk).pathExists packagePath = true := hpresent
    simp only [hpresent, hhost, hhostPresent, Bool.not_true, Bool.false_eq_true, if_false,
      targetDir_host]
    split_ifs with hnamed habsent hloaders hall
    · rfl
    · rfl
    · rfl
    · rfl
    cases hchosen : site.repository.chosenPath with
    | none => rfl
    | some path =>
      cases hmade : (makeTarget site (join path pkg.manifest.packageId) disk).2
      · simp [storePackage, InstallSite.host, hmade]
      · cases hcopied : (copyContents site.cwd (join path pkg.manifest.packageId)
          (site.package packagePath) (disk.run (makeTarget site
            (join path pkg.manifest.packageId) disk).1)).2 <;>
          simp [storePackage, InstallSite.host, hmade, hcopied]

theorem uninstallOn_uninstall (cwd : Place) (packageId : String) (m : DSPManager) :
    ((uninstallOn cwd packageId m).result, (uninstallOn cwd packageId m).manager)
      = uninstall packageId m := by
  rw [uninstallOn, uninstall]
  cases hpkg : m.packages.lookup packageId with
  | none =>
    rw [if_pos (AList.lookup_eq_none.mp hpkg)]
  | some pkg =>
    have hmem : packageId ∈ m.packages := AList.lookup_isSome.mp (by simp [hpkg])
    rw [if_neg (not_not_intro hmem)]
    simp only
    split_ifs <;> rfl

end DSPManager

end MBootCore
