import MBootCore.Dsp.DependencyGraph

/-!
# Dsp — Manager

`DSPManager` of `dsp/DSPManager.cpp`: the installed packages by their ids and
the operations that change them.

What a call finds outside the manager (the paths of the repository, the files,
the metadata read from them) is a parameter of the call. The progress reports
and the installation date are left out; `DSPRepository::scan` reports no error
and changes nothing the manager reads.
-/

namespace MBootCore

namespace DSPVersion

def lt (a b : DSPVersion) : Bool :=
  if a.major ≠ b.major then a.major < b.major
  else if a.minor ≠ b.minor then a.minor < b.minor
  else a.patch < b.patch

/-- All of its numbers are 0: no bound. -/
def isZero (v : DSPVersion) : Bool := !(v.major > 0 || v.minor > 0 || v.patch > 0)

end DSPVersion

inductive DSPError where
  | packageIncompatible | packageConflict | packageNotInstalled | packageDisabled
  | validationFailed | checksumMismatch | signatureInvalid | manifestInvalid | metadataMissing
  | loaderMissing | dependencyMissing | versionMismatch | installFailed | updateFailed
  | disableFailed | repairFailed
  deriving DecidableEq, Repr

/-- How an operation fails: with an error code, with a package error cast to
one, or with the exception of a lookup that finds nothing. -/
inductive DSPFailure where
  | code (e : ErrorCode)
  | dsp (e : DSPError)
  | outOfRange
  deriving DecidableEq, Repr

structure DSPRepository where
  systemPath : String := ""
  userPath : String := ""
  portablePath : String := ""
  deriving DecidableEq, Repr

/-- What a call finds outside the manager. -/
structure DSPHost where
  repository : DSPRepository
  pathExists : String → Bool
  loadPackageManifest : String → Except DSPError DSPPackageMetadata
  joinPath : String → String → String
  /-- The target directory exists or can be made. -/
  createDirectories : String → Bool
  /-- The contents of the package are copied without an exception. -/
  copyContents : String → String → Bool

structure DSPManager where
  packages : AList (fun _ : String => DSPPackageMetadata) := ∅

namespace DSPManager

variable (host : DSPHost)

def hasLoaderConflict (m : DSPManager) (loader : DSPLoaderMetadata) : Bool :=
  m.packages.entries.any fun entry =>
    entry.2.loaders.any fun existing => existing.loaderId = loader.loaderId

/-- A dependency as `install` checks it: only if it is required, and whatever
the state of the package it names. -/
def satisfies (m : DSPManager) (dep : DSPDependency) : Bool :=
  !dep.required ||
    match m.packages.lookup dep.packageId with
    | none => false
    | some pkg =>
      (dep.minVersion.isZero || !pkg.manifest.version.lt dep.minVersion) &&
        (dep.maxVersion.isZero || !dep.maxVersion.lt pkg.manifest.version)

def targetDir (packageId : String) : Option String :=
  if !host.repository.userPath.isEmpty then some (host.joinPath host.repository.userPath packageId)
  else if !host.repository.systemPath.isEmpty then
    some (host.joinPath host.repository.systemPath packageId)
  else if !host.repository.portablePath.isEmpty then
    some (host.joinPath host.repository.portablePath packageId)
  else none

def register (m : DSPManager) (pkg : DSPPackageMetadata) : DSPManager :=
  { m with packages := m.packages.insert pkg.manifest.packageId pkg }

/-- The metadata of an installed package. -/
def asInstalled (pkg : DSPPackageMetadata) (targetDir : String) : DSPPackageMetadata :=
  { pkg with state := .installed, origin := .user, repository := "user", installPath := targetDir }

def install (packagePath : String) (m : DSPManager) : Except DSPFailure Unit × DSPManager :=
  if !host.pathExists packagePath then (.error (.code .firmwarePackageNotFound), m)
  else
    match host.loadPackageManifest packagePath with
    | .error _ => (.error (.code .firmwareInvalidManifest), m)
    | .ok pkg =>
      if pkg.manifest.packageId.isEmpty then (.error (.dsp .manifestInvalid), m)
      else if pkg.manifest.packageId ∈ m.packages then (.error (.code .alreadyExists), m)
      else if pkg.loaders.any m.hasLoaderConflict then (.error (.dsp .packageConflict), m)
      else if !pkg.manifest.dependencies.all m.satisfies then
        (.error (.dsp .dependencyMissing), m)
      else
        match targetDir host pkg.manifest.packageId with
        | none => (.error (.dsp .installFailed), m)
        | some targetDir =>
          if !host.createDirectories targetDir then (.error (.dsp .installFailed), m)
          else if !host.copyContents packagePath targetDir then (.error (.dsp .installFailed), m)
          else (.ok (), m.register (asInstalled pkg targetDir))

/-- Another package requires this one. -/
def hasDependents (m : DSPManager) (packageId : String) : Bool :=
  m.packages.entries.any fun entry => entry.1 ≠ packageId &&
    entry.2.manifest.dependencies.any fun dep => dep.packageId = packageId && dep.required

def uninstall (packageId : String) (m : DSPManager) : Except DSPFailure Unit × DSPManager :=
  if packageId ∉ m.packages then (.error (.dsp .packageNotInstalled), m)
  else if m.hasDependents packageId then (.error (.dsp .dependencyMissing), m)
  else (.ok (), { m with packages := m.packages.erase packageId })

def setState (m : DSPManager) (packageId : String) (pkg : DSPPackageMetadata)
    (state : DSPState) : DSPManager :=
  { m with packages := m.packages.insert packageId { pkg with state } }

/-- `newMeta` and `oldMeta` are entries of the store: with the old package still
in place they are the same one. -/
def update (packageId packagePath : String) (m : DSPManager) :
    Except DSPFailure Unit × DSPManager :=
  match m.packages.lookup packageId with
  | none => (.error (.dsp .packageNotInstalled), m)
  | some oldMeta =>
    let oldPackageId := oldMeta.manifest.packageId
    match install host packagePath m with
    | (.error _, m') => (.error (.dsp .updateFailed), m')
    | (.ok (), m') =>
      match m'.packages.lookup oldPackageId with
      | none => (.error .outOfRange, m')
      | some newMeta =>
        if newMeta.manifest.packageId ≠ oldPackageId then
          (.error (.dsp .packageIncompatible), (uninstall newMeta.manifest.packageId m').2)
        else (.ok (), m'.setState oldPackageId newMeta oldMeta.state)

def enable (packageId : String) (m : DSPManager) : Except DSPFailure Unit × DSPManager :=
  match m.packages.lookup packageId with
  | none => (.error (.dsp .packageNotInstalled), m)
  | some pkg =>
    if pkg.state = .corrupted ∨ pkg.state = .incompatible then (.error (.dsp .packageDisabled), m)
    else (.ok (), m.setState packageId pkg .enabled)

def disable (packageId : String) (m : DSPManager) : Except DSPFailure Unit × DSPManager :=
  match m.packages.lookup packageId with
  | none => (.error (.dsp .packageNotInstalled), m)
  | some pkg =>
    if m.hasDependents packageId then (.error (.dsp .disableFailed), m)
    else (.ok (), m.setState packageId pkg .disabled)

end DSPManager

/-! ## Runs -/

inductive ManagerCall where
  | install (host : DSPHost) (packagePath : String)
  | uninstall (packageId : String)
  | update (host : DSPHost) (packageId packagePath : String)
  | enable (packageId : String)
  | disable (packageId : String)

def ManagerCall.run : ManagerCall → DSPManager → Except DSPFailure Unit × DSPManager
  | install host packagePath, m => DSPManager.install host packagePath m
  | uninstall packageId, m => DSPManager.uninstall packageId m
  | update host packageId packagePath, m => DSPManager.update host packageId packagePath m
  | enable packageId, m => DSPManager.enable packageId m
  | disable packageId, m => DSPManager.disable packageId m

/-! ## What an operation can do -/

namespace DSPManager

variable {host : DSPHost} {packagePath packageId : String} {m : DSPManager}

/-- All that `install` asks of the package at a path. -/
structure Installable (host : DSPHost) (packagePath : String) (m : DSPManager)
    (pkg : DSPPackageMetadata) (targetDir : String) : Prop where
  present : host.pathExists packagePath = true
  manifest : host.loadPackageManifest packagePath = .ok pkg
  named : pkg.manifest.packageId.isEmpty = false
  absent : pkg.manifest.packageId ∉ m.packages
  loaders : pkg.loaders.any m.hasLoaderConflict = false
  dependencies : ∀ dep ∈ pkg.manifest.dependencies, m.satisfies dep = true
  target : DSPManager.targetDir host pkg.manifest.packageId = some targetDir
  directories : host.createDirectories targetDir = true
  contents : host.copyContents packagePath targetDir = true

theorem install_installable {pkg : DSPPackageMetadata} {targetDir : String}
    (h : Installable host packagePath m pkg targetDir) :
    install host packagePath m = (.ok (), m.register (asInstalled pkg targetDir)) := by
  have hall : pkg.manifest.dependencies.all m.satisfies = true :=
    List.all_eq_true.mpr h.dependencies
  simp [install, h.present, h.manifest, h.named, h.absent, h.loaders, hall, h.target,
    h.directories, h.contents]

/-- It registers an installable package, or fails and leaves the store alone. -/
theorem install_cases (host : DSPHost) (packagePath : String) (m : DSPManager) :
    (∃ e, install host packagePath m = (.error e, m)) ∨
      ∃ pkg targetDir, Installable host packagePath m pkg targetDir := by
  rw [install]
  split
  · exact .inl ⟨_, rfl⟩
  rename_i hpresent
  split
  · exact .inl ⟨_, rfl⟩
  rename_i pkg hmanifest
  split_ifs with hnamed habsent hloaders hall
  · exact .inl ⟨_, rfl⟩
  · exact .inl ⟨_, rfl⟩
  · exact .inl ⟨_, rfl⟩
  · exact .inl ⟨_, rfl⟩
  split
  · exact .inl ⟨_, rfl⟩
  rename_i targetDir htarget
  split_ifs with hdirectories hcontents
  · exact .inl ⟨_, rfl⟩
  · exact .inl ⟨_, rfl⟩
  refine .inr ⟨pkg, targetDir, by simpa using hpresent, hmanifest, by simpa using hnamed, habsent,
    by simpa using hloaders, ?_, htarget, by simpa using hdirectories, by simpa using hcontents⟩
  exact List.all_eq_true.mp (by simpa using hall)

@[simp] theorem asInstalled_manifest (pkg : DSPPackageMetadata) (targetDir : String) :
    (asInstalled pkg targetDir).manifest = pkg.manifest := rfl

theorem lookup_register_self (m : DSPManager) (pkg : DSPPackageMetadata) :
    (m.register pkg).packages.lookup pkg.manifest.packageId = some pkg :=
  AList.lookup_insert _

theorem lookup_register_ne (m : DSPManager) (pkg : DSPPackageMetadata) {id : String}
    (h : id ≠ pkg.manifest.packageId) :
    (m.register pkg).packages.lookup id = m.packages.lookup id :=
  AList.lookup_insert_ne h

theorem lookup_register (m : DSPManager) (pkg : DSPPackageMetadata) (id : String) :
    (m.register pkg).packages.lookup id
      = if id = pkg.manifest.packageId then some pkg else m.packages.lookup id := by
  split
  · rename_i hid
    rw [hid, lookup_register_self]
  · rename_i hid
    exact lookup_register_ne m pkg hid

/-- Two managers with the same packages. -/
def SameStore (m m' : DSPManager) : Prop :=
  ∀ id, m'.packages.lookup id = m.packages.lookup id

theorem lookup_setState (m : DSPManager) (packageId : String) (pkg : DSPPackageMetadata)
    (state : DSPState) (id : String) :
    (m.setState packageId pkg state).packages.lookup id
      = if id = packageId then some { pkg with state } else m.packages.lookup id := by
  rw [setState]
  split
  · rename_i hid
    rw [hid, AList.lookup_insert]
  · rename_i hid
    exact AList.lookup_insert_ne hid

variable {targetDir : String} {pkg : DSPPackageMetadata}

theorem Installable.lookup (h : Installable host packagePath m pkg targetDir) :
    m.packages.lookup pkg.manifest.packageId = none :=
  AList.lookup_eq_none.mpr h.absent

theorem lookup_register_of_mem {id : String} {other : DSPPackageMetadata}
    (h : Installable host packagePath m pkg targetDir)
    (hother : m.packages.lookup id = some other) :
    (m.register (asInstalled pkg targetDir)).packages.lookup id = some other := by
  refine (lookup_register_ne m (asInstalled pkg targetDir) ?_).trans hother
  rintro rfl
  rw [asInstalled_manifest, h.lookup] at hother
  cases hother

theorem hasDependents_eq_false :
    m.hasDependents packageId = false ↔ ∀ id pkg, m.packages.lookup id = some pkg →
      id ≠ packageId → ∀ dep ∈ pkg.manifest.dependencies, dep.required = true →
        dep.packageId ≠ packageId := by
  rw [hasDependents, List.any_eq_false]
  constructor
  · intro hnone id pkg hpkg hid dep hdep hrequired hpackage
    refine hnone ⟨id, pkg⟩ (AList.mem_lookup_iff.mp hpkg) ?_
    simp only [Bool.and_eq_true, decide_eq_true_eq, List.any_eq_true]
    exact ⟨hid, dep, hdep, hpackage, hrequired⟩
  · intro hnone entry hentry hany
    simp only [Bool.and_eq_true, decide_eq_true_eq, List.any_eq_true] at hany
    obtain ⟨hid, dep, hdep, hpackage, hrequired⟩ := hany
    exact hnone entry.1 entry.2 (AList.mem_lookup_iff.mpr hentry) hid dep hdep hrequired hpackage

/-- What `satisfies` says of a required dependency. -/
theorem satisfies_required {dep : DSPDependency} (h : m.satisfies dep = true)
    (hrequired : dep.required = true) :
    ∃ pkg, m.packages.lookup dep.packageId = some pkg ∧
      pkg.manifest.version.lt dep.minVersion = false := by
  rw [satisfies, hrequired, Bool.not_true, Bool.false_or] at h
  cases hpkg : m.packages.lookup dep.packageId with
  | none => simp [hpkg] at h
  | some pkg =>
    refine ⟨pkg, rfl, ?_⟩
    simp only [hpkg, Bool.and_eq_true, Bool.or_eq_true, Bool.not_eq_true'] at h
    rcases h.1 with hzero | hlt
    · -- nothing is less than 0.0.0
      simp only [DSPVersion.isZero, Bool.not_eq_true', Bool.or_eq_false_iff,
        decide_eq_false_iff_not, gt_iff_lt] at hzero
      rw [DSPVersion.lt]
      split_ifs <;> simp <;> grind
    · exact hlt

/-- An update of an installed package once `install` has registered the one at
the path. -/
theorem update_installed {old : DSPPackageMetadata} (hold : m.packages.lookup packageId = some old)
    (h : Installable host packagePath m pkg targetDir) :
    update host packageId packagePath m =
      match (m.register (asInstalled pkg targetDir)).packages.lookup old.manifest.packageId with
      | none => (.error .outOfRange, m.register (asInstalled pkg targetDir))
      | some newMeta =>
        if newMeta.manifest.packageId ≠ old.manifest.packageId then
          (.error (.dsp .packageIncompatible), (uninstall newMeta.manifest.packageId
            (m.register (asInstalled pkg targetDir))).2)
        else (.ok (), (m.register (asInstalled pkg targetDir)).setState old.manifest.packageId
          newMeta old.state) := by
  rw [update, hold]
  simp only [install_installable h]

theorem update_failed {old : DSPPackageMetadata} {e : DSPFailure}
    (hold : m.packages.lookup packageId = some old)
    (h : install host packagePath m = (.error e, m)) :
    update host packageId packagePath m = (.error (.dsp .updateFailed), m) := by
  rw [update, hold]
  simp only [h]

end DSPManager

end MBootCore
