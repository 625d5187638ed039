import MBootCore.Dsp.AllOrNothing
import MBootCore.Dsp.RepositoryScan

/-!
# Dsp — Reload

What `reload` restores of the packages. The id, the version and the dependencies
are read from the manifest that `install` has copied; whether a package was
enabled or disabled is written nowhere, and a package is only found again if it
was put into a directory of its own directly in the repository.
-/

namespace MBootCore

open LexicalPath FileTree

structure RepositoryState where
  manager : DSPManager
  disk : Disk ByteBuffer

/-- `repair` reads the manifest again into the entry that is there. -/
inductive RepositoryCall where
  | install (site : InstallSite) (packagePath : String)
  | uninstall (packageId : String)
  | enable (packageId : String)
  | disable (packageId : String)
  | repair (loadPackageManifest : String → DSPPackageMetadata → Option DSPPackageMetadata)
      (loadersFound : DSPPackageMetadata → Bool) (packageId : String)

namespace DSPManager

/-- `repair`, and whether it succeeds. -/
def repair (loadPackageManifest : String → DSPPackageMetadata → Option DSPPackageMetadata)
    (loadersFound : DSPPackageMetadata → Bool) (packageId : String) (m : DSPManager) :
    Bool × DSPManager :=
  match m.packages.lookup packageId with
  | none => (false, m)
  | some pkg =>
    let reread :=
      if pkg.installPath.isEmpty then some pkg else loadPackageManifest pkg.installPath pkg
    match reread with
    | none => (false, m)
    | some pkg' =>
      if loadersFound pkg' then (true, m.setState packageId pkg' .enabled)
      else (false, { m with packages := m.packages.insert packageId pkg' })

end DSPManager

/-- Whether a call succeeds, and the packages and files after it. -/
def RepositoryCall.run (cwd : Place) : RepositoryCall → RepositoryState → Bool × RepositoryState
  | install site packagePath, s =>
    let effect := DSPManager.installOn site packagePath s.manager s.disk
    (effect.result.isOk, ⟨effect.manager, s.disk.run effect.ops⟩)
  | uninstall packageId, s =>
    let effect := DSPManager.uninstallOn cwd packageId s.manager
    (effect.result.isOk, ⟨effect.manager, s.disk.run effect.ops⟩)
  | enable packageId, s =>
    let after := DSPManager.enable packageId s.manager
    (after.1.isOk, { s with manager := after.2 })
  | disable packageId, s =>
    let after := DSPManager.disable packageId s.manager
    (after.1.isOk, { s with manager := after.2 })
  | repair loadPackageManifest loadersFound packageId, s =>
    let after := DSPManager.repair loadPackageManifest loadersFound packageId s.manager
    (after.1, { s with manager := after.2 })

/-! ## What is compared -/

/-- What a reload is to leave as it is. -/
def DSPPackageMetadata.persistent (pkg : DSPPackageMetadata) :
    DSPVersion × List DSPDependency × DSPState :=
  (pkg.manifest.version, pkg.manifest.dependencies, pkg.state)

/-- After a reload the same packages are installed, each in its version, with its
dependencies and in its state. -/
def SurvivesReload (host : RepositoryHost) (list : Place → List String) (s : RepositoryState) :
    Prop :=
  ∀ id, ((host.reload s.disk list).packages.lookup id).map DSPPackageMetadata.persistent
    = (s.manager.packages.lookup id).map DSPPackageMetadata.persistent

/-- The names in the repository directories, as the disk has them. -/
def Lists (host : RepositoryHost) (list : Place → List String) (disk : Disk ByteBuffer) : Prop :=
  ∀ path ∈ host.repository.paths, ∀ name,
    name ∈ list (resolve host.cwd path) ↔ disk.node (resolve host.cwd path ++ [name]) ≠ none

/-- A place directly in a repository directory. -/
def IsPackageDir (host : RepositoryHost) (dir : Place) : Prop :=
  ∃ path ∈ host.repository.paths, ∃ name, dir = resolve host.cwd path ++ [name]

/-- A package of the manager as the disk has it. -/
structure Mirrored (host : RepositoryHost) (disk : Disk ByteBuffer) (id : String)
    (pkg : DSPPackageMetadata) : Prop where
  named : id ≠ ""
  installed : pkg.installPath ≠ ""
  place : IsPackageDir host (resolve host.cwd pkg.installPath)
  directory : disk.node (resolve host.cwd pkg.installPath) = some .directory
  manifest : ∃ manifest, manifestAt host.lib disk (resolve host.cwd pkg.installPath)
    = some manifest ∧
    manifest.packageId = id ∧ manifest.version = pkg.manifest.version ∧
      manifest.dependencies = pkg.manifest.dependencies
  state : pkg.state = .installed

/-- The repository matches the manager: every package has a directory of its own,
and every package directory belongs to a package. -/
structure Mirrors (host : RepositoryHost) (s : RepositoryState) : Prop where
  package : ∀ id pkg, s.manager.packages.lookup id = some pkg → Mirrored host s.disk id pkg
  directory : ∀ dir manifest, IsPackageDir host dir →
    manifestAt host.lib s.disk dir = some manifest →
    manifest.packageId ≠ "" → ∃ pkg, s.manager.packages.lookup manifest.packageId = some pkg ∧
      resolve host.cwd pkg.installPath = dir
  present : ∀ path ∈ host.repository.paths,
    s.disk.node (resolve host.cwd path) = some .directory

/-- No repository directory lies in another one. -/
def RepositoryHost.Apart (host : RepositoryHost) : Prop :=
  ∀ p ∈ host.repository.paths, ∀ q ∈ host.repository.paths,
    resolve host.cwd p <+: resolve host.cwd q → resolve host.cwd p = resolve host.cwd q

variable {host : RepositoryHost} {s : RepositoryState} {list : Place → List String}

/-- What matches the repository is what a reload finds there. -/
theorem Mirrors.survives (h : Mirrors host s) (hlist : Lists host list s.disk) :
    SurvivesReload host list s := by
  intro id
  cases hpkg : s.manager.packages.lookup id with
  | some pkg =>
    have hmirrored := h.package id pkg hpkg
    obtain ⟨path, hpath, name, hplace⟩ := hmirrored.place
    obtain ⟨manifest, hmanifest, hid, hversion, hdependencies⟩ := hmirrored.manifest
    have hdirectory := hmirrored.directory
    rw [hplace] at hmanifest hdirectory
    -- its directory is found, and no other one has its id
    have hfound := RepositoryHost.scan_finds hpath (h.present path hpath)
      ((hlist path hpath name).mpr (by simp [hdirectory])) hdirectory hmanifest
      (by rw [hid]; exact hmirrored.named)
    obtain ⟨loaded, hloaded⟩ := Option.ne_none_iff_exists'.mp hfound
    obtain ⟨⟨path', hpath', name', hmanifest'⟩, hown, hnamed, hstate⟩ :=
      RepositoryHost.scan_found hloaded
    obtain ⟨other, hother, hplace'⟩ :=
      h.directory _ _ ⟨path', hpath', name', rfl⟩ hmanifest' (by rwa [hown])
    rw [hown, hid, hpkg] at hother
    cases hother
    rw [← hplace', hplace, hmanifest] at hmanifest'
    cases hmanifest'
    rw [hid] at hloaded
    rw [RepositoryHost.reload, hloaded]
    simp [DSPPackageMetadata.persistent, hversion, hdependencies, hstate, hmirrored.state]
  | none =>
    cases hloaded : (host.scan s.disk list).lookup id with
    | none => rw [RepositoryHost.reload, hloaded]
    | some loaded =>
      obtain ⟨⟨path, hpath, name, hmanifest⟩, hown, hnamed, -⟩ := RepositoryHost.scan_found hloaded
      obtain ⟨other, hother, -⟩ :=
        h.directory _ _ ⟨path, hpath, name, rfl⟩ hmanifest (by rwa [hown])
      rw [hown, hpkg] at hother
      cases hother

/-! ## Package directories -/

section Places

variable {dir dir' : Place} {path : String}

theorem RepositoryHost.Apart.packageDir (h : host.Apart) (hdir : IsPackageDir host dir)
    (hdir' : IsPackageDir host dir') (hbelow : dir <+: dir') : dir = dir' := by
  obtain ⟨p, hp, name, rfl⟩ := hdir
  obtain ⟨q, hq, name', rfl⟩ := hdir'
  rcases List.prefix_concat_iff.mp hbelow with heq | hwithin
  · exact heq
  · have hsame := h p hp q hq ((List.prefix_append _ _).trans hwithin)
    have hlength := hwithin.length_le
    rw [hsame, List.length_append, List.length_singleton] at hlength
    omega

theorem RepositoryHost.Apart.not_repository (h : host.Apart) (hdir : IsPackageDir host dir)
    (hpath : path ∈ host.repository.paths) : ¬ dir <+: resolve host.cwd path := by
  obtain ⟨p, hp, name, rfl⟩ := hdir
  intro hbelow
  have hsame := h p hp path hpath ((List.prefix_append _ _).trans hbelow)
  have hlength := hbelow.length_le
  rw [hsame, List.length_append, List.length_singleton] at hlength
  omega

theorem RepositoryHost.Apart.manifestPlace (h : host.Apart) (hdir : IsPackageDir host dir)
    (hdir' : IsPackageDir host dir') (hbelow : dir <+: manifestPlace dir') : dir = dir' := by
  rcases List.prefix_concat_iff.mp hbelow with heq | hwithin
  · -- a repository directory would lie in another one
    obtain ⟨p, hp, name, rfl⟩ := hdir
    have hparent := List.append_inj_left' heq rfl
    have hrepository := h.not_repository hdir' hp
    rw [hparent] at hrepository
    exact absurd (List.prefix_refl _) hrepository
  · exact h.packageDir hdir hdir' hwithin

theorem manifestAt_congr {lib : JsonBytes} {disk disk' : Disk ByteBuffer}
    (h : ∀ bytes, disk'.node (manifestPlace dir) = some (.file bytes) ↔
      disk.node (manifestPlace dir) = some (.file bytes)) :
    manifestAt lib disk' dir = manifestAt lib disk dir := by
  rw [manifestAt, manifestAt]
  cases hnode : disk.node (manifestPlace dir) with
  | none =>
    cases hnode' : disk'.node (manifestPlace dir) with
    | none => rfl
    | some found =>
      cases found with
      | directory => rfl
      | file bytes =>
        have hfile := (h bytes).mp hnode'
        rw [hnode] at hfile
        cases hfile
  | some found =>
    cases found with
    | file bytes => rw [(h bytes).mpr hnode]
    | directory =>
      cases hnode' : disk'.node (manifestPlace dir) with
      | none => rfl
      | some found' =>
        cases found' with
        | directory => rfl
        | file bytes =>
          have hfile := (h bytes).mp hnode'
          rw [hnode] at hfile
          cases hfile

end Places

/-! ## Installing -/

/-- The metadata of a package is read from the `manifest.json` in its directory. -/
def ReadFrom (lib : JsonBytes) (listing : PackageListing) (pkg : DSPPackageMetadata) : Prop :=
  ∃ step ∈ listing.steps, step.entry.relative = ["manifest.json"] ∧
    ∃ bytes, step.entry.node = some (.file bytes) ∧ bytes.isEmpty = false ∧
      ∃ members, lib.parse bytes = some (.object members) ∧
        ∃ record, PackageReader.readManifest lib (.object members) { packageId := "" }
          = some record ∧
          record.toDSPManifest = pkg.manifest

/-- An installation with files that are as they are read, no symbolic links, and no
call of the file system failing; a file in the way of a directory would make one
fail. -/
structure FaithfulInstall (host : RepositoryHost) (site : InstallSite) (packagePath : String)
    (s : RepositoryState) : Prop where
  cwd : site.cwd = host.cwd
  repository : site.repository = host.repository
  made : ∀ i, site.makeFails i = false
  clear : ∀ pkg path, DSPManager.Prepared site packagePath s.manager pkg path →
    ∀ place ∈ trail (start site.cwd (join path pkg.manifest.packageId))
        (components (join path pkg.manifest.packageId)), ∀ contents,
      s.disk.node place ≠ some (.file contents)
  copied : ∀ listing, site.package packagePath = .directory listing →
    listing.opened = true ∧ listing.Plain ∧ ∀ step ∈ listing.steps, step.faults = {}
  manifest : ∀ listing pkg, site.package packagePath = .directory listing →
    site.loadPackageManifest packagePath = .ok pkg → ReadFrom host.lib listing pkg

/-- The package is installed from its directory into a directory directly in a
repository directory, and no other package has that directory. -/
structure CarefulInstall (host : RepositoryHost) (site : InstallSite) (packagePath : String)
    (pkg : DSPPackageMetadata) (path : String) (s : RepositoryState) : Prop where
  source : ∃ listing, site.package packagePath = .directory listing
  place : IsPackageDir host (resolve host.cwd (join path pkg.manifest.packageId))
  free : ∀ id other, s.manager.packages.lookup id = some other →
    resolve host.cwd other.installPath ≠ resolve host.cwd (join path pkg.manifest.packageId)

theorem attempted_of_faultless {steps : List CopyStep} (h : ∀ step ∈ steps, step.faults = {}) :
    attempted steps = (steps, true) := by
  induction steps with
  | nil => rfl
  | cons step steps ih =>
    rw [attempted, ih fun s hs => h s (by simp [hs]), CopyStep.reports, h step (by simp)]
    rfl

theorem chosenPath_ne {repository : DSPRepository} {path : String}
    (h : repository.chosenPath = some path) : path ≠ "" := by
  rw [DSPRepository.chosenPath] at h
  split_ifs at h with huser hsystem hportable <;> cases h <;> simp_all

/-- What an installation leaves on the disk: the manifest in the target directory,
and everything outside of it. -/
structure InstalledFiles (target : Place) (bytes : ByteBuffer) (disk disk' : Disk ByteBuffer) :
    Prop where
  directory : disk'.node target = some .directory
  manifest : disk'.node (manifestPlace target) = some (.file bytes)
  taken : ∀ place, ¬ target <+: place → disk.node place ≠ none → disk'.node place = disk.node place
  file : ∀ place, ¬ target <+: place → ∀ contents, disk'.node place = some (.file contents) ↔
    disk.node place = some (.file contents)

theorem installedFiles {site : InstallSite} {targetDir : String} {listing : PackageListing}
    {disk : Disk ByteBuffer} {step : CopyStep} {bytes : ByteBuffer}
    (hmade : (DSPManager.makeTarget site targetDir disk).2 = true)
    (hclear : ∀ place ∈ trail (start site.cwd targetDir) (components targetDir), ∀ contents,
      disk.node place ≠ some (.file contents))
    (hplain : listing.Plain) (hstep : step ∈ listing.steps)
    (hrelative : step.entry.relative = ["manifest.json"])
    (hwritten : step.written = some bytes) :
    InstalledFiles (resolve site.cwd targetDir) bytes disk
      (disk.run ((DSPManager.makeTarget site targetDir disk).1 ++
        DSPManager.copyAll site.cwd targetDir listing.steps
          (disk.run (DSPManager.makeTarget site targetDir disk).1))) := by
  have hwithin : ∀ {place : Place}, ¬ resolve site.cwd targetDir <+: place →
      ∀ other ∈ listing.steps, ∀ b, other.written = some b →
        place ≠ other.entry.dest (resolve site.cwd targetDir) := by
    rintro place hnot other hother b - rfl
    rw [PackageEntry.dest_plain (hplain other hother)] at hnot
    exact hnot (List.prefix_append _ _)
  rw [run_append]
  constructor
  · have htrail : resolve site.cwd targetDir ∈ trail (start site.cwd targetDir)
        (components targetDir) := by
      apply walk_mem_trail
      simpa using DSPManager.components_append_ne_nil targetDir []
    have hdirectory : (disk.run (DSPManager.makeTarget site targetDir disk).1).node
        (resolve site.cwd targetDir) = some .directory := by
      cases hnode : (disk.run (DSPManager.makeTarget site targetDir disk).1).node
          (resolve site.cwd targetDir) with
      | none => exact absurd hnode (DSPManager.makeTarget_done hmade htrail)
      | some found =>
        cases found with
        | directory => rfl
        | file contents =>
          exact absurd (DSPManager.makeTarget_file.mp hnode) (hclear _ htrail contents)
    rw [DSPManager.copyAll_other, hdirectory]
    · intro other hother b _ hplace
      rw [PackageEntry.dest_plain (hplain other hother)] at hplace
      exact (DSPManager.below_place other.entry _).2 hplace.symm
    · simp [hdirectory]
  · have hplace : step.entry.place (resolve site.cwd targetDir)
        = manifestPlace (resolve site.cwd targetDir) := by
      rw [PackageEntry.place, hrelative, manifestPlace]
    rw [← hplace, DSPManager.copyAll_file]
    exact .inl (DSPManager.lastWritten_of_plain hplain listing.distinct hstep hwritten)
  · intro place hnot htaken
    have hkept : (disk.run (DSPManager.makeTarget site targetDir disk).1).node place
        = disk.node place := createDirectories_keeps htaken
    rw [DSPManager.copyAll_other (hwithin hnot), hkept]
    rwa [hkept]
  · intro place hnot contents
    rw [DSPManager.copyAll_file, DSPManager.lastWritten_eq_none.mpr (hwithin hnot),
      DSPManager.makeTarget_file]
    simp

/-- A careful installation on a faithful file system puts the package into a
directory of its own and registers it. -/
theorem install_of_careful {site : InstallSite} {packagePath path : String}
    {pkg : DSPPackageMetadata} (hprepared : DSPManager.Prepared site packagePath s.manager pkg path)
    (hfaithful : FaithfulInstall host site packagePath s)
    (hcareful : CarefulInstall host site packagePath pkg path s) :
    ∃ bytes members disk',
      ((RepositoryCall.install site packagePath).run host.cwd s).2
        = ⟨s.manager.register (DSPManager.asInstalled pkg (join path pkg.manifest.packageId)),
          disk'⟩ ∧
      InstalledFiles (resolve host.cwd (join path pkg.manifest.packageId)) bytes s.disk disk' ∧
      bytes.isEmpty = false ∧ host.lib.parse bytes = some (.object members) ∧
      PackageReader.loadManifest (.object members) = pkg.manifest := by
  obtain ⟨listing, hsource⟩ := hcareful.source
  obtain ⟨hopened, hplain, hfaultless⟩ := hfaithful.copied listing hsource
  obtain ⟨step, hstep, hrelative, bytes, hnode, hbytes, members, hparse, record, hread, hrecord⟩ :=
    hfaithful.manifest listing pkg hsource hprepared.manifest
  have hmade : (DSPManager.makeTarget site (join path pkg.manifest.packageId) s.disk).2 = true :=
    createDirectories_total hfaithful.made
  have hattempted : listing.attempted = (listing.steps, true) := by
    rw [PackageListing.attempted, if_pos hopened, attempted_of_faultless hfaultless]
  have hwritten : step.written = some bytes := by
    rw [CopyStep.written, hnode, hfaultless step hstep]
    rfl
  have hfiles := installedFiles hmade (hfaithful.clear pkg path hprepared) hplain hstep hrelative
    hwritten
  rw [hfaithful.cwd] at hfiles
  refine ⟨bytes, members, _, ?_, hfiles, hbytes, hparse, ?_⟩
  · rw [RepositoryCall.run, DSPManager.installOn_prepared hprepared,
      DSPManager.storePackage_made hsource hmade, hattempted, hfaithful.cwd]
    rfl
  · rw [PackageReader.loadManifest_eq host.lib hread, hrecord]

/-! ## Uninstalling -/

theorem Mirrored.congr {disk disk' : Disk ByteBuffer} {id : String} {pkg : DSPPackageMetadata}
    (h : Mirrored host disk id pkg)
    (hdirectory : disk'.node (resolve host.cwd pkg.installPath)
      = disk.node (resolve host.cwd pkg.installPath))
    (hmanifest : manifestAt host.lib disk' (resolve host.cwd pkg.installPath)
      = manifestAt host.lib disk (resolve host.cwd pkg.installPath)) :
    Mirrored host disk' id pkg where
  named := h.named
  installed := h.installed
  place := h.place
  directory := hdirectory.trans h.directory
  manifest := hmanifest ▸ h.manifest
  state := h.state

theorem uninstallOn_isOk {cwd : Place} {packageId : String} {m : DSPManager}
    (h : (DSPManager.uninstallOn cwd packageId m).result.isOk = true) :
    ∃ pkg, m.packages.lookup packageId = some pkg ∧
      DSPManager.uninstallOn cwd packageId m
        = ⟨.ok (), { m with packages := m.packages.erase packageId },
          if pkg.installPath.isEmpty then [] else [.removeAll (resolve cwd pkg.installPath)]⟩ := by
  rw [DSPManager.uninstallOn] at h ⊢
  cases hpkg : m.packages.lookup packageId with
  | none =>
    rw [hpkg] at h
    cases h
  | some pkg =>
    rw [hpkg] at h
    refine ⟨pkg, rfl, ?_⟩
    cases hdependents : m.hasDependents packageId with
    | true =>
      simp only [hdependents, if_true] at h
      cases h
    | false => rfl

theorem Mirrors.uninstall (h : Mirrors host s) (hapart : host.Apart) {packageId : String}
    (hsuccess : ((RepositoryCall.uninstall packageId).run host.cwd s).1 = true) :
    Mirrors host ((RepositoryCall.uninstall packageId).run host.cwd s).2 := by
  obtain ⟨pkg, hpkg, heffect⟩ := uninstallOn_isOk hsuccess
  have hmirrored := h.package packageId pkg hpkg
  have hpath : pkg.installPath.isEmpty = false := by simpa using hmirrored.installed
  rw [hpath] at heffect
  have hafter : ((RepositoryCall.uninstall packageId).run host.cwd s).2
      = ⟨⟨s.manager.packages.erase packageId⟩,
        s.disk.perform (.removeAll (resolve host.cwd pkg.installPath))⟩ := by
    rw [RepositoryCall.run, heffect]
    rfl
  rw [hafter]
  generalize hdir : resolve host.cwd pkg.installPath = removed
  have hplace := hmirrored.place
  rw [hdir] at hplace
  have hkept : ∀ place, ¬ removed <+: place →
      (s.disk.perform (.removeAll removed)).node place = s.disk.node place :=
        fun _ hnot => if_neg hnot
  have hmanifest : ∀ dir, IsPackageDir host dir → removed ≠ dir →
      manifestAt host.lib (s.disk.perform (.removeAll removed)) dir
        = manifestAt host.lib s.disk dir := by
    intro dir hpackageDir hne
    apply manifestAt_congr
    intro bytes
    rw [hkept _ fun hbelow => hne (hapart.manifestPlace hplace hpackageDir hbelow)]
  constructor
  · intro id other hother
    by_cases hid : id = packageId
    · rw [hid, AList.lookup_erase] at hother
      cases hother
    · rw [AList.lookup_erase_ne hid] at hother
      have hmirrored' := h.package id other hother
      -- another package has another directory
      have hne : removed ≠ resolve host.cwd other.installPath := by
        intro heq
        obtain ⟨manifest, hmanifest, hown, -⟩ := hmirrored.manifest
        obtain ⟨manifest', hmanifest', hown', -⟩ := hmirrored'.manifest
        rw [hdir, heq, hmanifest'] at hmanifest
        cases hmanifest
        exact hid (hown'.symm.trans hown)
      apply hmirrored'.congr
      · exact hkept _ fun hbelow => hne (hapart.packageDir hplace hmirrored'.place hbelow)
      · exact hmanifest _ hmirrored'.place hne
  · intro dir manifest hpackageDir hfound hnamed
    by_cases hne : removed = dir
    · -- its manifest is gone
      have hgone : (s.disk.perform (.removeAll removed)).node (manifestPlace dir) = none := by
        rw [perform_removeAll, hne]
        exact if_pos (List.prefix_append _ _)
      rw [manifestAt, hgone] at hfound
      cases hfound
    · rw [hmanifest dir hpackageDir hne] at hfound
      obtain ⟨other, hother, hown⟩ := h.directory dir manifest hpackageDir hfound hnamed
      refine ⟨other, ?_, hown⟩
      rw [AList.lookup_erase_ne, hother]
      intro hid
      rw [hid, hpkg] at hother
      cases hother
      exact hne (hdir.symm.trans hown)
  · intro path hrepository
    rw [hkept _ (hapart.not_repository hplace hrepository)]
    exact h.present path hrepository

/-! ## Runs -/

theorem DSPManager.Prepared.unnamed {site : InstallSite} {packagePath path : String}
    {pkg : DSPPackageMetadata} {m : DSPManager}
    (h : DSPManager.Prepared site packagePath m pkg path) : pkg.manifest.packageId ≠ "" := by
  simpa using h.named

theorem Mirrors.install (h : Mirrors host s) (hapart : host.Apart) {site : InstallSite}
    {packagePath path : String} {pkg : DSPPackageMetadata}
    (hprepared : DSPManager.Prepared site packagePath s.manager pkg path)
    (hfaithful : FaithfulInstall host site packagePath s)
    (hcareful : CarefulInstall host site packagePath pkg path s) :
    Mirrors host ((RepositoryCall.install site packagePath).run host.cwd s).2 := by
  obtain ⟨bytes, members, disk', hafter, hfiles, hbytes, hparse, hmanifest⟩ :=
    install_of_careful hprepared hfaithful hcareful
  have hchosen := hprepared.chosen
  rw [hfaithful.repository] at hchosen
  have hpath := chosenPath_ne hchosen
  have hplace := hcareful.place
  have hjoin : join path pkg.manifest.packageId ≠ "" := by
    rw [join]
    split_ifs with habsolute hseparated
    · exact hprepared.unnamed
    · simp [hpath]
    · simp
  have hfree := hcareful.free
  rw [hafter]
  generalize htarget : resolve host.cwd (join path pkg.manifest.packageId) = target at *
  have hown : manifestAt host.lib disk' target = some pkg.manifest := by
    rw [manifestAt, hfiles.manifest]
    simp [hbytes, hparse, hmanifest]
  have hother : ∀ dir, IsPackageDir host dir → target ≠ dir →
      manifestAt host.lib disk' dir = manifestAt host.lib s.disk dir := by
    intro dir hdir hne
    apply manifestAt_congr
    exact hfiles.file _ fun hbelow => hne (hapart.manifestPlace hplace hdir hbelow)
  constructor
  · intro id other hlookup
    by_cases hid : id = pkg.manifest.packageId
    · rw [hid] at hlookup ⊢
      have hself := DSPManager.lookup_register_self s.manager
        (DSPManager.asInstalled pkg (join path pkg.manifest.packageId))
      rw [DSPManager.asInstalled_manifest] at hself
      rw [hself] at hlookup
      cases hlookup
      have hresolved : resolve host.cwd (DSPManager.asInstalled pkg
          (join path pkg.manifest.packageId)).installPath = target := htarget
      refine ⟨hprepared.unnamed, hjoin, ?_, ?_, ?_, rfl⟩
      · rwa [hresolved]
      · rw [hresolved]
        exact hfiles.directory
      · rw [hresolved]
        exact ⟨pkg.manifest, hown, rfl, rfl, rfl⟩
    · have hbefore := (DSPManager.lookup_register_ne s.manager
        (DSPManager.asInstalled pkg (join path pkg.manifest.packageId)) hid).symm.trans hlookup
      have hmirrored := h.package id other hbefore
      have hne : target ≠ resolve host.cwd other.installPath :=
        (hfree id other hbefore).symm
      apply hmirrored.congr
      · apply hfiles.taken
        · exact fun hbelow => hne (hapart.packageDir hplace hmirrored.place hbelow)
        · simp [hmirrored.directory]
      · exact hother _ hmirrored.place hne
  · intro dir manifest hdir hfound hnamed
    by_cases hne : target = dir
    · rw [← hne, hown] at hfound
      cases hfound
      exact ⟨_, DSPManager.lookup_register_self s.manager
        (DSPManager.asInstalled pkg (join path pkg.manifest.packageId)), htarget.trans hne⟩
    · rw [hother dir hdir hne] at hfound
      obtain ⟨other, hlookup, hresolved⟩ := h.directory dir manifest hdir hfound hnamed
      refine ⟨other, ?_, hresolved⟩
      rw [DSPManager.lookup_register_ne, hlookup]
      intro hid
      rw [hid, DSPManager.asInstalled_manifest] at hlookup
      exact hprepared.absent (AList.lookup_isSome.mp (by simp [hlookup]))
  · intro repositoryPath hrepository
    rw [hfiles.taken _ (hapart.not_repository hplace hrepository)
      (by simp [h.present _ hrepository])]
    exact h.present _ hrepository

/-- What the calls of a run find of the files. -/
def RepositoryCall.Faithful (host : RepositoryHost) (s : RepositoryState) : RepositoryCall → Prop
  | install site packagePath => FaithfulInstall host site packagePath s
  | _ => True

/-- The calls that lose nothing in a reload: careful installations, and
uninstalling. -/
def RepositoryCall.Careful (host : RepositoryHost) (s : RepositoryState) : RepositoryCall → Prop
  | install site packagePath => ∀ pkg path,
    DSPManager.Prepared site packagePath s.manager pkg path →
      CarefulInstall host site packagePath pkg path s
  | uninstall _ => True
  | enable _ => False
  | disable _ => False
  | repair _ _ _ => False

theorem Mirrors.step (h : Mirrors host s) (hapart : host.Apart) {call : RepositoryCall}
    (hsuccess : (call.run host.cwd s).1 = true) (hfaithful : call.Faithful host s)
    (hcareful : call.Careful host s) : Mirrors host (call.run host.cwd s).2 := by
  cases call with
  | install site packagePath =>
    rcases DSPManager.installOn_cases site packagePath s.manager s.disk with ⟨e, he⟩ | hprepared
    · rw [RepositoryCall.run, he] at hsuccess
      cases hsuccess
    · obtain ⟨pkg, path, hprepared⟩ := hprepared
      exact h.install hapart hprepared hfaithful (hcareful pkg path hprepared)
  | uninstall packageId => exact h.uninstall hapart hsuccess
  | enable packageId => exact hcareful.elim
  | disable packageId => exact hcareful.elim
  | repair loadPackageManifest loadersFound packageId => exact hcareful.elim

/-- From a repository that matches the manager, after every call of a run of
careful installations and uninstallations a reload changes nothing. -/
theorem survives_of_careful (hapart : host.Apart) {calls : List RepositoryCall}
    (hmirrors : Mirrors host s)
    (hsuccess : ∀ r ∈ CallRun.records (RepositoryCall.run host.cwd) calls s, r.result = true)
    (hfaithful : ∀ r ∈ CallRun.records (RepositoryCall.run host.cwd) calls s,
      r.call.Faithful host r.before)
    (hcareful : ∀ r ∈ CallRun.records (RepositoryCall.run host.cwd) calls s,
      r.call.Careful host r.before) :
    ∀ r ∈ CallRun.records (RepositoryCall.run host.cwd) calls s, ∀ list,
      Lists host list r.after.disk → SurvivesReload host list r.after := by
  have hstep : ∀ r ∈ CallRun.records (RepositoryCall.run host.cwd) calls s,
      Mirrors host r.before → Mirrors host r.after := by
    intro r hr hbefore
    have hresult := hsuccess r hr
    have hfiles := hfaithful r hr
    have hcall := hcareful r hr
    obtain ⟨_, call, _, -, rfl⟩ := CallRun.mem_records.mp hr
    exact hbefore.step hapart hresult hfiles hcall
  intro r hr list hlist
  exact ((CallRun.records_invariant (Mirrors host) hstep hmirrors).1 r hr).2.survives hlist

/-! ## A repository with one package -/

def onePackageHost : RepositoryHost where
  repository := { userPath := "/r" }
  lib :=
    { parse := fun _ => some (.object [("packageId", .string "p")])
      dumpIndented := fun _ => []
      truncate := fun _ => 0 }

def emptyRepository : RepositoryState where
  manager := {}
  disk := ⟨fun place => if place = [] ∨ place = ["r"] then some .directory else none⟩

def onePackageInstall : RepositoryCall :=
  .install { DSPManager.oneFileSite {} with repository := { userPath := "/r" } } "/p"

theorem emptyRepository_not_file (place : Place) (bytes : ByteBuffer) :
    emptyRepository.disk.node place ≠ some (.file bytes) := by
  show (if _ then some Node.directory else none) ≠ _
  split <;> simp

theorem onePackageHost_paths {path : String} (h : path ∈ onePackageHost.repository.paths) :
    path = "/r" := by
  have hpaths : onePackageHost.repository.paths = ["/r"] := by decide
  rw [hpaths] at h
  exact List.mem_singleton.mp h

theorem onePackageHost_apart : onePackageHost.Apart := by
  intro p hp q hq _
  rw [onePackageHost_paths hp, onePackageHost_paths hq]

theorem emptyRepository_mirrors : Mirrors onePackageHost emptyRepository := by
  constructor
  · intro id pkg hpkg
    cases hpkg
  · intro dir manifest _ hfound
    rw [manifestAt] at hfound
    split at hfound
    · rename_i bytes hnode
      exact absurd hnode (emptyRepository_not_file _ _)
    · cases hfound
  · intro path hpath
    rw [onePackageHost_paths hpath]
    decide

theorem onePackageInstall_faithful :
    onePackageInstall.Faithful onePackageHost emptyRepository := by
  constructor
  · rfl
  · rfl
  · intro i
    rfl
  · intro pkg path _ place _ contents
    exact emptyRepository_not_file place contents
  · intro listing hlisting
    cases hlisting
    exact ⟨rfl, by simp [PackageListing.Plain, DSPManager.oneFile], by simp [DSPManager.oneFile]⟩
  · intro listing pkg hlisting hpkg
    cases hlisting
    cases hpkg
    exact ⟨_, List.mem_singleton_self _, rfl, _, rfl, rfl, _, rfl, _, rfl, by decide⟩

theorem onePackageInstall_careful : onePackageInstall.Careful onePackageHost emptyRepository := by
  intro pkg path hprepared
  have hpkg := hprepared.manifest
  have hpath := hprepared.chosen
  cases hpkg
  cases hpath
  constructor
  · exact ⟨_, rfl⟩
  · exact ⟨"/r", by decide, "p", by decide⟩
  · intro id other hother
    cases hother

theorem onePackageInstall_lists :
    Lists onePackageHost (fun _ => ["p"]) (onePackageInstall.run [] emptyRepository).2.disk := by
  have hops : (DSPManager.installOn
      { DSPManager.oneFileSite {} with repository := { userPath := "/r" } } "/p" {}
        emptyRepository.disk).ops
      = [.makeDirectory ["r", "p"], .writeFile ["r", "p", "manifest.json"] [0x7b, 0x7d]] := by
    decide
  intro path hpath name
  rw [onePackageHost_paths hpath]
  show _ ↔ (emptyRepository.disk.run (DSPManager.installOn _ "/p" {} emptyRepository.disk).ops).node
    (["r"] ++ [name]) ≠ none
  rw [hops]
  simp [Disk.run, Disk.perform, emptyRepository]

theorem onePackageInstall_succeeds :
    (onePackageInstall.run onePackageHost.cwd emptyRepository).1 = true := by
  decide

theorem survives_oneInstall :
    SurvivesReload onePackageHost (fun _ => ["p"])
      (onePackageInstall.run [] emptyRepository).2 := by
  have hrecord : ∀ r ∈ CallRun.records (RepositoryCall.run onePackageHost.cwd) [onePackageInstall]
      emptyRepository,
        r = CallRun.record (RepositoryCall.run onePackageHost.cwd) onePackageInstall
          emptyRepository := by simp
  exact survives_of_careful onePackageHost_apart emptyRepository_mirrors
    (fun r hr => (hrecord r hr).symm ▸ onePackageInstall_succeeds)
    (fun r hr => (hrecord r hr).symm ▸ onePackageInstall_faithful)
    (fun r hr => (hrecord r hr).symm ▸ onePackageInstall_careful)
    _ (List.mem_singleton_self _) _ onePackageInstall_lists

/-- A package that was disabled is `Installed` after a reload. -/
theorem survives_lostState :
    ¬ ∀ (host : RepositoryHost) (calls : List RepositoryCall) (s : RepositoryState),
      Mirrors host s →
      (∀ r ∈ CallRun.records (RepositoryCall.run host.cwd) calls s, r.result = true) →
      (∀ r ∈ CallRun.records (RepositoryCall.run host.cwd) calls s,
        r.call.Faithful host r.before) →
      ∀ list, Lists host list (CallRun.final (RepositoryCall.run host.cwd) calls s).disk →
        SurvivesReload host list (CallRun.final (RepositoryCall.run host.cwd) calls s) := by
  intro hall
  have hlost := hall onePackageHost [onePackageInstall, .disable "p"] emptyRepository
    emptyRepository_mirrors ?_ ?_ (fun _ => ["p"]) onePackageInstall_lists "p"
  · revert hlost
    decide
  · rw [CallRun.forall_records_cons, CallRun.forall_records_cons]
    exact ⟨onePackageInstall_succeeds, by decide, by simp⟩
  · rw [CallRun.forall_records_cons, CallRun.forall_records_cons]
    exact ⟨onePackageInstall_faithful, trivial, by simp⟩

end MBootCore
