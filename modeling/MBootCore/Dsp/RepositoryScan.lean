import MBootCore.Dsp.InstallCopy
import MBootCore.Dsp.PackageManifest
import MBootCore.Support.CallRun

/-!
# Dsp — RepositoryScan

`DSPRepository::scan` and `DSPManager::reload`: the packages found in the
directories that lie directly in a repository path and hold a `manifest.json`.
Every package found is `Installed`; the state it had is not on disk.

The loaders that are found with a package are a parameter; nothing said here
depends on them.
-/

namespace MBootCore

open LexicalPath FileTree

structure RepositoryHost where
  cwd : Place := []
  repository : DSPRepository
  lib : JsonBytes
  loaders : Disk ByteBuffer → Place → List DSPLoaderMetadata := fun _ _ => []

/-- The paths that are scanned, in this order. -/
def DSPRepository.paths (repository : DSPRepository) : List String :=
  [repository.systemPath, repository.userPath, repository.portablePath].filter (!·.isEmpty)

def DSPRepository.originOf (repository : DSPRepository) (dirPath : String) : DSPOrigin :=
  let within (path : String) : Bool := !path.isEmpty && path.toList.isPrefixOf dirPath.toList
  if within repository.userPath then .user
  else if within repository.systemPath then .system
  else if within repository.portablePath then .portable
  else .system

def manifestPlace (dir : Place) : Place := dir ++ ["manifest.json"]

/-- The manifest of a package directory, as `loadPackage` reads it. -/
def manifestAt (lib : JsonBytes) (disk : Disk ByteBuffer) (dir : Place) : Option DSPManifest :=
  match disk.node (manifestPlace dir) with
  | some (.file bytes) =>
    if bytes.isEmpty then none
    else
      match lib.parse bytes with
      | some (.object members) => some (PackageReader.loadManifest (.object members))
      | _ => none
  | _ => none

namespace RepositoryHost

variable (host : RepositoryHost) (disk : Disk ByteBuffer)

def loadPackage (dirPath : String) (dir : Place) : Option DSPPackageMetadata :=
  (manifestAt host.lib disk dir).map fun manifest =>
    { manifest, loaders := host.loaders disk dir, state := .installed
      origin := host.repository.originOf dirPath, installPath := dirPath }

/-- One entry of a repository directory. -/
def scanEntry (path : String) (packages : AList fun _ : String => DSPPackageMetadata)
    (name : String) : AList fun _ : String => DSPPackageMetadata :=
  let dir := resolve host.cwd path ++ [name]
  if disk.node dir = some .directory then
    match host.loadPackage disk (join path name) dir with
    | none => packages
    | some pkg =>
      if pkg.manifest.packageId.isEmpty then packages
      else packages.insert pkg.manifest.packageId pkg
  else packages

/-- `list` yields the names in a directory in the order of the iterator. -/
def scanDirectory (list : Place → List String)
    (packages : AList fun _ : String => DSPPackageMetadata) (path : String) :
    AList fun _ : String => DSPPackageMetadata :=
  if disk.node (resolve host.cwd path) = some .directory then
    (list (resolve host.cwd path)).foldl (host.scanEntry disk path) packages
  else packages

def scan (list : Place → List String) : AList fun _ : String => DSPPackageMetadata :=
  host.repository.paths.foldl (host.scanDirectory disk list) ∅

/-- `DSPManager::reload`. -/
def reload (list : Place → List String) : DSPManager := ⟨host.scan disk list⟩

end RepositoryHost

/-! ## What a scan finds -/

namespace RepositoryHost

variable {host : RepositoryHost} {disk : Disk ByteBuffer} {path : String}
  {packages : AList fun _ : String => DSPPackageMetadata} {list : Place → List String}

/-- A package is found in the repository with this id. -/
structure Found (host : RepositoryHost) (disk : Disk ByteBuffer) (id : String)
    (pkg : DSPPackageMetadata) : Prop where
  place : ∃ path ∈ host.repository.paths, ∃ name,
    manifestAt host.lib disk (resolve host.cwd path ++ [name]) = some pkg.manifest
  own : pkg.manifest.packageId = id
  named : id ≠ ""
  state : pkg.state = .installed

theorem scanEntry_found (hpath : path ∈ host.repository.paths) (name : String)
    (h : ∀ id pkg, packages.lookup id = some pkg → Found host disk id pkg) :
    ∀ id pkg, (host.scanEntry disk path packages name).lookup id = some pkg →
      Found host disk id pkg := by
  intro id pkg hpkg
  rw [scanEntry] at hpkg
  split at hpkg
  · split at hpkg
    · exact h id pkg hpkg
    · rename_i loaded hloaded
      split at hpkg
      · exact h id pkg hpkg
      · rename_i hnamed
        by_cases hid : id = loaded.manifest.packageId
        · subst hid
          rw [AList.lookup_insert] at hpkg
          cases hpkg
          rw [loadPackage, Option.map_eq_some_iff] at hloaded
          obtain ⟨manifest, hmanifest, rfl⟩ := hloaded
          exact ⟨⟨path, hpath, name, hmanifest⟩, rfl, by simpa using hnamed, rfl⟩
        · rw [AList.lookup_insert_ne hid] at hpkg
          exact h id pkg hpkg
  · exact h id pkg hpkg

theorem foldl_found (hpath : path ∈ host.repository.paths) (names : List String)
    (h : ∀ id pkg, packages.lookup id = some pkg → Found host disk id pkg) :
    ∀ id pkg, (names.foldl (host.scanEntry disk path) packages).lookup id = some pkg →
      Found host disk id pkg := by
  induction names generalizing packages with
  | nil => exact h
  | cons name names ih => exact ih (scanEntry_found hpath name h)

theorem foldl_scanDirectory_found {paths : List String}
    (hpaths : ∀ path ∈ paths, path ∈ host.repository.paths)
    (h : ∀ id pkg, packages.lookup id = some pkg → Found host disk id pkg) :
    ∀ id pkg, (paths.foldl (host.scanDirectory disk list) packages).lookup id = some pkg →
      Found host disk id pkg := by
  induction paths generalizing packages with
  | nil => exact h
  | cons path paths ih =>
    refine ih (fun p hp => hpaths p (by simp [hp])) ?_
    rw [scanDirectory]
    split
    · exact foldl_found (hpaths path (by simp)) _ h
    · exact h

/-- Every package of a scan is in the repository. -/
theorem scan_found {id : String} {pkg : DSPPackageMetadata}
    (h : (host.scan disk list).lookup id = some pkg) : Found host disk id pkg := by
  apply foldl_scanDirectory_found (fun _ hpath => hpath) _ id pkg h
  intro id pkg hpkg
  rw [AList.lookup_empty] at hpkg
  cases hpkg

theorem scanEntry_keeps {id : String} (h : packages.lookup id ≠ none) (name : String) :
    (host.scanEntry disk path packages name).lookup id ≠ none := by
  rw [scanEntry]
  split
  · split
    · exact h
    · rename_i pkg _
      split
      · exact h
      · by_cases hid : id = pkg.manifest.packageId
        · simp [hid]
        · rwa [AList.lookup_insert_ne hid]
  · exact h

theorem foldl_keeps {id : String} (h : packages.lookup id ≠ none) (names : List String) :
    (names.foldl (host.scanEntry disk path) packages).lookup id ≠ none := by
  induction names generalizing packages with
  | nil => exact h
  | cons name names ih => exact ih (scanEntry_keeps h name)

theorem scanDirectory_keeps {id : String} (h : packages.lookup id ≠ none) (path : String) :
    (host.scanDirectory disk list packages path).lookup id ≠ none := by
  rw [scanDirectory]
  split
  · exact foldl_keeps h _
  · exact h

theorem foldl_scanDirectory_keeps {id : String} (h : packages.lookup id ≠ none)
    (paths : List String) :
    (paths.foldl (host.scanDirectory disk list) packages).lookup id ≠ none := by
  induction paths generalizing packages with
  | nil => exact h
  | cons path paths ih => exact ih (scanDirectory_keeps h path)

theorem foldl_finds {names : List String} {name : String} {manifest : DSPManifest}
    (hname : name ∈ names)
    (hdir : disk.node (resolve host.cwd path ++ [name]) = some .directory)
    (hmanifest : manifestAt host.lib disk (resolve host.cwd path ++ [name]) = some manifest)
    (hnamed : manifest.packageId ≠ "") :
    (names.foldl (host.scanEntry disk path) packages).lookup manifest.packageId ≠ none := by
  induction names generalizing packages with
  | nil => cases hname
  | cons first names ih =>
    rw [List.foldl_cons]
    rcases List.mem_cons.mp hname with rfl | hname
    · apply foldl_keeps
      have hempty : manifest.packageId.isEmpty = false := by simpa using hnamed
      simp [scanEntry, hdir, loadPackage, hmanifest, hempty]
    · exact ih hname

/-- Every package directory of the repository is found. -/
theorem scan_finds (hpath : path ∈ host.repository.paths)
    (hpresent : disk.node (resolve host.cwd path) = some .directory) {name : String}
    (hname : name ∈ list (resolve host.cwd path))
    (hdir : disk.node (resolve host.cwd path ++ [name]) = some .directory)
    {manifest : DSPManifest}
    (hmanifest : manifestAt host.lib disk (resolve host.cwd path ++ [name]) = some manifest)
    (hnamed : manifest.packageId ≠ "") :
    (host.scan disk list).lookup manifest.packageId ≠ none := by
  obtain ⟨before, after, hpaths⟩ := List.append_of_mem hpath
  rw [scan, hpaths, List.foldl_append, List.foldl_cons]
  apply foldl_scanDirectory_keeps
  rw [scanDirectory, if_pos hpresent]
  exact foldl_finds hname hdir hmanifest hnamed

end RepositoryHost

end MBootCore
