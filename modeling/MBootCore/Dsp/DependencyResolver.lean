import MBootCore.Dsp.Manager
import MBootCore.Dsp.ResolutionOrder

/-!
# Dsp — DependencyResolver

`DSPDependencyResolver::resolveInstall` of `dsp/DSPDependencyGraph.cpp`: what has to be
installed for a package. A search collects what is missing, and the order is that of a
dependency graph.
-/

namespace MBootCore

def DSPVersion.toString (v : DSPVersion) : String :=
  s!"{v.major.toNat}.{v.minor.toNat}.{v.patch.toNat}"

structure DSPDependencyResolver where
  installed : List DSPPackageMetadata := []
  available : List DSPPackageMetadata := []
  missing : List String := []
  conflicts : List String := []
  obsoleted : List String := []

namespace DSPDependencyResolver

/-- A map filled from the list, in which a later package replaces an earlier one. -/
def packageMap (packages : List DSPPackageMetadata) (packageId : String) :
    Option DSPPackageMetadata :=
  packages.reverse.find? (·.manifest.packageId = packageId)

variable (r : DSPDependencyResolver)

def installedPackage (packageId : String) : Option DSPPackageMetadata :=
  packageMap r.installed packageId

def availablePackage (packageId : String) : Option DSPPackageMetadata :=
  packageMap r.available packageId

/-- The version is below a minimum that is stated. -/
def belowMinimum (version : DSPVersion) (dep : DSPDependency) : Bool :=
  dep.minVersion ≠ {} && version.lt dep.minVersion

/-! ## The search -/

/-- The back of `toProcess` comes first. -/
structure InstallSearch where
  toProcess : List String
  processed : List String := []
  missing : List String := []
  conflicts : List String := []
  deriving DecidableEq, Repr

def checkDependency (s : InstallSearch) (dep : DSPDependency) : InstallSearch :=
  match r.installedPackage dep.packageId with
  | some installedPkg =>
    if belowMinimum installedPkg.manifest.version dep then
      { s with conflicts := s.conflicts ++ [dep.packageId ++ " installed version "
          ++ installedPkg.manifest.version.toString ++ " below minimum "
          ++ dep.minVersion.toString] }
    else s
  | none =>
    if (r.availablePackage dep.packageId).isSome then
      { s with toProcess := dep.packageId :: s.toProcess }
    else if dep.required then { s with missing := s.missing ++ [dep.packageId] }
    else s

/-- One round: whatever package it takes, it looks at the dependencies of the one that is to
be installed. -/
def searchRound (dependencies : List DSPDependency) (s : InstallSearch) : InstallSearch :=
  match s.toProcess with
  | [] => s
  | current :: rest =>
    if current ∈ s.processed then { s with toProcess := rest }
    else
      dependencies.foldl r.checkDependency
        { s with toProcess := rest, processed := current :: s.processed }

/-- Every round takes a package off, and only those that are new put packages on, so that
the fuel need not exceed the square of what there is (`search_ends`); `none` when it is used
up. -/
def search (dependencies : List DSPDependency) : Nat → InstallSearch → Option InstallSearch
  | 0, _ => none
  | fuel + 1, s =>
    if s.toProcess = [] then some s else search dependencies fuel (r.searchRound dependencies s)

def searchFuel (dependencies : List DSPDependency) : Nat :=
  (dependencies.length + 1) * (dependencies.length + 1) + 2

/-! ## The order -/

/-- Packages on offer that the dependencies are too new for. -/
def obsoletedBy (pkg : DSPPackageMetadata) : List String :=
  ((r.available.filter fun ap =>
    ap.manifest.packageId ≠ pkg.manifest.packageId &&
      (r.installedPackage ap.manifest.packageId).isSome &&
      pkg.manifest.dependencies.any fun dep =>
        dep.packageId = ap.manifest.packageId && belowMinimum ap.manifest.version dep)).map
    (·.manifest.packageId)

/-- The package is there already, in this version. -/
def alreadyInstalled (pkg : DSPPackageMetadata) : Bool :=
  match r.installedPackage pkg.manifest.packageId with
  | some existing =>
    existing.manifest.version = pkg.manifest.version &&
      (existing.state = .installed || existing.state = .enabled)
  | none => false

def resolveInstall (walks : WalkOrders) (pkg : DSPPackageMetadata) :
    Except ErrorCode (List String) × DSPDependencyResolver :=
  let r : DSPDependencyResolver := { r with missing := [], conflicts := [], obsoleted := [] }
  if r.alreadyInstalled pkg then (.error .unknown, r)
  else
    match DSPDependencyGraph.addPackage {} pkg with
    | (.error e, _) => (.error e, r)
    | (.ok (), graph) =>
      match r.search pkg.manifest.dependencies (searchFuel pkg.manifest.dependencies)
          { toProcess := [pkg.manifest.packageId] } with
      | none => (.error .unknown, r)
      | some found =>
        let r := { r with missing := found.missing, conflicts := found.conflicts }
        if found.missing ≠ [] then (.error .unknown, r)
        else
          (.ok (graph.resolve walks).resolutionOrder, { r with obsoleted := r.obsoletedBy pkg })

end DSPDependencyResolver

end MBootCore
