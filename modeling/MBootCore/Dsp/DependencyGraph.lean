import MBootCore.Domain.Error
import MBootCore.Support.Kahn
import MBootCore.Support.UnorderedMap
import Mathlib.Data.List.AList

/-!
# Dsp — DependencyGraph

`DSPDependencyGraph` of `dsp/DSPDependencyGraph.cpp`: the packages by their
ids, the search for a cycle and the resolution order.

The order in which an `unordered_map` is walked is unspecified; it is a
parameter wherever the code walks one.
-/

namespace MBootCore

structure DSPVersion where
  major : UInt32 := 1
  minor : UInt32 := 0
  patch : UInt32 := 0
  deriving DecidableEq, Repr

structure DSPDependency where
  packageId : String
  name : String := ""
  minVersion : DSPVersion := {}
  maxVersion : DSPVersion := {}
  required : Bool := true
  deriving DecidableEq, Repr

inductive DSPState where
  | unknown | installed | enabled | disabled | corrupted | incompatible
  deriving DecidableEq, Repr

/-- The manifest fields the graph and the manager read. -/
structure DSPManifest where
  packageId : String
  version : DSPVersion := {}
  dependencies : List DSPDependency := []
  deriving DecidableEq, Repr

inductive DSPOrigin where
  | unknown | system | user | portable | online | builtin
  deriving DecidableEq, Repr

structure DSPLoaderMetadata where
  loaderId : String
  deriving DecidableEq, Repr

/-- The fields the graph and the manager read or set. -/
structure DSPPackageMetadata where
  manifest : DSPManifest
  loaders : List DSPLoaderMetadata := []
  state : DSPState := .unknown
  origin : DSPOrigin := .user
  installPath : String := ""
  repository : String := ""
  deriving DecidableEq, Repr

structure DependencyNode where
  packageId : String
  version : DSPVersion := {}
  installed : Bool := false
  enabled : Bool := false
  requiredBy : List String := []
  dependencies : List DSPDependency := []
  resolved : Bool := false
  deriving DecidableEq, Repr

structure DSPDependencyGraph where
  nodes : AList (fun _ : String => DependencyNode) := ∅
  resolutionOrder : List String := []
  resolved : Bool := false
  hasCycle : Bool := false
  cyclePath : List String := []
  unresolved : List String := []

namespace DSPDependencyGraph

variable (g : DSPDependencyGraph)

def dependencies (id : String) : List String :=
  match g.nodes.lookup id with
  | some node => node.dependencies.map DSPDependency.packageId
  | none => []

/-- The dependencies that are in the graph, as often as they are listed. -/
def presentDependencies (id : String) : List String :=
  (g.dependencies id).filter (· ∈ g.nodes)

/-! ## Cycle detection -/

/-- What the depth-first search carries along. -/
structure Search where
  visited : List String := []
  inStack : List String := []
  path : List String := []
  cyclePath : List String := []
  deriving DecidableEq, Repr

/-- The search through a list of packages, up to a cycle. -/
def searchEach (visit : String → Search → Bool × Search) :
    List String → Search → Bool × Search
  | [], s => (false, s)
  | id :: ids, s =>
    match visit id s with
    | (true, s) => (true, s)
    | (false, s) => searchEach visit ids s

/-- A search that goes one package deeper finds it unvisited, so that the
fuel need not exceed the number of packages. -/
def dfs : Nat → String → Search → Bool × Search
  | 0, _, s => (false, s)
  | fuel + 1, id, s =>
    let entered : Search :=
      { s with visited := id :: s.visited, inStack := id :: s.inStack, path := s.path ++ [id] }
    let visit (dep : String) (s : Search) : Bool × Search :=
      if dep ∈ s.inStack then
        (true, if dep ∈ s.path then
          { s with cyclePath := s.path.dropWhile (· ≠ dep) ++ [dep] } else s)
      else if dep ∈ s.visited then (false, s)
      else dfs fuel dep s
    match searchEach visit (g.presentDependencies id) entered with
    | (true, s) => (true, s)
    | (false, s) => (false, { s with inStack := s.inStack.erase id, path := s.path.dropLast })

def detectCycle (walk : WalkOrder) : Bool × DSPDependencyGraph :=
  let visit (id : String) (s : Search) : Bool × Search :=
    if id ∈ s.visited then (false, s) else g.dfs g.nodes.keys.length id s
  let outcome := searchEach visit (walk.arrange g.nodes.keys) {}
  (outcome.1, { g with hasCycle := outcome.1, cyclePath := outcome.2.cyclePath })

/-! ## Resolution -/

/-- In-degrees are counted on the dependencies: an edge leads from a package to
what it depends on. -/
def inDegree (walk : WalkOrder) : String → Int :=
  Kahn.inDegrees g.presentDependencies (walk.arrange g.nodes.keys)

def topoSort (walks : WalkOrders) : DSPDependencyGraph :=
  let inDegree := g.inDegree walks.nodes
  let queue := (walks.inDegree.arrange g.nodes.keys).filter fun id => inDegree id = 0
  let resolutionOrder :=
    (Kahn.loop g.presentDependencies g.nodes.keys.length ⟨inDegree, queue, []⟩).order
  let sorted := { g with unresolved := [], resolutionOrder }
  if resolutionOrder.length ≠ g.nodes.keys.length then
    { (sorted.detectCycle walks.nodes).2 with
      unresolved := (walks.nodes.arrange g.nodes.keys).filter (· ∉ resolutionOrder)
      resolved := true }
  else { sorted with resolved := true, hasCycle := false }

/-! ## Operations -/

def addPackage (pkg : DSPPackageMetadata) : Except ErrorCode Unit × DSPDependencyGraph :=
  let id := pkg.manifest.packageId
  if id.isEmpty then (.error .invalidArgument, g)
  else if id ∈ g.nodes then (.error .alreadyExists, g)
  else
    let node : DependencyNode :=
      { packageId := id
        version := pkg.manifest.version
        installed := pkg.state = .installed
        enabled := pkg.state = .enabled
        dependencies := pkg.manifest.dependencies }
    (.ok (), { g with nodes := g.nodes.insert id node, resolved := false })

/-- `packageId` no longer requires the package `dep`. -/
def dropRequiredBy (packageId : String) (nodes : AList fun _ : String => DependencyNode)
    (dep : String) : AList fun _ : String => DependencyNode :=
  match nodes.lookup dep with
  | some node =>
    nodes.replace dep { node with requiredBy := node.requiredBy.filter (· ≠ packageId) }
  | none => nodes

def removePackage (packageId : String) : Except ErrorCode Unit × DSPDependencyGraph :=
  match g.nodes.lookup packageId with
  | none => (.error .unknown, g)
  | some _ =>
    let nodes := (g.dependencies packageId).foldl (dropRequiredBy packageId) g.nodes
    (.ok (), { g with nodes := nodes.erase packageId, resolved := false })

def resolve (walks : WalkOrders) : DSPDependencyGraph :=
  if g.nodes.keys = [] then { g with resolutionOrder := [], resolved := true }
  else g.topoSort walks

def clear (_ : DSPDependencyGraph) : DSPDependencyGraph where
  nodes := ∅
  resolutionOrder := []
  resolved := false
  hasCycle := false
  cyclePath := []
  unresolved := []

/-- The answer, and the graph with what the search behind it found. -/
def hasCircularDependency (walk : WalkOrder) : Bool × DSPDependencyGraph :=
  let searched := if g.resolved then g else (g.detectCycle walk).2
  (searched.hasCycle, searched)

def circularDependencyPath (walk : WalkOrder) : List String × DSPDependencyGraph :=
  let searched := if g.resolved then g else (g.detectCycle walk).2
  (searched.cyclePath, searched)

end DSPDependencyGraph

/-! ## Runs -/

inductive DSPCall where
  | addPackage (pkg : DSPPackageMetadata)
  | removePackage (packageId : String)
  | clear
  | resolve (walks : WalkOrders)
  | hasCircularDependency (walk : WalkOrder)
  | circularDependencyPath (walk : WalkOrder)

def DSPCall.run : DSPCall → DSPDependencyGraph → Except ErrorCode Unit × DSPDependencyGraph
  | addPackage pkg, g => g.addPackage pkg
  | removePackage packageId, g => g.removePackage packageId
  | clear, g => (.ok (), g.clear)
  | resolve walks, g => (.ok (), g.resolve walks)
  | hasCircularDependency walk, g => (.ok (), (g.hasCircularDependency walk).2)
  | circularDependencyPath walk, g => (.ok (), (g.circularDependencyPath walk).2)

end MBootCore
