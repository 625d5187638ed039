import MBootCore.Support.Kahn
import MBootCore.Support.UnorderedMap

/-!
# Sdk — PluginDependencyGraph

`PluginDependencyGraph` of `sdk/PluginDependencyGraph.cpp`: the registered
plugins by their ids, the depth-first search that collects the cycles, and the
order in which the plugins are resolved.
-/

namespace MBootCore

structure GraphNode where
  id : String
  type : String
  name : String
  version : String
  dependsOn : List String
  deriving DecidableEq, Repr

/-- The fields the graph reads of a registration, whatever it registers. -/
structure Registration where
  name : String
  version : String := ""
  dependencies : List String := []
  deriving DecidableEq, Repr

structure PluginDependencyGraph where
  nodes : AList (fun _ : String => GraphNode) := ∅
  hasCycle : Bool := false
  cycles : List (List String) := []

structure DependencyGraphReport where
  hasCircularDependencies : Bool := false
  cycles : List (List String) := []
  unresolvedDependencies : List String := []
  resolvedOrder : List String := []
  nodes : AList (fun _ : String => GraphNode) := ∅

namespace PluginDependencyGraph

variable (g : PluginDependencyGraph)

/-! ## Nodes -/

/-- A node of the same id is replaced where it is. -/
def addNode (id type name version : String) (dependencies : List String) :
    PluginDependencyGraph :=
  { g with nodes :=
      UnorderedMap.assign g.nodes id { id, type, name, version, dependsOn := dependencies } }

def addRegistration (type : String) (reg : Registration) : PluginDependencyGraph :=
  g.addNode (type ++ ":" ++ reg.name) type reg.name reg.version reg.dependencies

def addVendorNode : Registration → PluginDependencyGraph := g.addRegistration "vendor"
def addProtocolNode : Registration → PluginDependencyGraph := g.addRegistration "protocol"
def addTransportNode : Registration → PluginDependencyGraph := g.addRegistration "transport"
def addWorkflowNode : Registration → PluginDependencyGraph := g.addRegistration "workflow"
def addJobNode : Registration → PluginDependencyGraph := g.addRegistration "job"
def addPackageNode : Registration → PluginDependencyGraph := g.addRegistration "package"
def addDiscoveryNode : Registration → PluginDependencyGraph := g.addRegistration "discovery"
def addCapabilityNode : Registration → PluginDependencyGraph := g.addRegistration "capability"

def dependsOn (id : String) : List String :=
  match g.nodes.lookup id with
  | some node => node.dependsOn
  | none => []

/-! ## Cycles -/

/-- What the depth-first search carries along. -/
structure Search where
  visited : List String := []
  inStack : List String := []
  stack : List String := []
  hasCycle : Bool := false
  cycles : List (List String) := []
  deriving DecidableEq, Repr

/-- The search goes on behind a cycle; what it returns is not looked at. A
search that goes one node deeper finds it unvisited, so that the fuel need
not exceed the number of nodes by more than one. -/
def dfs : Nat → String → Search → Bool × Search
  | 0, _, s => (true, s)
  | fuel + 1, nodeId, s =>
    if nodeId ∈ s.inStack then
      (false, if nodeId ∈ s.stack then
        { s with
          cycles := s.cycles ++ [s.stack.dropWhile (· ≠ nodeId) ++ [nodeId]]
          hasCycle := true } else s)
    else if nodeId ∈ s.visited then (true, s)
    else if nodeId ∉ g.nodes then (true, s)
    else
      let entered : Search :=
        { s with
          visited := nodeId :: s.visited
          inStack := nodeId :: s.inStack
          stack := s.stack ++ [nodeId] }
      let searched := (g.dependsOn nodeId).foldl (fun s dep => (dfs fuel dep s).2) entered
      (true, { searched with
        stack := searched.stack.dropLast
        inStack := searched.inStack.erase nodeId })

def searchAll (walk : WalkOrder) : Search :=
  (walk.arrange g.nodes.keys).foldl
    (fun s id => if id ∈ s.visited then s else (g.dfs (g.nodes.keys.length + 1) id s).2) {}

/-! ## The order -/

/-- Once for every present dependency of the node. -/
def incoming (id : String) : List String :=
  ((g.dependsOn id).filter (· ∈ g.nodes)).map fun _ => id

def inDegree (walk : WalkOrder) : String → Int :=
  ((walk.arrange g.nodes.keys).flatMap g.incoming).foldl Kahn.countEdge fun _ => 0

/-- The nodes that depend on `id`, each as often as it lists it. -/
def dependents (walk : WalkOrder) (id : String) : List String :=
  (walk.arrange g.nodes.keys).flatMap fun nid =>
    ((g.dependsOn nid).filter (· = id)).map fun _ => nid

/-- One dependency of the node less, if it has any left. -/
def release (s : Kahn.State String) (nid : String) : Kahn.State String :=
  if s.inDegree nid > 0 then Kahn.release s nid else s

/-- The queue is emptied from its back. -/
def loop (walk : WalkOrder) : Nat → Kahn.State String → Kahn.State String
  | 0, s => s
  | fuel + 1, s =>
    match s.queue.getLast? with
    | none => s
    | some id =>
      loop walk fuel ((g.dependents walk id).foldl release
        { s with queue := s.queue.dropLast, order := s.order ++ [id] })

def sorted (walks : WalkOrders) : List String :=
  let inDegree := g.inDegree walks.nodes
  let queue := (walks.inDegree.arrange g.nodes.keys).filter fun id => inDegree id = 0
  (g.loop walks.nodes g.nodes.keys.length ⟨inDegree, queue, []⟩).order

def resolve (walks : WalkOrders) : DependencyGraphReport × PluginDependencyGraph :=
  let searched := g.searchAll walks.nodes
  ({ hasCircularDependencies := searched.hasCycle
     cycles := searched.cycles
     nodes := g.nodes
     unresolvedDependencies := (walks.nodes.arrange g.nodes.keys).flatMap fun id =>
       (g.dependsOn id).filter (· ∉ g.nodes)
     resolvedOrder := if searched.hasCycle then [] else g.sorted walks },
    { g with hasCycle := searched.hasCycle, cycles := searched.cycles })

end PluginDependencyGraph

/-! ## Registering plugins -/

inductive PluginAdd where
  | node (id type name version : String) (dependencies : List String)
  | vendor (reg : Registration)
  | protocol (reg : Registration)
  | transport (reg : Registration)
  | workflow (reg : Registration)
  | job (reg : Registration)
  | package (reg : Registration)
  | discovery (reg : Registration)
  | capability (reg : Registration)

def PluginAdd.run : PluginAdd → PluginDependencyGraph → PluginDependencyGraph
  | node id type name version dependencies, g => g.addNode id type name version dependencies
  | vendor reg, g => g.addVendorNode reg
  | protocol reg, g => g.addProtocolNode reg
  | transport reg, g => g.addTransportNode reg
  | workflow reg, g => g.addWorkflowNode reg
  | job reg, g => g.addJobNode reg
  | package reg, g => g.addPackageNode reg
  | discovery reg, g => g.addDiscoveryNode reg
  | capability reg, g => g.addCapabilityNode reg

/-- The graph after the plugins were added, one after the other. -/
def PluginDependencyGraph.added (adds : List PluginAdd) : PluginDependencyGraph :=
  adds.foldl (fun g add => add.run g) {}

end MBootCore
