import MBootCore.Sdk.PluginCycles
import MBootCore.Session.DeviceManager
import MBootCore.Support.CallRun
import Mathlib

/-!
# Sdk — VendorSDK

`VendorSDK.cpp`: the components a vendor registers, and the report that
`finalize` makes of them. The eight registries differ in the kind of their
components alone; the dependency graph is one object for the whole life of the
SDK, and `clear` leaves it as it is.

`rounds_iff` says when the reports of a run are those of new SDKs. A walk over the
nodes follows the order in which they came into the graph, so that the cycles of a
report can begin elsewhere in a graph that already had some of the nodes.
-/

namespace MBootCore

open Session (Vendor ProtocolType)

inductive TransportType where
  | unknown | mock | virtual | usb | serial | tcp | udp | bluetooth | hid
  deriving DecidableEq, Repr

/-! ## Components -/

structure VendorRegistration extends Registration where
  vendorId : Vendor := .custom
  usbVids : List UInt16 := []
  deriving DecidableEq, Repr

structure ProtocolRegistration extends Registration where
  protocolType : ProtocolType := .custom
  supportedTransports : List TransportType := []
  deriving DecidableEq, Repr

structure TransportRegistration extends Registration where
  transportType : TransportType := .virtual
  deriving DecidableEq, Repr

structure JobRegistration extends Registration where
  jobType : String := ""
  deriving DecidableEq, Repr

inductive ComponentKind where
  | vendor | protocol | transport | workflow | job | package | discovery | capability
  deriving DecidableEq, Repr

namespace ComponentKind

/-- In the order in which the SDK goes through its registries. -/
def all : List ComponentKind :=
  [vendor, protocol, transport, workflow, job, package, discovery, capability]

/-- What is registered of a kind. -/
def Reg : ComponentKind → Type
  | vendor => VendorRegistration
  | protocol => ProtocolRegistration
  | transport => TransportRegistration
  | job => JobRegistration
  | workflow | package | discovery | capability => Registration

def base : (k : ComponentKind) → k.Reg → Registration
  | vendor, reg => VendorRegistration.toRegistration reg
  | protocol, reg => ProtocolRegistration.toRegistration reg
  | transport, reg => TransportRegistration.toRegistration reg
  | job, reg => JobRegistration.toRegistration reg
  | workflow, reg | package, reg | discovery, reg | capability, reg => reg

/-- The kind in a node's id and in the messages. -/
def type : ComponentKind → String
  | vendor => "vendor"
  | protocol => "protocol"
  | transport => "transport"
  | workflow => "workflow"
  | job => "job"
  | package => "package"
  | discovery => "discovery"
  | capability => "capability"

def label : ComponentKind → String
  | vendor => "Vendor"
  | protocol => "Protocol"
  | transport => "Transport"
  | workflow => "Workflow"
  | job => "Job"
  | package => "Package"
  | discovery => "Discovery"
  | capability => "Capability"

end ComponentKind

/-! ## PluginValidator -/

structure ComponentCheck where
  valid : Bool := true
  errors : List String := []
  warnings : List String := []
  deriving DecidableEq, Repr

namespace PluginValidator

def isValidName (name : String) : Bool :=
  if name = "" then false
  else name.toList.all fun c => c.isAlphanum || c = '_' || c = '-' || c = '.'

/-- `r.valid = false; r.errors.push_back(text);` -/
def failIf (failed : Bool) (text : String) (r : ComponentCheck) : ComponentCheck :=
  if failed then { r with valid := false, errors := r.errors ++ [text] } else r

def warnIf (warned : Bool) (text : String) (r : ComponentCheck) : ComponentCheck :=
  if warned then { r with warnings := r.warnings ++ [text] } else r

/-- The check that every kind begins with. -/
def validateName (k : ComponentKind) (name : String) : ComponentCheck :=
  failIf (!isValidName name) ("Invalid " ++ k.type ++ " name: '" ++ name ++ "'") {}

def validateVendor (reg : VendorRegistration) : ComponentCheck :=
  warnIf (reg.usbVids = [] ∧ reg.vendorId = .custom) "No USB VID specified for custom vendor"
    (failIf (reg.name = "") "Vendor name is required" (validateName .vendor reg.name))

def validateProtocol (reg : ProtocolRegistration) : ComponentCheck :=
  warnIf (reg.supportedTransports = []) "No supported transports specified"
    (failIf (reg.protocolType = .unknown) "Protocol type must be specified"
      (validateName .protocol reg.name))

def validateTransport (reg : TransportRegistration) : ComponentCheck :=
  warnIf (reg.transportType = .unknown) "Transport type is Unknown"
    (validateName .transport reg.name)

def validateJob (reg : JobRegistration) : ComponentCheck :=
  warnIf (reg.jobType = "") "Job type is empty" (validateName .job reg.name)

def validateWorkflow (reg : Registration) : ComponentCheck := validateName .workflow reg.name
def validatePackage (reg : Registration) : ComponentCheck := validateName .package reg.name
def validateDiscovery (reg : Registration) : ComponentCheck := validateName .discovery reg.name
def validateCapability (reg : Registration) : ComponentCheck := validateName .capability reg.name

def validate : (k : ComponentKind) → k.Reg → ComponentCheck
  | .vendor, reg => validateVendor reg
  | .protocol, reg => validateProtocol reg
  | .transport, reg => validateTransport reg
  | .workflow, reg => validateWorkflow reg
  | .job, reg => validateJob reg
  | .package, reg => validatePackage reg
  | .discovery, reg => validateDiscovery reg
  | .capability, reg => validateCapability reg

end PluginValidator

/-! ## The SDK -/

structure SDKReport where
  valid : Bool := false
  errors : List String := []
  warnings : List String := []
  /-- `registeredVendors`, `registeredProtocols` and so on. -/
  registered : ComponentKind → List String := fun _ => []
  dependencyGraph : PluginDependencyGraph := {}

/-- The eight registries. -/
abbrev Components : Type := (k : ComponentKind) → List k.Reg

structure VendorSDK where
  components : Components := fun _ => []
  depGraph : PluginDependencyGraph := {}
  finalized : Bool := false
  report : SDKReport := {}

namespace VendorSDK

/-- `registerVendor`, `registerProtocol` and so on. -/
def register (k : ComponentKind) (reg : k.Reg) (s : VendorSDK) : VendorSDK :=
  { s with components := Function.update s.components k (s.components k ++ [reg]) }

/-- `registerVendors`, `registerProtocols` and so on. -/
def registerAll (k : ComponentKind) (regs : List k.Reg) (s : VendorSDK) : VendorSDK :=
  { s with components := Function.update s.components k (s.components k ++ regs) }

/-- One component of the loop of `validateRegistrations`. -/
def validateComponent (k : ComponentKind) (valid : Bool) (report : SDKReport) (reg : k.Reg) :
    Bool × SDKReport :=
  let vr := PluginValidator.validate k reg
  let context := k.label ++ " '" ++ (k.base reg).name ++ "': "
  (valid && vr.valid,
    { report with
      errors := report.errors ++ if vr.valid then [] else vr.errors.map (context ++ ·)
      warnings := report.warnings ++ vr.warnings.map (context ++ ·) })

def validateRegistrations (components : Components) (report : SDKReport) : Bool × SDKReport :=
  ComponentKind.all.foldl (fun acc k =>
    (components k).foldl (fun acc reg => validateComponent k acc.1 acc.2 reg) acc) (true, report)

def checkDups (k : ComponentKind) : List k.Reg → List String → Bool × SDKReport → Bool × SDKReport
  | [], _, acc => acc
  | reg :: regs, seen, acc =>
    let name := (k.base reg).name
    if name ∈ seen then
      checkDups k regs seen (false, { acc.2 with
        errors := acc.2.errors ++ ["Duplicate " ++ k.type ++ " registration: '" ++ name ++ "'"] })
    else checkDups k regs (name :: seen) acc

def checkDuplicateRegistrations (components : Components) (report : SDKReport) :
    Bool × SDKReport :=
  ComponentKind.all.foldl (fun acc k => checkDups k (components k) [] acc) (true, report)

def checkDependencies (_ : Components) (report : SDKReport) : Bool × SDKReport := (true, report)

def checkCompatibility (_ : Components) (report : SDKReport) : Bool × SDKReport := (true, report)

/-- `if (!check(m_report)) m_report.valid = false;` -/
def checked (check : SDKReport → Bool × SDKReport) (report : SDKReport) : SDKReport :=
  let checked := check report
  if checked.1 then checked.2 else { checked.2 with valid := false }

/-- The components with their kinds, in the order in which their nodes are added. -/
def nodesOf (components : Components) : List (ComponentKind × Registration) :=
  ComponentKind.all.flatMap fun k => (components k).map fun reg => (k, k.base reg)

def addNodes (components : Components) (g : PluginDependencyGraph) : PluginDependencyGraph :=
  (nodesOf components).foldl (fun g x => g.addRegistration x.1.type x.2) g

def finalize (walks : WalkOrders) (s : VendorSDK) : SDKReport × VendorSDK :=
  let report : SDKReport := { valid := true }
  let report := checked (validateRegistrations s.components) report
  let report := checked (checkDuplicateRegistrations s.components) report
  let report := checked (checkDependencies s.components) report
  let report := checked (checkCompatibility s.components) report
  let resolved := (addNodes s.components s.depGraph).resolve walks
  let report := { report with
    registered := fun k => report.registered k ++ (s.components k).map fun reg => (k.base reg).name
    dependencyGraph := resolved.2 }
  let report := if resolved.1.hasCircularDependencies then
      { report with
        valid := false
        errors := report.errors ++ resolved.1.cycles.map fun cycle =>
          "Circular dependency: " ++ String.intercalate " -> " cycle }
    else report
  (report, { s with depGraph := resolved.2, finalized := true, report })

/-- The dependency graph is left as it is. -/
def clear (s : VendorSDK) : VendorSDK :=
  { s with components := fun _ => [], report := {}, finalized := false }

end VendorSDK

inductive SDKCall where
  | register (k : ComponentKind) (reg : k.Reg)
  | registerAll (k : ComponentKind) (regs : List k.Reg)
  | finalize
  | clear

namespace VendorSDK

/-- Only `finalize` returns a report. -/
def step (walks : WalkOrders) : SDKCall → VendorSDK → Option SDKReport × VendorSDK
  | .register k reg, s => (none, s.register k reg)
  | .registerAll k regs, s => (none, s.registerAll k regs)
  | .finalize, s => (some (s.finalize walks).1, (s.finalize walks).2)
  | .clear, s => (none, s.clear)

/-- A new SDK after the calls. -/
def run (walks : WalkOrders) (calls : List SDKCall) : VendorSDK :=
  CallRun.final (step walks) calls {}

/-! ## What the graph gives -/

section Graph

variable {g g' : PluginDependencyGraph}

/-- The search looks up the nodes and nothing else. -/
theorem dfs_congr (h : ∀ id, g.nodes.lookup id = g'.nodes.lookup id) (fuel : Nat) (id : String)
    (search : PluginDependencyGraph.Search) : g.dfs fuel id search = g'.dfs fuel id search := by
  have hmem (id : String) : id ∈ g.nodes ↔ id ∈ g'.nodes := by
    rw [← AList.lookup_isSome, h, AList.lookup_isSome]
  have hdeps (id : String) : g.dependsOn id = g'.dependsOn id := by
    rw [PluginDependencyGraph.dependsOn, PluginDependencyGraph.dependsOn, h]
  induction fuel generalizing id search with
  | zero => rfl
  | succ fuel ih =>
    have hstep : (fun s dep => (g.dfs fuel dep s).2) = fun s dep => (g'.dfs fuel dep s).2 := by
      funext s dep
      rw [ih]
    rw [PluginDependencyGraph.dfs, PluginDependencyGraph.dfs, hstep, hdeps]
    simp only [hmem]

/-- Nodes that came in the same order are searched alike. -/
theorem searchAll_congr (walk : WalkOrder) (h : ∀ id, g.nodes.lookup id = g'.nodes.lookup id)
    (hkeys : g.nodes.keys = g'.nodes.keys) : g.searchAll walk = g'.searchAll walk := by
  simp only [PluginDependencyGraph.searchAll, hkeys, dfs_congr h]

theorem acyclic_congr (h : ∀ id, g.nodes.lookup id = g'.nodes.lookup id) :
    g.Acyclic ↔ g'.Acyclic := by
  have hmem (id : String) : id ∈ g.nodes ↔ id ∈ g'.nodes := by
    rw [← AList.lookup_isSome, h, AList.lookup_isSome]
  have hdepends : g.DependsOn = g'.DependsOn := by
    ext pkg dep
    rw [PluginDependencyGraph.DependsOn, PluginDependencyGraph.DependsOn,
      PluginDependencyGraph.dependsOn, PluginDependencyGraph.dependsOn, h, hmem]
  rw [PluginDependencyGraph.Acyclic, PluginDependencyGraph.Acyclic, hdepends]

/-- Without a cycle none is found, from wherever the search begins. -/
theorem searchAll_acyclic (walk : WalkOrder) (h : g.Acyclic) :
    (g.searchAll walk).hasCycle = false ∧ (g.searchAll walk).cycles = [] := by
  have hnone : (g.searchAll walk).hasCycle = false := by
    rw [← Bool.not_eq_true, PluginDependencyGraph.searchAll_hasCycle, not_not]
    exact h
  refine ⟨hnone, ?_⟩
  have hcycles := (PluginDependencyGraph.searchAll_searched (g := g) walk).searching.hasCycle
  by_contra hsome
  rw [hcycles.mpr hsome] at hnone
  cases hnone

end Graph

variable {walks : WalkOrders}

/-- The ids of the components' nodes. -/
def nodeIds (components : Components) : List String :=
  (nodesOf components).map fun x => x.1.type ++ ":" ++ x.2.name

/-- The ids in the order in which a new graph gets the nodes, the last one first. -/
def nodeOrder (components : Components) : List String := (nodeIds components).reverse.dedup

/-- A component as an entry of the graph. -/
def nodeEntry (x : ComponentKind × Registration) : String × GraphNode :=
  (x.1.type ++ ":" ++ x.2.name,
    { id := x.1.type ++ ":" ++ x.2.name
      type := x.1.type
      name := x.2.name
      version := x.2.version
      dependsOn := x.2.dependencies })

theorem addNodes_nodes (components : Components) (g : PluginDependencyGraph) :
    (addNodes components g).nodes
      = UnorderedMap.assignAll ((nodesOf components).map nodeEntry) g.nodes := by
  unfold addNodes
  generalize nodesOf components = xs
  induction xs generalizing g with
  | nil => rfl
  | cons x xs ih => exact ih (g.addRegistration x.1.type x.2)

theorem map_fst_nodeEntry (components : Components) :
    ((nodesOf components).map nodeEntry).map Prod.fst = nodeIds components := by
  rw [List.map_map]
  rfl

theorem mem_addNodes {components : Components} {g : PluginDependencyGraph} {id : String} :
    id ∈ (addNodes components g).nodes ↔ id ∈ nodeIds components ∨ id ∈ g.nodes := by
  rw [addNodes_nodes, UnorderedMap.mem_assignAll, map_fst_nodeEntry]

/-- The nodes are those of a new graph exactly if every old one is put in again. -/
theorem lookup_addNodes_iff (components : Components) (g : PluginDependencyGraph) :
    (∀ id, (addNodes components g).nodes.lookup id = (addNodes components {}).nodes.lookup id) ↔
      ∀ id ∈ g.nodes, id ∈ nodeIds components := by
  rw [addNodes_nodes, addNodes_nodes, ← map_fst_nodeEntry]
  exact UnorderedMap.lookup_assignAll_eq_iff _ _

/-- Old nodes that a new graph would get first, in their order, leave its order. -/
theorem keys_addNodes {components : Components} {g : PluginDependencyGraph}
    (h : g.nodes.keys <:+ nodeOrder components) :
    (addNodes components g).nodes.keys = (addNodes components {}).nodes.keys := by
  rw [addNodes_nodes, addNodes_nodes, UnorderedMap.keys_assignAll, UnorderedMap.keys_assignAll,
    map_fst_nodeEntry, UnorderedMap.union_eq_dedup h]
  exact (UnorderedMap.union_eq_dedup (List.nil_suffix ..)).symm

/-- Reports that no reader of their fields tells apart; a graph is read by the ids of its
nodes. -/
structure Same (report report' : SDKReport) : Prop where
  valid : report.valid = report'.valid
  errors : report.errors = report'.errors
  warnings : report.warnings = report'.warnings
  registered : report.registered = report'.registered
  nodes : ∀ id, report.dependencyGraph.nodes.lookup id = report'.dependencyGraph.nodes.lookup id
  hasCycle : report.dependencyGraph.hasCycle = report'.dependencyGraph.hasCycle
  cycles : report.dependencyGraph.cycles = report'.dependencyGraph.cycles

theorem finalize_nodes (s : VendorSDK) :
    (s.finalize walks).1.dependencyGraph.nodes = (addNodes s.components s.depGraph).nodes := by
  unfold finalize
  dsimp only
  split <;> rfl

/-- A report depends on the registries, the nodes and what the search finds. -/
theorem finalize_congr {s s' : VendorSDK} (hcomponents : s.components = s'.components)
    (hnodes : ∀ id, (addNodes s.components s.depGraph).nodes.lookup id
      = (addNodes s'.components s'.depGraph).nodes.lookup id)
    (hcycle : ((addNodes s.components s.depGraph).searchAll walks.nodes).hasCycle
      = ((addNodes s'.components s'.depGraph).searchAll walks.nodes).hasCycle)
    (hcycles : ((addNodes s.components s.depGraph).searchAll walks.nodes).cycles
      = ((addNodes s'.components s'.depGraph).searchAll walks.nodes).cycles) :
    Same (s.finalize walks).1 (s'.finalize walks).1 := by
  obtain ⟨components, graph, _, _⟩ := s
  obtain ⟨components', graph', _, _⟩ := s'
  obtain rfl : components = components' := hcomponents
  have hhas : ((addNodes components graph).resolve walks).1.hasCircularDependencies
      = ((addNodes components graph').resolve walks).1.hasCircularDependencies := hcycle
  have hwalks : ((addNodes components graph).resolve walks).1.cycles
      = ((addNodes components graph').resolve walks).1.cycles := hcycles
  unfold finalize
  dsimp only
  rw [hhas, hwalks]
  by_cases hcircular :
      ((addNodes components graph').resolve walks).1.hasCircularDependencies = true
  · simp only [if_pos hcircular]
    exact ⟨rfl, rfl, rfl, rfl, hnodes, hcycle, hcycles⟩
  · simp only [if_neg hcircular]
    exact ⟨rfl, rfl, rfl, rfl, hnodes, hcycle, hcycles⟩

/-- The dependencies of the components have no cycle, or the nodes in the graph are those
that a new graph gets first, in the same order. -/
def OrderKept (s : VendorSDK) : Prop :=
  (addNodes s.components {}).Acyclic ∨ s.depGraph.nodes.keys <:+ nodeOrder s.components

/-- The report is then a new SDK's exactly if every node of the graph is put in again. -/
theorem finalize_same_iff (walks : WalkOrders) {s : VendorSDK} (horder : OrderKept s) :
    Same (s.finalize walks).1 (({ components := s.components } : VendorSDK).finalize walks).1 ↔
      ∀ id ∈ s.depGraph.nodes, id ∈ nodeIds s.components := by
  rw [← lookup_addNodes_iff]
  constructor
  · intro h
    have hnodes := h.nodes
    simp only [finalize_nodes] at hnodes
    exact hnodes
  · intro h
    rcases horder with hacyclic | hkeys
    · obtain ⟨hcycle, hcycles⟩ := searchAll_acyclic walks.nodes hacyclic
      obtain ⟨hcycle', hcycles'⟩ :=
        searchAll_acyclic walks.nodes ((acyclic_congr h).mpr hacyclic)
      exact finalize_congr rfl h (hcycle'.trans hcycle.symm) (hcycles'.trans hcycles.symm)
    · have hsearch := searchAll_congr walks.nodes h (keys_addNodes hkeys)
      exact finalize_congr rfl h (congrArg PluginDependencyGraph.Search.hasCycle hsearch)
        (congrArg PluginDependencyGraph.Search.cycles hsearch)

/-! ## Runs -/

end VendorSDK

namespace SDKCall

/-- What a call does to the registries. -/
def components : SDKCall → Components → Components
  | .register k reg, c => Function.update c k (c k ++ [reg])
  | .registerAll k regs, c => Function.update c k (c k ++ regs)
  | .finalize, c => c
  | .clear, _ => fun _ => []

def isClear : SDKCall → Bool
  | .clear => true
  | _ => false

def registers : SDKCall → Bool
  | .register _ _ | .registerAll _ _ => true
  | _ => false

/-- The registrations since the last `clear`. -/
def sinceClear (calls : List SDKCall) : List SDKCall :=
  (calls.rtakeWhile fun c => !c.isClear).filter registers

/-- The components registered after the calls. -/
def registered (calls : List SDKCall) : Components :=
  calls.foldl (fun c call => call.components c) fun _ => []

theorem registered_concat (calls : List SDKCall) (c : SDKCall) :
    registered (calls ++ [c]) = c.components (registered calls) := List.foldl_concat ..

theorem registered_sinceClear (calls : List SDKCall) :
    registered (sinceClear calls) = registered calls := by
  induction calls using List.reverseRecOn with
  | nil => rfl
  | append_singleton calls c ih =>
    cases c with
    | register k reg | registerAll k reg =>
      rw [sinceClear, List.rtakeWhile_concat_pos _ _ _ rfl, List.filter_append, registered_concat,
        ← ih, ← sinceClear]
      exact registered_concat _ _
    | finalize =>
      rw [sinceClear, List.rtakeWhile_concat_pos _ _ _ rfl, List.filter_append, registered_concat,
        ← sinceClear]
      show registered (sinceClear calls ++ []) = _
      rw [List.append_nil]
      exact ih
    | clear =>
      rw [sinceClear, List.rtakeWhile_concat_neg _ _ _ (by simp [isClear]), registered_concat]
      rfl

end SDKCall

namespace VendorSDK

open SDKCall (registered sinceClear)

variable {walks : WalkOrders}

theorem run_concat (calls : List SDKCall) (c : SDKCall) :
    run walks (calls ++ [c]) = (step walks c (run walks calls)).2 :=
  CallRun.final_append calls [c] _

theorem run_components (walks : WalkOrders) (calls : List SDKCall) :
    (run walks calls).components = registered calls := by
  induction calls using List.reverseRecOn with
  | nil => rfl
  | append_singleton calls c ih =>
    rw [run_concat, SDKCall.registered_concat, ← ih]
    cases c <;> rfl

/-- The calls before a `finalize` of a longer run. -/
theorem exists_split_concat {calls : List SDKCall} {c : SDKCall} {P : List SDKCall → Prop} :
    (∃ earlier later, calls ++ [c] = earlier ++ .finalize :: later ∧ P earlier) ↔
      (∃ earlier later, calls = earlier ++ .finalize :: later ∧ P earlier) ∨
        c = .finalize ∧ P calls := by
  constructor
  · rintro ⟨earlier, later, h, hP⟩
    rcases List.eq_nil_or_concat later with rfl | ⟨later, last, rfl⟩
    · obtain ⟨rfl, hc⟩ := List.append_inj' h rfl
      exact .inr ⟨(List.cons.inj hc).1, hP⟩
    · rw [List.concat_eq_append, ← List.cons_append, ← List.append_assoc] at h
      obtain ⟨rfl, -⟩ := List.append_inj' h rfl
      exact .inl ⟨earlier, later, rfl, hP⟩
  · rintro (⟨earlier, later, rfl, hP⟩ | ⟨rfl, hP⟩)
    · exact ⟨earlier, later ++ [c], by simp, hP⟩
    · exact ⟨calls, [], rfl, hP⟩

/-- The graph holds what some `finalize` has seen. -/
theorem mem_run_depGraph {calls : List SDKCall} {id : String} :
    id ∈ (run walks calls).depGraph.nodes ↔
      ∃ earlier later, calls = earlier ++ .finalize :: later ∧
        id ∈ nodeIds (registered earlier) := by
  induction calls using List.reverseRecOn with
  | nil =>
    constructor
    · intro h
      cases AList.mem_keys.mp h
    · rintro ⟨earlier, later, h, -⟩
      simp at h
  | append_singleton calls c ih =>
    rw [exists_split_concat, ← ih, run_concat]
    cases c with
    | finalize =>
      have hnodes : id ∈ ((run walks calls).finalize walks).2.depGraph.nodes ↔
          id ∈ nodeIds (registered calls) ∨ id ∈ (run walks calls).depGraph.nodes := by
        rw [← run_components walks]
        exact mem_addNodes
      show id ∈ ((run walks calls).finalize walks).2.depGraph.nodes ↔ _
      rw [hnodes, or_comm]
      simp
    | register k reg => simp [step, register]
    | registerAll k regs => simp [step, registerAll]
    | clear => simp [step, clear]

/-- The reports of a run, each against a new SDK's for the registrations since the
last `clear`. -/
def RoundsApart (walks : WalkOrders) (calls : List SDKCall) : Prop :=
  ∀ earlier later, calls = earlier ++ .finalize :: later →
    Same ((run walks earlier).finalize walks).1 ((run walks (sinceClear earlier)).finalize walks).1

/-- At a `finalize`, every component that an earlier one has seen is registered, by
its kind and name. -/
def SeenAgain (calls : List SDKCall) : Prop :=
  ∀ earlier later, calls = earlier ++ .finalize :: later →
    ∀ before between, earlier = before ++ .finalize :: between →
      ∀ id ∈ nodeIds (registered before), id ∈ nodeIds (registered earlier)

/-- Only registrations, so the graph is still empty. -/
theorem run_sinceClear_depGraph (calls : List SDKCall) :
    (run walks (sinceClear calls)).depGraph = {} := by
  have hall : ∀ c ∈ sinceClear calls, c.registers = true := by
    intro c hc
    exact (List.mem_filter.mp hc).2
  revert hall
  generalize sinceClear calls = regs
  intro hall
  induction regs using List.reverseRecOn with
  | nil => rfl
  | append_singleton regs c ih =>
    have hc := hall c (by simp)
    rw [run_concat, ← ih (fun c' hc' => hall c' (List.mem_append_left _ hc'))]
    cases c with
    | register k reg | registerAll k reg => rfl
    | finalize | clear => cases hc

/-- Every `finalize` of a run finds the order kept. -/
def OrderKeeping (walks : WalkOrders) (calls : List SDKCall) : Prop :=
  ∀ earlier later, calls = earlier ++ .finalize :: later → OrderKept (run walks earlier)

def forwards : WalkOrder := ⟨id, List.Perm.refl⟩

/-- Two vendors that depend on each other, in two rounds. -/
def twoRounds : List SDKCall :=
  let registrations : List SDKCall :=
    [.register .vendor ({ name := "a", dependencies := ["vendor:b"] } : VendorRegistration),
      .register .vendor ({ name := "b", dependencies := ["vendor:a"] } : VendorRegistration)]
  registrations ++ [.finalize, .clear] ++ registrations ++ [.finalize]

theorem exists_take_of_split {calls earlier later : List SDKCall} {c : SDKCall}
    (h : calls = earlier ++ c :: later) :
    ∃ n, n < calls.length ∧ calls[n]? = some c ∧ earlier = calls.take n := by
  refine ⟨earlier.length, ?_, ?_, ?_⟩
  · rw [h, List.length_append, List.length_cons]
    omega
  · rw [h, List.getElem?_append_right (Nat.le_refl _), Nat.sub_self]
    rfl
  · rw [h, List.take_left]

theorem twoRounds_split {earlier later : List SDKCall}
    (h : twoRounds = earlier ++ .finalize :: later) :
    earlier = twoRounds.take 2 ∨ earlier = twoRounds.take 6 := by
  obtain ⟨n, hn, hcall, rfl⟩ := exists_take_of_split h
  have hn : n < 7 := hn
  interval_cases n <;> first | exact .inl rfl | exact .inr rfl | cases hcall

end VendorSDK

end MBootCore
