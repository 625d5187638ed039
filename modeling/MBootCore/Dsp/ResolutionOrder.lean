import MBootCore.Dsp.DependencyGraph
import MBootCore.Support.CallRun

/-!
# Dsp — ResolutionOrder

`resolve` sorts the packages along their dependencies, in the wrong
direction: a package with no dependents is placed first, and its dependencies
after it.
-/

namespace MBootCore

namespace DSPDependencyGraph

variable (g : DSPDependencyGraph)

/-- The package depends on a package that is in the graph. -/
def DependsOn (pkg dep : String) : Prop := dep ∈ g.presentDependencies pkg

def Acyclic : Prop := ∀ id, ¬ Relation.TransGen g.DependsOn id id

/-- Every package comes after all of its present dependencies. -/
def DependenciesFirst (order : List String) : Prop :=
  ∀ pkg dep, g.DependsOn pkg dep → ∀ pre post, order = pre ++ pkg :: post → dep ∈ pre

/-- What `resolve` is for. -/
def Resolves (walks : WalkOrders) : Prop :=
  g.Acyclic → (g.resolve walks).resolutionOrder.Perm g.nodes.keys ∧
    g.DependenciesFirst (g.resolve walks).resolutionOrder

variable {g}

theorem mem_of_dependsOn {pkg dep : String} (h : g.DependsOn pkg dep) :
    pkg ∈ g.nodes.keys ∧ dep ∈ g.nodes.keys := by
  rw [DependsOn, presentDependencies, List.mem_filter, dependencies] at h
  obtain ⟨hdep, hpresent⟩ := h
  refine ⟨?_, AList.mem_keys.mp (of_decide_eq_true hpresent)⟩
  cases hpkg : g.nodes.lookup pkg with
  | none => simp [hpkg] at hdep
  | some node =>
    have hsome : (g.nodes.lookup pkg).isSome = true := by rw [hpkg]; rfl
    exact AList.mem_keys.mp (AList.lookup_isSome.mp hsome)

/-- The graph the sort walks through. -/
def toFiniteGraph (g : DSPDependencyGraph) : FiniteGraph String where
  nodes := g.nodes.keys
  nodup := g.nodes.keys_nodup
  succs := g.presentDependencies
  closed _ _ _ h := (mem_of_dependsOn h).2

theorem toFiniteGraph_edge (pkg dep : String) :
    g.toFiniteGraph.Edge pkg dep ↔ g.DependsOn pkg dep :=
  ⟨fun h => h.2, fun h => ⟨(mem_of_dependsOn h).1, h⟩⟩

theorem toFiniteGraph_acyclic : g.toFiniteGraph.Acyclic ↔ g.Acyclic := by
  have hedges : g.toFiniteGraph.Edge = g.DependsOn := by
    ext pkg dep
    exact toFiniteGraph_edge pkg dep
  rw [FiniteGraph.Acyclic, hedges]
  rfl

/-- The order in which packages are counted makes no difference. -/
theorem inDegree_eq (walk : WalkOrder) :
    g.inDegree walk = Kahn.inDegrees g.presentDependencies g.nodes.keys := by
  ext id
  rw [inDegree, Kahn.inDegrees_eq, Kahn.inDegrees_eq,
    ((walk.perm g.nodes.keys).flatMap_right g.presentDependencies).count_eq]

/-- The packages `topoSort` queues first. -/
def firstQueued (g : DSPDependencyGraph) (walks : WalkOrders) : List String :=
  (walks.inDegree.arrange g.nodes.keys).filter fun id =>
    Kahn.inDegrees g.presentDependencies g.nodes.keys id = 0

theorem firstQueued_perm (walks : WalkOrders) :
    (g.firstQueued walks).Perm (g.toFiniteGraph.nodes.filter fun id =>
      Kahn.inDegrees g.toFiniteGraph.succs g.toFiniteGraph.nodes id = 0) :=
  (walks.inDegree.perm g.nodes.keys).filter _

theorem topoSort_resolutionOrder (walks : WalkOrders) :
    (g.topoSort walks).resolutionOrder = Kahn.sort g.toFiniteGraph (g.firstQueued walks) := by
  rw [topoSort, inDegree_eq]
  split <;> rfl

/-- The resolution order is that of Kahn's algorithm along the dependencies. -/
theorem resolve_resolutionOrder (walks : WalkOrders) :
    (g.resolve walks).resolutionOrder = Kahn.sort g.toFiniteGraph (g.firstQueued walks) := by
  rw [resolve]
  split
  · rename_i hempty
    have hqueue : g.firstQueued walks = [] := by
      have hwalk := walks.inDegree.perm g.nodes.keys
      rw [hempty, List.perm_nil] at hwalk
      rw [firstQueued, hempty, hwalk, List.filter_nil]
    rw [Kahn.sort, hqueue, show g.toFiniteGraph.nodes = [] from hempty]
    rfl
  · exact topoSort_resolutionOrder walks

/-- A package is placed before what it depends on. -/
theorem resolve_dependents_first {walks : WalkOrders} {pkg dep : String}
    (h : g.DependsOn pkg dep) {pre post : List String}
    (hsplit : (g.resolve walks).resolutionOrder = pre ++ dep :: post) : pkg ∈ pre := by
  rw [resolve_resolutionOrder] at hsplit
  exact Kahn.sort_before (firstQueued_perm walks) hsplit ((toFiniteGraph_edge pkg dep).mpr h)

theorem resolve_perm (walks : WalkOrders) (h : g.Acyclic) :
    (g.resolve walks).resolutionOrder.Perm g.nodes.keys := by
  rw [resolve_resolutionOrder]
  exact Kahn.sort_perm (toFiniteGraph_acyclic.mpr h) (firstQueued_perm walks)

/-- An order with the dependencies first is not one with the dependents first. -/
theorem not_dependenciesFirst {walks : WalkOrders} (hacyclic : g.Acyclic) {pkg dep : String}
    (h : g.DependsOn pkg dep) : ¬ g.DependenciesFirst (g.resolve walks).resolutionOrder := by
  intro hfirst
  have hperm := resolve_perm walks hacyclic
  have hnodup : (g.resolve walks).resolutionOrder.Nodup :=
    hperm.nodup_iff.mpr g.nodes.keys_nodup
  obtain ⟨pre, post, hpkg⟩ := List.append_of_mem (hperm.mem_iff.mpr (mem_of_dependsOn h).1)
  obtain ⟨before, between, rfl⟩ := List.append_of_mem (hfirst pkg dep h pre post hpkg)
  have hdep : (g.resolve walks).resolutionOrder
      = before ++ dep :: (between ++ pkg :: post) := by
    rw [hpkg, List.append_assoc, List.cons_append]
  have hagain : pkg ∈ before := resolve_dependents_first h hdep
  rw [hpkg] at hnodup
  exact (List.nodup_append.mp hnodup).2.2 pkg (List.mem_append_left _ hagain) pkg
    List.mem_cons_self rfl

/-- In every reachable graph `resolve` does what it is for exactly when the
dependencies have a cycle or no package has a present dependency. -/
theorem resolves_iff (calls : List DSPCall) (walks : WalkOrders) :
    (CallRun.final DSPCall.run calls {}).Resolves walks ↔
      ¬ (CallRun.final DSPCall.run calls {}).Acyclic ∨
        ∀ pkg dep, ¬ (CallRun.final DSPCall.run calls {}).DependsOn pkg dep := by
  generalize CallRun.final DSPCall.run calls {} = g
  constructor
  · intro hresolves
    by_cases hacyclic : g.Acyclic
    · right
      intro pkg dep hdep
      exact not_dependenciesFirst hacyclic hdep (hresolves hacyclic).2
    · exact .inl hacyclic
  · rintro (hcyclic | hnone) hacyclic
    · exact absurd hacyclic hcyclic
    · exact ⟨resolve_perm walks hacyclic, fun pkg dep h => absurd h (hnone pkg dep)⟩

def unchanged : WalkOrder := ⟨id, fun _ => .rfl⟩

def base : DSPPackageMetadata where
  manifest := { packageId := "base" }

def app : DSPPackageMetadata where
  manifest := { packageId := "app", dependencies := [{ packageId := "base" }] }

/-- The app is placed before the base package it depends on. -/
theorem app_before_base :
    ¬ ∀ (calls : List DSPCall) (walks : WalkOrders),
      (CallRun.final DSPCall.run calls {}).Resolves walks := by
  intro hall
  have hresolves := hall [.addPackage base, .addPackage app] ⟨unchanged, unchanged⟩
  generalize hg : CallRun.final DSPCall.run [.addPackage base, .addPackage app] {} = g
    at hresolves
  have hkeys : g.nodes.keys = ["app", "base"] := by rw [← hg]; rfl
  have happ : g.presentDependencies "app" = ["base"] := by rw [← hg]; decide
  have hbase : g.presentDependencies "base" = [] := by rw [← hg]; decide
  have hedge (pkg dep : String) (h : g.DependsOn pkg dep) : pkg = "app" ∧ dep = "base" := by
    have hpkg := (mem_of_dependsOn h).1
    rw [hkeys, List.mem_pair] at hpkg
    rcases hpkg with rfl | rfl
    · rw [DependsOn, happ, List.mem_singleton] at h
      exact ⟨rfl, h⟩
    · rw [DependsOn, hbase] at h
      cases h
  have hacyclic : g.Acyclic := by
    intro id hcycle
    obtain ⟨_, hfirst, -⟩ := Relation.TransGen.head'_iff.mp hcycle
    obtain ⟨_, -, hlast⟩ := Relation.TransGen.tail'_iff.mp hcycle
    exact absurd ((hedge _ _ hfirst).1.symm.trans (hedge _ _ hlast).2) (by decide)
  have hdep : g.DependsOn "app" "base" := by
    rw [DependsOn, happ]
    exact List.mem_singleton_self _
  exact not_dependenciesFirst hacyclic hdep (hresolves hacyclic).2

end DSPDependencyGraph

end MBootCore
