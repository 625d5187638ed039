import MBootCore.Sdk.PluginCycles
import Mathlib

/-!
# Sdk — PluginResolution

What `resolve` reports of the plugins that were added: the cycles of their
dependencies, without one an order with the dependencies first, and the
dependencies that nobody added.
-/

namespace MBootCore.PluginDependencyGraph

variable {g : PluginDependencyGraph}

/-! ## The graph of the dependents -/

theorem mem_dependents {walk : WalkOrder} {dep pkg : String} :
    pkg ∈ g.dependents walk dep ↔ pkg ∈ g.nodes.keys ∧ dep ∈ g.dependsOn pkg := by
  simp only [dependents, List.mem_flatMap, List.mem_map, List.mem_filter, decide_eq_true_eq,
    (walk.perm _).mem_iff]
  constructor
  · rintro ⟨pkg, hpkg, dep, ⟨hdep, rfl⟩, rfl⟩
    exact ⟨hpkg, hdep⟩
  · rintro ⟨hpkg, hdep⟩
    exact ⟨pkg, hpkg, dep, ⟨hdep, rfl⟩, rfl⟩

theorem nodes_nodup (g : PluginDependencyGraph) : g.nodes.keys.Nodup := g.nodes.keys_nodup

/-- The graph the order is made along: an edge leads to a dependent. -/
def dependentsGraph (g : PluginDependencyGraph) (walk : WalkOrder) : FiniteGraph String where
  nodes := g.nodes.keys
  nodup := nodes_nodup g
  succs := g.dependents walk
  closed _ _ _ h := (mem_dependents.mp h).1

theorem dependentsGraph_edge (walk : WalkOrder) (dep pkg : String) :
    (g.dependentsGraph walk).Edge dep pkg ↔ g.DependsOn pkg dep := by
  have hsuccs : pkg ∈ (g.dependentsGraph walk).succs dep ↔ _ := mem_dependents
  rw [FiniteGraph.Edge, hsuccs]
  constructor
  · rintro ⟨hdep, -, hlisted⟩
    exact ⟨hlisted, AList.mem_keys.mpr hdep⟩
  · intro h
    exact ⟨(mem_of_dependsOn h).2, (mem_of_dependsOn h).1, h.1⟩

theorem dependentsGraph_acyclic (walk : WalkOrder) (h : g.Acyclic) :
    (g.dependentsGraph walk).Acyclic := by
  have hedges : (g.dependentsGraph walk).Edge = Function.swap g.DependsOn := by
    ext dep pkg
    exact dependentsGraph_edge walk dep pkg
  intro id hcycle
  rw [hedges, Relation.transGen_swap] at hcycle
  exact h id hcycle

/-! ## In-degrees -/

theorem flatMap_comm {α β γ : Type} (l : List α) (m : List β) (f : α → β → List γ) :
    (l.flatMap fun a => m.flatMap fun b => f a b).Perm
      (m.flatMap fun b => l.flatMap fun a => f a b) := by
  rw [← Multiset.coe_eq_coe]
  simp only [← Multiset.coe_bind]
  exact Multiset.bind_bind _ _

/-- The members of `l` that are keys, sorted by key. -/
theorem flatMap_filter_perm {keys : List String} (hkeys : keys.Nodup) (l : List String) :
    (keys.flatMap fun id => l.filter (· = id)).Perm (l.filter (· ∈ keys)) := by
  induction keys with
  | nil => simp
  | cons id keys ih =>
    obtain ⟨hid, hkeys⟩ := List.nodup_cons.mp hkeys
    have hfirst : (l.filter (· ∈ id :: keys)).filter (· = id) = l.filter (· = id) := by
      rw [List.filter_filter]
      refine List.filter_congr fun dep _ => ?_
      by_cases h : dep = id <;> simp [h]
    have hrest : (l.filter (· ∈ id :: keys)).filter (fun dep => !decide (dep = id))
        = l.filter (· ∈ keys) := by
      rw [List.filter_filter]
      refine List.filter_congr fun dep _ => ?_
      by_cases h : dep = id
      · simp [h, hid]
      · simp [h]
    have hsplit := List.filter_append_perm (fun dep => decide (dep = id))
      (l.filter (· ∈ id :: keys))
    rw [hfirst, hrest] at hsplit
    rw [List.flatMap_cons]
    exact ((ih hkeys).append_left _).trans hsplit

/-- Counting the dependencies of each plugin counts the edges to it. -/
theorem dependents_perm (walk : WalkOrder) :
    (g.nodes.keys.flatMap (g.dependents walk)).Perm
      ((walk.arrange g.nodes.keys).flatMap g.incoming) := by
  refine (flatMap_comm _ _ _).trans (List.Perm.flatMap_left _ fun pkg _ => ?_)
  have hpresent : (g.dependsOn pkg).filter (· ∈ g.nodes)
      = (g.dependsOn pkg).filter (· ∈ g.nodes.keys) :=
    List.filter_congr fun dep _ => decide_eq_decide.mpr AList.mem_keys
  rw [← List.map_flatMap, incoming, hpresent]
  exact (flatMap_filter_perm g.nodes.keys_nodup (g.dependsOn pkg)).map _

theorem inDegree_eq (walk : WalkOrder) :
    g.inDegree walk = Kahn.inDegrees (g.dependentsGraph walk).succs g.nodes.keys := by
  ext id
  rw [inDegree, Kahn.foldl_countEdge, zero_add, Kahn.inDegrees_eq]
  exact congrArg _ ((dependents_perm walk).count_eq id).symm

/-! ## The order -/

/-- The guard on the in-degree never holds a plugin back. -/
theorem foldl_release {G : FiniteGraph String} {rest : List String} {s : Kahn.State String}
    (h : Kahn.Inv G rest s) (hrest : ∀ id ∈ rest, id ∈ G.nodes) :
    rest.foldl release s = rest.foldl Kahn.release s := by
  induction rest generalizing s with
  | nil => rfl
  | cons id rest ih =>
    rw [List.foldl_cons, List.foldl_cons, release, if_pos h.degree_pos]
    exact ih (h.release (hrest id List.mem_cons_self))
      fun other hother => hrest other (List.mem_cons_of_mem _ hother)

theorem loop_inv (walk : WalkOrder) (fuel : Nat) {s : Kahn.State String}
    (h : Kahn.Inv (g.dependentsGraph walk) [] s)
    (hfuel : g.nodes.keys.length ≤ s.order.length + fuel) :
    Kahn.Inv (g.dependentsGraph walk) [] (g.loop walk fuel s) ∧
      (g.loop walk fuel s).queue = [] := by
  induction fuel generalizing s with
  | zero => exact ⟨h, h.queue_eq_nil hfuel⟩
  | succ fuel ih =>
    rw [loop]
    cases hlast : s.queue.getLast? with
    | none => exact ⟨h, List.getLast?_eq_none_iff.mp hlast⟩
    | some id =>
      have hqueue : s.queue = s.queue.dropLast ++ [id] :=
        (List.dropLast_append_getLast? id hlast).symm
      have hid : id ∈ g.nodes.keys :=
        h.subset (List.mem_append_right _ (List.mem_of_getLast? hlast))
      have hperm : s.queue.Perm (id :: s.queue.dropLast) :=
        (List.Perm.of_eq hqueue).trans List.perm_append_comm
      have hplaced := h.place hperm
      have hclosed := (g.dependentsGraph walk).closed id hid
      have hreleased := foldl_release hplaced hclosed
      have hfold : (g.dependents walk id).foldl release _ = _ := hreleased
      simp only [hfold]
      refine ih (hplaced.releases hclosed) ?_
      rw [Kahn.foldl_release_order, List.length_append, List.length_singleton]
      omega

theorem sorted_inv (walks : WalkOrders) :
    ∃ s, Kahn.Inv (g.dependentsGraph walks.nodes) [] s ∧ s.queue = [] ∧
      g.sorted walks = s.order := by
  have hstart : Kahn.Inv (g.dependentsGraph walks.nodes) [] ⟨g.inDegree walks.nodes,
      (walks.inDegree.arrange g.nodes.keys).filter fun id => g.inDegree walks.nodes id = 0,
      []⟩ := by
    rw [inDegree_eq]
    exact Kahn.Inv.start ((walks.inDegree.perm g.nodes.keys).filter _)
  obtain ⟨hinv, hqueue⟩ := loop_inv walks.nodes g.nodes.keys.length hstart (by simp)
  exact ⟨_, hinv, hqueue, rfl⟩

theorem sorted_perm (h : g.Acyclic) (walks : WalkOrders) :
    (g.sorted walks).Perm g.nodes.keys := by
  obtain ⟨s, hinv, hqueue, horder⟩ := sorted_inv (g := g) walks
  exact horder ▸ hinv.order_perm hqueue (dependentsGraph_acyclic walks.nodes h)

/-- A plugin comes after what it depends on. -/
theorem sorted_before {walks : WalkOrders} {pkg dep : String} (h : g.DependsOn pkg dep)
    {pre post : List String} (hsplit : g.sorted walks = pre ++ pkg :: post) : dep ∈ pre := by
  obtain ⟨s, hinv, -, horder⟩ := sorted_inv (g := g) walks
  exact hinv.before pre pkg post (horder.symm.trans hsplit) dep
    ((dependentsGraph_edge walks.nodes dep pkg).mpr h)

end MBootCore.PluginDependencyGraph

namespace MBootCore

/-! ## The plugins -/

namespace PluginAdd

def id : PluginAdd → String
  | node id _ _ _ _ => id
  | vendor reg => "vendor:" ++ reg.name
  | protocol reg => "protocol:" ++ reg.name
  | transport reg => "transport:" ++ reg.name
  | workflow reg => "workflow:" ++ reg.name
  | job reg => "job:" ++ reg.name
  | package reg => "package:" ++ reg.name
  | discovery reg => "discovery:" ++ reg.name
  | capability reg => "capability:" ++ reg.name

def dependencies : PluginAdd → List String
  | node _ _ _ _ dependencies => dependencies
  | vendor reg | protocol reg | transport reg | workflow reg | job reg | package reg
  | discovery reg | capability reg => reg.dependencies

theorem run_nodes (add : PluginAdd) (g : PluginDependencyGraph) :
    ∃ node, node.dependsOn = add.dependencies ∧
      (add.run g).nodes = UnorderedMap.assign g.nodes add.id node := by
  cases add <;> exact ⟨_, rfl, rfl⟩

end PluginAdd

/-- The dependencies of each plugin, as it was added last. -/
def registry (adds : List PluginAdd) (id : String) : Option (List String) :=
  (adds.reverse.find? fun add => add.id = id).map PluginAdd.dependencies

/-- The plugin was added with `dep` among its dependencies, and so was `dep`. -/
def Depends (adds : List PluginAdd) (pkg dep : String) : Prop :=
  (∃ deps, registry adds pkg = some deps ∧ dep ∈ deps) ∧ (registry adds dep).isSome = true

def Circular (adds : List PluginAdd) : Prop := ∃ id, Relation.TransGen (Depends adds) id id

/-- What the report says is so. -/
structure ResolvedPlugins (adds : List PluginAdd) (report : DependencyGraphReport) : Prop where
  circular : report.hasCircularDependencies = true ↔ Circular adds
  permutation : ¬ Circular adds → report.resolvedOrder.Perm (adds.map PluginAdd.id).dedup
  dependenciesFirst : ¬ Circular adds → ∀ pkg dep, Depends adds pkg dep →
    ∀ pre post, report.resolvedOrder = pre ++ pkg :: post → dep ∈ pre
  unresolved : ∀ dep, dep ∈ report.unresolvedDependencies ↔
    (∃ pkg deps, registry adds pkg = some deps ∧ dep ∈ deps) ∧ registry adds dep = none

namespace PluginDependencyGraph

theorem lookup_added (adds : List PluginAdd) (id : String) :
    ((added adds).nodes.lookup id).map GraphNode.dependsOn = registry adds id := by
  induction adds using List.reverseRecOn with
  | nil => rfl
  | append_singleton adds add ih =>
    obtain ⟨node, hdeps, hnodes⟩ := add.run_nodes (added adds)
    have hadded : (added (adds ++ [add])).nodes
        = UnorderedMap.assign (added adds).nodes add.id node := by
      rw [added, List.foldl_append]
      exact hnodes
    rw [hadded, UnorderedMap.lookup_assign, registry, List.reverse_append,
      List.reverse_singleton, List.singleton_append, List.find?_cons]
    by_cases hid : add.id = id
    · subst hid
      simp [hdeps]
    · rw [if_neg (Ne.symm hid), ih]
      simp [hid, registry]

theorem mem_dependsOn_added {adds : List PluginAdd} {pkg dep : String} :
    dep ∈ (added adds).dependsOn pkg ↔ ∃ deps, registry adds pkg = some deps ∧ dep ∈ deps := by
  rw [← lookup_added, dependsOn]
  cases (added adds).nodes.lookup pkg with
  | none => simp
  | some node => simp

theorem mem_nodes_added {adds : List PluginAdd} {id : String} :
    id ∈ (added adds).nodes ↔ (registry adds id).isSome = true := by
  rw [← lookup_added, Option.isSome_map, AList.lookup_isSome]

theorem dependsOn_added (adds : List PluginAdd) : (added adds).DependsOn = Depends adds := by
  ext pkg dep
  rw [DependsOn, mem_dependsOn_added, mem_nodes_added, Depends]

theorem acyclic_added (adds : List PluginAdd) : (added adds).Acyclic ↔ ¬ Circular adds := by
  rw [Acyclic, dependsOn_added, Circular, not_exists]

theorem keys_added (adds : List PluginAdd) :
    (added adds).nodes.keys.Perm (adds.map PluginAdd.id).dedup := by
  refine (List.perm_ext_iff_of_nodup (added adds).nodes.keys_nodup (List.nodup_dedup _)).mpr ?_
  intro id
  rw [← AList.mem_keys, mem_nodes_added, registry, Option.isSome_map, List.find?_isSome,
    List.mem_dedup, List.mem_map]
  simp

/-- Whatever was added, in whatever order and however often, the report is
right. -/
theorem resolve_resolvedPlugins (adds : List PluginAdd) (walks : WalkOrders) :
    ResolvedPlugins adds ((added adds).resolve walks).1 := by
  have hcircular : ((added adds).searchAll walks.nodes).hasCycle = true ↔ Circular adds := by
    rw [searchAll_hasCycle, acyclic_added, not_not]
  have horder (h : ¬ Circular adds) :
      ((added adds).resolve walks).1.resolvedOrder = (added adds).sorted walks := by
    simp [resolve, mt hcircular.mp h]
  refine ⟨hcircular, fun h => ?_, fun h pkg dep hdep pre post hsplit => ?_, fun dep => ?_⟩
  · rw [horder h]
    exact (sorted_perm ((acyclic_added adds).mpr h) walks).trans (keys_added adds)
  · rw [horder h] at hsplit
    rw [← dependsOn_added] at hdep
    exact sorted_before hdep hsplit
  · have hnone : registry adds dep = none ↔ dep ∉ (added adds).nodes := by
      rw [mem_nodes_added, Option.not_isSome_iff_eq_none]
    simp only [resolve, List.mem_flatMap, List.mem_filter, decide_eq_true_eq, ← hnone,
      mem_dependsOn_added]
    constructor
    · rintro ⟨pkg, -, hdep, hmissing⟩
      exact ⟨⟨pkg, hdep⟩, hmissing⟩
    · rintro ⟨⟨pkg, deps, hpkg, hdep⟩, hmissing⟩
      refine ⟨pkg, ?_, ⟨deps, hpkg, hdep⟩, hmissing⟩
      rw [(walks.nodes.perm _).mem_iff, ← AList.mem_keys, mem_nodes_added, hpkg]
      rfl

end PluginDependencyGraph

end MBootCore
