import MBootCore.Plugin.PluginManager
import MBootCore.Support.DepthFirst

/-!
# Plugin — CycleSearch

What `hasCircularDependencyLocked` finds: it marks the plugins of the path it is
on, and takes the mark away again when it leaves a plugin without having found a
cycle. A marked plugin is therefore one from which the path leads to where the
search is, and a plugin met again closes a cycle.

The path repeats no plugin, which is why the recursion ends; that a plugin may
be searched many times over does not matter to that.
-/

namespace MBootCore

/-- The metadata of the loaded plugins, by their names. -/
abbrev PluginRegistry := String → Option PluginMetadata

namespace PluginRegistry

/-- A loaded plugin names another loaded one as a dependency, optional or not. -/
def DependsOn (r : PluginRegistry) (name other : String) : Prop :=
  ∃ metadata, r name = some metadata ∧
    ∃ dep ∈ metadata.dependencies, dep.pluginName = other ∧ (r other).isSome = true

def Acyclic (r : PluginRegistry) : Prop := ∀ name, ¬ Relation.TransGen r.DependsOn name name

/-- A cycle of the dependencies can be reached from the plugin. -/
def ReachesCycle (r : PluginRegistry) (name : String) : Prop :=
  ∃ other, Relation.ReflTransGen r.DependsOn name other ∧
    Relation.TransGen r.DependsOn other other

theorem reachesCycle_iff {r : PluginRegistry} {name : String} :
    r.ReachesCycle name ↔ ∃ other, r.DependsOn name other ∧ r.ReachesCycle other :=
  FiniteGraph.reaches_cycle_iff

end PluginRegistry

namespace PluginManager

open DepthFirst

variable {τ : Type} {m : PluginManager τ}

def registry (m : PluginManager τ) : PluginRegistry :=
  fun name => (m.plugins.lookup name).map fun inst => inst.plugin.metadata

theorem registry_some {name : String} {metadata : PluginMetadata} :
    m.registry name = some metadata ↔
      ∃ inst, m.plugins.lookup name = some inst ∧ inst.plugin.metadata = metadata := by
  simp [registry]

theorem registry_isSome {name : String} : (m.registry name).isSome = true ↔ name ∈ m.plugins := by
  simp [registry, AList.lookup_isSome]

/-- The graph the search walks through. -/
def graph (m : PluginManager τ) : FiniteGraph String where
  nodes := m.plugins.keys
  nodup := m.plugins.keys_nodup
  succs name := match m.plugins.lookup name with
    | none => []
    | some inst =>
      (inst.plugin.metadata.dependencies.map (·.pluginName)).filter (· ∈ m.plugins)
  closed name _ other h := by
    split at h
    · cases h
    · exact AList.mem_keys.mp (of_decide_eq_true (List.mem_filter.mp h).2)

/-- What one call of the search finds, if it leaves the marks in place. -/
def Finds (outcome : Option (Bool × List String)) (visited : List String) (P : Prop) : Prop :=
  ∃ found visited', outcome = some (found, visited') ∧ (found = true ↔ P) ∧
    (found = false → visited' = visited)

theorem Finds.congr {outcome : Option (Bool × List String)} {visited : List String} {P Q : Prop}
    (h : Finds outcome visited P) (hiff : P ↔ Q) : Finds outcome visited Q := by
  obtain ⟨found, visited', houtcome, hfound, hvisited⟩ := h
  exact ⟨found, visited', houtcome, hfound.trans hiff, hvisited⟩

theorem searchDependencies_finds {visit : String → List String → Option (Bool × List String)}
    {visited : List String} {P : String → Prop} {deps : List PluginDependency}
    (hvisit : ∀ dep ∈ deps, dep.pluginName ∈ m.plugins →
      Finds (visit dep.pluginName visited) visited (P dep.pluginName)) :
    Finds (m.searchDependencies visit deps visited) visited
      (∃ dep ∈ deps, dep.pluginName ∈ m.plugins ∧ P dep.pluginName) := by
  induction deps with
  | nil => exact ⟨false, visited, rfl, by simp, fun _ => rfl⟩
  | cons dep deps ih =>
    have hrest := ih fun d hd => hvisit d (List.mem_cons_of_mem _ hd)
    rw [searchDependencies]
    by_cases hloaded : dep.pluginName ∈ m.plugins
    · rw [if_pos hloaded]
      obtain ⟨found, visited', hfirst, hfound, hvisited⟩ :=
        hvisit dep List.mem_cons_self hloaded
      cases found with
      | true =>
        rw [hfirst]
        refine ⟨true, visited', rfl, ?_, fun h => by cases h⟩
        simp only [true_iff]
        exact ⟨dep, List.mem_cons_self, hloaded, hfound.mp rfl⟩
      | false =>
        obtain rfl : visited' = visited := hvisited rfl
        have hnone : ¬ P dep.pluginName := fun h => by cases hfound.mpr h
        rw [hfirst]
        apply hrest.congr
        simp [hnone]
    · rw [if_neg hloaded]
      apply hrest.congr
      simp [hloaded]

/-- By induction on the fuel. The marks lead to where the search is, and each call
that is open has marked one plugin more. -/
theorem hasCircularDependencyLocked_finds {fuel : Nat} {name : String} {visited : List String}
    (hname : name ∈ m.plugins)
    (hvisited : ∀ other ∈ visited, Relation.TransGen m.registry.DependsOn other name)
    (hfuel : unvisited m.graph visited < fuel) :
    Finds (m.hasCircularDependencyLocked fuel name visited) visited
      (m.registry.ReachesCycle name) := by
  induction fuel generalizing name visited with
  | zero => omega
  | succ fuel ih =>
    rw [hasCircularDependencyLocked]
    by_cases hmarked : name ∈ visited
    · rw [if_pos hmarked]
      refine ⟨true, visited, rfl, ?_, fun h => by cases h⟩
      simp only [true_iff]
      exact ⟨name, .refl, hvisited name hmarked⟩
    · rw [if_neg hmarked]
      obtain ⟨inst, hinst⟩ := Option.isSome_iff_exists.mp (AList.lookup_isSome.mpr hname)
      have hmetadata : m.registry name = some inst.plugin.metadata :=
        registry_some.mpr ⟨inst, hinst, rfl⟩
      have hedge : ∀ dep ∈ inst.plugin.metadata.dependencies, dep.pluginName ∈ m.plugins →
          m.registry.DependsOn name dep.pluginName := fun dep hdep hloaded =>
        ⟨_, hmetadata, dep, hdep, rfl, registry_isSome.mpr hloaded⟩
      have hless := unvisited_cons (g := m.graph) (AList.mem_keys.mp hname) hmarked
      have hreaches : (∃ dep ∈ inst.plugin.metadata.dependencies, dep.pluginName ∈ m.plugins ∧
          m.registry.ReachesCycle dep.pluginName) ↔ m.registry.ReachesCycle name := by
        rw [PluginRegistry.reachesCycle_iff]
        constructor
        · rintro ⟨dep, hdep, hloaded, hcycle⟩
          exact ⟨_, hedge dep hdep hloaded, hcycle⟩
        · rintro ⟨_, ⟨metadata, hsome, dep, hdep, rfl, hloaded⟩, hcycle⟩
          obtain rfl := Option.some.inj (hmetadata.symm.trans hsome)
          exact ⟨dep, hdep, registry_isSome.mp hloaded, hcycle⟩
      have hsearch : Finds (m.searchDependencies (m.hasCircularDependencyLocked fuel)
          inst.plugin.metadata.dependencies (name :: visited)) (name :: visited)
          (m.registry.ReachesCycle name) := by
        apply (searchDependencies_finds ?_).congr hreaches
        intro dep hdep hloaded
        apply ih hloaded
        · intro other hother
          rcases List.mem_cons.mp hother with rfl | hother
          · exact .single (hedge dep hdep hloaded)
          · exact (hvisited other hother).tail (hedge dep hdep hloaded)
        · omega
      obtain ⟨found, visited', houtcome, hfound, hvisited'⟩ := hsearch
      simp only [hinst, houtcome]
      cases found with
      | true => exact ⟨true, visited', rfl, hfound, fun h => by cases h⟩
      | false =>
        refine ⟨false, visited'.erase name, rfl, hfound, fun _ => ?_⟩
        rw [hvisited' rfl, List.erase_cons_head]

/-- The search from an empty set of marks ends, and tells whether a cycle can be
reached. -/
theorem hasCircularDependencyLocked_iff (m : PluginManager τ) (name : String) {fuel : Nat}
    (hfuel : m.searchFuel ≤ fuel) :
    ∃ found visited, m.hasCircularDependencyLocked fuel name [] = some (found, visited) ∧
      (found = true ↔ m.registry.ReachesCycle name) := by
  by_cases hname : name ∈ m.plugins
  · have hunvisited : unvisited m.graph [] < fuel := by
      have hle : unvisited m.graph [] ≤ m.plugins.keys.length := List.length_filter_le _ _
      rw [searchFuel] at hfuel
      omega
    obtain ⟨found, visited, houtcome, hfound, -⟩ :=
      hasCircularDependencyLocked_finds hname (by simp) hunvisited
    exact ⟨found, visited, houtcome, hfound⟩
  · -- a plugin that is not loaded has no dependencies
    obtain ⟨fuel, rfl⟩ : ∃ n, fuel = n + 1 := ⟨fuel - 1, by rw [searchFuel] at hfuel; omega⟩
    have hnone : m.plugins.lookup name = none := AList.lookup_eq_none.mpr hname
    refine ⟨false, [name], by simp [hasCircularDependencyLocked, hnone], ?_⟩
    simp only [Bool.false_eq_true, false_iff]
    intro hcycle
    obtain ⟨_, ⟨metadata, hsome, -⟩, -⟩ := PluginRegistry.reachesCycle_iff.mp hcycle
    rw [registry, hnone] at hsome
    cases hsome

end PluginManager

end MBootCore
