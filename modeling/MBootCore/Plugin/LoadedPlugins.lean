import MBootCore.Plugin.CycleSearch
import MBootCore.Support.CallRun
import Mathlib.Logic.Function.Basic

/-!
# Plugin — LoadedPlugins

What the calls do to the set of the loaded plugins: one is added when it is
`Loadable`, and `unload` and `reload` take one away; no other call changes it.
A plugin that would close a cycle is not loadable, whichever plugin the edge that
closes it belongs to, and so the loaded plugins never depend on each other in a
circle.
-/

namespace MBootCore

namespace PluginRegistry

variable {r : PluginRegistry}

def add (r : PluginRegistry) (metadata : PluginMetadata) : PluginRegistry :=
  Function.update r metadata.name (some metadata)

def remove (r : PluginRegistry) (name : String) : PluginRegistry := Function.update r name none

/-- The check of a dependency when its plugin is loaded. -/
structure Meets (r : PluginRegistry) (dep : PluginDependency) : Prop where
  present : r dep.pluginName = none → dep.optional = true
  version : ∀ target, r dep.pluginName = some target →
    dep.minVersion ≤ PluginManager.depVersion target ∧
      PluginManager.depVersion target ≤ dep.maxVersion

structure Loadable (r : PluginRegistry) (metadata : PluginMetadata) : Prop where
  fresh : r metadata.name = none
  compatible : PluginManager.isCompatible metadata = true
  safe : ¬ (r.add metadata).ReachesCycle metadata.name
  dependencies : ∀ dep ∈ metadata.dependencies, (r.add metadata).Meets dep

theorem dependsOn_of_add {metadata : PluginMetadata} {name other : String}
    (h : (r.add metadata).DependsOn name other) (hname : name ≠ metadata.name)
    (hother : other ≠ metadata.name) : r.DependsOn name other := by
  obtain ⟨found, hfound, dep, hdep, hdepName, hsome⟩ := h
  rw [add, Function.update_of_ne hname] at hfound
  rw [add, Function.update_of_ne hother] at hsome
  exact ⟨found, hfound, dep, hdep, hdepName, hsome⟩

theorem dependsOn_of_remove {removed name other : String}
    (h : (r.remove removed).DependsOn name other) : r.DependsOn name other := by
  obtain ⟨found, hfound, dep, hdep, hdepName, hsome⟩ := h
  have hkeeps : ∀ n md, r.remove removed n = some md → r n = some md := by
    intro n md hmd
    by_cases hn : n = removed
    · rw [remove, hn, Function.update_self] at hmd
      cases hmd
    · rwa [remove, Function.update_of_ne hn] at hmd
  obtain ⟨target, htarget⟩ := Option.isSome_iff_exists.mp hsome
  exact ⟨found, hkeeps name found hfound, dep, hdep, hdepName,
    by rw [hkeeps other target htarget]; rfl⟩

theorem Acyclic.remove (h : r.Acyclic) (name : String) : (r.remove name).Acyclic := by
  intro other hcycle
  exact h other (Relation.TransGen.mono (fun _ _ => dependsOn_of_remove) _ _ hcycle)

theorem Acyclic.add (h : r.Acyclic) {metadata : PluginMetadata} (hload : r.Loadable metadata) :
    (r.add metadata).Acyclic := by
  intro name hcycle
  have hreached : Relation.ReflTransGen (r.add metadata).DependsOn metadata.name name :=
    FiniteGraph.cycle_reached (fun _ _ => dependsOn_of_add) h hcycle
  exact hload.safe ⟨name, hreached, hcycle⟩

end PluginRegistry

namespace PluginManager

variable {τ : Type} {m : PluginManager τ} {host : PluginHost τ}

@[simp] theorem callPlugin_plugins (plugin : Plugin) (method : PluginMethod) :
    (callPlugin host plugin method m).2.plugins = m.plugins := rfl

@[simp] theorem unregisterPluginComponents_plugins (plugin : Plugin) :
    (unregisterPluginComponents host plugin m).2.plugins = m.plugins := rfl

@[simp] theorem registerPluginComponents_plugins (plugin : Plugin) :
    (registerPluginComponents host plugin m).2.plugins = m.plugins := rfl

theorem registry_congr {m m' : PluginManager τ} (h : m.plugins = m'.plugins) :
    m.registry = m'.registry := by
  unfold registry
  rw [h]

theorem registry_store (name : String) (inst : PluginInstance) :
    (m.store name inst).registry
      = Function.update m.registry name (some inst.plugin.metadata) := by
  funext other
  by_cases hother : other = name
  · subst hother
    simp [registry, store]
  · rw [Function.update_of_ne hother]
    simp [registry, store, AList.lookup_insert_ne hother]

@[simp] theorem registry_erase (name : String) :
    (m.erase name).registry = m.registry.remove name := by
  funext other
  by_cases hother : other = name
  · subst hother
    simp [registry, erase, PluginRegistry.remove]
  · rw [PluginRegistry.remove, Function.update_of_ne hother]
    simp [registry, erase, AList.lookup_erase_ne hother]

@[simp] theorem registry_setPluginState (name : String) (state : PluginState) :
    (m.setPluginState name state).registry = m.registry := by
  rw [setPluginState]
  cases hinst : m.plugins.lookup name with
  | none => rfl
  | some inst =>
    rw [registry_store]
    exact Function.update_eq_self_iff.mpr (registry_some.mpr ⟨inst, hinst, rfl⟩).symm

/-! ## Loading -/

theorem checkDependencies_ok {deps : List PluginDependency} :
    m.checkDependencies deps = .ok () ↔ ∀ dep ∈ deps, m.registry.Meets dep := by
  induction deps with
  | nil => simp [checkDependencies]
  | cons dep deps ih =>
    rw [List.forall_mem_cons, ← ih, checkDependencies]
    cases htarget : m.plugins.lookup dep.pluginName with
    | none =>
      have hnone : m.registry dep.pluginName = none := by simp [registry, htarget]
      have hmeets : m.registry.Meets dep ↔ dep.optional = true :=
        ⟨fun h => h.present hnone, fun h => ⟨fun _ => h, fun t ht => by simp [hnone] at ht⟩⟩
      cases hoptional : dep.optional <;> simp [hmeets, hoptional]
    | some target =>
      have hsome : m.registry dep.pluginName = some target.plugin.metadata := by
        simp [registry, htarget]
      have hmeets : m.registry.Meets dep ↔
          dep.minVersion ≤ depVersion target.plugin.metadata ∧
            depVersion target.plugin.metadata ≤ dep.maxVersion := by
        constructor
        · intro h
          exact h.version _ hsome
        · intro h
          refine ⟨fun hn => by simp [hsome] at hn, fun t ht => ?_⟩
          obtain rfl := Option.some.inj (hsome.symm.trans ht)
          exact h
      dsimp only
      rw [hmeets, ← UInt32.not_lt, ← UInt32.not_lt, ← not_or]
      split
      · rename_i hbad
        simp [hbad]
      · rename_i hgood
        simp [hgood]

theorem resolveDependenciesLocked_ok {name : String} {metadata : PluginMetadata}
    (h : m.registry name = some metadata) :
    m.resolveDependenciesLocked name = .ok () ↔
      ¬ m.registry.ReachesCycle name ∧ ∀ dep ∈ metadata.dependencies, m.registry.Meets dep := by
  obtain ⟨inst, hinst, rfl⟩ := registry_some.mp h
  obtain ⟨found, visited, houtcome, hfound⟩ :=
    hasCircularDependencyLocked_iff m name (Nat.le_refl m.searchFuel)
  rw [resolveDependenciesLocked, hinst]
  simp only [houtcome]
  cases found with
  | true => simpa using fun hsafe => absurd (hfound.mp rfl) hsafe
  | false =>
    have hsafe : ¬ m.registry.ReachesCycle name := fun h => by cases hfound.mpr h
    rw [checkDependencies_ok]
    exact (and_iff_right hsafe).symm

theorem erase_store {name : String} {inst : PluginInstance} (h : name ∉ m.plugins) :
    (m.store name inst).erase name = m := by
  have hplugins : (m.plugins.insert name inst).erase name = m.plugins := by
    apply AList.ext
    show List.kerase name (m.plugins.insert name inst).entries = m.plugins.entries
    rw [AList.entries_insert_of_notMem h]
    exact List.kerase_cons_eq rfl
  rw [erase, store, hplugins]

theorem setPluginState_store {name : String} {inst : PluginInstance} {state : PluginState} :
    (m.store name inst).setPluginState name state = m.store name { inst with state } := by
  have hinst : (m.store name inst).plugins.lookup name = some inst := AList.lookup_insert _
  rw [setPluginState, hinst]
  simp only [store, AList.insert_insert]

/-- A plugin is loaded if it can be, and else nothing happens. -/
theorem loadLocked_cases (plugin : Plugin) (config : PluginConfig) (m : PluginManager τ) :
    (m.registry.Loadable plugin.metadata ∧ loadLocked plugin config m
        = (.ok (), m.store plugin.metadata.name { plugin, config, state := .loaded })) ∨
      (¬ m.registry.Loadable plugin.metadata ∧
        ∃ e, loadLocked plugin config m = (.error e, m)) := by
  rw [loadLocked]
  by_cases hloaded : plugin.metadata.name ∈ m.plugins
  · refine .inr ⟨fun h => ?_, _, if_pos hloaded⟩
    have hsome := registry_isSome.mpr hloaded
    rw [h.fresh] at hsome
    cases hsome
  have hfresh : m.registry plugin.metadata.name = none := by
    simpa [← registry_isSome] using hloaded
  dsimp only
  rw [if_neg hloaded]
  by_cases hcompatible : isCompatible plugin.metadata = true
  swap
  · refine .inr ⟨fun h => hcompatible h.compatible, .pluginIncompatible, ?_⟩
    simp [hcompatible]
  have hstored : (m.store plugin.metadata.name { plugin, config }).registry
      = m.registry.add plugin.metadata := registry_store _ _
  have hname : (m.store plugin.metadata.name { plugin, config }).registry plugin.metadata.name
      = some plugin.metadata := by
    rw [hstored]
    exact Function.update_self ..
  have hresolve := resolveDependenciesLocked_ok hname
  rw [hstored] at hresolve
  simp only [hcompatible, Bool.not_true, Bool.false_eq_true, if_false]
  cases houtcome : (m.store plugin.metadata.name { plugin, config }).resolveDependenciesLocked
      plugin.metadata.name with
  | ok =>
    obtain ⟨hsafe, hdeps⟩ := hresolve.mp houtcome
    exact .inl ⟨⟨hfresh, hcompatible, hsafe, hdeps⟩, by simp [setPluginState_store]⟩
  | error e =>
    refine .inr ⟨fun h => ?_, e, by simp [erase_store hloaded]⟩
    rw [hresolve.mpr ⟨h.safe, h.dependencies⟩] at houtcome
    cases houtcome

/-! ## What a call does to the registry -/

theorem initializeLocked_registry (name : String) :
    (initializeLocked host name m).2.registry = m.registry := by
  rw [initializeLocked]
  cases hinst : m.plugins.lookup name with
  | none => rfl
  | some inst =>
    dsimp only
    split
    · rfl
    split
    · rfl
    split
    · rename_i hregister
      rw [registry_setPluginState]
      exact registry_congr (congrArg (·.2.plugins) hregister).symm
    · rename_i hregister
      have hregistered := congrArg (·.2.plugins) hregister
      split
      · rename_i hinit
        rw [registry_setPluginState]
        exact registry_congr ((congrArg (·.2.plugins) hinit).symm.trans hregistered.symm)
      · rename_i hinit
        have hplugins := (congrArg (·.2.plugins) hinit).symm.trans hregistered.symm
        dsimp only
        split
        · simp only [registry_setPluginState]
          exact registry_congr hplugins
        · rw [registry_setPluginState]
          exact registry_congr hplugins

theorem shutdownLocked_registry (name : String) :
    (shutdownLocked host name m).2.registry = m.registry := by
  rw [shutdownLocked]
  cases hinst : m.plugins.lookup name with
  | none => rfl
  | some inst =>
    dsimp only
    split_ifs
    · rfl
    split <;> rename_i hshutdown <;>
      · have hplugins := congrArg (·.2.plugins) hshutdown
        rw [registry_setPluginState]
        exact (registry_congr hplugins.symm).trans (registry_setPluginState name .disabled)

theorem setEnabled_registry (enabled : Bool) (state : PluginState) (name : String) :
    (setEnabled host enabled state name m).2.registry = m.registry := by
  rw [setEnabled]
  cases hinst : m.plugins.lookup name with
  | none => rfl
  | some inst =>
    have hstore (config : PluginConfig) :
        ((callPlugin host inst.plugin (.setEnabled enabled) m).2.store name
          { inst with config }).registry = m.registry := by
      rw [registry_store]
      exact Function.update_eq_self_iff.mpr (registry_some.mpr ⟨inst, hinst, rfl⟩).symm
    dsimp only
    split_ifs
    · rw [registry_setPluginState]
      exact hstore _
    · exact hstore _

/-- What the calls do to the registry `r`. -/
inductive Moves (r : PluginRegistry) : PluginCall → PluginRegistry → Prop
  | same (c : PluginCall) : Moves r c r
  | loaded (metadata : PluginMetadata) (config : PluginConfig) (h : r.Loadable metadata) :
    Moves r (.load (some metadata) config) (r.add metadata)
  | unloaded (name : String) : Moves r (.unload name) (r.remove name)
  | reloaded (name : String) (metadata : PluginMetadata) (hname : r name = some metadata)
    (h : (r.remove name).Loadable metadata) : Moves r (.reload name) ((r.remove name).add metadata)
  | lost (name : String) (metadata : PluginMetadata) (hname : r name = some metadata)
    (h : ¬ (r.remove name).Loadable metadata) : Moves r (.reload name) (r.remove name)

theorem load_moves (metadata : Option PluginMetadata) (config : PluginConfig) :
    Moves m.registry (.load metadata config) (load metadata config m).2.registry := by
  cases metadata with
  | none => exact .same _
  | some metadata =>
    rw [load]
    rcases loadLocked_cases { id := m.created, metadata } config
      { m with created := m.created + 1 } with ⟨h, hload⟩ | ⟨-, e, hload⟩
    · rw [hload, registry_store]
      exact .loaded metadata config h
    · rw [hload]
      exact .same _

theorem unload_moves (name : String) :
    Moves m.registry (.unload name) (unload host name m).2.registry := by
  rw [unload]
  cases hinst : m.plugins.lookup name with
  | none => exact .same _
  | some inst =>
    dsimp only
    have hstopped : (if inst.state.value ≥ PluginState.initialized.value then
        shutdownLocked host name m else (.ok (), m)).2.registry = m.registry := by
      split_ifs
      · exact shutdownLocked_registry name
      · rfl
    split
    · rename_i heq
      rw [← congrArg (·.2.registry) heq, hstopped]
      exact .same _
    · rename_i stopped heq
      have hregistry : stopped.registry = m.registry :=
        (congrArg (·.2.registry) heq).symm.trans hstopped
      split
      · rename_i hunregister
        rw [← registry_congr (congrArg (·.2.plugins) hunregister),
          registry_congr (unregisterPluginComponents_plugins _), hregistry]
        exact .same _
      · rename_i hunregister
        rw [registry_erase, ← registry_congr (congrArg (·.2.plugins) hunregister),
          registry_congr (unregisterPluginComponents_plugins _), hregistry]
        exact .unloaded name

theorem reload_moves (name : String) :
    Moves m.registry (.reload name) (reload host name m).2.registry := by
  rw [reload]
  cases hinst : m.plugins.lookup name with
  | none => exact .same _
  | some inst =>
    have hname : m.registry name = some inst.plugin.metadata := registry_some.mpr ⟨inst, hinst, rfl⟩
    have herased : ((unregisterPluginComponents host inst.plugin m).2.erase name).registry
        = m.registry.remove name := by
      rw [registry_erase, registry_congr (unregisterPluginComponents_plugins _)]
    dsimp only
    rcases loadLocked_cases inst.plugin inst.config
      ((unregisterPluginComponents host inst.plugin m).2.erase name) with ⟨h, hload⟩ | ⟨h, e, hload⟩
    · rw [herased] at h
      simp only [hload]
      rw [initializeLocked_registry, registry_store, herased]
      exact .reloaded name _ hname h
    · rw [herased] at h
      simp only [hload]
      rw [herased]
      exact .lost name _ hname h

end PluginManager

open PluginManager

variable {τ : Type} {host : PluginHost τ}

theorem PluginCall.run_moves (host : PluginHost τ) (c : PluginCall) (m : PluginManager τ) :
    Moves m.registry c (c.run host m).2.registry := by
  have hsame {m' : PluginManager τ} (h : m'.registry = m.registry) :
      Moves m.registry c m'.registry :=
    h ▸ .same c
  cases c with
  | load metadata config => exact load_moves metadata config
  | unload name => exact unload_moves name
  | reload name => exact reload_moves name
  | init name => exact hsame (initializeLocked_registry name)
  | shutdown name => exact hsame (shutdownLocked_registry name)
  | enable name => exact hsame (setEnabled_registry true .enabled name)
  | disable name => exact hsame (setEnabled_registry false .disabled name)

namespace PluginManager

theorem Moves.acyclic {r r' : PluginRegistry} {c : PluginCall} (h : Moves r c r')
    (hacyclic : r.Acyclic) : r'.Acyclic := by
  cases h with
  | same => exact hacyclic
  | loaded metadata config h => exact hacyclic.add h
  | unloaded name => exact hacyclic.remove name
  | reloaded name metadata hname h => exact (hacyclic.remove name).add h
  | lost name metadata hname h => exact hacyclic.remove name

/-- The manager before its first call. -/
def start (world : τ) : PluginManager τ where
  world := world

theorem start_acyclic (world : τ) : (start world).registry.Acyclic := by
  intro name hcycle
  obtain ⟨_, ⟨metadata, hsome, -⟩, -⟩ := Relation.TransGen.head'_iff.mp hcycle
  cases hsome

theorem final_acyclic (host : PluginHost τ) (world : τ) (calls : List PluginCall) :
    (CallRun.final (PluginCall.run host) calls (start world)).registry.Acyclic :=
  (CallRun.run_invariant (fun m : PluginManager τ => m.registry.Acyclic)
    (fun c _ m h => (c.run_moves host m).acyclic h) (start_acyclic world)).2

/-- The loaded plugins never depend on each other in a circle, and on every set of
plugins, with a circle or without, the search ends and tells whether one can be
reached. -/
theorem acyclic_and_detected (host : PluginHost τ) :
    (∀ world calls,
      (CallRun.final (PluginCall.run host) calls (start world)).registry.Acyclic) ∧
    ∀ (m : PluginManager τ) name more, ∃ found visited,
      m.hasCircularDependencyLocked (m.searchFuel + more) name [] = some (found, visited) ∧
        (found = true ↔ m.registry.ReachesCycle name) :=
  ⟨final_acyclic host, fun m name _ => hasCircularDependencyLocked_iff m name (Nat.le_add_right ..)⟩

/-! ## Plugins that never fail -/

def willing : PluginHost Unit := fun _ _ _ => (.ok (), ())

def basePlugin : PluginMetadata where
  name := "base"
  version := "2"

end PluginManager

end MBootCore
