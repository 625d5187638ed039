import MBootCore.Plugin.LoadedPlugins

/-!
# Plugin — DependencyClosure

A plugin is loaded on plugins that are there and in range. `load` keeps it so;
`unload` and `reload` do not look for the plugins that require the one they take
away, where the sibling `DSPManager::uninstall` does, and a version that is no
number is compared as version 1.
-/

namespace MBootCore

namespace PluginRegistry

open PluginManager

variable {r : PluginRegistry} {name : String} {metadata : PluginMetadata}

/-- The version of a plugin is a number in the range of the dependency. -/
def InRange (target : PluginMetadata) (dep : PluginDependency) : Prop :=
  ∃ version, SafeParser.fromCharsUint32 target.version.toList = some version ∧
    dep.minVersion ≤ version ∧ version ≤ dep.maxVersion

/-- Every loaded plugin finds the plugins it requires, in the versions it requires. -/
def Closed (r : PluginRegistry) : Prop :=
  ∀ name metadata, r name = some metadata → ∀ dep ∈ metadata.dependencies, dep.optional = false →
    ∃ target, r dep.pluginName = some target ∧ InRange target dep

/-- The version is a number, or the one it is taken for is out of range. -/
def Plain (target : PluginMetadata) (dep : PluginDependency) : Prop :=
  (SafeParser.fromCharsUint32 target.version.toList).isSome = true ∨
    ¬ (dep.minVersion ≤ 1 ∧ 1 ≤ dep.maxVersion)

theorem depVersion_of_inRange {target : PluginMetadata} {dep : PluginDependency}
    (h : InRange target dep) :
    dep.minVersion ≤ depVersion target ∧ depVersion target ≤ dep.maxVersion := by
  obtain ⟨version, hversion, hrange⟩ := h
  rw [depVersion, hversion]
  exact hrange

theorem inRange_of_plain {target : PluginMetadata} {dep : PluginDependency}
    (hplain : Plain target dep)
    (h : dep.minVersion ≤ depVersion target ∧ depVersion target ≤ dep.maxVersion) :
    InRange target dep := by
  rw [depVersion] at h
  cases hversion : SafeParser.fromCharsUint32 target.version.toList with
  | none =>
    rw [hversion] at h
    rw [Plain, hversion] at hplain
    exact absurd h (hplain.resolve_left (by simp))
  | some version =>
    rw [hversion] at h
    exact ⟨version, hversion, h⟩

/-- What holds of the loaded plugins besides: each is filed under its name, is
compatible, and on no circle. -/
structure Sound (r : PluginRegistry) : Prop where
  keyed : ∀ name metadata, r name = some metadata → metadata.name = name
  compatible : ∀ name metadata, r name = some metadata → isCompatible metadata = true
  acyclic : r.Acyclic

theorem remove_some {removed : String} (h : r.remove removed name = some metadata) :
    name ≠ removed ∧ r name = some metadata := by
  by_cases hname : name = removed
  · rw [remove, hname, Function.update_self] at h
    cases h
  · rw [remove, Function.update_of_ne hname] at h
    exact ⟨hname, h⟩

theorem add_some {added : PluginMetadata} (h : r.add added name = some metadata) :
    (name = added.name ∧ metadata = added) ∨ (name ≠ added.name ∧ r name = some metadata) := by
  by_cases hname : name = added.name
  · rw [add, hname, Function.update_self] at h
    exact .inl ⟨hname, (Option.some.inj h).symm⟩
  · rw [add, Function.update_of_ne hname] at h
    exact .inr ⟨hname, h⟩

/-- What is there already stays when another plugin is added. -/
theorem add_of_some {added : PluginMetadata} (hfresh : r added.name = none)
    (h : r name = some metadata) : r.add added name = some metadata := by
  have hne : name ≠ added.name := by
    rintro rfl
    rw [hfresh] at h
    cases h
  rw [add, Function.update_of_ne hne, h]

/-- Adding a plugin again that was taken away. -/
theorem add_remove (hkeyed : metadata.name = name) (h : r name = some metadata) :
    (r.remove name).add metadata = r := by
  rw [add, remove, hkeyed, Function.update_idem]
  exact Function.update_eq_self_iff.mpr h.symm

namespace Sound

theorem remove (h : r.Sound) (removed : String) : (r.remove removed).Sound where
  keyed name metadata hname := h.keyed name metadata (remove_some hname).2
  compatible name metadata hname := h.compatible name metadata (remove_some hname).2
  acyclic := h.acyclic.remove removed

theorem add (h : r.Sound) (hload : r.Loadable metadata) : (r.add metadata).Sound where
  keyed name found hname := by
    rcases add_some hname with ⟨rfl, rfl⟩ | ⟨-, hname⟩
    · rfl
    · exact h.keyed name found hname
  compatible name found hname := by
    rcases add_some hname with ⟨rfl, rfl⟩ | ⟨-, hname⟩
    · exact hload.compatible
    · exact h.compatible name found hname
  acyclic := h.acyclic.add hload

theorem moves (h : r.Sound) {c : PluginCall} {r' : PluginRegistry} (hmoves : Moves r c r') :
    r'.Sound := by
  cases hmoves with
  | same => exact h
  | loaded metadata config hload => exact h.add hload
  | unloaded name => exact h.remove name
  | reloaded name metadata hname hload => exact (h.remove name).add hload
  | lost name metadata hname hload => exact h.remove name

/-- A plugin that was taken away can be loaded again if its dependencies are met. -/
theorem reloadable (h : r.Sound) (hname : r name = some metadata)
    (hdeps : ∀ dep ∈ metadata.dependencies, r.Meets dep) : (r.remove name).Loadable metadata where
  fresh := by
    rw [h.keyed name metadata hname]
    exact Function.update_self ..
  compatible := h.compatible name metadata hname
  safe := by
    rw [add_remove (h.keyed name metadata hname) hname]
    rintro ⟨other, -, hcycle⟩
    exact h.acyclic other hcycle
  dependencies := by
    rw [add_remove (h.keyed name metadata hname) hname]
    exact hdeps

end Sound

namespace Closed

theorem remove (h : r.Closed) {removed : String}
    (hfree : ∀ name metadata, r name = some metadata → name ≠ removed →
      ∀ dep ∈ metadata.dependencies, dep.optional = false → dep.pluginName ≠ removed) :
    (r.remove removed).Closed := by
  intro name metadata hname dep hdep hrequired
  obtain ⟨hne, hname⟩ := remove_some hname
  obtain ⟨target, htarget, hrange⟩ := h name metadata hname dep hdep hrequired
  have hother := hfree name metadata hname hne dep hdep hrequired
  refine ⟨target, ?_, hrange⟩
  rw [PluginRegistry.remove, Function.update_of_ne hother, htarget]

/-- A plugin that requires itself would be a circle. -/
theorem add (h : r.Closed) (hload : r.Loadable metadata)
    (hplain : ∀ dep ∈ metadata.dependencies, dep.optional = false →
      ∀ target, r dep.pluginName = some target → Plain target dep) : (r.add metadata).Closed := by
  intro name found hname dep hdep hrequired
  rcases add_some hname with ⟨rfl, rfl⟩ | ⟨-, hname⟩
  · have hmeets := hload.dependencies dep hdep
    cases htarget : (r.add found) dep.pluginName with
    | none =>
      have hoptional := hmeets.present htarget
      rw [hrequired] at hoptional
      cases hoptional
    | some target =>
      rcases add_some htarget with ⟨hself, -⟩ | ⟨-, hold⟩
      · have hedge : (r.add found).DependsOn found.name found.name :=
          ⟨found, hname, dep, hdep, hself, by rw [hname]; rfl⟩
        exact absurd ⟨found.name, .refl, .single hedge⟩ hload.safe
      · exact ⟨target, rfl,
          inRange_of_plain (hplain dep hdep hrequired target hold) (hmeets.version target htarget)⟩
  · obtain ⟨target, htarget, hrange⟩ := h name found hname dep hdep hrequired
    exact ⟨target, add_of_some hload.fresh htarget, hrange⟩

end Closed

end PluginRegistry

namespace PluginManager

open PluginRegistry

variable {τ : Type} {m : PluginManager τ} {host : PluginHost τ}

/-- Another loaded plugin requires this one. -/
def Required (m : PluginManager τ) (name : String) : Prop :=
  ∃ e ∈ m.plugins.entries, e.1 ≠ name ∧ ∃ dep ∈ e.2.plugin.metadata.dependencies,
    dep.optional = false ∧ dep.pluginName = name

/-- The calls after which every plugin still finds what it requires. -/
def Careful (m : PluginManager τ) : PluginCall → Prop
  | .load (some metadata) _ => ∀ dep ∈ metadata.dependencies, dep.optional = false →
      ∀ target ∈ m.plugins.lookup dep.pluginName, Plain target.plugin.metadata dep
  | .unload name => ¬ m.Required name
  | .reload name => m.Required name → ∀ inst ∈ m.plugins.lookup name,
      ∀ dep ∈ inst.plugin.metadata.dependencies, dep.optional = true →
        ∀ target ∈ m.plugins.lookup dep.pluginName,
          dep.minVersion ≤ depVersion target.plugin.metadata ∧
            depVersion target.plugin.metadata ≤ dep.maxVersion
  | _ => True

instance (target : PluginMetadata) (dep : PluginDependency) : Decidable (Plain target dep) :=
  inferInstanceAs (Decidable (_ ∨ _))

instance (name : String) : Decidable (m.Required name) :=
  inferInstanceAs (Decidable (∃ e ∈ m.plugins.entries, _))

instance (c : PluginCall) : Decidable (m.Careful c) := by
  cases c with
  | load metadata config =>
    cases metadata with
    | none => exact .isTrue trivial
    | some metadata => exact inferInstanceAs (Decidable (∀ dep ∈ metadata.dependencies, _))
  | unload name => exact inferInstanceAs (Decidable (¬ m.Required name))
  | reload name => exact inferInstanceAs (Decidable (m.Required name → _))
  | init name | shutdown name | enable name | disable name => exact .isTrue trivial

theorem not_required {name : String} (h : ¬ m.Required name) {other : String}
    {metadata : PluginMetadata} (hother : m.registry other = some metadata) (hne : other ≠ name) :
    ∀ dep ∈ metadata.dependencies, dep.optional = false → dep.pluginName ≠ name := by
  intro dep hdep hrequired hname
  obtain ⟨inst, hinst, rfl⟩ := registry_some.mp hother
  exact h ⟨⟨other, inst⟩, AList.mem_lookup_iff.mp hinst, hne, dep, hdep, hrequired, hname⟩

theorem closed_run (hsound : m.registry.Sound) (h : m.registry.Closed) {c : PluginCall}
    (hcareful : m.Careful c) : (c.run host m).2.registry.Closed := by
  have hmoves := c.run_moves host m
  generalize (c.run host m).2.registry = r' at hmoves
  cases hmoves with
  | same => exact h
  | loaded metadata config hload =>
    apply h.add hload
    intro dep hdep hrequired target htarget
    obtain ⟨inst, hinst, rfl⟩ := registry_some.mp htarget
    exact hcareful dep hdep hrequired inst hinst
  | unloaded name => exact h.remove fun _ _ hother hne => not_required hcareful hother hne
  | reloaded name metadata hname hload =>
    rw [add_remove (hsound.keyed name metadata hname) hname]
    exact h
  | lost name metadata hname hload =>
    -- a plugin that others require is there again after the reload
    have hfree : ¬ m.Required name := by
      intro hrequired
      apply hload
      apply hsound.reloadable hname
      intro dep hdep
      obtain ⟨inst, hinst, rfl⟩ := registry_some.mp hname
      cases hoptional : dep.optional with
      | true =>
        refine ⟨fun _ => hoptional, fun target htarget => ?_⟩
        obtain ⟨other, hother, rfl⟩ := registry_some.mp htarget
        exact hcareful hrequired inst hinst dep hdep hoptional other hother
      | false =>
        obtain ⟨target, htarget, hrange⟩ := h name _ hname dep hdep hoptional
        refine ⟨fun hnone => ?_, fun other hother => ?_⟩
        · rw [htarget] at hnone
          cases hnone
        · obtain rfl := Option.some.inj (htarget.symm.trans hother)
          exact depVersion_of_inRange hrange
    exact h.remove fun _ _ hother hne => not_required hfree hother hne

theorem start_sound (world : τ) : (start world).registry.Sound where
  keyed _ _ h := by cases h
  compatible _ _ h := by cases h
  acyclic := start_acyclic world

theorem start_closed (world : τ) : (start world).registry.Closed := by
  intro name metadata h
  cases h

/-- In a run of careful calls the dependencies are closed before and after every call. -/
theorem closed_of_careful (host : PluginHost τ) (world : τ) (calls : List PluginCall)
    (hcareful : ∀ r ∈ CallRun.records (PluginCall.run host) calls (start world),
      r.before.Careful r.call) :
    ∀ r ∈ CallRun.records (PluginCall.run host) calls (start world),
      r.before.registry.Closed ∧ r.after.registry.Closed := by
  have hstep : ∀ r ∈ CallRun.records (PluginCall.run host) calls (start world),
      (r.before.registry.Sound ∧ r.before.registry.Closed) →
        (r.after.registry.Sound ∧ r.after.registry.Closed) := by
    intro r hr h
    have hc := hcareful r hr
    obtain ⟨_, c, _, -, rfl⟩ := CallRun.mem_records.mp hr
    exact ⟨h.1.moves (c.run_moves host _), closed_run h.1 h.2 hc⟩
  have hkept := (CallRun.records_invariant
    (fun m : PluginManager τ => m.registry.Sound ∧ m.registry.Closed) hstep
    ⟨start_sound world, start_closed world⟩).1
  intro r hr
  exact ⟨(hkept r hr).1.2, (hkept r hr).2.2⟩

def vendorPlugin : PluginMetadata where
  name := "vendor"
  version := "1"
  dependencies := [{ pluginName := "base", minVersion := 2 }]

/-- Loaded after what it requires and unloaded before it, a plugin is never left
without it, also when the other one is reloaded. -/
theorem closed_of_careful_vendor :
    let calls : List PluginCall := [.load (some basePlugin) {}, .load (some vendorPlugin) {},
      .reload "base", .unload "vendor", .unload "base"]
    (CallRun.records (PluginCall.run willing) calls (start ())).all (·.result.isOk) = true ∧
      ∀ r ∈ CallRun.records (PluginCall.run willing) calls (start ()),
        r.before.registry.Closed ∧ r.after.registry.Closed :=
  ⟨by decide, closed_of_careful willing () _ (by decide)⟩

/-- A plugin is unloaded that another one requires. -/
theorem unload_required :
    ¬ ∀ calls, ∀ r ∈ CallRun.records (PluginCall.run willing) calls (start ()),
      r.after.registry.Closed := by
  intro hall
  let calls : List PluginCall :=
    [.load (some basePlugin) {}, .load (some vendorPlugin) {}, .unload "base"]
  have hclosed := hall calls (CallRun.record (PluginCall.run willing) (.unload "base")
    (CallRun.final (PluginCall.run willing) (calls.take 2) (start ())))
    (CallRun.mem_records.mpr ⟨_, _, [], rfl, rfl⟩)
  obtain ⟨target, htarget, -⟩ := hclosed "vendor" vendorPlugin (by decide)
    { pluginName := "base", minVersion := 2 } (List.mem_singleton_self _) rfl
  have hnone : (PluginCall.run willing (.unload "base")
      (CallRun.final (PluginCall.run willing) (calls.take 2) (start ()))).2.registry "base"
        = none := by
    decide
  cases hnone.symm.trans htarget

end PluginManager

end MBootCore
