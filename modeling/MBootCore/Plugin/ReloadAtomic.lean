import MBootCore.Plugin.DependencyClosure
import MBootCore.Plugin.Lifecycle

/-!
# Plugin — ReloadAtomic

`PluginManager::reload` takes the plugin away before it loads and starts it again.
`loadLocked` and `initializeLocked` each undo their own failure; what `reload` did
before them is not undone.
-/

namespace MBootCore

namespace PluginManager

open PluginLog PluginRegistry

variable {τ : Type} {m m' : PluginManager τ} {host : PluginHost τ} {name : String}
  {inst : PluginInstance}

def stateOf (m : PluginManager τ) (name : String) : Option PluginState :=
  (m.plugins.lookup name).map (·.state)

/-- The plugin is loaded, and its components are registered. -/
def Registered (m : PluginManager τ) (name : String) : Prop :=
  ∃ inst, m.plugins.lookup name = some inst ∧ isRegistered inst.plugin.id m.log = true

structure Unchanged (m : PluginManager τ) (name : String) (m' : PluginManager τ) : Prop where
  loaded : ∀ other, other ∈ m'.plugins ↔ other ∈ m.plugins
  state : m'.stateOf name = m.stateOf name
  registered : m'.Registered name ↔ m.Registered name

/-- A reload that fails changes nothing. -/
def ReloadAtomic (host : PluginHost τ) (name : String) (m : PluginManager τ) : Prop :=
  ∀ e m', reload host name m = (.error e, m') → Unchanged m name m'

/-- What a plugin answers when it is reloaded: whether each of the calls succeeds,
`undoes` being the second `unregisterComponents()`. -/
structure ReloadAnswers where
  unregisters : Bool
  registers : Bool
  starts : Bool
  undoes : Bool
  deriving DecidableEq, Repr

def reloadAnswers (host : PluginHost τ) (id : Nat) (world : τ) : ReloadAnswers :=
  let unregistered := host id .unregisterComponents world
  let registered := host id .registerComponents unregistered.2
  let started := host id .init registered.2
  let undone := host id .unregisterComponents started.2
  ⟨unregistered.1.isOk, registered.1.isOk, started.1.isOk, undone.1.isOk⟩

/-- The components are registered after a failed reload just when they were before. -/
def ReloadAnswers.Restores (answers : ReloadAnswers) (registered : Bool) : Prop :=
  if answers.registers = true then registered = !answers.undoes
  else registered = true → answers.unregisters = false

/-- The plugin finds its dependencies, and either it starts or it had failed before. -/
structure ReloadSafe (host : PluginHost τ) (m : PluginManager τ) (inst : PluginInstance) :
    Prop where
  dependencies : ∀ dep ∈ inst.plugin.metadata.dependencies, m.registry.Meets dep
  restarts : ((reloadAnswers host inst.plugin.id m.world).registers = true ∧
      (reloadAnswers host inst.plugin.id m.world).starts = true) ∨
    inst.state = .error ∧ (reloadAnswers host inst.plugin.id m.world).Restores
      (isRegistered inst.plugin.id m.log)

/-! ## How a reload goes -/

/-- How the reload of a plugin goes that finds its dependencies. -/
inductive Reloads (answers : ReloadAnswers) (m : PluginManager τ) (name : String)
    (inst : PluginInstance) : Except ErrorCode Unit × PluginManager τ → Prop
  | restarted (m' : PluginManager τ) (hregisters : answers.registers = true)
    (hstarts : answers.starts = true) : Reloads answers m name inst (.ok (), m')
  | unregistered (e : ErrorCode) (m' : PluginManager τ) (hregisters : answers.registers = false)
    (h : Acts m name inst [⟨inst.plugin.id, .registerComponents, false⟩,
      ⟨inst.plugin.id, .unregisterComponents, answers.unregisters⟩] .error m') :
    Reloads answers m name inst (.error e, m')
  | undone (e : ErrorCode) (m' : PluginManager τ) (hregisters : answers.registers = true)
    (hstarts : answers.starts = false)
    (h : Acts m name inst [⟨inst.plugin.id, .unregisterComponents, answers.undoes⟩,
      ⟨inst.plugin.id, .init, false⟩, ⟨inst.plugin.id, .registerComponents, true⟩,
      ⟨inst.plugin.id, .unregisterComponents, answers.unregisters⟩] .error m') :
    Reloads answers m name inst (.error e, m')

theorem initializeLocked_reloads (host : PluginHost τ) (m : PluginManager τ) (name : String)
    (inst : PluginInstance) :
    Reloads (reloadAnswers host inst.plugin.id m.world) m name inst
      (initializeLocked host name (reloaded host name inst m)) := by
  have hacts := reloaded_acts host name inst m
  obtain ⟨config, hself⟩ := hacts.self
  have hcases := initializeLocked_cases host hself
    (show ¬ PluginState.loaded.value ≥ PluginState.initialized.value by decide)
  generalize initializeLocked host name (reloaded host name inst m) = outcome at hcases
  cases hcases with
  | unregistered e m₁ hregisters ha => exact .unregistered e m₁ hregisters (hacts.after ha rfl)
  | undone e m₁ hregisters hstarts ha =>
    exact .undone e m₁ hregisters hstarts (hacts.after ha rfl)
  | started m₁ _ _ hregisters hstarts _ => exact .restarted m₁ hregisters hstarts

/-- A plugin whose dependencies are met comes back, and is started anew. -/
theorem reload_reloads (host : PluginHost τ) (hsound : m.registry.Sound)
    (hinst : m.plugins.lookup name = some inst)
    (hdeps : ∀ dep ∈ inst.plugin.metadata.dependencies, m.registry.Meets dep) :
    Reloads (reloadAnswers host inst.plugin.id m.world) m name inst (reload host name m) := by
  have hsome : m.registry name = some inst.plugin.metadata := registry_some.mpr ⟨inst, hinst, rfl⟩
  have hname := hsound.keyed name _ hsome
  have herased : ((unregisterPluginComponents host inst.plugin m).2.erase name).registry
      = m.registry.remove name := by
    rw [registry_erase, registry_congr (unregisterPluginComponents_plugins _)]
  rw [reload, hinst]
  dsimp only
  rcases loadLocked_cases inst.plugin inst.config
    ((unregisterPluginComponents host inst.plugin m).2.erase name) with ⟨-, hload⟩ | ⟨hfails, -⟩
  · rw [hload, hname]
    exact initializeLocked_reloads host m name inst
  · rw [herased] at hfails
    exact absurd (hsound.reloadable hsome hdeps) hfails

/-- One whose dependencies are not met is lost. -/
theorem reload_lost (host : PluginHost τ) (hsound : m.registry.Sound)
    (hinst : m.plugins.lookup name = some inst)
    (hdeps : ¬ ∀ dep ∈ inst.plugin.metadata.dependencies, m.registry.Meets dep) :
    ∃ e m', reload host name m = (.error e, m') ∧ name ∉ m'.plugins := by
  have hsome : m.registry name = some inst.plugin.metadata := registry_some.mpr ⟨inst, hinst, rfl⟩
  have hname := hsound.keyed name _ hsome
  have herased : ((unregisterPluginComponents host inst.plugin m).2.erase name).registry
      = m.registry.remove name := by
    rw [registry_erase, registry_congr (unregisterPluginComponents_plugins _)]
  rw [reload, hinst]
  dsimp only
  rcases loadLocked_cases inst.plugin inst.config
    ((unregisterPluginComponents host inst.plugin m).2.erase name) with ⟨hload, -⟩ | ⟨-, e, hload⟩
  · have hmeets := hload.dependencies
    rw [herased, add_remove hname hsome] at hmeets
    exact absurd hmeets hdeps
  · rw [hload]
    refine ⟨e, _, rfl, ?_⟩
    intro hmem
    rw [← registry_isSome, registry_erase, remove, Function.update_self] at hmem
    cases hmem

/-! ## What is left of the plugin -/

theorem Acts.loaded {events : List PluginEvent} {state : PluginState}
    (h : Acts m name inst events state m') (hinst : m.plugins.lookup name = some inst)
    (other : String) : other ∈ m'.plugins ↔ other ∈ m.plugins := by
  rw [← AList.lookup_isSome, ← AList.lookup_isSome]
  by_cases hother : other = name
  · subst hother
    obtain ⟨config, hself⟩ := h.self
    simp [hself, hinst]
  · rw [h.others other hother]

theorem Acts.unchanged_iff {events : List PluginEvent} {state : PluginState}
    (h : Acts m name inst events state m') (hinst : m.plugins.lookup name = some inst) :
    Unchanged m name m' ↔ inst.state = state ∧
      (isRegistered inst.plugin.id (events ++ m.log) = isRegistered inst.plugin.id m.log) := by
  obtain ⟨config, hself⟩ := h.self
  have hstate : m'.stateOf name = m.stateOf name ↔ inst.state = state := by
    rw [stateOf, stateOf, hself, hinst]
    constructor
    · intro heq
      exact (Option.some.inj heq).symm
    · rintro rfl
      rfl
  have hafter : m'.Registered name ↔ isRegistered inst.plugin.id (events ++ m.log) = true := by
    rw [Registered, hself, h.log]
    simp
  have hbefore : m.Registered name ↔ isRegistered inst.plugin.id m.log = true := by
    rw [Registered, hinst]
    simp
  constructor
  · intro hunchanged
    have hregistered := hunchanged.registered
    rw [hafter, hbefore, ← Bool.eq_iff_iff] at hregistered
    exact ⟨hstate.mp hunchanged.state, hregistered⟩
  · rintro ⟨hsame, hregistered⟩
    refine ⟨h.loaded hinst, hstate.mpr hsame, ?_⟩
    rw [hafter, hbefore, hregistered]

theorem isRegistered_refused (id : Nat) (unregisters : Bool) (log : List PluginEvent) :
    isRegistered id (⟨id, .registerComponents, false⟩ ::
      ⟨id, .unregisterComponents, unregisters⟩ :: log) = isRegistered id log ↔
      (isRegistered id log = true → unregisters = false) := by
  cases unregisters <;> cases h : isRegistered id log <;> simp [isRegistered, h]

theorem isRegistered_undone (id : Nat) (undoes unregisters : Bool) (log : List PluginEvent) :
    isRegistered id (⟨id, .unregisterComponents, undoes⟩ :: ⟨id, .init, false⟩ ::
      ⟨id, .registerComponents, true⟩ :: ⟨id, .unregisterComponents, unregisters⟩ :: log)
        = isRegistered id log ↔ isRegistered id log = !undoes := by
  cases undoes <;> cases h : isRegistered id log <;> simp [isRegistered]

theorem Reloads.atomic_iff {answers : ReloadAnswers}
    {outcome : Except ErrorCode Unit × PluginManager τ} (h : Reloads answers m name inst outcome)
    (hinst : m.plugins.lookup name = some inst) :
    (∀ e m', outcome = (.error e, m') → Unchanged m name m') ↔
      (answers.registers = true ∧ answers.starts = true) ∨
        inst.state = .error ∧ answers.Restores (isRegistered inst.plugin.id m.log) := by
  cases h with
  | restarted m' hregisters hstarts =>
    constructor
    · exact fun _ => .inl ⟨hregisters, hstarts⟩
    · intro _ e m' heq
      cases heq
  | unregistered e m' hregisters h =>
    have hunchanged := h.unchanged_iff hinst
    rw [List.cons_append, List.cons_append, List.nil_append, isRegistered_refused] at hunchanged
    simp [ReloadAnswers.Restores, hregisters, hunchanged]
  | undone e m' hregisters hstarts h =>
    have hunchanged := h.unchanged_iff hinst
    simp only [List.cons_append, List.nil_append, isRegistered_undone] at hunchanged
    simp [ReloadAnswers.Restores, hregisters, hstarts, hunchanged]

/-! ## Atomic reloads -/

theorem reloadAtomic_of_sound (host : PluginHost τ) (name : String) (hsound : m.registry.Sound) :
    ReloadAtomic host name m ↔
      ∀ inst, m.plugins.lookup name = some inst → ReloadSafe host m inst := by
  cases hinst : m.plugins.lookup name with
  | none =>
    constructor
    · intro _ inst h
      cases h
    · intro _ e m' heq
      rw [reload, hinst] at heq
      obtain ⟨-, rfl⟩ := Prod.mk.inj heq
      exact ⟨fun _ => .rfl, rfl, .rfl⟩
  | some inst =>
    constructor
    · intro hatomic inst' hinst'
      obtain rfl := Option.some.inj hinst'
      by_cases hdeps : ∀ dep ∈ inst.plugin.metadata.dependencies, m.registry.Meets dep
      · exact ⟨hdeps, ((reload_reloads host hsound hinst hdeps).atomic_iff hinst).mp hatomic⟩
      · obtain ⟨e, m', hreload, hlost⟩ := reload_lost host hsound hinst hdeps
        have hthere : name ∈ m.plugins := AList.lookup_isSome.mp (by rw [hinst]; rfl)
        exact absurd (((hatomic e m' hreload).loaded name).mpr hthere) hlost
    · intro hsafe
      obtain ⟨hdeps, hrestarts⟩ := hsafe inst rfl
      exact ((reload_reloads host hsound hinst hdeps).atomic_iff hinst).mpr hrestarts

theorem final_sound (host : PluginHost τ) (world : τ) (calls : List PluginCall) :
    (CallRun.final (PluginCall.run host) calls (start world)).registry.Sound :=
  (CallRun.run_invariant (fun m : PluginManager τ => m.registry.Sound)
    (fun c _ m h => h.moves (c.run_moves host m)) (start_sound world)).2

/-- After any calls, a failed reload changes nothing just when the plugin finds its
dependencies and starts, or was in the state `Error` already and ends registered
or not as it was. -/
theorem reloadAtomic_iff (host : PluginHost τ) (world : τ) (calls : List PluginCall)
    (name : String) :
    ReloadAtomic host name (CallRun.final (PluginCall.run host) calls (start world)) ↔
      ∀ inst, (CallRun.final (PluginCall.run host) calls (start world)).plugins.lookup name
          = some inst →
        ReloadSafe host (CallRun.final (PluginCall.run host) calls (start world)) inst :=
  reloadAtomic_of_sound host name (final_sound host world calls)

/-- A plugin whose dependency was unloaded. -/
def orphaned : PluginManager Unit :=
  CallRun.final (PluginCall.run willing)
    [.load (some basePlugin) {}, .load (some vendorPlugin) {}, .unload "base"] (start ())

/-- The reload fails, and the plugin is gone. -/
theorem reloadAtomic_fails :
    ¬ ∀ calls name, ReloadAtomic willing name
      (CallRun.final (PluginCall.run willing) calls (start ())) := by
  intro hall
  have hatomic : ReloadAtomic willing "vendor" orphaned := hall _ "vendor"
  have hreload : ∃ m', reload willing "vendor" orphaned = (.error .pluginDependencyMissing, m') ∧
      "vendor" ∉ m'.plugins := ⟨_, by rfl, by decide⟩
  obtain ⟨m', hreload, hlost⟩ := hreload
  have hthere : "vendor" ∈ orphaned.plugins := by decide
  exact hlost (((hatomic _ m' hreload).loaded "vendor").mpr hthere)

end PluginManager

end MBootCore
