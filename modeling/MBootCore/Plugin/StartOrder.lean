import MBootCore.Plugin.DependencyClosure
import MBootCore.Plugin.Lifecycle

/-!
# Plugin — StartOrder

`PluginManager::initializeAll`: the loaded plugins are started in the order the
map is walked in, which is that of a hash table. A plugin finds the ones it
depends on started only where that order happens to have them first.
-/

namespace MBootCore

namespace PluginManager

open PluginLog

variable {τ : Type} {m m' : PluginManager τ} {host : PluginHost τ}

/-- The walk over the map. A plugin that is not loaded, or already started, is
passed over, and the first that fails ends it. -/
def initializeAll (host : PluginHost τ) :
    List String → PluginManager τ → Except ErrorCode Unit × PluginManager τ
  | [], m => (.ok (), m)
  | name :: names, m =>
    match m.plugins.lookup name with
    | none => initializeAll host names m
    | some inst =>
      if inst.state = .loaded then
        match initializeLocked host name m with
        | (.error e, m) => (.error e, m)
        | (.ok (), m) => initializeAll host names m
      else initializeAll host names m

/-! ## Plugin objects -/

/-- Each plugin is filed under its name, and no two are the same object. -/
structure Identified (m : PluginManager τ) : Prop where
  keyed : ∀ name inst, m.plugins.lookup name = some inst → inst.plugin.metadata.name = name
  known : ∀ name inst, m.plugins.lookup name = some inst → inst.plugin.id < m.created
  distinct : ∀ name other inst inst', m.plugins.lookup name = some inst →
    m.plugins.lookup other = some inst' → inst.plugin.id = inst'.plugin.id → name = other

/-- The plugins are some of those that were there. -/
structure Keeps (m m' : PluginManager τ) : Prop where
  created : m'.created = m.created
  plugins : ∀ name inst', m'.plugins.lookup name = some inst' →
    ∃ inst, m.plugins.lookup name = some inst ∧ inst.plugin = inst'.plugin

namespace Keeps

protected theorem refl (m : PluginManager τ) : Keeps m m := ⟨rfl, fun _ inst h => ⟨inst, h, rfl⟩⟩

protected theorem trans {m'' : PluginManager τ} (h : Keeps m m') (h' : Keeps m' m'') :
    Keeps m m'' := by
  refine ⟨h'.created.trans h.created, fun name inst hinst => ?_⟩
  obtain ⟨inst', hinst', hplugin'⟩ := h'.plugins name inst hinst
  obtain ⟨before, hbefore, hplugin⟩ := h.plugins name inst' hinst'
  exact ⟨before, hbefore, hplugin.trans hplugin'⟩

theorem acts {name : String} {inst : PluginInstance} {events : List PluginEvent}
    {state : PluginState} (hinst : m.plugins.lookup name = some inst)
    (h : Acts m name inst events state m') : Keeps m m' := by
  refine ⟨h.created, fun other inst' hinst' => ?_⟩
  by_cases hother : other = name
  · subst hother
    obtain ⟨config, hself⟩ := h.self
    rw [hself] at hinst'
    obtain rfl := Option.some.inj hinst'
    exact ⟨inst, hinst, rfl⟩
  · exact ⟨inst', (h.others other hother) ▸ hinst', rfl⟩

theorem erase (m : PluginManager τ) (name : String) : Keeps m (m.erase name) := by
  refine ⟨rfl, fun other inst hinst => ⟨inst, ?_, rfl⟩⟩
  by_cases hother : other = name
  · subst hother
    have hnone : (m.erase other).plugins.lookup other = none := AList.lookup_erase _ _
    rw [hnone] at hinst
    cases hinst
  · have hsame : (m.erase name).plugins.lookup other = m.plugins.lookup other :=
      AList.lookup_erase_ne hother
    rwa [hsame] at hinst

theorem initializeLocked (host : PluginHost τ) (name : String) (m : PluginManager τ) :
    Keeps m (initializeLocked host name m).2 := by
  cases hinst : m.plugins.lookup name with
  | none =>
    rw [PluginManager.initializeLocked, hinst]
    exact .refl m
  | some inst =>
    by_cases hstate : inst.state.value ≥ PluginState.initialized.value
    · rw [PluginManager.initializeLocked, hinst]
      simp only [if_pos hstate]
      exact .refl m
    · have hcases := initializeLocked_cases host hinst hstate
      generalize PluginManager.initializeLocked host name m = outcome at hcases
      cases hcases with
      | unregistered e m' _ h => exact acts hinst h
      | undone e m' _ _ h => exact acts hinst h
      | started m' state _ _ _ h => exact acts hinst h

theorem shutdownLocked (host : PluginHost τ) (name : String) (m : PluginManager τ) :
    Keeps m (shutdownLocked host name m).2 := by
  cases hinst : m.plugins.lookup name with
  | none =>
    rw [PluginManager.shutdownLocked, hinst]
    exact .refl m
  | some inst =>
    by_cases hstate : inst.state.value < PluginState.initialized.value
    · rw [PluginManager.shutdownLocked, hinst]
      simp only [if_pos hstate]
      exact .refl m
    · have hcases := shutdownLocked_cases host hinst hstate
      generalize PluginManager.shutdownLocked host name m = outcome at hcases
      cases hcases with
      | failed e m' _ h => exact acts hinst h
      | stopped m' h => exact acts hinst h

theorem setEnabled (host : PluginHost τ) (enabled : Bool) (state : PluginState) (name : String)
    (m : PluginManager τ) : Keeps m (setEnabled host enabled state name m).2 := by
  cases hinst : m.plugins.lookup name with
  | none =>
    rw [PluginManager.setEnabled, hinst]
    exact .refl m
  | some inst =>
    obtain ⟨ok, h⟩ := setEnabled_acts host enabled state hinst
    exact acts hinst h

theorem unload (host : PluginHost τ) (name : String) (m : PluginManager τ) :
    Keeps m (unload host name m).2 := by
  rw [PluginManager.unload]
  cases m.plugins.lookup name with
  | none => exact .refl m
  | some inst =>
    dsimp only
    have hstopped : Keeps m (if inst.state.value ≥ PluginState.initialized.value then
        PluginManager.shutdownLocked host name m else (.ok (), m)).2 := by
      split
      · exact shutdownLocked host name m
      · exact .refl m
    split
    · rename_i heq
      rwa [heq] at hstopped
    · rename_i stopped heq
      rw [heq] at hstopped
      have hunregistered : Keeps stopped (unregisterPluginComponents host inst.plugin stopped).2 :=
        ⟨rfl, fun _ inst' h => ⟨inst', h, rfl⟩⟩
      split
      · rename_i hunregister
        rw [hunregister] at hunregistered
        exact hstopped.trans hunregistered
      · rename_i hunregister
        rw [hunregister] at hunregistered
        exact (hstopped.trans hunregistered).trans (erase _ name)

end Keeps

namespace Identified

theorem keeps (h : m.Identified) (hkeeps : Keeps m m') : m'.Identified where
  keyed name inst hinst := by
    obtain ⟨before, hbefore, hplugin⟩ := hkeeps.plugins name inst hinst
    exact hplugin ▸ h.keyed name before hbefore
  known name inst hinst := by
    obtain ⟨before, hbefore, hplugin⟩ := hkeeps.plugins name inst hinst
    rw [hkeeps.created, ← hplugin]
    exact h.known name before hbefore
  distinct name other inst inst' hinst hinst' hid := by
    obtain ⟨before, hbefore, hplugin⟩ := hkeeps.plugins name inst hinst
    obtain ⟨before', hbefore', hplugin'⟩ := hkeeps.plugins other inst' hinst'
    rw [← hplugin, ← hplugin'] at hid
    exact h.distinct name other before before' hbefore hbefore' hid

theorem add (h : m.Identified) {plugin : Plugin} {config : PluginConfig} {state : PluginState}
    (hid : plugin.id < m.created)
    (hnew : ∀ name inst, m.plugins.lookup name = some inst → inst.plugin.id ≠ plugin.id) :
    (m.store plugin.metadata.name { plugin, config, state }).Identified := by
  have hfrom {name : String} {inst : PluginInstance}
      (hinst : (m.store plugin.metadata.name { plugin, config, state }).plugins.lookup name
        = some inst) :
      (name = plugin.metadata.name ∧ inst = { plugin, config, state }) ∨
        m.plugins.lookup name = some inst := by
    rw [lookup_store] at hinst
    split at hinst
    · exact .inl ⟨‹_›, (Option.some.inj hinst).symm⟩
    · exact .inr hinst
  constructor
  case keyed =>
    intro name inst hinst
    rcases hfrom hinst with ⟨rfl, rfl⟩ | hinst
    · rfl
    · exact h.keyed name inst hinst
  case known =>
    intro name inst hinst
    rcases hfrom hinst with ⟨rfl, rfl⟩ | hinst
    · exact hid
    · exact h.known name inst hinst
  case distinct =>
    intro name other inst inst' hinst hinst' heq
    rcases hfrom hinst with ⟨rfl, rfl⟩ | hinst <;> rcases hfrom hinst' with ⟨rfl, rfl⟩ | hinst'
    · rfl
    · exact absurd heq.symm (hnew other inst' hinst')
    · exact absurd heq (hnew name inst hinst)
    · exact h.distinct name other inst inst' hinst hinst' heq

theorem load (h : m.Identified) (metadata : Option PluginMetadata) (config : PluginConfig) :
    (load metadata config m).2.Identified := by
  cases metadata with
  | none => exact h
  | some metadata =>
    have hcreate : Identified { m with created := m.created + 1 } :=
      ⟨h.keyed, fun name inst hinst => Nat.lt_succ_of_lt (h.known name inst hinst), h.distinct⟩
    rw [PluginManager.load]
    rcases loadLocked_cases { id := m.created, metadata } config
      { m with created := m.created + 1 } with ⟨-, hload⟩ | ⟨-, e, hload⟩
    · rw [hload]
      exact hcreate.add (Nat.lt_succ_self _) fun name inst hinst =>
        Nat.ne_of_lt (h.known name inst hinst)
    · rw [hload]
      exact hcreate

theorem reload (h : m.Identified) (name : String) : (reload host name m).2.Identified := by
  rw [PluginManager.reload]
  cases hinst : m.plugins.lookup name with
  | none => exact h
  | some inst =>
    dsimp only
    let erased := (unregisterPluginComponents host inst.plugin m).2.erase name
    have hunregistered : Keeps m (unregisterPluginComponents host inst.plugin m).2 :=
      ⟨rfl, fun _ inst' h => ⟨inst', h, rfl⟩⟩
    have hkeeps : Keeps m erased := hunregistered.trans (Keeps.erase _ name)
    have herased : erased.Identified := h.keeps hkeeps
    rcases loadLocked_cases inst.plugin inst.config erased with ⟨-, hload⟩ | ⟨-, e, hload⟩
    · have hadded : (erased.store inst.plugin.metadata.name
          { plugin := inst.plugin, config := inst.config, state := .loaded }).Identified := by
        refine herased.add (h.known name inst hinst) fun other inst' hinst' heq => ?_
        obtain ⟨before, hbefore, hplugin⟩ := hkeeps.plugins other inst' hinst'
        have hname : other = name :=
          h.distinct other name before inst hbefore hinst (hplugin ▸ heq)
        have hnone : erased.plugins.lookup name = none := AList.lookup_erase _ _
        rw [hname, hnone] at hinst'
        cases hinst'
      simp only [erased] at hload
      rw [hload]
      exact hadded.keeps (Keeps.initializeLocked host name _)
    · simp only [erased] at hload
      rw [hload]
      exact herased

theorem run (h : m.Identified) (host : PluginHost τ) (c : PluginCall) :
    (c.run host m).2.Identified := by
  cases c with
  | load metadata config => exact h.load metadata config
  | unload name => exact h.keeps (Keeps.unload host name m)
  | reload name => exact h.reload name
  | init name => exact h.keeps (Keeps.initializeLocked host name m)
  | shutdown name => exact h.keeps (Keeps.shutdownLocked host name m)
  | enable name => exact h.keeps (Keeps.setEnabled host true .enabled name m)
  | disable name => exact h.keeps (Keeps.setEnabled host false .disabled name m)

end Identified

theorem start_identified (world : τ) : (start world).Identified where
  keyed _ _ h := by cases h
  known _ _ h := by cases h
  distinct _ _ _ _ h := by cases h

theorem final_identified (host : PluginHost τ) (world : τ) (calls : List PluginCall) :
    (CallRun.final (PluginCall.run host) calls (start world)).Identified :=
  (CallRun.run_invariant Identified (fun c _ _ h => h.run host c) (start_identified world)).2

/-! ## The order of the starts -/

/-- The required plugins are started, and no optional one is still waiting to
be. `earlier` are the calls made in the walk so far. -/
structure DependenciesStarted (m : PluginManager τ) (inst : PluginInstance)
    (earlier : List PluginEvent) : Prop where
  required : ∀ dep ∈ inst.plugin.metadata.dependencies, dep.optional = false →
    ∃ target, m.plugins.lookup dep.pluginName = some target ∧
      isStarted target.plugin.id (earlier ++ m.log) = true
  optional : ∀ dep ∈ inst.plugin.metadata.dependencies, dep.optional = true →
    ∀ target, m.plugins.lookup dep.pluginName = some target → target.state = .loaded →
      ∃ ok, ⟨target.plugin.id, .init, ok⟩ ∈ earlier

/-- Each plugin was started after what it depends on, as the calls made in a
walk from `m` on tell, the latest first. -/
def StartsInOrder (m : PluginManager τ) : List PluginEvent → Prop
  | [] => True
  | e :: earlier =>
    (e.method = .init → ∀ name inst, m.plugins.lookup name = some inst →
      inst.plugin.id = e.plugin → DependenciesStarted m inst earlier) ∧ StartsInOrder m earlier

/-- Whatever the plugins answer, `initializeAll` starts them in order. -/
def InitializesInOrder (m : PluginManager τ) (order : List String) : Prop :=
  ∀ (host : PluginHost τ) (events : List PluginEvent),
    (initializeAll host order m).2.log = events ++ m.log → StartsInOrder m events

/-- What a plugin waiting in the walk depends on comes before it, or was
started before the walk. -/
structure After (m : PluginManager τ) (inst : PluginInstance) (earlier : List String) : Prop where
  required : ∀ dep ∈ inst.plugin.metadata.dependencies, dep.optional = false →
    ∃ target, m.plugins.lookup dep.pluginName = some target ∧
      (target.state = .loaded ∧ dep.pluginName ∈ earlier ∨
        isStarted target.plugin.id m.log = true)
  optional : ∀ dep ∈ inst.plugin.metadata.dependencies, dep.optional = true →
    ∀ target, m.plugins.lookup dep.pluginName = some target → target.state = .loaded →
      dep.pluginName ∈ earlier

def OrderRespects (m : PluginManager τ) (order : List String) : Prop :=
  ∀ earlier name later inst, order = earlier ++ name :: later →
    m.plugins.lookup name = some inst → inst.state = .loaded → After m inst earlier

theorem StartsInOrder.of_append {events earlier : List PluginEvent}
    (h : StartsInOrder m (events ++ earlier)) : StartsInOrder m earlier := by
  induction events with
  | nil => exact h
  | cons e events ih => exact ih h.2

/-- A call other than `initialize()` does not matter. -/
theorem StartsInOrder.note {e : PluginEvent} {earlier : List PluginEvent}
    (he : e.method ≠ .init) (h : StartsInOrder m earlier) : StartsInOrder m (e :: earlier) :=
  ⟨fun hinit => absurd hinit he, h⟩

/-! ### Starts so far -/

/-- Calls by which plugins were registered and started. -/
def Starting (events : List PluginEvent) : Prop :=
  ∀ e ∈ events, e.method = .registerComponents ∨ e.method = .init ∧ e.succeeds = true

theorem isStarted_of_starting {events log : List PluginEvent} {id : Nat} (h : Starting events)
    (hlog : isStarted id log = true) : isStarted id (events ++ log) = true := by
  induction events with
  | nil => exact hlog
  | cons e events ih =>
    obtain ⟨he, hrest⟩ := List.forall_mem_cons.mp h
    rw [List.cons_append, isStarted]
    split
    · rcases he with he | ⟨he, hok⟩
      · rw [he]
        exact ih hrest
      · rw [he]
        exact hok
    · exact ih hrest

theorem isStarted_of_mem {events log : List PluginEvent} {id : Nat} (h : Starting events)
    (hmem : ⟨id, .init, true⟩ ∈ events) : isStarted id (events ++ log) = true := by
  obtain ⟨later, earlier, rfl⟩ := List.append_of_mem hmem
  have hlater : Starting later := fun e he => h e (List.mem_append_left _ he)
  rw [List.append_assoc]
  refine isStarted_of_starting hlater ?_
  rw [List.cons_append, isStarted, if_pos rfl]

/-- The walk has passed `passed`, and `events` are the calls made. -/
structure Walked (m : PluginManager τ) (passed : List String) (events : List PluginEvent)
    (mid : PluginManager τ) : Prop where
  log : mid.log = events ++ m.log
  starting : Starting events
  ahead : ∀ name, name ∉ passed → mid.plugins.lookup name = m.plugins.lookup name
  started : ∀ name inst, name ∈ passed → m.plugins.lookup name = some inst →
    inst.state = .loaded → ⟨inst.plugin.id, .init, true⟩ ∈ events
  inOrder : StartsInOrder m events

theorem Walked.start (m : PluginManager τ) : Walked m [] [] m where
  log := rfl
  starting _ h := absurd h List.not_mem_nil
  ahead _ _ := rfl
  started _ _ h := absurd h List.not_mem_nil
  inOrder := trivial

/-- What comes before a plugin in the walk is started when the walk gets to it. -/
theorem Walked.dependenciesStarted {passed : List String} {events : List PluginEvent}
    {mid : PluginManager τ} (h : Walked m passed events mid) {inst : PluginInstance}
    (hafter : After m inst passed) (id : Nat) :
    DependenciesStarted m inst (⟨id, .registerComponents, true⟩ :: events) where
  required dep hdep hrequired := by
    obtain ⟨target, htarget, hstarted⟩ := hafter.required dep hdep hrequired
    have hstarting : Starting (⟨id, .registerComponents, true⟩ :: events) :=
      List.forall_mem_cons.mpr ⟨.inl rfl, h.starting⟩
    refine ⟨target, htarget, ?_⟩
    rcases hstarted with ⟨hloaded, hpassed⟩ | hlog
    · exact isStarted_of_mem hstarting
        (List.mem_cons_of_mem _ (h.started _ target hpassed htarget hloaded))
    · exact isStarted_of_starting hstarting hlog
  optional dep hdep hoptional target htarget hloaded := by
    have hpassed := hafter.optional dep hdep hoptional target htarget hloaded
    exact ⟨true, List.mem_cons_of_mem _ (h.started _ target hpassed htarget hloaded)⟩

/-- A plugin that is not waiting is passed over. -/
theorem Walked.pass {passed : List String} {events : List PluginEvent} {mid : PluginManager τ}
    (h : Walked m passed events mid) {name : String}
    (hwaits : ∀ inst, m.plugins.lookup name = some inst → inst.state ≠ .loaded) :
    Walked m (passed ++ [name]) events mid where
  log := h.log
  starting := h.starting
  ahead other hother := h.ahead other fun hmem => hother (List.mem_append_left _ hmem)
  started other inst hother hinst hloaded := by
    rcases List.mem_append.mp hother with hmem | hmem
    · exact h.started other inst hmem hinst hloaded
    · rw [List.mem_singleton.mp hmem] at hinst
      exact absurd hloaded (hwaits inst hinst)
  inOrder := h.inOrder

/-- The next plugin has been registered and is about to be started. -/
theorem Walked.attempt (hid : m.Identified) {passed : List String} {events : List PluginEvent}
    {mid : PluginManager τ} (h : Walked m passed events mid) {name : String} {inst : PluginInstance}
    (hinst : m.plugins.lookup name = some inst) (hafter : After m inst passed) (ok : Bool) :
    StartsInOrder m (⟨inst.plugin.id, .init, ok⟩ ::
      ⟨inst.plugin.id, .registerComponents, true⟩ :: events) := by
  refine ⟨fun _ other inst' hinst' heq => ?_, h.inOrder.note (by simp)⟩
  obtain rfl := hid.distinct other name inst' inst hinst' hinst heq
  obtain rfl := Option.some.inj (hinst'.symm.trans hinst)
  exact h.dependenciesStarted hafter _

theorem Walked.step (hid : m.Identified) {passed : List String} {events : List PluginEvent}
    {mid mid' : PluginManager τ} (h : Walked m passed events mid) {name : String}
    {inst : PluginInstance} (hinst : m.plugins.lookup name = some inst)
    (hafter : After m inst passed) {state : PluginState}
    (hacts : Acts mid name inst [⟨inst.plugin.id, .init, true⟩,
      ⟨inst.plugin.id, .registerComponents, true⟩] state mid') :
    Walked m (passed ++ [name]) (⟨inst.plugin.id, .init, true⟩ ::
      ⟨inst.plugin.id, .registerComponents, true⟩ :: events) mid' where
  log := by
    rw [hacts.log, h.log]
    rfl
  starting := List.forall_mem_cons.mpr
    ⟨.inr ⟨rfl, rfl⟩, List.forall_mem_cons.mpr ⟨.inl rfl, h.starting⟩⟩
  ahead other hother := by
    simp only [List.mem_append, List.mem_singleton, not_or] at hother
    rw [hacts.others other hother.2, h.ahead other hother.1]
  started other inst' hother hinst' hloaded := by
    rcases List.mem_append.mp hother with hmem | hmem
    · exact List.mem_cons_of_mem _ (List.mem_cons_of_mem _
        (h.started other inst' hmem hinst' hloaded))
    · rw [List.mem_singleton.mp hmem] at hinst'
      obtain rfl := Option.some.inj (hinst'.symm.trans hinst)
      exact List.mem_cons_self
  inOrder := h.attempt hid hinst hafter true

/-- The rest of a walk in a good order starts its plugins in order. -/
theorem initializeAll_startsInOrder (hid : m.Identified) {order : List String}
    (hnodup : order.Nodup) (hrespects : m.OrderRespects order) (host : PluginHost τ)
    (names : List String) {passed : List String} {events : List PluginEvent}
    {mid : PluginManager τ} (horder : order = passed ++ names) (h : Walked m passed events mid)
    {all : List PluginEvent} (hlog : (initializeAll host names mid).2.log = all ++ m.log) :
    StartsInOrder m all := by
  induction names generalizing passed events mid with
  | nil =>
    have hall : all = events := List.append_cancel_right (hlog.symm.trans h.log)
    rw [hall]
    exact h.inOrder
  | cons name names ih =>
    have hsplit : order = (passed ++ [name]) ++ names := by
      rw [horder, List.append_assoc]
      rfl
    have hahead : name ∉ passed := by
      rw [horder] at hnodup
      intro hmem
      exact (List.nodup_append.mp hnodup).2.2 name hmem name List.mem_cons_self rfl
    have hsame := h.ahead name hahead
    rw [initializeAll] at hlog
    cases hinst : m.plugins.lookup name with
    | none =>
      rw [hsame, hinst] at hlog
      exact ih hsplit (h.pass fun inst hsome => by rw [hinst] at hsome; cases hsome) hlog
    | some inst =>
      rw [hsame, hinst] at hlog
      by_cases hloaded : inst.state = .loaded
      · have hafter := hrespects passed name names inst horder hinst hloaded
        have hstate : ¬ inst.state.value ≥ PluginState.initialized.value := by
          rw [hloaded]
          decide
        have hcases := initializeLocked_cases host (hsame.trans hinst) hstate
        simp only [if_pos hloaded] at hlog
        generalize initializeLocked host name mid = outcome at hcases hlog
        cases hcases with
        | unregistered e mid' _ hacts =>
          have hall := List.append_cancel_right ((hlog.symm.trans hacts.log).trans
            (by rw [h.log, ← List.append_assoc]))
          rw [hall]
          exact h.inOrder.note (by simp)
        | undone e mid' _ _ hacts =>
          have hall := List.append_cancel_right ((hlog.symm.trans hacts.log).trans
            (by rw [h.log, ← List.append_assoc]))
          rw [hall]
          exact (h.attempt hid hinst hafter false).note (by simp)
        | started mid' state hstarted _ _ hacts =>
          exact ih hsplit (h.step hid hinst hafter hacts) hlog
      · simp only [if_neg hloaded] at hlog
        refine ih hsplit (h.pass fun inst' hsome => ?_) hlog
        rw [hinst] at hsome
        exact Option.some.inj hsome ▸ hloaded

/-! ### A walk in which nothing fails -/

/-- The calls by which a plugin that is waiting is started. -/
def startCalls (m : PluginManager τ) (name : String) : List PluginEvent :=
  match m.plugins.lookup name with
  | none => []
  | some inst =>
    if inst.state = .loaded then
      [⟨inst.plugin.id, .init, true⟩, ⟨inst.plugin.id, .registerComponents, true⟩]
    else []

/-- The calls of a walk, the latest first. -/
def walkCalls (m : PluginManager τ) : List String → List PluginEvent
  | [] => []
  | name :: names => m.walkCalls names ++ m.startCalls name

theorem walkCalls_append (m : PluginManager τ) (passed names : List String) :
    m.walkCalls (passed ++ names) = m.walkCalls names ++ m.walkCalls passed := by
  induction passed with
  | nil => exact (List.append_nil _).symm
  | cons name passed ih => rw [List.cons_append, walkCalls, ih, List.append_assoc, walkCalls]

theorem initializeAll_succeeds {names : List String} (hnodup : names.Nodup)
    {mid : PluginManager τ}
    (hsame : ∀ name ∈ names, mid.plugins.lookup name = m.plugins.lookup name) :
    (initializeAll (fun _ _ w => (.ok (), w)) names mid).2.log = m.walkCalls names ++ mid.log := by
  induction names generalizing mid with
  | nil => rfl
  | cons name names ih =>
    obtain ⟨hfirst, hrest⟩ := List.forall_mem_cons.mp hsame
    obtain ⟨hnew, hnodup⟩ := List.nodup_cons.mp hnodup
    rw [initializeAll, walkCalls, startCalls, hfirst]
    cases hinst : m.plugins.lookup name with
    | none => simpa using ih hnodup hrest
    | some inst =>
      by_cases hloaded : inst.state = .loaded
      · have hstate : ¬ inst.state.value ≥ PluginState.initialized.value := by
          rw [hloaded]
          decide
        have hcases := initializeLocked_cases (fun _ _ w => (.ok (), w)) (hfirst.trans hinst) hstate
        simp only [if_pos hloaded]
        generalize initializeLocked _ name mid = outcome at hcases
        cases hcases with
        | unregistered e mid' hregisters => cases hregisters
        | undone e mid' _ hstarts => cases hstarts
        | started mid' state hstarted _ _ hacts =>
          have hahead : ∀ other ∈ names, mid'.plugins.lookup other = m.plugins.lookup other := by
            intro other hother
            have hne : other ≠ name := fun heq => hnew (heq ▸ hother)
            rw [hacts.others other hne, hrest other hother]
          show (initializeAll _ names mid').2.log = _
          rw [ih hnodup hahead, hacts.log, List.append_assoc]
      · simpa only [if_neg hloaded, List.append_nil] using ih hnodup hrest

theorem walkCalls_starting (m : PluginManager τ) (names : List String) :
    Starting (m.walkCalls names) := by
  induction names with
  | nil => exact fun e he => absurd he List.not_mem_nil
  | cons name names ih =>
    intro e he
    rcases List.mem_append.mp he with he | he
    · exact ih e he
    · rw [startCalls] at he
      split at he
      · exact absurd he List.not_mem_nil
      · split at he
        · simp only [List.mem_cons, List.not_mem_nil, or_false] at he
          rcases he with rfl | rfl
          · exact .inr ⟨rfl, rfl⟩
          · exact .inl rfl
        · exact absurd he List.not_mem_nil

/-- A plugin started in a walk was waiting in it. -/
theorem waiting_of_mem_walkCalls {names : List String} {id : Nat} {ok : Bool}
    (h : ⟨id, .init, ok⟩ ∈ m.walkCalls names) :
    ∃ name ∈ names, ∃ inst, m.plugins.lookup name = some inst ∧ inst.state = .loaded ∧
      inst.plugin.id = id := by
  induction names with
  | nil => exact absurd h List.not_mem_nil
  | cons name names ih =>
    rcases List.mem_append.mp h with h | h
    · obtain ⟨other, hother, hwaiting⟩ := ih h
      exact ⟨other, List.mem_cons_of_mem _ hother, hwaiting⟩
    · rw [startCalls] at h
      split at h
      · exact absurd h List.not_mem_nil
      · rename_i inst hinst
        split at h
        · rename_i hloaded
          simp only [List.mem_cons, PluginEvent.mk.injEq, List.not_mem_nil, or_false] at h
          rcases h with ⟨hid, -⟩ | ⟨-, hmethod, -⟩
          · exact ⟨name, List.mem_cons_self, inst, hinst, hloaded, hid.symm⟩
          · cases hmethod
        · exact absurd h List.not_mem_nil

theorem started_or_init {events log : List PluginEvent} {id : Nat} (h : Starting events)
    (hstarted : isStarted id (events ++ log) = true) :
    ⟨id, .init, true⟩ ∈ events ∨ isStarted id log = true := by
  induction events with
  | nil => exact .inr hstarted
  | cons e events ih =>
    obtain ⟨plugin, method, succeeds⟩ := e
    obtain ⟨he, hrest⟩ := List.forall_mem_cons.mp h
    rw [List.cons_append, isStarted] at hstarted
    split at hstarted
    · rename_i hid
      rcases he with he | ⟨he, hok⟩
      · simp only at he
        rw [he] at hstarted
        exact (ih hrest hstarted).imp_left (List.mem_cons_of_mem _)
      · simp only at he hok hid
        rw [he, hok, hid]
        exact .inl List.mem_cons_self
    · exact (ih hrest hstarted).imp_left (List.mem_cons_of_mem _)

/-- In a walk that starts its plugins in order whatever they answer, each comes
after what it depends on: where nothing fails, every one of them is started. -/
theorem orderRespects_of_initializesInOrder (hid : m.Identified) {order : List String}
    (hnodup : order.Nodup) (h : m.InitializesInOrder order) : m.OrderRespects order := by
  have hwalk := h (fun _ _ w => (.ok (), w)) _ (initializeAll_succeeds hnodup fun _ _ => rfl)
  intro earlier name later inst horder hinst hloaded
  rw [horder, walkCalls_append, walkCalls, List.append_assoc, startCalls, hinst] at hwalk
  simp only [if_pos hloaded] at hwalk
  have hdeps := hwalk.of_append.1 rfl name inst hinst rfl
  -- a started target is the dependency itself
  have hwaiting {target : PluginInstance} {dep : String} {ok : Bool}
      (htarget : m.plugins.lookup dep = some target)
      (hmem : ⟨target.plugin.id, .init, ok⟩ ∈ m.walkCalls earlier) :
      target.state = .loaded ∧ dep ∈ earlier := by
    obtain ⟨other, hother, inst', hinst', hloaded', heq⟩ := waiting_of_mem_walkCalls hmem
    obtain rfl := hid.distinct other dep inst' target hinst' htarget heq
    obtain rfl := Option.some.inj (hinst'.symm.trans htarget)
    exact ⟨hloaded', hother⟩
  constructor
  · intro dep hdep hrequired
    obtain ⟨target, htarget, hstarted⟩ := hdeps.required dep hdep hrequired
    refine ⟨target, htarget, ?_⟩
    have hstarting : Starting (⟨inst.plugin.id, .registerComponents, true⟩ ::
        m.walkCalls earlier) :=
      List.forall_mem_cons.mpr ⟨.inl rfl, walkCalls_starting m earlier⟩
    rcases started_or_init hstarting hstarted with hmem | hlog
    · rcases List.mem_cons.mp hmem with hhead | hmem
      · cases congrArg PluginEvent.method hhead
      · exact .inl (hwaiting htarget hmem)
    · exact .inr hlog
  · intro dep hdep hoptional target htarget htargetLoaded
    obtain ⟨ok, hmem⟩ := hdeps.optional dep hdep hoptional target htarget htargetLoaded
    rcases List.mem_cons.mp hmem with hhead | hmem
    · cases congrArg PluginEvent.method hhead
    · exact (hwaiting htarget hmem).2

end PluginManager

/-- Loaded plugins and an order in which the map may be walked. -/
structure PluginWalk (τ : Type) where
  manager : PluginManager τ
  order : List String
  identified : manager.Identified
  walks : order.Perm manager.plugins.keys

namespace PluginWalk

open PluginManager

variable {τ : Type}

theorem nodup (walk : PluginWalk τ) : walk.order.Nodup :=
  walk.walks.nodup_iff.mpr walk.manager.plugins.keys_nodup

/-- The plugins are started after what they need exactly where the walk happens
to respect their dependencies. -/
theorem initializesInOrder_iff (walk : PluginWalk τ) :
    walk.manager.InitializesInOrder walk.order ↔ walk.manager.OrderRespects walk.order := by
  constructor
  · exact orderRespects_of_initializesInOrder walk.identified walk.nodup
  · intro hrespects host events hlog
    exact initializeAll_startsInOrder walk.identified walk.nodup hrespects host walk.order rfl
      (.start _) hlog

/-- A vendor plugin and the base plugin it requires, walked in this order. -/
def vendorFirst : PluginWalk Unit where
  manager := CallRun.final (PluginCall.run willing)
    [.load (some basePlugin) {}, .load (some vendorPlugin) {}] (start ())
  order := ["vendor", "base"]
  identified := final_identified _ _ _
  walks := by decide

theorem initializesInOrder_fails : ¬ ∀ walk : PluginWalk Unit,
    walk.manager.registry.Acyclic → walk.manager.InitializesInOrder walk.order := by
  intro h
  have hinOrder := h vendorFirst (final_acyclic _ _ _)
  have hrespects := orderRespects_of_initializesInOrder vendorFirst.identified vendorFirst.nodup
    hinOrder
  let vendor : PluginInstance := { plugin := ⟨1, vendorPlugin⟩, config := {}, state := .loaded }
  have hafter := hrespects [] "vendor" ["base"] vendor rfl (by decide) rfl
  obtain ⟨target, htarget, hstarted⟩ := hafter.required { pluginName := "base", minVersion := 2 }
    List.mem_cons_self rfl
  rcases hstarted with ⟨-, hearlier⟩ | hlog
  · cases hearlier
  · cases hlog

end PluginWalk

end MBootCore
