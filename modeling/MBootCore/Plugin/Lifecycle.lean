import MBootCore.Plugin.LoadedPlugins
import MBootCore.Plugin.PluginLog

/-!
# Plugin — Lifecycle

The state the manager keeps of a plugin against the calls it has made of it. The
two agree as long as a plugin that failed is left alone: `initialize`, `enable`
and `shutdown` take the states `Disabled` and `Error`, which come after
`Initialized`, for those of a started plugin, and `unload` and `reload`
unregister whatever was registered or not.
-/

namespace MBootCore

namespace PluginManager

open PluginLog

variable {τ : Type} {m m' : PluginManager τ} {host : PluginHost τ}

/-- What the manager says of its plugins agrees with the calls made of them. -/
structure Lifecycle (m : PluginManager τ) : Prop where
  started : ∀ name inst, m.plugins.lookup name = some inst →
    inst.state = .initialized ∨ inst.state = .enabled →
      isStarted inst.plugin.id m.log = true
  registered : ∀ name inst, m.plugins.lookup name = some inst →
    (isRegistered inst.plugin.id m.log = true ↔ isStarted inst.plugin.id m.log = true)
  gone : ∀ id, (∀ name inst, m.plugins.lookup name = some inst → inst.plugin.id ≠ id) →
    isRegistered id m.log = false
  alternates : ∀ id, Alternates (registrations id m.log)

/-! ## The invariant -/

/-- What the state of a plugin says of the calls made of it. -/
structure Fits (inst : PluginInstance) (log : List PluginEvent) : Prop where
  settled : Running inst.plugin.id log ∨ Stopped inst.plugin.id log
  idle : inst.state.value < PluginState.initialized.value → Idle inst.plugin.id log
  running : inst.state = .initialized ∨ inst.state = .enabled → Running inst.plugin.id log

structure Orderly (m : PluginManager τ) : Prop where
  keyed : ∀ name inst, m.plugins.lookup name = some inst → inst.plugin.metadata.name = name
  known : ∀ name inst, m.plugins.lookup name = some inst → inst.plugin.id < m.created
  distinct : ∀ name other inst inst', m.plugins.lookup name = some inst →
    m.plugins.lookup other = some inst' → inst.plugin.id = inst'.plugin.id → name = other
  logged : ∀ e ∈ m.log, e.plugin < m.created
  fits : ∀ name inst, m.plugins.lookup name = some inst → Fits inst m.log
  gone : ∀ id, (∀ name inst, m.plugins.lookup name = some inst → inst.plugin.id ≠ id) →
    isRegistered id m.log = false
  alternates : ∀ id, Alternates (registrations id m.log)

theorem Fits.running_of_started {inst : PluginInstance} {log : List PluginEvent}
    (h : Fits inst log) (hstarted : isStarted inst.plugin.id log = true) :
    Running inst.plugin.id log := by
  rcases h.settled with hrunning | hstopped
  · exact hrunning
  · rw [hstopped.started] at hstarted
    cases hstarted

theorem Orderly.lifecycle (h : m.Orderly) : m.Lifecycle where
  started name inst hinst hstate := ((h.fits name inst hinst).running hstate).started
  registered name inst hinst := by
    rcases (h.fits name inst hinst).settled with hrunning | hstopped
    · simp [hrunning.started, hrunning.registered]
    · simp [hstopped.started, hstopped.registered]
  gone := h.gone
  alternates := h.alternates

theorem start_orderly (world : τ) : (start world).Orderly where
  keyed _ _ h := by cases h
  known _ _ h := by cases h
  distinct _ _ _ _ h := by cases h
  logged _ h := by cases h
  fits _ _ h := by cases h
  gone _ _ := rfl
  alternates _ := ⟨.nil, by simp [start, registrations]⟩

/-- The calls `events` were made of one plugin, and at most its own entry changed. -/
structure Touches (m : PluginManager τ) (name : String) (plugin : Plugin)
    (events : List PluginEvent) (m' : PluginManager τ) : Prop where
  created : m'.created = m.created
  log : m'.log = events ++ m.log
  own : ∀ e ∈ events, e.plugin = plugin.id
  same : ∀ inst, m'.plugins.lookup name = some inst → inst.plugin = plugin
  others : ∀ other, other ≠ name → m'.plugins.lookup other = m.plugins.lookup other

/-- Only what was done to the one plugin is left to be seen. -/
theorem Orderly.touches (h : m.Orderly) {name : String} {inst : PluginInstance}
    {events : List PluginEvent} (hinst : m.plugins.lookup name = some inst)
    (ht : Touches m name inst.plugin events m')
    (hfits : ∀ inst', m'.plugins.lookup name = some inst' → Fits inst' m'.log)
    (hgone : m'.plugins.lookup name = none → isRegistered inst.plugin.id m'.log = false)
    (halternates : Alternates (registrations inst.plugin.id m'.log)) : m'.Orderly := by
  have hfrom : ∀ other inst', m'.plugins.lookup other = some inst' →
      ∃ before, m.plugins.lookup other = some before ∧ inst'.plugin = before.plugin ∧
        (other ≠ name → inst' = before) := by
    intro other inst' hother
    by_cases hname : other = name
    · subst hname
      exact ⟨inst, hinst, ht.same inst' hother, fun hne => absurd rfl hne⟩
    · exact ⟨inst', (ht.others other hname) ▸ hother, rfl, fun _ => rfl⟩
  have hframe : ∀ id, id ≠ inst.plugin.id → ∀ e ∈ events, e.plugin ≠ id := by
    intro id hid e he heq
    exact hid (heq.symm.trans (ht.own e he))
  constructor
  case keyed =>
    intro other inst' hother
    obtain ⟨before, hbefore, hplugin, -⟩ := hfrom other inst' hother
    rw [hplugin]
    exact h.keyed other before hbefore
  case known =>
    intro other inst' hother
    obtain ⟨before, hbefore, hplugin, -⟩ := hfrom other inst' hother
    rw [hplugin, ht.created]
    exact h.known other before hbefore
  case distinct =>
    intro other other' inst' inst'' hother hother' hid
    obtain ⟨before, hbefore, hplugin, -⟩ := hfrom other inst' hother
    obtain ⟨before', hbefore', hplugin', -⟩ := hfrom other' inst'' hother'
    rw [hplugin, hplugin'] at hid
    exact h.distinct other other' before before' hbefore hbefore' hid
  case logged =>
    intro e he
    rw [ht.created]
    rw [ht.log, List.mem_append] at he
    rcases he with he | he
    · rw [ht.own e he]
      exact h.known name inst hinst
    · exact h.logged e he
  case fits =>
    intro other inst' hother
    by_cases hname : other = name
    · exact hfits inst' (hname ▸ hother)
    · obtain ⟨before, hbefore, -, hsame⟩ := hfrom other inst' hother
      obtain rfl := hsame hname
      have hid : inst'.plugin.id ≠ inst.plugin.id := fun heq =>
        hname (h.distinct other name inst' inst hbefore hinst heq)
      have hothers := hframe inst'.plugin.id hid
      obtain ⟨hsettled, hidle, hrunning⟩ := h.fits other inst' hbefore
      have hruns (hrun : Running inst'.plugin.id m.log) : Running inst'.plugin.id m'.log := by
        rw [ht.log]
        exact ⟨(isStarted_others _ hothers).trans hrun.started,
          (isRegistered_others _ hothers).trans hrun.registered,
          by rw [registrations_others _ hothers, hrun.latest]⟩
      have hstops (hstop : Stopped inst'.plugin.id m.log) : Stopped inst'.plugin.id m'.log := by
        rw [ht.log]
        exact ⟨(isStarted_others _ hothers).trans hstop.started,
          (isRegistered_others _ hothers).trans hstop.registered⟩
      refine ⟨hsettled.imp hruns hstops, fun hstate => ⟨hstops (hidle hstate).toStopped, ?_⟩,
        fun hstate => hruns (hrunning hstate)⟩
      rw [ht.log, registrations_others _ hothers]
      exact (hidle hstate).latest
  case gone =>
    intro id hnone
    by_cases hid : id = inst.plugin.id
    · subst hid
      apply hgone
      cases hlookup : m'.plugins.lookup name with
      | none => rfl
      | some inst' =>
        exact absurd (congrArg Plugin.id (ht.same inst' hlookup)) (hnone name inst' hlookup)
    · rw [ht.log, isRegistered_others _ (hframe id hid)]
      apply h.gone
      intro other before hbefore heq
      have hname : other ≠ name := by
        rintro rfl
        obtain rfl := Option.some.inj (hinst.symm.trans hbefore)
        exact hid heq.symm
      exact hnone other before ((ht.others other hname).trans hbefore) heq
  case alternates =>
    intro id
    by_cases hid : id = inst.plugin.id
    · exact hid ▸ halternates
    · rw [ht.log, registrations_others _ (hframe id hid)]
      exact h.alternates id

/-! ## What the calls do -/

theorem callPlugin_eq {plugin : Plugin} {method : PluginMethod} {result : Except ErrorCode Unit}
    (h : callPlugin host plugin method m = (result, m')) :
    m'.plugins = m.plugins ∧ m'.created = m.created ∧
      m'.log = ⟨plugin.id, method, result.isOk⟩ :: m.log := by
  cases h
  exact ⟨rfl, rfl, rfl⟩

@[simp] theorem store_log (name : String) (inst : PluginInstance) :
    (m.store name inst).log = m.log := rfl

@[simp] theorem store_created (name : String) (inst : PluginInstance) :
    (m.store name inst).created = m.created := rfl

@[simp] theorem setPluginState_log (name : String) (state : PluginState) :
    (m.setPluginState name state).log = m.log := by
  unfold setPluginState
  split <;> rfl

@[simp] theorem setPluginState_created (name : String) (state : PluginState) :
    (m.setPluginState name state).created = m.created := by
  unfold setPluginState
  split <;> rfl

theorem lookup_store (name other : String) (inst : PluginInstance) :
    (m.store name inst).plugins.lookup other
      = if other = name then some inst else m.plugins.lookup other := by
  split
  · rename_i hother
    rw [hother]
    exact AList.lookup_insert _
  · rename_i hother
    exact AList.lookup_insert_ne hother

theorem lookup_setPluginState (name other : String) (state : PluginState) :
    (m.setPluginState name state).plugins.lookup other
      = if other = name then (m.plugins.lookup name).map ({ · with state })
        else m.plugins.lookup other := by
  rw [setPluginState]
  cases hinst : m.plugins.lookup name with
  | none =>
    by_cases hother : other = name
    · rw [if_pos hother, hother, Option.map_none]
      exact hinst
    · exact (if_neg hother).symm
  | some inst => exact lookup_store name other _

/-- The calls `events` were made of one plugin, and it is left in a state. -/
structure Acts (m : PluginManager τ) (name : String) (inst : PluginInstance)
    (events : List PluginEvent) (state : PluginState) (m' : PluginManager τ) : Prop where
  created : m'.created = m.created
  log : m'.log = events ++ m.log
  self : ∃ config, m'.plugins.lookup name = some { inst with config, state }
  others : ∀ other, other ≠ name → m'.plugins.lookup other = m.plugins.lookup other

namespace Acts

variable {name : String} {inst : PluginInstance} {events : List PluginEvent} {state : PluginState}

theorem touches (h : Acts m name inst events state m')
    (hown : ∀ e ∈ events, e.plugin = inst.plugin.id) : Touches m name inst.plugin events m' where
  created := h.created
  log := h.log
  own := hown
  same inst' hinst' := by
    obtain ⟨config, hself⟩ := h.self
    rw [hself] at hinst'
    obtain rfl := Option.some.inj hinst'
    rfl
  others := h.others

theorem start (hinst : m.plugins.lookup name = some inst) :
    Acts m name inst [] inst.state m where
  created := rfl
  log := rfl
  self := ⟨inst.config, hinst⟩
  others _ _ := rfl

/-- A call of the plugin on top. -/
theorem call (h : Acts m name inst events state m') {method : PluginMethod}
    {result : Except ErrorCode Unit} {m'' : PluginManager τ}
    (hcall : callPlugin host inst.plugin method m' = (result, m'')) :
    Acts m name inst (⟨inst.plugin.id, method, result.isOk⟩ :: events) state m'' := by
  obtain ⟨hplugins, hcreated, hlog⟩ := callPlugin_eq hcall
  constructor
  · rw [hcreated, h.created]
  · rw [hlog, h.log, List.cons_append]
  · rw [hplugins]
    exact h.self
  · rw [hplugins]
    exact h.others

theorem setState (h : Acts m name inst events state m') (state' : PluginState) :
    Acts m name inst events state' (m'.setPluginState name state') where
  created := by rw [setPluginState_created, h.created]
  log := by rw [setPluginState_log, h.log]
  self := by
    obtain ⟨config, hself⟩ := h.self
    exact ⟨config, by rw [lookup_setPluginState, if_pos rfl, hself]; rfl⟩
  others other hother := by
    rw [lookup_setPluginState, if_neg hother, h.others other hother]

theorem configure (h : Acts m name inst events inst.state m') (config : PluginConfig) :
    Acts m name inst events inst.state (m'.store name { inst with config }) where
  created := h.created
  log := h.log
  self := ⟨config, by rw [lookup_store, if_pos rfl]⟩
  others other hother := by rw [lookup_store, if_neg hother, h.others other hother]

end Acts

/-- What a plugin answers when it is started: whether each of the calls succeeds,
`undoes` being the `unregisterComponents()` after an `initialize()` that failed. -/
structure StartAnswers where
  registers : Bool
  starts : Bool
  undoes : Bool
  deriving DecidableEq, Repr

def startAnswers (host : PluginHost τ) (id : Nat) (world : τ) : StartAnswers :=
  let registered := host id .registerComponents world
  let started := host id .init registered.2
  let undone := host id .unregisterComponents started.2
  ⟨registered.1.isOk, started.1.isOk, undone.1.isOk⟩

/-- How an attempt to start a plugin goes. -/
inductive Initializes (answers : StartAnswers) (m : PluginManager τ) (name : String)
    (inst : PluginInstance) : Except ErrorCode Unit × PluginManager τ → Prop
  | unregistered (e : ErrorCode) (m' : PluginManager τ) (hregisters : answers.registers = false)
    (h : Acts m name inst [⟨inst.plugin.id, .registerComponents, false⟩] .error m') :
    Initializes answers m name inst (.error e, m')
  | undone (e : ErrorCode) (m' : PluginManager τ) (hregisters : answers.registers = true)
    (hstarts : answers.starts = false)
    (h : Acts m name inst [⟨inst.plugin.id, .unregisterComponents, answers.undoes⟩,
      ⟨inst.plugin.id, .init, false⟩, ⟨inst.plugin.id, .registerComponents, true⟩] .error m') :
    Initializes answers m name inst (.error e, m')
  | started (m' : PluginManager τ) (state : PluginState)
    (hstate : state = .initialized ∨ state = .enabled) (hregisters : answers.registers = true)
    (hstarts : answers.starts = true)
    (h : Acts m name inst [⟨inst.plugin.id, .init, true⟩,
      ⟨inst.plugin.id, .registerComponents, true⟩] state m') :
    Initializes answers m name inst (.ok (), m')

theorem initializeLocked_cases (host : PluginHost τ) {name : String} {inst : PluginInstance}
    (hinst : m.plugins.lookup name = some inst)
    (hstate : ¬ inst.state.value ≥ PluginState.initialized.value) :
    Initializes (startAnswers host inst.plugin.id m.world) m name inst
      (initializeLocked host name m) := by
  have herror : inst.state ≠ .error := by
    intro heq
    rw [heq] at hstate
    exact hstate (by decide)
  rw [initializeLocked, hinst]
  simp only [if_neg hstate, if_neg herror]
  split
  · rename_i e m₁ hregister
    have hfails : (startAnswers host inst.plugin.id m.world).registers = false :=
      congrArg (·.1.isOk) hregister
    exact .unregistered e _ hfails (((Acts.start hinst).call hregister).setState .error)
  · rename_i m₁ hregister
    have hsucceeds : (startAnswers host inst.plugin.id m.world).registers = true :=
      congrArg (·.1.isOk) hregister
    have hregistered := (Acts.start hinst).call hregister
    obtain rfl : (registerPluginComponents host inst.plugin m).2 = m₁ :=
      congrArg (·.2) hregister
    split
    · rename_i e m₂ hinit
      have hfails : (startAnswers host inst.plugin.id m.world).starts = false :=
        congrArg (·.1.isOk) hinit
      obtain rfl : (callPlugin host inst.plugin .init _).2 = m₂ := congrArg (·.2) hinit
      exact .undone e _ hsucceeds hfails (((hregistered.call hinit).call rfl).setState .error)
    · rename_i m₂ hinit
      have hstarts : (startAnswers host inst.plugin.id m.world).starts = true :=
        congrArg (·.1.isOk) hinit
      have hstarted := (hregistered.call hinit).setState .initialized
      split
      · exact .started _ .enabled (.inr rfl) hsucceeds hstarts (hstarted.setState .enabled)
      · exact .started _ .initialized (.inl rfl) hsucceeds hstarts hstarted

/-- What a plugin answers when it is shut down. -/
structure StopAnswers where
  stops : Bool
  unregisters : Bool
  deriving DecidableEq, Repr

def stopAnswers (host : PluginHost τ) (id : Nat) (world : τ) : StopAnswers :=
  let stopped := host id .shutdown world
  let unregistered := host id .unregisterComponents stopped.2
  ⟨stopped.1.isOk, unregistered.1.isOk⟩

/-- How an attempt to shut a plugin down goes. -/
inductive ShutsDown (answers : StopAnswers) (m : PluginManager τ) (name : String)
    (inst : PluginInstance) : Except ErrorCode Unit × PluginManager τ → Prop
  | failed (e : ErrorCode) (m' : PluginManager τ) (hstops : answers.stops = false)
    (h : Acts m name inst [⟨inst.plugin.id, .shutdown, false⟩] .error m') :
    ShutsDown answers m name inst (.error e, m')
  | stopped (m' : PluginManager τ)
    (h : Acts m name inst [⟨inst.plugin.id, .unregisterComponents, answers.unregisters⟩,
      ⟨inst.plugin.id, .shutdown, true⟩] .loaded m') :
    ShutsDown answers m name inst (.ok (), m')

@[simp] theorem setPluginState_world (name : String) (state : PluginState) :
    (m.setPluginState name state).world = m.world := by
  unfold setPluginState
  split <;> rfl

theorem shutdownLocked_cases (host : PluginHost τ) {name : String} {inst : PluginInstance}
    (hinst : m.plugins.lookup name = some inst)
    (hstate : ¬ inst.state.value < PluginState.initialized.value) :
    ShutsDown (stopAnswers host inst.plugin.id m.world) m name inst
      (shutdownLocked host name m) := by
  have hdisabled := (Acts.start hinst).setState .disabled
  rw [shutdownLocked, hinst, ← setPluginState_world name .disabled]
  simp only [if_neg hstate]
  split
  · rename_i e m₁ hshutdown
    exact .failed e _ (congrArg (·.1.isOk) hshutdown) ((hdisabled.call hshutdown).setState .error)
  · rename_i m₁ hshutdown
    have hstopped := hdisabled.call hshutdown
    obtain rfl : (callPlugin host inst.plugin .shutdown _).2 = m₁ := congrArg (·.2) hshutdown
    exact .stopped _ ((hstopped.call rfl).setState .loaded)

theorem setEnabled_acts (host : PluginHost τ) {name : String} {inst : PluginInstance}
    (enabled : Bool) (state : PluginState) (hinst : m.plugins.lookup name = some inst) :
    ∃ ok, Acts m name inst [⟨inst.plugin.id, .setEnabled enabled, ok⟩]
      (if inst.state.value ≥ PluginState.initialized.value then state else inst.state)
      (setEnabled host enabled state name m).2 := by
  have hcall : Acts m name inst
      [⟨inst.plugin.id, .setEnabled enabled,
        (callPlugin host inst.plugin (.setEnabled enabled) m).1.isOk⟩] inst.state
      (callPlugin host inst.plugin (.setEnabled enabled) m).2 := (Acts.start hinst).call rfl
  refine ⟨(callPlugin host inst.plugin (.setEnabled enabled) m).1.isOk, ?_⟩
  rw [setEnabled, hinst]
  dsimp only
  split
  · exact (hcall.configure _).setState state
  · exact hcall.configure _

/-! ## Careful calls -/

/-- A plugin in a state from `Initialized` on was started. -/
def StartedIfActive (m : PluginManager τ) (name : String) : Prop :=
  ∀ inst ∈ m.plugins.lookup name, inst.state.value ≥ PluginState.initialized.value →
    isStarted inst.plugin.id m.log = true

/-- A failed start is undone. -/
def StartAnswers.EndsWell (answers : StartAnswers) : Prop :=
  answers.registers = true → answers.starts = false → answers.undoes = true

def StartAnswers.Succeeds (answers : StartAnswers) : Prop :=
  answers.registers = true ∧ answers.starts = true

def StopAnswers.Succeeds (answers : StopAnswers) : Prop :=
  answers.stops = true ∧ answers.unregisters = true

/-- The plugin lets go of its components, and where it can be loaded again it starts. -/
structure Restarts (host : PluginHost τ) (m : PluginManager τ) (name : String)
    (inst : PluginInstance) : Prop where
  unregisters : (host inst.plugin.id .unregisterComponents m.world).1.isOk = true
  starts : (m.registry.remove name).Loadable inst.plugin.metadata →
    (startAnswers host inst.plugin.id
      (host inst.plugin.id .unregisterComponents m.world).2).Succeeds

/-- The calls that keep the lifecycles in order, by the states of the plugins and
what they answer. -/
def CarefulLifecycle (host : PluginHost τ) (m : PluginManager τ) : PluginCall → Prop
  | .load _ _ => True
  | .unload name => name ∉ m.plugins
  | .reload name => ∀ inst ∈ m.plugins.lookup name,
      isStarted inst.plugin.id m.log = true ∧ Restarts host m name inst
  | .init name => m.StartedIfActive name ∧ ∀ inst ∈ m.plugins.lookup name,
      inst.state.value < PluginState.initialized.value →
        (startAnswers host inst.plugin.id m.world).EndsWell
  | .shutdown name => m.StartedIfActive name ∧ ∀ inst ∈ m.plugins.lookup name,
      inst.state.value ≥ PluginState.initialized.value →
        (stopAnswers host inst.plugin.id m.world).Succeeds
  | .enable name => m.StartedIfActive name
  | .disable _ => True

theorem loadLocked_isOk (plugin : Plugin) (config : PluginConfig) (m : PluginManager τ) :
    (loadLocked plugin config m).1.isOk = true ↔ m.registry.Loadable plugin.metadata := by
  rcases loadLocked_cases plugin config m with ⟨hloadable, hload⟩ | ⟨hfails, e, hload⟩
  · rw [hload]
    exact ⟨fun _ => hloadable, fun _ => rfl⟩
  · rw [hload]
    constructor
    · intro hok
      cases hok
    · exact fun hloadable => absurd hloadable hfails

instance (name : String) : Decidable (m.StartedIfActive name) :=
  inferInstanceAs (Decidable (∀ inst ∈ m.plugins.lookup name, _))

instance (answers : StartAnswers) : Decidable answers.EndsWell :=
  inferInstanceAs (Decidable (answers.registers = true → _))

instance (answers : StartAnswers) : Decidable answers.Succeeds :=
  inferInstanceAs (Decidable (answers.registers = true ∧ _))

instance (answers : StopAnswers) : Decidable answers.Succeeds :=
  inferInstanceAs (Decidable (answers.stops = true ∧ _))

instance (name : String) (plugin : Plugin) :
    Decidable ((m.registry.remove name).Loadable plugin.metadata) :=
  decidable_of_iff ((loadLocked plugin {} (m.erase name)).1.isOk = true)
    ((loadLocked_isOk plugin {} (m.erase name)).trans (by rw [registry_erase]))

instance (name : String) (inst : PluginInstance) : Decidable (Restarts host m name inst) :=
  decidable_of_iff ((host inst.plugin.id .unregisterComponents m.world).1.isOk = true ∧
      ((m.registry.remove name).Loadable inst.plugin.metadata →
        (startAnswers host inst.plugin.id
          (host inst.plugin.id .unregisterComponents m.world).2).Succeeds))
    ⟨fun h => ⟨h.1, h.2⟩, fun h => ⟨h.1, h.2⟩⟩

instance (c : PluginCall) : Decidable (m.CarefulLifecycle host c) :=
  match c with
  | .load _ _ | .disable _ => .isTrue trivial
  | .unload name => inferInstanceAs (Decidable (name ∉ m.plugins))
  | .reload name => inferInstanceAs (Decidable (∀ inst ∈ m.plugins.lookup name, _))
  | .init name => inferInstanceAs (Decidable (m.StartedIfActive name ∧ _))
  | .shutdown name => inferInstanceAs (Decidable (m.StartedIfActive name ∧ _))
  | .enable name => inferInstanceAs (Decidable (m.StartedIfActive name))

theorem Orderly.acts (h : m.Orderly) {name : String} {inst : PluginInstance}
    {events : List PluginEvent} {state : PluginState} (hinst : m.plugins.lookup name = some inst)
    (ha : Acts m name inst events state m') (hown : ∀ e ∈ events, e.plugin = inst.plugin.id)
    (hsettled : Running inst.plugin.id m'.log ∨ Stopped inst.plugin.id m'.log)
    (hidle : state.value < PluginState.initialized.value → Idle inst.plugin.id m'.log)
    (hrunning : state = .initialized ∨ state = .enabled → Running inst.plugin.id m'.log)
    (halternates : Alternates (registrations inst.plugin.id m'.log)) : m'.Orderly := by
  obtain ⟨config, hself⟩ := ha.self
  apply h.touches hinst (ha.touches hown)
  · intro inst' hinst'
    rw [hself] at hinst'
    obtain rfl := Option.some.inj hinst'
    exact ⟨hsettled, hidle, hrunning⟩
  · intro hnone
    rw [hself] at hnone
    cases hnone
  · exact halternates

theorem orderly_setEnabled (h : m.Orderly) (enabled : Bool) {state : PluginState} {name : String}
    (hstate : state = .disabled ∨ (state = .enabled ∧ m.StartedIfActive name)) :
    (setEnabled host enabled state name m).2.Orderly := by
  cases hinst : m.plugins.lookup name with
  | none =>
    rw [setEnabled, hinst]
    exact h
  | some inst =>
    obtain ⟨ok, ha⟩ := setEnabled_acts host enabled state hinst
    obtain ⟨hsettled, hidle, hrunning⟩ := h.fits name inst hinst
    have hlog := ha.log
    rw [List.cons_append, List.nil_append] at hlog
    apply h.acts hinst ha (by simp)
    · rw [hlog]
      exact hsettled.imp (·.setEnabled _ _ _) (·.setEnabled _ _ _)
    · rw [hlog]
      split
      · rcases hstate with rfl | ⟨rfl, -⟩ <;> exact fun hvalue => absurd hvalue (by decide)
      · exact fun hvalue => (hidle hvalue).setEnabled _ _ _
    · rw [hlog]
      split
      · rename_i hactive
        rcases hstate with rfl | ⟨rfl, hstarted⟩
        · simp
        · intro _
          have hrun := (h.fits name inst hinst).running_of_started (hstarted inst hinst hactive)
          exact hrun.setEnabled _ _ _
      · exact fun heq => (hrunning heq).setEnabled _ _ _
    · rw [hlog, (setEnabled_neutral _ _ _ _ _).2.2]
      exact h.alternates _

theorem orderly_shutdown (h : m.Orderly) {name : String}
    (hc : m.CarefulLifecycle host (.shutdown name)) : (shutdownLocked host name m).2.Orderly := by
  cases hinst : m.plugins.lookup name with
  | none =>
    rw [shutdownLocked, hinst]
    exact h
  | some inst =>
    by_cases hstate : inst.state.value < PluginState.initialized.value
    · rw [shutdownLocked, hinst]
      simp only [if_pos hstate]
      exact h
    have hrun := (h.fits name inst hinst).running_of_started
      (hc.1 inst hinst (UInt32.not_lt.mp hstate))
    obtain ⟨hstops, hunregisters⟩ := hc.2 inst hinst (UInt32.not_lt.mp hstate)
    have hcases := shutdownLocked_cases host hinst hstate
    generalize shutdownLocked host name m = outcome at hcases
    cases hcases with
    | failed e m₁ hfails =>
      rw [hstops] at hfails
      cases hfails
    | stopped m₁ ha =>
      rw [hunregisters] at ha
      have hidle : Idle inst.plugin.id m₁.log := by
        rw [ha.log]
        exact idle_of_shutdown _ _
      apply h.acts hinst ha (by simp) (.inr hidle.toStopped) (fun _ => hidle) (by simp)
      rw [ha.log]
      simpa [registrations] using alternates_unregister (h.alternates _) hrun.latest

/-- What a start of an idle plugin leaves behind. -/
theorem orderly_initializes (h : m.Orderly) {name : String} {inst : PluginInstance}
    {answers : StartAnswers} {outcome : Except ErrorCode Unit × PluginManager τ}
    (hinst : m.plugins.lookup name = some inst) (hidle : Idle inst.plugin.id m.log)
    (ho : Initializes answers m name inst outcome) (hends : answers.EndsWell) :
    outcome.2.Orderly := by
  have hregister := alternates_register (h.alternates inst.plugin.id) hidle.latest
  cases ho with
  | unregistered e m₁ _ ha =>
    have hafter := hidle.register false
    apply h.acts hinst ha (by simp)
    · rw [ha.log]
      exact .inr ⟨hafter.1, hafter.2⟩
    · exact fun hvalue => absurd hvalue (by decide)
    · simp
    · rw [ha.log]
      simpa [registrations] using hregister
  | undone e m₁ hregisters hstarts ha =>
    rw [hends hregisters hstarts] at ha
    apply h.acts hinst ha (by simp)
    · rw [ha.log]
      exact .inr (idle_of_undone _ _).toStopped
    · exact fun hvalue => absurd hvalue (by decide)
    · simp
    · rw [ha.log]
      simpa [registrations] using alternates_unregister hregister rfl
  | started m₁ state hstate _ _ ha =>
    have hrun : Running inst.plugin.id m₁.log := by
      rw [ha.log]
      exact running_of_init _ _
    apply h.acts hinst ha (by simp) (.inl hrun)
    · rcases hstate with rfl | rfl <;> exact fun hvalue => absurd hvalue (by decide)
    · exact fun _ => hrun
    · rw [ha.log]
      simpa [registrations] using hregister

theorem orderly_init (h : m.Orderly) {name : String}
    (hc : m.CarefulLifecycle host (.init name)) : (initializeLocked host name m).2.Orderly := by
  cases hinst : m.plugins.lookup name with
  | none =>
    rw [initializeLocked, hinst]
    exact h
  | some inst =>
    by_cases hstate : inst.state.value ≥ PluginState.initialized.value
    · rw [initializeLocked, hinst]
      simp only [if_pos hstate]
      exact h
    have hloaded := UInt32.not_le.mp hstate
    exact orderly_initializes h hinst ((h.fits name inst hinst).idle hloaded)
      (initializeLocked_cases host hinst hstate) (hc.2 inst hinst hloaded)

theorem Orderly.create (h : m.Orderly) : Orderly { m with created := m.created + 1 } where
  keyed := h.keyed
  known name inst hinst := Nat.lt_succ_of_lt (h.known name inst hinst)
  distinct := h.distinct
  logged e he := Nat.lt_succ_of_lt (h.logged e he)
  fits := h.fits
  gone := h.gone
  alternates := h.alternates

/-- A new plugin, of which no call was made yet. -/
theorem Orderly.add (h : m.Orderly) {plugin : Plugin} {config : PluginConfig}
    (hfresh : plugin.metadata.name ∉ m.plugins) (hid : plugin.id < m.created)
    (hnew : ∀ name inst, m.plugins.lookup name = some inst → inst.plugin.id ≠ plugin.id)
    (hlog : ∀ e ∈ m.log, e.plugin ≠ plugin.id) :
    (m.store plugin.metadata.name { plugin, config, state := .loaded }).Orderly := by
  have hfrom : ∀ {name inst}, (m.store plugin.metadata.name
      { plugin, config, state := .loaded }).plugins.lookup name = some inst →
      (name = plugin.metadata.name ∧ inst = { plugin, config, state := .loaded }) ∨
        m.plugins.lookup name = some inst := by
    intro name inst hinst
    rw [lookup_store] at hinst
    split at hinst
    · exact .inl ⟨‹_›, (Option.some.inj hinst).symm⟩
    · exact .inr hinst
  constructor
  case keyed =>
    intro name inst hinst
    rcases hfrom hinst with ⟨rfl, rfl⟩ | hinst
    · rfl
    · exact h.keyed name inst hinst
  case known =>
    intro name inst hinst
    rcases hfrom hinst with ⟨rfl, rfl⟩ | hinst
    · exact hid
    · exact h.known name inst hinst
  case distinct =>
    intro name other inst inst' hinst hinst' heq
    rcases hfrom hinst with ⟨rfl, rfl⟩ | hinst <;> rcases hfrom hinst' with ⟨rfl, rfl⟩ | hinst'
    · rfl
    · exact absurd heq.symm (hnew other inst' hinst')
    · exact absurd heq (hnew name inst hinst)
    · exact h.distinct name other inst inst' hinst hinst' heq
  case logged => exact h.logged
  case fits =>
    intro name inst hinst
    rcases hfrom hinst with ⟨rfl, rfl⟩ | hinst
    · have hidle : Idle plugin.id m.log := idle_of_new hlog
      exact ⟨.inr hidle.toStopped, fun _ => hidle, by simp⟩
    · exact h.fits name inst hinst
  case gone =>
    intro id hnone
    apply h.gone
    intro name inst hinst
    apply hnone name inst
    have hne : name ≠ plugin.metadata.name := by
      rintro rfl
      exact hfresh (AList.lookup_isSome.mp (by rw [hinst]; rfl))
    rw [lookup_store, if_neg hne, hinst]
  case alternates => exact h.alternates

theorem orderly_load (h : m.Orderly) (metadata : Option PluginMetadata) (config : PluginConfig) :
    (load metadata config m).2.Orderly := by
  cases metadata with
  | none => exact h
  | some metadata =>
    rw [load]
    rcases loadLocked_cases { id := m.created, metadata } config
      { m with created := m.created + 1 } with ⟨hloadable, hload⟩ | ⟨-, e, hload⟩
    · rw [hload]
      apply h.create.add
      · intro hmem
        have hsome := registry_isSome.mpr hmem
        rw [hloadable.fresh] at hsome
        cases hsome
      · exact Nat.lt_succ_self _
      · intro name inst hinst
        exact Nat.ne_of_lt (h.known name inst hinst)
      · intro e he
        exact Nat.ne_of_lt (h.logged e he)
    · rw [hload]
      exact h.create

theorem Acts.after {name : String} {inst inst' : PluginInstance} {earlier later : List PluginEvent}
    {state state' : PluginState} {m'' : PluginManager τ}
    (h : Acts m name inst earlier state m') (h' : Acts m' name inst' later state' m'')
    (hplugin : inst'.plugin = inst.plugin) : Acts m name inst (later ++ earlier) state' m'' where
  created := h'.created.trans h.created
  log := by rw [h'.log, h.log, List.append_assoc]
  self := by
    obtain ⟨config, hself⟩ := h'.self
    rw [hplugin] at hself
    exact ⟨config, hself⟩
  others other hother := (h'.others other hother).trans (h.others other hother)

/-- The plugin after it was taken away and loaded again. -/
def reloaded (host : PluginHost τ) (name : String) (inst : PluginInstance) (m : PluginManager τ) :
    PluginManager τ :=
  ((unregisterPluginComponents host inst.plugin m).2.erase name).store name
    { plugin := inst.plugin, config := inst.config, state := .loaded }

theorem reloaded_acts (host : PluginHost τ) (name : String) (inst : PluginInstance)
    (m : PluginManager τ) :
    Acts m name inst [⟨inst.plugin.id, .unregisterComponents,
      (host inst.plugin.id .unregisterComponents m.world).1.isOk⟩] .loaded
      (reloaded host name inst m) where
  created := rfl
  log := rfl
  self := by
    refine ⟨inst.config, ?_⟩
    rw [reloaded, lookup_store, if_pos rfl]
  others other hother := by
    rw [reloaded, lookup_store, if_neg hother]
    exact AList.lookup_erase_ne hother

/-- A plugin that is not loaded again is gone. -/
theorem orderly_erase (h : m.Orderly) {name : String} {inst : PluginInstance}
    (hinst : m.plugins.lookup name = some inst) (hrun : Running inst.plugin.id m.log)
    (hunregisters : (host inst.plugin.id .unregisterComponents m.world).1.isOk = true) :
    ((unregisterPluginComponents host inst.plugin m).2.erase name).Orderly := by
  have hnone : ((unregisterPluginComponents host inst.plugin m).2.erase name).plugins.lookup name
      = none := AList.lookup_erase _ _
  have htouches : Touches m name inst.plugin [⟨inst.plugin.id, .unregisterComponents, true⟩]
      ((unregisterPluginComponents host inst.plugin m).2.erase name) := by
    refine ⟨rfl, by rw [← hunregisters]; rfl, by simp, ?_,
      fun other hother => AList.lookup_erase_ne hother⟩
    intro inst' hinst'
    rw [hnone] at hinst'
    cases hinst'
  apply h.touches hinst htouches
  · intro inst' hinst'
    rw [hnone] at hinst'
    cases hinst'
  · intro _
    rw [htouches.log]
    simp [isRegistered]
  · rw [htouches.log]
    simpa [registrations] using alternates_unregister (h.alternates inst.plugin.id) hrun.latest

/-- A plugin that is loaded again and starts is running. -/
theorem orderly_restarts (h : m.Orderly) {name : String} {inst : PluginInstance}
    (hinst : m.plugins.lookup name = some inst) (hrun : Running inst.plugin.id m.log)
    (hstarts : (startAnswers host inst.plugin.id (reloaded host name inst m).world).Succeeds) :
    (initializeLocked host name (reloaded host name inst m)).2.Orderly := by
  have hacts := reloaded_acts host name inst m
  obtain ⟨config, hself⟩ := hacts.self
  have hcases := initializeLocked_cases host hself
    (show ¬ PluginState.loaded.value ≥ PluginState.initialized.value by decide)
  generalize initializeLocked host name (reloaded host name inst m) = outcome at hcases
  cases hcases with
  | unregistered e m₁ hregisters => exact absurd hstarts.1 (by rw [hregisters]; decide)
  | undone e m₁ _ hfails => exact absurd hstarts.2 (by rw [hfails]; decide)
  | started m₁ state hstate _ _ ha =>
    have hlog := ha.log
    rw [hacts.log] at hlog
    have hrunning : Running inst.plugin.id m₁.log := by
      rw [hlog]
      exact running_of_init _ _
    apply h.acts hinst (hacts.after ha rfl) (by simp) (.inl hrunning)
    · rcases hstate with rfl | rfl <;> exact fun hvalue => absurd hvalue (by decide)
    · exact fun _ => hrunning
    · have hunregister := alternates_unregister (h.alternates inst.plugin.id) hrun.latest
      rw [hlog]
      simpa [registrations] using alternates_register hunregister (by simp)

theorem orderly_reload (h : m.Orderly) {name : String}
    (hc : m.CarefulLifecycle host (.reload name)) : (reload host name m).2.Orderly := by
  cases hinst : m.plugins.lookup name with
  | none =>
    rw [reload, hinst]
    exact h
  | some inst =>
    obtain ⟨hstarted, hrestarts⟩ := hc inst hinst
    have hrun := (h.fits name inst hinst).running_of_started hstarted
    have herased : ((unregisterPluginComponents host inst.plugin m).2.erase name).registry
        = m.registry.remove name := by
      rw [registry_erase, registry_congr (unregisterPluginComponents_plugins _)]
    rw [reload, hinst]
    dsimp only
    rcases loadLocked_cases inst.plugin inst.config
      ((unregisterPluginComponents host inst.plugin m).2.erase name) with
        ⟨hloadable, hload⟩ | ⟨-, e, hload⟩
    · rw [herased] at hloadable
      rw [hload, h.keyed name inst hinst]
      exact orderly_restarts h hinst hrun (hrestarts.starts hloadable)
    · rw [hload]
      exact orderly_erase h hinst hrun hrestarts.unregisters

theorem Orderly.run (h : m.Orderly) {c : PluginCall} (hc : m.CarefulLifecycle host c) :
    (c.run host m).2.Orderly := by
  cases c with
  | load metadata config => exact orderly_load h metadata config
  | unload name =>
    have hnone : m.plugins.lookup name = none := AList.lookup_eq_none.mpr hc
    rw [PluginCall.run, unload, hnone]
    exact h
  | reload name => exact orderly_reload h hc
  | init name => exact orderly_init h hc
  | shutdown name => exact orderly_shutdown h hc
  | enable name => exact orderly_setEnabled h true (.inr ⟨rfl, hc⟩)
  | disable name => exact orderly_setEnabled h false (.inl rfl)

/-- An `initialize` that returns `Ok` leaves the plugin started. -/
theorem started_of_init {name : String} (hc : m.CarefulLifecycle host (.init name))
    (hok : (initializeLocked host name m).1 = .ok ()) :
    ∃ inst, (initializeLocked host name m).2.plugins.lookup name = some inst ∧
      isStarted inst.plugin.id (initializeLocked host name m).2.log = true := by
  cases hinst : m.plugins.lookup name with
  | none =>
    rw [initializeLocked, hinst] at hok
    cases hok
  | some inst =>
    by_cases hstate : inst.state.value ≥ PluginState.initialized.value
    · have hsame : initializeLocked host name m = (.ok (), m) := by
        rw [initializeLocked, hinst]
        exact if_pos hstate
      rw [hsame]
      exact ⟨inst, hinst, hc.1 inst hinst hstate⟩
    · have hcases := initializeLocked_cases host hinst hstate
      generalize initializeLocked host name m = outcome at hcases hok
      cases hcases with
      | unregistered | undone => cases hok
      | started m₁ state _ _ _ ha =>
        obtain ⟨config, hself⟩ := ha.self
        refine ⟨_, hself, ?_⟩
        rw [ha.log]
        exact (running_of_init _ _).started

/-- Before and after the call the lifecycles are in order, and an `initialize`
that returned `Ok` left the plugin started. -/
structure RightlyDone (r : CallRecord PluginCall (PluginManager τ) (Except ErrorCode Unit)) :
    Prop where
  before : r.before.Lifecycle
  after : r.after.Lifecycle
  started : ∀ name, r.call = .init name → r.result = .ok () →
    ∃ inst, r.after.plugins.lookup name = some inst ∧ isStarted inst.plugin.id r.after.log = true

theorem lifecycle_of_careful (host : PluginHost τ) (world : τ) (calls : List PluginCall)
    (hcareful : ∀ r ∈ CallRun.records (PluginCall.run host) calls (start world),
      r.before.CarefulLifecycle host r.call) :
    ∀ r ∈ CallRun.records (PluginCall.run host) calls (start world), RightlyDone r := by
  have hstep : ∀ r ∈ CallRun.records (PluginCall.run host) calls (start world),
      r.before.Orderly → r.after.Orderly := by
    intro r hr h
    have hc := hcareful r hr
    obtain ⟨_, c, _, -, rfl⟩ := CallRun.mem_records.mp hr
    exact h.run hc
  have hkept := (CallRun.records_invariant Orderly hstep (start_orderly world)).1
  intro r hr
  have hc := hcareful r hr
  refine ⟨(hkept r hr).1.lifecycle, (hkept r hr).2.lifecycle, ?_⟩
  obtain ⟨_, c, _, -, rfl⟩ := CallRun.mem_records.mp hr
  rintro name rfl hok
  exact started_of_init hc hok

theorem lifecycle_of_careful_base :
    let calls : List PluginCall := [.load (some basePlugin) {}, .init "base", .disable "base",
      .enable "base", .reload "base", .shutdown "base", .init "base"]
    (CallRun.records (PluginCall.run willing) calls (start ())).all (·.result.isOk) = true ∧
      ∀ r ∈ CallRun.records (PluginCall.run willing) calls (start ()), RightlyDone r :=
  ⟨by decide, lifecycle_of_careful willing () _ (by decide)⟩

/-- Plugins that cannot be started. -/
def refusing : PluginHost Unit := fun _ method _ =>
  (if method = .init then .error .pluginInitFailed else .ok (), ())

/-- A plugin that could not be started is asked once more, and `Ok` is the answer. -/
theorem init_failed_twice :
    ¬ ∀ calls, ∀ r ∈ CallRun.records (PluginCall.run refusing) calls (start ()), RightlyDone r := by
  intro hall
  let calls : List PluginCall := [.load (some basePlugin) {}, .init "base", .init "base"]
  let before := CallRun.final (PluginCall.run refusing) (calls.take 2) (start ())
  have hdone := hall calls (CallRun.record (PluginCall.run refusing) (.init "base") before)
    (CallRun.mem_records.mpr ⟨_, _, [], rfl, rfl⟩)
  obtain ⟨inst, hinst, hstarted⟩ := hdone.started "base" rfl (by decide)
  have hlog : (((PluginCall.run refusing (.init "base") before).2.plugins.lookup "base").map
      fun inst => isStarted inst.plugin.id (PluginCall.run refusing (.init "base") before).2.log)
        = some false := by
    decide
  rw [CallRun.record] at hinst hstarted
  rw [hinst, Option.map_some, hstarted] at hlog
  cases hlog

end PluginManager

end MBootCore
