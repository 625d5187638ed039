import MBootCore.Plugin.PluginManager
import Mathlib.Data.List.Chain

/-!
# Plugin — PluginLog

What the calls made of a plugin so far say about it: whether it was started, and
whether its components are registered. The log has the latest call first.
-/

namespace MBootCore.PluginLog

/-- The latest `initialize()` or `shutdown()` of the plugin is an `initialize()`
that succeeded. -/
def isStarted (id : Nat) : List PluginEvent → Bool
  | [] => false
  | e :: log =>
    if e.plugin = id then
      match e.method with
      | .init => e.succeeds
      | .shutdown => false
      | _ => isStarted id log
    else isStarted id log

/-- The components were registered, and not unregistered since. -/
def isRegistered (id : Nat) : List PluginEvent → Bool
  | [] => false
  | e :: log =>
    if e.plugin = id then
      match e.method with
      | .registerComponents => e.succeeds || isRegistered id log
      | .unregisterComponents => !e.succeeds && isRegistered id log
      | _ => isRegistered id log
    else isRegistered id log

/-- The `registerComponents()` and `unregisterComponents()` of the plugin. -/
def registrations (id : Nat) : List PluginEvent → List PluginMethod
  | [] => []
  | e :: log =>
    if e.plugin = id ∧ (e.method = .registerComponents ∨ e.method = .unregisterComponents) then
      e.method :: registrations id log
    else registrations id log

/-- Neither of the two is called twice in a row, and `unregisterComponents()` not
before the first `registerComponents()`. -/
structure Alternates (methods : List PluginMethod) : Prop where
  chain : methods.IsChain (· ≠ ·)
  first : methods.getLast? ≠ some .unregisterComponents

/-- Started, and the components registered. -/
structure Running (id : Nat) (log : List PluginEvent) : Prop where
  started : isStarted id log = true
  registered : isRegistered id log = true
  latest : (registrations id log).head? = some .registerComponents

/-- Not started, and the components not registered. -/
structure Stopped (id : Nat) (log : List PluginEvent) : Prop where
  started : isStarted id log = false
  registered : isRegistered id log = false

/-- Stopped, and ready to be registered again. -/
structure Idle (id : Nat) (log : List PluginEvent) : Prop extends Stopped id log where
  latest : (registrations id log).head? ≠ some .registerComponents

variable {id : Nat} {log : List PluginEvent}

theorem alternates_register {methods : List PluginMethod} (h : Alternates methods)
    (hlatest : methods.head? ≠ some .registerComponents) :
    Alternates (.registerComponents :: methods) where
  chain := by
    cases methods with
    | nil => exact List.isChain_singleton _
    | cons method methods =>
      apply List.isChain_cons_cons.mpr ⟨?_, h.chain⟩
      rintro rfl
      exact hlatest rfl
  first := by
    cases methods with
    | nil => simp
    | cons method methods =>
      rw [List.getLast?_cons_cons]
      exact h.first

theorem alternates_unregister {methods : List PluginMethod} (h : Alternates methods)
    (hlatest : methods.head? = some .registerComponents) :
    Alternates (.unregisterComponents :: methods) := by
  cases methods with
  | nil => cases hlatest
  | cons method methods =>
    obtain rfl : method = .registerComponents := Option.some.inj hlatest
    refine ⟨List.isChain_cons_cons.mpr ⟨by decide, h.chain⟩, ?_⟩
    rw [List.getLast?_cons_cons]
    exact h.first

/-! ## Calls of other plugins -/

section Others

variable {events : List PluginEvent}

theorem isStarted_others (log : List PluginEvent) (h : ∀ e ∈ events, e.plugin ≠ id) :
    isStarted id (events ++ log) = isStarted id log := by
  induction events with
  | nil => rfl
  | cons e events ih =>
    obtain ⟨he, hrest⟩ := List.forall_mem_cons.mp h
    rw [List.cons_append, isStarted, if_neg he, ih hrest]

theorem isRegistered_others (log : List PluginEvent) (h : ∀ e ∈ events, e.plugin ≠ id) :
    isRegistered id (events ++ log) = isRegistered id log := by
  induction events with
  | nil => rfl
  | cons e events ih =>
    obtain ⟨he, hrest⟩ := List.forall_mem_cons.mp h
    rw [List.cons_append, isRegistered, if_neg he, ih hrest]

theorem registrations_others (log : List PluginEvent) (h : ∀ e ∈ events, e.plugin ≠ id) :
    registrations id (events ++ log) = registrations id log := by
  induction events with
  | nil => rfl
  | cons e events ih =>
    obtain ⟨he, hrest⟩ := List.forall_mem_cons.mp h
    rw [List.cons_append, registrations, if_neg fun h => he h.1, ih hrest]

end Others

/-! ## Calls of the plugin itself -/

attribute [local simp] isStarted isRegistered registrations

theorem Idle.register (h : Idle id log) (ok : Bool) :
    isStarted id (⟨id, .registerComponents, ok⟩ :: log) = false ∧
      isRegistered id (⟨id, .registerComponents, ok⟩ :: log) = ok := by
  simp [h.started, h.registered]

/-- A failed start, undone. -/
theorem idle_of_undone (id : Nat) (log : List PluginEvent) : Idle id
    (⟨id, .unregisterComponents, true⟩ :: ⟨id, .init, false⟩ ::
      ⟨id, .registerComponents, true⟩ :: log) where
  started := by simp
  registered := by simp
  latest := by simp

theorem running_of_init (id : Nat) (log : List PluginEvent) :
    Running id (⟨id, .init, true⟩ :: ⟨id, .registerComponents, true⟩ :: log) where
  started := by simp
  registered := by simp
  latest := by simp

theorem idle_of_shutdown (id : Nat) (log : List PluginEvent) :
    Idle id (⟨id, .unregisterComponents, true⟩ :: ⟨id, .shutdown, true⟩ :: log) where
  started := by simp
  registered := by simp
  latest := by simp

/-- What is said of the switches says nothing of the rest. -/
theorem setEnabled_neutral (id : Nat) (log : List PluginEvent) (plugin : Nat) (enabled ok : Bool) :
    isStarted id (⟨plugin, .setEnabled enabled, ok⟩ :: log) = isStarted id log ∧
      isRegistered id (⟨plugin, .setEnabled enabled, ok⟩ :: log) = isRegistered id log ∧
      registrations id (⟨plugin, .setEnabled enabled, ok⟩ :: log) = registrations id log := by
  simp

theorem Running.setEnabled (h : Running id log) (plugin : Nat) (enabled ok : Bool) :
    Running id (⟨plugin, .setEnabled enabled, ok⟩ :: log) := by
  obtain ⟨hstarted, hregistered, hlatest⟩ := setEnabled_neutral id log plugin enabled ok
  exact ⟨hstarted.trans h.started, hregistered.trans h.registered, by rw [hlatest, h.latest]⟩

theorem Stopped.setEnabled (h : Stopped id log) (plugin : Nat) (enabled ok : Bool) :
    Stopped id (⟨plugin, .setEnabled enabled, ok⟩ :: log) := by
  obtain ⟨hstarted, hregistered, -⟩ := setEnabled_neutral id log plugin enabled ok
  exact ⟨hstarted.trans h.started, hregistered.trans h.registered⟩

theorem Idle.setEnabled (h : Idle id log) (plugin : Nat) (enabled ok : Bool) :
    Idle id (⟨plugin, .setEnabled enabled, ok⟩ :: log) := by
  obtain ⟨-, -, hlatest⟩ := setEnabled_neutral id log plugin enabled ok
  exact ⟨h.toStopped.setEnabled plugin enabled ok, by rw [hlatest]; exact h.latest⟩

/-- A plugin no call was made of. -/
theorem idle_of_new (h : ∀ e ∈ log, e.plugin ≠ id) : Idle id log := by
  have hstarted := isStarted_others [] h
  have hregistered := isRegistered_others [] h
  have hlatest := registrations_others [] h
  rw [List.append_nil] at hstarted hregistered hlatest
  exact ⟨⟨hstarted, hregistered⟩, by simp [hlatest]⟩

end MBootCore.PluginLog
