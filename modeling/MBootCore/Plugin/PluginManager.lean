import MBootCore.Domain.Error
import MBootCore.Domain.SafeParser
import Mathlib.Data.List.AList

/-!
# Plugin — PluginManager

`PluginTypes.hpp` and `PluginManager.cpp`: the map of the loaded plugins, and
what the calls that load, unload, reload, start and stop a plugin do to it. A
plugin is an object of its own: the manager calls its methods, and what such a
call returns and what it does besides is a parameter, the `PluginHost`. `log`
keeps the calls that were made, the latest one first.

The files, the directory scan, the batch calls and the queries are left out, and
of the metadata and the settings what no modelled function reads.
-/

namespace MBootCore

inductive PluginState where
  | unloaded | loaded | initialized | enabled | disabled | error
  deriving DecidableEq, Repr

def PluginState.value : PluginState → UInt32
  | .unloaded => 0
  | .loaded => 1
  | .initialized => 2
  | .enabled => 3
  | .disabled => 4
  | .error => 5

structure PluginDependency where
  pluginName : String
  minVersion : UInt32 := 1
  maxVersion : UInt32 := 0xFFFFFFFF
  optional : Bool := false
  deriving DecidableEq, Repr

structure PluginMetadata where
  name : String
  version : String
  compatibilityVersion : UInt32 := 1
  dependencies : List PluginDependency := []
  deriving DecidableEq, Repr

structure PluginConfig where
  enabled : Bool := true
  deriving DecidableEq, Repr

/-- An `IPlugin`; `id` tells it from the other plugin objects. -/
structure Plugin where
  id : Nat
  metadata : PluginMetadata
  deriving DecidableEq, Repr

/-- `init` is `initialize`, here and among the calls of the manager. -/
inductive PluginMethod where
  | init | shutdown | registerComponents | unregisterComponents
  | setEnabled (enabled : Bool)
  deriving DecidableEq, Repr

/-- A call the manager made of a plugin. -/
structure PluginEvent where
  plugin : Nat
  method : PluginMethod
  succeeds : Bool
  deriving DecidableEq, Repr

structure PluginInstance where
  plugin : Plugin
  config : PluginConfig
  state : PluginState := .unloaded
  deriving DecidableEq, Repr

/-- What a method of a plugin returns, and what it does to the rest of the world. -/
abbrev PluginHost (τ : Type) := Nat → PluginMethod → τ → Except ErrorCode Unit × τ

structure PluginManager (τ : Type) where
  plugins : AList (fun _ : String => PluginInstance) := ∅
  /-- The number of plugin objects so far. -/
  created : Nat := 0
  world : τ
  log : List PluginEvent := []

namespace PluginManager

variable {τ : Type}

def callPlugin (host : PluginHost τ) (plugin : Plugin) (method : PluginMethod)
    (m : PluginManager τ) : Except ErrorCode Unit × PluginManager τ :=
  let answer := host plugin.id method m.world
  (answer.1, { m with
    world := answer.2
    log := ⟨plugin.id, method, answer.1.isOk⟩ :: m.log })

def registerPluginComponents (host : PluginHost τ) (plugin : Plugin) :
    PluginManager τ → Except ErrorCode Unit × PluginManager τ :=
  callPlugin host plugin .registerComponents

def unregisterPluginComponents (host : PluginHost τ) (plugin : Plugin) :
    PluginManager τ → Except ErrorCode Unit × PluginManager τ :=
  callPlugin host plugin .unregisterComponents

def store (m : PluginManager τ) (name : String) (inst : PluginInstance) : PluginManager τ :=
  { m with plugins := m.plugins.insert name inst }

def erase (m : PluginManager τ) (name : String) : PluginManager τ :=
  { m with plugins := m.plugins.erase name }

def setPluginState (name : String) (state : PluginState) (m : PluginManager τ) :
    PluginManager τ :=
  match m.plugins.lookup name with
  | none => m
  | some inst => m.store name { inst with state }

/-! ## Dependencies -/

/-- The dependencies of a plugin, up to the first that closes a cycle. `none`
stands for a search that ran out of fuel. -/
def searchDependencies (m : PluginManager τ)
    (visit : String → List String → Option (Bool × List String)) :
    List PluginDependency → List String → Option (Bool × List String)
  | [], visited => some (false, visited)
  | dep :: deps, visited =>
    if dep.pluginName ∈ m.plugins then
      match visit dep.pluginName visited with
      | none => none
      | some (true, visited) => some (true, visited)
      | some (false, visited) => searchDependencies m visit deps visited
    else searchDependencies m visit deps visited

def hasCircularDependencyLocked (m : PluginManager τ) :
    Nat → String → List String → Option (Bool × List String)
  | 0, _, _ => none
  | fuel + 1, name, visited =>
    if name ∈ visited then some (true, visited)
    else
      match m.plugins.lookup name with
      | none => some (false, name :: visited)
      | some inst =>
        match searchDependencies m (hasCircularDependencyLocked m fuel)
            inst.plugin.metadata.dependencies (name :: visited) with
        | none => none
        | some (true, visited) => some (true, visited)
        | some (false, visited) => some (false, visited.erase name)

/-- More recursive calls than there are plugins are never open at once. -/
def searchFuel (m : PluginManager τ) : Nat := m.plugins.keys.length + 1

/-- The version of a plugin as its dependents compare it. -/
def depVersion (metadata : PluginMetadata) : UInt32 :=
  match SafeParser.fromCharsUint32 metadata.version.toList with
  | none => 1
  | some version => version

def checkDependencies (m : PluginManager τ) : List PluginDependency → Except ErrorCode Unit
  | [] => .ok ()
  | dep :: deps =>
    match m.plugins.lookup dep.pluginName with
    | none => if !dep.optional then .error .pluginDependencyMissing else checkDependencies m deps
    | some target =>
      if depVersion target.plugin.metadata < dep.minVersion ∨
          depVersion target.plugin.metadata > dep.maxVersion then
        .error .pluginVersionMismatch
      else checkDependencies m deps

def resolveDependenciesLocked (name : String) (m : PluginManager τ) : Except ErrorCode Unit :=
  match m.plugins.lookup name with
  | none => .error .pluginNotFound
  | some inst =>
    match m.hasCircularDependencyLocked m.searchFuel name [] with
    | some (false, _) => m.checkDependencies inst.plugin.metadata.dependencies
    | _ => .error .pluginCircularDependency

def isCompatible (metadata : PluginMetadata) : Bool :=
  metadata.compatibilityVersion ≥ 1 && metadata.compatibilityVersion ≤ 2

/-! ## Calls -/

def loadLocked (plugin : Plugin) (config : PluginConfig) (m : PluginManager τ) :
    Except ErrorCode Unit × PluginManager τ :=
  let name := plugin.metadata.name
  if name ∈ m.plugins then (.error .pluginDuplicate, m)
  else if !isCompatible plugin.metadata then (.error .pluginIncompatible, m)
  else
    let m := m.store name { plugin, config }
    match m.resolveDependenciesLocked name with
    | .error e => (.error e, m.erase name)
    | .ok () => (.ok (), m.setPluginState name .loaded)

/-- The plugin is a new object, or else a null pointer. -/
def load (metadata : Option PluginMetadata) (config : PluginConfig) (m : PluginManager τ) :
    Except ErrorCode Unit × PluginManager τ :=
  match metadata with
  | none => (.error .invalidArgument, m)
  | some metadata =>
    loadLocked { id := m.created, metadata } config { m with created := m.created + 1 }

def shutdownLocked (host : PluginHost τ) (name : String) (m : PluginManager τ) :
    Except ErrorCode Unit × PluginManager τ :=
  match m.plugins.lookup name with
  | none => (.error .pluginNotFound, m)
  | some inst =>
    if inst.state.value < PluginState.initialized.value then (.ok (), m)
    else
      match callPlugin host inst.plugin .shutdown (m.setPluginState name .disabled) with
      | (.error e, m) => (.error e, m.setPluginState name .error)
      | (.ok (), m) =>
        (.ok (), (unregisterPluginComponents host inst.plugin m).2.setPluginState name .loaded)

def unload (host : PluginHost τ) (name : String) (m : PluginManager τ) :
    Except ErrorCode Unit × PluginManager τ :=
  match m.plugins.lookup name with
  | none => (.error .pluginNotFound, m)
  | some inst =>
    let stopped :=
      if inst.state.value ≥ PluginState.initialized.value then shutdownLocked host name m
      else (.ok (), m)
    match stopped with
    | (.error e, m) => (.error e, m)
    | (.ok (), m) =>
      match unregisterPluginComponents host inst.plugin m with
      | (.error e, m) => (.error e, m)
      | (.ok (), m) => (.ok (), m.erase name)

def initializeLocked (host : PluginHost τ) (name : String) (m : PluginManager τ) :
    Except ErrorCode Unit × PluginManager τ :=
  match m.plugins.lookup name with
  | none => (.error .pluginNotFound, m)
  | some inst =>
    if inst.state.value ≥ PluginState.initialized.value then (.ok (), m)
    else if inst.state = .error then (.error .pluginInitFailed, m)
    else
      match registerPluginComponents host inst.plugin m with
      | (.error e, m) => (.error e, m.setPluginState name .error)
      | (.ok (), m) =>
        match callPlugin host inst.plugin .init m with
        | (.error e, m) =>
          (.error e, (unregisterPluginComponents host inst.plugin m).2.setPluginState name .error)
        | (.ok (), m) =>
          let m := m.setPluginState name .initialized
          (.ok (), if inst.config.enabled then m.setPluginState name .enabled else m)

/-- `enable` and `disable`: the setting, and the state of a plugin that was
started. -/
def setEnabled (host : PluginHost τ) (enabled : Bool) (state : PluginState) (name : String)
    (m : PluginManager τ) : Except ErrorCode Unit × PluginManager τ :=
  match m.plugins.lookup name with
  | none => (.error .pluginNotFound, m)
  | some inst =>
    let m := (callPlugin host inst.plugin (.setEnabled enabled) m).2
    let m := m.store name { inst with config := { inst.config with enabled } }
    (.ok (), if inst.state.value ≥ PluginState.initialized.value then m.setPluginState name state
      else m)

def enable (host : PluginHost τ) :
    String → PluginManager τ → Except ErrorCode Unit × PluginManager τ :=
  setEnabled host true .enabled

def disable (host : PluginHost τ) :
    String → PluginManager τ → Except ErrorCode Unit × PluginManager τ :=
  setEnabled host false .disabled

def reload (host : PluginHost τ) (name : String) (m : PluginManager τ) :
    Except ErrorCode Unit × PluginManager τ :=
  match m.plugins.lookup name with
  | none => (.error .pluginNotFound, m)
  | some inst =>
    let m := (unregisterPluginComponents host inst.plugin m).2.erase name
    match loadLocked inst.plugin inst.config m with
    | (.error e, m) => (.error e, m)
    | (.ok (), m) => initializeLocked host name m

end PluginManager

/-- A call of the manager. -/
inductive PluginCall where
  | load (metadata : Option PluginMetadata) (config : PluginConfig)
  | unload (name : String)
  | reload (name : String)
  | init (name : String)
  | shutdown (name : String)
  | enable (name : String)
  | disable (name : String)
  deriving DecidableEq, Repr

def PluginCall.run {τ : Type} (host : PluginHost τ) :
    PluginCall → PluginManager τ → Except ErrorCode Unit × PluginManager τ
  | .load metadata config => PluginManager.load metadata config
  | .unload name => PluginManager.unload host name
  | .reload name => PluginManager.reload host name
  | .init name => PluginManager.initializeLocked host name
  | .shutdown name => PluginManager.shutdownLocked host name
  | .enable name => PluginManager.enable host name
  | .disable name => PluginManager.disable host name

end MBootCore
