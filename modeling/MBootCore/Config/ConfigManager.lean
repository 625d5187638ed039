import MBootCore.Domain.Error
import MBootCore.Domain.SafeParser
import MBootCore.Support.AssocMap

/-!
# Config — ConfigManager

`ConfigManager` of `config/ConfigManager.cpp` on the types of
`config/ConfigTypes.hpp`. Text is written and read by `nlohmann::json`, which is
a parameter (`JsonLibrary`); its documents are `Json`. Texts are valid UTF-8, so
that writing them does not throw. The order in which a `std::map` keeps its keys
is left out; nothing depends on it.
-/

namespace MBootCore.Config

/-! ## Documents -/

inductive Json where
  | null
  | boolean (b : Bool)
  | unsigned (n : UInt64)
  | integer (n : Int64)
  | float (text : String)
  | string (text : String)
  | array (items : List Json)
  | object (members : List (String × Json))

namespace Json

def ofUint32 (n : UInt32) : Json := .unsigned n.toUInt64

def ofList (texts : List String) : Json := .array (texts.map .string)

/-- `j[key] = value` for one member after another. -/
def ofMembers (members : List (String × Json)) : Json :=
  .object (members.foldl (fun acc m => AssocMap.insertEntry m.1 m.2 acc) [])

def ofOptions (options : AssocMap String String) : Json :=
  ofMembers (options.entries.map fun e => (e.1, .string e.2))

/-- The member of an object. -/
def member? (j : Json) (key : String) : Option Json :=
  match j with
  | .object members => (members.find? (·.1 = key)).map (·.2)
  | _ => none

def asString? : Json → Option String
  | .string text => some text
  | _ => none

end Json

/-- `parse`, `dump()` and `dump(2)`. -/
structure JsonLibrary where
  parse : String → Option Json
  dump : Json → String
  dumpIndented : Json → String

/-- A string, or the dump of any other value. -/
def JsonLibrary.text (lib : JsonLibrary) (value : Json) : String :=
  match value with
  | .string text => text
  | other => lib.dump other

/-! ## Configurations -/

inductive ConfigSource where
  | default | file | environment | api | cli
  deriving DecidableEq, Repr

structure RuntimeConfig where
  threadPoolSize : UInt32 := 4
  operationTimeoutMs : UInt32 := 30000
  enableLogging : Bool := true
  enableTelemetry : Bool := false
  enableProfiling : Bool := false
  logLevel : String := "info"
  tempDirectory : String := "/tmp/mbootcore"
  deriving DecidableEq

structure TransportConfig where
  usbTimeoutMs : UInt32 := 5000
  serialTimeoutMs : UInt32 := 5000
  tcpTimeoutMs : UInt32 := 10000
  maxRetries : UInt32 := 3
  enableKeepAlive : Bool := true
  keepAliveIntervalMs : UInt32 := 1000
  bufferSize : UInt32 := 65536
  deriving DecidableEq

structure WorkflowConfig where
  maxRetries : UInt32 := 3
  retryDelayMs : UInt32 := 1000
  enableRollback : Bool := true
  enableCheckpoints : Bool := true
  enableValidation : Bool := true
  maxParallelStages : UInt32 := 4
  deriving DecidableEq

structure JobConfig where
  maxRetries : UInt32 := 3
  retryDelayMs : UInt32 := 1000
  maxParallel : UInt32 := 4
  enableRecovery : Bool := true
  enableHistory : Bool := true
  historyLimit : UInt32 := 1000
  deriving DecidableEq

structure DSPConfig where
  enableVerification : Bool := true
  enableCaching : Bool := true
  cacheSizeMb : UInt32 := 256
  repositoryPath : String := "/etc/mbootcore/dsp"
  trustedVendors : List String := []
  deriving DecidableEq

structure PluginConfig where
  enableVerification : Bool := true
  enableHotReload : Bool := false
  maxPlugins : UInt32 := 100
  pluginPaths : List String := []
  blacklist : List String := []
  deriving DecidableEq

structure VendorConfig where
  enableAutoDetect : Bool := true
  preferredVendors : List String := []
  vendorOptions : AssocMap String String := .empty
  deriving DecidableEq

structure GUIConfig where
  enableAnimations : Bool := true
  enableTrayIcon : Bool := true
  theme : String := "dark"
  language : String := "auto"
  windowWidth : UInt32 := 1280
  windowHeight : UInt32 := 720
  maximizeOnStart : Bool := false
  deriving DecidableEq

structure CLIConfig where
  enableColor : Bool := true
  enableProgress : Bool := true
  outputFormat : String := "text"
  verbosity : UInt32 := 1
  deriving DecidableEq

structure FullConfig where
  runtime : RuntimeConfig := {}
  transport : TransportConfig := {}
  workflow : WorkflowConfig := {}
  job : JobConfig := {}
  dsp : DSPConfig := {}
  plugin : PluginConfig := {}
  vendor : VendorConfig := {}
  gui : GUIConfig := {}
  cli : CLIConfig := {}
  source : ConfigSource := .default
  customOptions : AssocMap String String := .empty
  deriving DecidableEq

structure ConfigManager where
  config : FullConfig := {}
  deriving DecidableEq

/-! ## Reading a document -/

/-- `auto r = fromCharsUint32(value); if (r.ok) field = r.value;`. -/
def readUint32 (value : String) (current : UInt32) : UInt32 :=
  (SafeParser.fromCharsUint32 value.toList).getD current

def readBool (value : String) : Bool := value = "true"

def RuntimeConfig.setValueFromJson (key value : String) (cfg : RuntimeConfig) : RuntimeConfig :=
  if key = "threadPoolSize" then
    { cfg with threadPoolSize := readUint32 value cfg.threadPoolSize }
  else if key = "operationTimeoutMs" then
    { cfg with operationTimeoutMs := readUint32 value cfg.operationTimeoutMs }
  else if key = "enableLogging" then { cfg with enableLogging := readBool value }
  else if key = "enableTelemetry" then { cfg with enableTelemetry := readBool value }
  else if key = "enableProfiling" then { cfg with enableProfiling := readBool value }
  else if key = "logLevel" then { cfg with logLevel := value }
  else if key = "tempDirectory" then { cfg with tempDirectory := value }
  else cfg

def TransportConfig.setValueFromJson (key value : String) (cfg : TransportConfig) :
    TransportConfig :=
  if key = "usbTimeoutMs" then { cfg with usbTimeoutMs := readUint32 value cfg.usbTimeoutMs }
  else if key = "serialTimeoutMs" then
    { cfg with serialTimeoutMs := readUint32 value cfg.serialTimeoutMs }
  else if key = "tcpTimeoutMs" then { cfg with tcpTimeoutMs := readUint32 value cfg.tcpTimeoutMs }
  else if key = "maxRetries" then { cfg with maxRetries := readUint32 value cfg.maxRetries }
  else if key = "enableKeepAlive" then { cfg with enableKeepAlive := readBool value }
  else if key = "keepAliveIntervalMs" then
    { cfg with keepAliveIntervalMs := readUint32 value cfg.keepAliveIntervalMs }
  else if key = "bufferSize" then { cfg with bufferSize := readUint32 value cfg.bufferSize }
  else cfg

def WorkflowConfig.setValueFromJson (key value : String) (cfg : WorkflowConfig) : WorkflowConfig :=
  if key = "maxRetries" then { cfg with maxRetries := readUint32 value cfg.maxRetries }
  else if key = "retryDelayMs" then { cfg with retryDelayMs := readUint32 value cfg.retryDelayMs }
  else if key = "enableRollback" then { cfg with enableRollback := readBool value }
  else if key = "enableCheckpoints" then { cfg with enableCheckpoints := readBool value }
  else if key = "enableValidation" then { cfg with enableValidation := readBool value }
  else if key = "maxParallelStages" then
    { cfg with maxParallelStages := readUint32 value cfg.maxParallelStages }
  else cfg

def JobConfig.setValueFromJson (key value : String) (cfg : JobConfig) : JobConfig :=
  if key = "maxRetries" then { cfg with maxRetries := readUint32 value cfg.maxRetries }
  else if key = "retryDelayMs" then { cfg with retryDelayMs := readUint32 value cfg.retryDelayMs }
  else if key = "maxParallel" then { cfg with maxParallel := readUint32 value cfg.maxParallel }
  else if key = "enableRecovery" then { cfg with enableRecovery := readBool value }
  else if key = "enableHistory" then { cfg with enableHistory := readBool value }
  else if key = "historyLimit" then { cfg with historyLimit := readUint32 value cfg.historyLimit }
  else cfg

def DSPConfig.setValueFromJson (key value : String) (cfg : DSPConfig) : DSPConfig :=
  if key = "enableVerification" then { cfg with enableVerification := readBool value }
  else if key = "enableCaching" then { cfg with enableCaching := readBool value }
  else if key = "cacheSizeMb" then { cfg with cacheSizeMb := readUint32 value cfg.cacheSizeMb }
  else if key = "repositoryPath" then { cfg with repositoryPath := value }
  else cfg

def PluginConfig.setValueFromJson (key value : String) (cfg : PluginConfig) : PluginConfig :=
  if key = "enableVerification" then { cfg with enableVerification := readBool value }
  else if key = "enableHotReload" then { cfg with enableHotReload := readBool value }
  else if key = "maxPlugins" then { cfg with maxPlugins := readUint32 value cfg.maxPlugins }
  else cfg

def VendorConfig.setValueFromJson (key value : String) (cfg : VendorConfig) : VendorConfig :=
  if key = "enableAutoDetect" then { cfg with enableAutoDetect := readBool value } else cfg

def GUIConfig.setValueFromJson (key value : String) (cfg : GUIConfig) : GUIConfig :=
  if key = "enableAnimations" then { cfg with enableAnimations := readBool value }
  else if key = "enableTrayIcon" then { cfg with enableTrayIcon := readBool value }
  else if key = "theme" then { cfg with theme := value }
  else if key = "language" then { cfg with language := value }
  else if key = "windowWidth" then { cfg with windowWidth := readUint32 value cfg.windowWidth }
  else if key = "windowHeight" then { cfg with windowHeight := readUint32 value cfg.windowHeight }
  else if key = "maximizeOnStart" then { cfg with maximizeOnStart := readBool value }
  else cfg

def CLIConfig.setValueFromJson (key value : String) (cfg : CLIConfig) : CLIConfig :=
  if key = "enableColor" then { cfg with enableColor := readBool value }
  else if key = "enableProgress" then { cfg with enableProgress := readBool value }
  else if key = "outputFormat" then { cfg with outputFormat := value }
  else if key = "verbosity" then { cfg with verbosity := readUint32 value cfg.verbosity }
  else cfg

inductive Failure where
  | returned (error : ErrorCode)
  | thrown
  deriving DecidableEq, Repr

variable (lib : JsonLibrary)

/-- A section that is an object is read member by member. -/
def readSection {C : Type} (setValueFromJson : String → String → C → C) (json : Json)
    (key : String) (cfg : C) : C :=
  match json.member? key with
  | some (.object members) =>
    members.foldl (fun cfg m => setValueFromJson m.1 (lib.text m.2) cfg) cfg
  | _ => cfg

def readOptions (json : Json) (key : String) (options : AssocMap String String) :
    AssocMap String String :=
  readSection lib AssocMap.insert json key options

/-- The strings of a list are added to those there are. -/
def readList (json : Json) (key : String) (current : List String) : List String :=
  match json.member? key with
  | some (.array items) => current ++ items.filterMap Json.asString?
  | _ => current

def ConfigSource.ofText (text : String) : ConfigSource :=
  if text = "file" then .file
  else if text = "environment" then .environment
  else if text = "api" then .api
  else if text = "cli" then .cli
  else .default

/-- A source that is no string is a type error, which nobody catches. -/
def readSource (json : Json) (current : ConfigSource) : Except Failure ConfigSource :=
  match json.member? "source" with
  | none => .ok current
  | some (.string text) => .ok (.ofText text)
  | some _ => .error .thrown

def readConfig (json : Json) (base : FullConfig) : Except Failure FullConfig := do
  let source ← readSource json base.source
  let dsp := readSection lib DSPConfig.setValueFromJson json "dsp" base.dsp
  let plugin := readSection lib PluginConfig.setValueFromJson json "plugin" base.plugin
  let vendor := readSection lib VendorConfig.setValueFromJson json "vendor" base.vendor
  pure
    { runtime := readSection lib RuntimeConfig.setValueFromJson json "runtime" base.runtime
      transport :=
        readSection lib TransportConfig.setValueFromJson json "transport" base.transport
      workflow := readSection lib WorkflowConfig.setValueFromJson json "workflow" base.workflow
      job := readSection lib JobConfig.setValueFromJson json "job" base.job
      dsp := { dsp with trustedVendors := readList json "trustedVendors" dsp.trustedVendors }
      plugin :=
        { plugin with
          pluginPaths := readList json "pluginPaths" plugin.pluginPaths
          blacklist := readList json "blacklist" plugin.blacklist }
      vendor :=
        { vendor with
          preferredVendors := readList json "preferredVendors" vendor.preferredVendors }
      gui := readSection lib GUIConfig.setValueFromJson json "gui" base.gui
      cli := readSection lib CLIConfig.setValueFromJson json "cli" base.cli
      source
      customOptions := readOptions lib json "customOptions" base.customOptions }

def parseConfigFromJson (text : String) (base : FullConfig) : Except Failure FullConfig :=
  match lib.parse text with
  | some (.object members) => readConfig lib (.object members) base
  | _ => .error (.returned .invalidArgument)

/-! ## Writing a document -/

/-- A member that is there only where the list is not empty. -/
def listMember (key : String) (texts : List String) : List (String × Json) :=
  if texts = [] then [] else [(key, .ofList texts)]

def optionsMember (key : String) (options : AssocMap String String) : List (String × Json) :=
  if options.entries = [] then [] else [(key, .ofOptions options)]

def RuntimeConfig.toJson (cfg : RuntimeConfig) : Json :=
  .ofMembers
    [("threadPoolSize", .ofUint32 cfg.threadPoolSize),
      ("operationTimeoutMs", .ofUint32 cfg.operationTimeoutMs),
      ("enableLogging", .boolean cfg.enableLogging),
      ("enableTelemetry", .boolean cfg.enableTelemetry),
      ("enableProfiling", .boolean cfg.enableProfiling),
      ("logLevel", .string cfg.logLevel),
      ("tempDirectory", .string cfg.tempDirectory)]

def TransportConfig.toJson (cfg : TransportConfig) : Json :=
  .ofMembers
    [("usbTimeoutMs", .ofUint32 cfg.usbTimeoutMs),
      ("serialTimeoutMs", .ofUint32 cfg.serialTimeoutMs),
      ("tcpTimeoutMs", .ofUint32 cfg.tcpTimeoutMs),
      ("maxRetries", .ofUint32 cfg.maxRetries),
      ("enableKeepAlive", .boolean cfg.enableKeepAlive),
      ("keepAliveIntervalMs", .ofUint32 cfg.keepAliveIntervalMs),
      ("bufferSize", .ofUint32 cfg.bufferSize)]

def WorkflowConfig.toJson (cfg : WorkflowConfig) : Json :=
  .ofMembers
    [("maxRetries", .ofUint32 cfg.maxRetries),
      ("retryDelayMs", .ofUint32 cfg.retryDelayMs),
      ("enableRollback", .boolean cfg.enableRollback),
      ("enableCheckpoints", .boolean cfg.enableCheckpoints),
      ("enableValidation", .boolean cfg.enableValidation),
      ("maxParallelStages", .ofUint32 cfg.maxParallelStages)]

def JobConfig.toJson (cfg : JobConfig) : Json :=
  .ofMembers
    [("maxRetries", .ofUint32 cfg.maxRetries),
      ("retryDelayMs", .ofUint32 cfg.retryDelayMs),
      ("maxParallel", .ofUint32 cfg.maxParallel),
      ("enableRecovery", .boolean cfg.enableRecovery),
      ("enableHistory", .boolean cfg.enableHistory),
      ("historyLimit", .ofUint32 cfg.historyLimit)]

def DSPConfig.toJson (cfg : DSPConfig) : Json :=
  .ofMembers
    ([("enableVerification", .boolean cfg.enableVerification),
        ("enableCaching", .boolean cfg.enableCaching),
        ("cacheSizeMb", .ofUint32 cfg.cacheSizeMb),
        ("repositoryPath", .string cfg.repositoryPath)]
      ++ listMember "trustedVendors" cfg.trustedVendors)

def PluginConfig.toJson (cfg : PluginConfig) : Json :=
  .ofMembers
    ([("enableVerification", .boolean cfg.enableVerification),
        ("enableHotReload", .boolean cfg.enableHotReload),
        ("maxPlugins", .ofUint32 cfg.maxPlugins)]
      ++ listMember "pluginPaths" cfg.pluginPaths ++ listMember "blacklist" cfg.blacklist)

def VendorConfig.toJson (cfg : VendorConfig) : Json :=
  .ofMembers
    ([("enableAutoDetect", .boolean cfg.enableAutoDetect)]
      ++ listMember "preferredVendors" cfg.preferredVendors
      ++ optionsMember "vendorOptions" cfg.vendorOptions)

def GUIConfig.toJson (cfg : GUIConfig) : Json :=
  .ofMembers
    [("enableAnimations", .boolean cfg.enableAnimations),
      ("enableTrayIcon", .boolean cfg.enableTrayIcon),
      ("theme", .string cfg.theme),
      ("language", .string cfg.language),
      ("windowWidth", .ofUint32 cfg.windowWidth),
      ("windowHeight", .ofUint32 cfg.windowHeight),
      ("maximizeOnStart", .boolean cfg.maximizeOnStart)]

def CLIConfig.toJson (cfg : CLIConfig) : Json :=
  .ofMembers
    [("enableColor", .boolean cfg.enableColor),
      ("enableProgress", .boolean cfg.enableProgress),
      ("outputFormat", .string cfg.outputFormat),
      ("verbosity", .ofUint32 cfg.verbosity)]

def ConfigSource.text : ConfigSource → String
  | .default => "default"
  | .file => "file"
  | .environment => "environment"
  | .api => "api"
  | .cli => "cli"

def FullConfig.toJson (config : FullConfig) : Json :=
  .ofMembers
    ([("runtime", config.runtime.toJson),
        ("transport", config.transport.toJson),
        ("workflow", config.workflow.toJson),
        ("job", config.job.toJson),
        ("dsp", config.dsp.toJson),
        ("plugin", config.plugin.toJson),
        ("vendor", config.vendor.toJson),
        ("gui", config.gui.toJson),
        ("cli", config.cli.toJson),
        ("source", .string config.source.text)]
      ++ optionsMember "customOptions" config.customOptions)

/-! ## The manager -/

namespace ConfigManager

def setDSPConfig (config : DSPConfig) (m : ConfigManager) : ConfigManager :=
  { m with config.dsp := config }

def setCustomOption (key value : String) (m : ConfigManager) : ConfigManager :=
  { m with config.customOptions := m.config.customOptions.insert key value }

/-- What is imported is merged into the configuration there is. -/
def importJson (text : String) (m : ConfigManager) : Except Failure ConfigManager := do
  let config ← parseConfigFromJson lib text m.config
  pure { config }

def exportJson (m : ConfigManager) : String := lib.dumpIndented m.config.toJson

end ConfigManager

end MBootCore.Config
