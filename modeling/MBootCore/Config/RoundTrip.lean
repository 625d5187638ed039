import MBootCore.Config.ConfigManager

/-!
# Config — RoundTrip

What an import restores of an exported configuration. The lists and the vendor
options are written into the sections they belong to, but the lists are looked
for beside the sections and the vendor options nowhere, so they are lost.
-/

namespace MBootCore.Config

/-- How numbers and truth values are dumped. -/
structure JsonLibrary.Documented (lib : JsonLibrary) : Prop where
  unsigned : ∀ n : UInt64, lib.dump (.unsigned n) = Nat.repr n.toNat
  boolean : ∀ b, lib.dump (.boolean b) = if b then "true" else "false"

/-- A new manager into which the exported text is imported has the same
configuration, and importing the text again changes nothing. -/
structure RoundTrip (lib : JsonLibrary) (m : ConfigManager) : Prop where
  restores : ConfigManager.importJson lib (m.exportJson lib) {} = .ok m
  again : ∀ m', ConfigManager.importJson lib (m.exportJson lib) {} = .ok m' →
    ConfigManager.importJson lib (m.exportJson lib) m' = .ok m'

variable {lib : JsonLibrary}

/-! ## Values -/

@[simp] theorem text_string (s : String) : lib.text (.string s) = s := rfl

theorem readUint32_text (hlib : lib.Documented) (n current : UInt32) :
    readUint32 (lib.text (.ofUint32 n)) current = n := by
  simp only [JsonLibrary.text, Json.ofUint32, hlib.unsigned, readUint32, UInt32.toNat_toUInt64,
    Nat.repr, String.toList_ofList, SafeParser.fromCharsUint32_decimal, Option.getD_some]

theorem readBool_text (hlib : lib.Documented) (b : Bool) :
    readBool (lib.text (.boolean b)) = b := by
  cases b <;> simp [JsonLibrary.text, hlib.boolean, readBool]

theorem ofText_text (source : ConfigSource) : ConfigSource.ofText source.text = source := by
  cases source <;> simp [ConfigSource.ofText, ConfigSource.text]

theorem ofMembers_eq {members : List (String × Json)} (h : (members.map (·.1)).Nodup) :
    Json.ofMembers members = .object members := by
  rw [Json.ofMembers, AssocMap.foldl_insertEntry (by simpa using h), List.nil_append]

/-! ## Sections -/

variable {json : Json} {key : String}

theorem readSection_ofMembers {C : Type} {setValueFromJson : String → String → C → C}
    {members : List (String × Json)} (h : json.member? key = some (.ofMembers members))
    (hnodup : (members.map (·.1)).Nodup) (cfg : C) :
    readSection lib setValueFromJson json key cfg
      = members.foldl (fun cfg m => setValueFromJson m.1 (lib.text m.2) cfg) cfg := by
  rw [readSection, h, ofMembers_eq hnodup]

theorem readRuntime (hlib : lib.Documented) {cfg : RuntimeConfig}
    (h : json.member? key = some cfg.toJson) (base : RuntimeConfig) :
    readSection lib RuntimeConfig.setValueFromJson json key base = cfg := by
  rw [readSection_ofMembers h (by simp)]
  simp [RuntimeConfig.setValueFromJson, readUint32_text hlib, readBool_text hlib]

theorem readTransport (hlib : lib.Documented) {cfg : TransportConfig}
    (h : json.member? key = some cfg.toJson) (base : TransportConfig) :
    readSection lib TransportConfig.setValueFromJson json key base = cfg := by
  rw [readSection_ofMembers h (by simp)]
  simp [TransportConfig.setValueFromJson, readUint32_text hlib, readBool_text hlib]

theorem readWorkflow (hlib : lib.Documented) {cfg : WorkflowConfig}
    (h : json.member? key = some cfg.toJson) (base : WorkflowConfig) :
    readSection lib WorkflowConfig.setValueFromJson json key base = cfg := by
  rw [readSection_ofMembers h (by simp)]
  simp [WorkflowConfig.setValueFromJson, readUint32_text hlib, readBool_text hlib]

theorem readJob (hlib : lib.Documented) {cfg : JobConfig}
    (h : json.member? key = some cfg.toJson) (base : JobConfig) :
    readSection lib JobConfig.setValueFromJson json key base = cfg := by
  rw [readSection_ofMembers h (by simp)]
  simp [JobConfig.setValueFromJson, readUint32_text hlib, readBool_text hlib]

/-- The list in the section has a key that is not known there. -/
theorem readDSP (hlib : lib.Documented) {cfg : DSPConfig}
    (h : json.member? key = some cfg.toJson) (base : DSPConfig) :
    readSection lib DSPConfig.setValueFromJson json key base
      = { cfg with trustedVendors := base.trustedVendors } := by
  have hnodup : ∀ texts : List String, (["enableVerification", "enableCaching", "cacheSizeMb",
      "repositoryPath"] ++ (listMember "trustedVendors" texts).map (·.1)).Nodup := by
    intro texts
    rw [listMember]
    split <;> simp
  rw [readSection_ofMembers h (hnodup _), listMember]
  split <;> simp [DSPConfig.setValueFromJson, readUint32_text hlib, readBool_text hlib]

theorem readPlugin (hlib : lib.Documented) {cfg : PluginConfig}
    (h : json.member? key = some cfg.toJson) (base : PluginConfig) :
    readSection lib PluginConfig.setValueFromJson json key base
      = { cfg with pluginPaths := base.pluginPaths, blacklist := base.blacklist } := by
  have hnodup : ((["enableVerification", "enableHotReload", "maxPlugins"]
      ++ (listMember "pluginPaths" cfg.pluginPaths).map (·.1))
      ++ (listMember "blacklist" cfg.blacklist).map (·.1)).Nodup := by
    rw [listMember, listMember]
    split <;> split <;> simp
  rw [readSection_ofMembers h (by simpa using hnodup), listMember, listMember]
  split <;> split <;>
    simp [PluginConfig.setValueFromJson, readUint32_text hlib, readBool_text hlib]

theorem readVendor (hlib : lib.Documented) {cfg : VendorConfig}
    (h : json.member? key = some cfg.toJson) (base : VendorConfig) :
    readSection lib VendorConfig.setValueFromJson json key base
      = { base with enableAutoDetect := cfg.enableAutoDetect } := by
  have hnodup : ((["enableAutoDetect"]
      ++ (listMember "preferredVendors" cfg.preferredVendors).map (·.1))
      ++ (optionsMember "vendorOptions" cfg.vendorOptions).map (·.1)).Nodup := by
    rw [listMember, optionsMember]
    split <;> split <;> simp
  rw [readSection_ofMembers h (by simpa using hnodup), listMember, optionsMember]
  split <;> split <;> simp [VendorConfig.setValueFromJson, readBool_text hlib]

theorem readGUI (hlib : lib.Documented) {cfg : GUIConfig}
    (h : json.member? key = some cfg.toJson) (base : GUIConfig) :
    readSection lib GUIConfig.setValueFromJson json key base = cfg := by
  rw [readSection_ofMembers h (by simp)]
  simp [GUIConfig.setValueFromJson, readUint32_text hlib, readBool_text hlib]

theorem readCLI (hlib : lib.Documented) {cfg : CLIConfig}
    (h : json.member? key = some cfg.toJson) (base : CLIConfig) :
    readSection lib CLIConfig.setValueFromJson json key base = cfg := by
  rw [readSection_ofMembers h (by simp)]
  simp [CLIConfig.setValueFromJson, readUint32_text hlib, readBool_text hlib]

/-! ## The document -/

/-- What an exported configuration changes of another: all but the lists and the
vendor options, and the custom options are added. -/
def FullConfig.mergedInto (config base : FullConfig) : FullConfig :=
  { config with
    dsp := { config.dsp with trustedVendors := base.dsp.trustedVendors }
    plugin :=
      { config.plugin with
        pluginPaths := base.plugin.pluginPaths
        blacklist := base.plugin.blacklist }
    vendor := { base.vendor with enableAutoDetect := config.vendor.enableAutoDetect }
    customOptions :=
      config.customOptions.entries.foldl (fun m e => m.insert e.1 e.2) base.customOptions }

theorem toJson_eq (config : FullConfig) : config.toJson = .object
    ([("runtime", config.runtime.toJson),
        ("transport", config.transport.toJson),
        ("workflow", config.workflow.toJson),
        ("job", config.job.toJson),
        ("dsp", config.dsp.toJson),
        ("plugin", config.plugin.toJson),
        ("vendor", config.vendor.toJson),
        ("gui", config.gui.toJson),
        ("cli", config.cli.toJson),
        ("source", .string config.source.text)]
      ++ optionsMember "customOptions" config.customOptions) := by
  refine ofMembers_eq ?_
  rw [optionsMember]
  split <;> simp

theorem ofOptions_eq (options : AssocMap String String) :
    Json.ofOptions options = .object (options.entries.map fun e => (e.1, .string e.2)) := by
  refine ofMembers_eq ?_
  rw [List.map_map]
  exact options.nodup

theorem readOptions_toJson (config : FullConfig) (options : AssocMap String String) :
    readOptions lib config.toJson "customOptions" options
      = config.customOptions.entries.foldl (fun m e => m.insert e.1 e.2) options := by
  rw [readOptions, readSection, toJson_eq, optionsMember]
  by_cases hnone : config.customOptions.entries = []
  · simp [Json.member?, hnone]
  · simp [Json.member?, hnone, ofOptions_eq, List.foldl_map]

theorem readList_toJson (config : FullConfig) (current : List String)
    (hkey : key ∉ ["runtime", "transport", "workflow", "job", "dsp", "plugin", "vendor", "gui",
      "cli", "source", "customOptions"]) : readList config.toJson key current = current := by
  have hnone : config.toJson.member? key = none := by
    simp only [List.mem_cons, List.not_mem_nil, or_false, not_or] at hkey
    rw [toJson_eq, optionsMember]
    split <;> simp [Json.member?, hkey, eq_comm]
  rw [readList, hnone]

theorem readConfig_toJson (hlib : lib.Documented) (config base : FullConfig) :
    readConfig lib config.toJson base = .ok (config.mergedInto base) := by
  have hmember : ∀ key section', (key, section') ∈ [("runtime", config.runtime.toJson),
      ("transport", config.transport.toJson), ("workflow", config.workflow.toJson),
      ("job", config.job.toJson), ("dsp", config.dsp.toJson), ("plugin", config.plugin.toJson),
      ("vendor", config.vendor.toJson), ("gui", config.gui.toJson), ("cli", config.cli.toJson),
      ("source", .string config.source.text)] → config.toJson.member? key = some section' := by
    intro key section' h
    rw [toJson_eq, Json.member?]
    simp only [List.mem_cons, Prod.mk.injEq, List.not_mem_nil, or_false] at h
    rcases h with ⟨rfl, rfl⟩ | ⟨rfl, rfl⟩ | ⟨rfl, rfl⟩ | ⟨rfl, rfl⟩ | ⟨rfl, rfl⟩ | ⟨rfl, rfl⟩ |
      ⟨rfl, rfl⟩ | ⟨rfl, rfl⟩ | ⟨rfl, rfl⟩ | ⟨rfl, rfl⟩ <;> simp
  have hsource : readSource config.toJson base.source = .ok config.source := by
    rw [readSource, hmember "source" (.string config.source.text) (by simp)]
    exact congrArg Except.ok (ofText_text config.source)
  rw [readConfig, hsource]
  simp only [bind, Except.bind, pure, Except.pure]
  rw [readRuntime hlib (hmember "runtime" config.runtime.toJson (by simp)),
    readTransport hlib (hmember "transport" config.transport.toJson (by simp)),
    readWorkflow hlib (hmember "workflow" config.workflow.toJson (by simp)),
    readJob hlib (hmember "job" config.job.toJson (by simp)),
    readDSP hlib (hmember "dsp" config.dsp.toJson (by simp)),
    readPlugin hlib (hmember "plugin" config.plugin.toJson (by simp)),
    readVendor hlib (hmember "vendor" config.vendor.toJson (by simp)),
    readGUI hlib (hmember "gui" config.gui.toJson (by simp)),
    readCLI hlib (hmember "cli" config.cli.toJson (by simp)), readOptions_toJson,
    readList_toJson _ _ (by simp), readList_toJson _ _ (by simp), readList_toJson _ _ (by simp),
    readList_toJson _ _ (by simp)]
  rfl

/-! ## A library -/

def quote (s : String) : String := "\"" ++ s ++ "\""

def precedes (m m' : String × String) : Bool :=
  List.lex (m.1.toList.map Char.toNat) (m'.1.toList.map Char.toNat) (· < ·)

/-- The items between brackets, each on a line of its own where there is an indent. -/
def bracket (opening closing : String) (newline inner : String) (items : List String) : String :=
  if items = [] then opening ++ closing
  else opening ++ inner ++ ("," ++ inner).intercalate items ++ newline ++ closing

def line (step : Option Nat) (depth : Nat) : String :=
  match step with
  | none => ""
  | some n => "\n" ++ "".pushn ' ' (n * depth)

mutual

/-- The text of a document in which nothing is to be escaped, with its members
in the order of their keys. The indent of a line is none in a compact text. -/
def render (step : Option Nat) (depth : Nat) : Json → String
  | .null => "null"
  | .boolean b => if b then "true" else "false"
  | .unsigned n => Nat.repr n.toNat
  | .integer n => toString n.toInt
  | .float text => text
  | .string text => quote text
  | .array items => bracket "[" "]" (line step depth) (line step (depth + 1))
      (renderItems step (depth + 1) items)
  | .object members => bracket "\x7b" "\x7d" (line step depth) (line step (depth + 1))
      (((renderMembers step (depth + 1) members).mergeSort precedes).map fun m =>
        quote m.1 ++ (if step.isSome then ": " else ":") ++ m.2)

def renderItems (step : Option Nat) (depth : Nat) : List Json → List String
  | [] => []
  | item :: items => render step depth item :: renderItems step depth items

def renderMembers (step : Option Nat) (depth : Nat) :
    List (String × Json) → List (String × String)
  | [] => []
  | (key, value) :: members => (key, render step depth value) :: renderMembers step depth members

end

/-- It reads one document. -/
def libraryFor (json : Json) : JsonLibrary where
  parse text := if text = render (some 2) 0 json then some json else none
  dump := render none 0
  dumpIndented := render (some 2) 0

theorem libraryFor_documented (json : Json) : (libraryFor json).Documented where
  unsigned n := by simp [libraryFor, render]
  boolean b := by simp [libraryFor, render]

theorem libraryFor_inverse (json : Json) :
    (libraryFor json).parse ((libraryFor json).dumpIndented json) = some json := by
  simp [libraryFor]

/-! ## The round trip -/

/-- Nothing that an import does not restore. -/
structure FullConfig.Restorable (config : FullConfig) : Prop where
  trustedVendors : config.dsp.trustedVendors = []
  pluginPaths : config.plugin.pluginPaths = []
  blacklist : config.plugin.blacklist = []
  preferredVendors : config.vendor.preferredVendors = []
  vendorOptions : config.vendor.vendorOptions.entries = []

theorem importJson_eq (hlib : lib.Documented) {m : ConfigManager}
    (hinverse : lib.parse (lib.dumpIndented m.config.toJson) = some m.config.toJson)
    (m' : ConfigManager) : ConfigManager.importJson lib (m.exportJson lib) m'
      = .ok { config := m.config.mergedInto m'.config } := by
  have hparsed : parseConfigFromJson lib (m.exportJson lib) m'.config
      = readConfig lib m.config.toJson m'.config := by
    rw [parseConfigFromJson, ConfigManager.exportJson, hinverse, toJson_eq]
  rw [ConfigManager.importJson, hparsed, readConfig_toJson hlib]
  rfl

/-- A configuration makes the round trip exactly when it has no lists and no
vendor options. -/
theorem roundTrip_iff (hlib : lib.Documented) (m : ConfigManager)
    (hinverse : lib.parse (lib.dumpIndented m.config.toJson) = some m.config.toJson) :
    RoundTrip lib m ↔ m.config.Restorable := by
  have himport := importJson_eq hlib hinverse
  constructor
  · intro h
    have hrestored := h.restores
    rw [himport] at hrestored
    have hconfig : m.config.mergedInto {} = m.config :=
      congrArg ConfigManager.config (Except.ok.inj hrestored)
    exact ⟨congrArg (·.dsp.trustedVendors) hconfig.symm,
      congrArg (·.plugin.pluginPaths) hconfig.symm, congrArg (·.plugin.blacklist) hconfig.symm,
      congrArg (·.vendor.preferredVendors) hconfig.symm,
      congrArg (·.vendor.vendorOptions.entries) hconfig.symm⟩
  · rintro ⟨htrusted, hpaths, hblacklist, hpreferred, hoptions⟩
    have hoptions : m.config.vendor.vendorOptions = .empty := AssocMap.ext hoptions
    have hmerged : ∀ base : FullConfig, base.dsp.trustedVendors = [] →
        base.plugin.pluginPaths = [] → base.plugin.blacklist = [] →
        base.vendor.preferredVendors = [] → base.vendor.vendorOptions = .empty →
        m.config.customOptions.entries.foldl (fun m e => m.insert e.1 e.2) base.customOptions
          = m.config.customOptions → m.config.mergedInto base = m.config := by
      rcases m with ⟨⟨_, _, _, _, ⟨⟩, ⟨⟩, ⟨⟩, _, _, _, _⟩⟩
      rintro ⟨_, _, _, _, ⟨⟩, ⟨⟩, ⟨⟩, _, _, _, _⟩
      simp_all [FullConfig.mergedInto]
    have hfirst : m.config.mergedInto {} = m.config :=
      hmerged {} rfl rfl rfl rfl rfl (AssocMap.foldl_insert_empty _)
    have hrestores : ConfigManager.importJson lib (m.exportJson lib) {} = .ok m := by
      rw [himport, hfirst]
    refine ⟨hrestores, fun m' hm' => ?_⟩
    obtain rfl : m = m' := Except.ok.inj (hrestores.symm.trans hm')
    rw [himport, hmerged m.config htrusted hpaths hblacklist hpreferred hoptions
      (AssocMap.foldl_insert_self _)]

def customised : ConfigManager := ConfigManager.setCustomOption "label" "bench" {}

theorem roundTrip_customised : RoundTrip (libraryFor customised.config.toJson) customised :=
  (roundTrip_iff (libraryFor_documented _) customised (libraryFor_inverse _)).mpr
    ⟨rfl, rfl, rfl, rfl, rfl⟩

def trusting : ConfigManager :=
  ConfigManager.setDSPConfig { trustedVendors := ["QUALCOMM"] } {}

/-- The trusted vendors are not restored. -/
theorem trusting_not_roundTrip :
    (trusting.config.mergedInto {}).dsp.trustedVendors = [] ∧
      ConfigManager.importJson (libraryFor trusting.config.toJson)
          (trusting.exportJson (libraryFor trusting.config.toJson)) {}
        = .ok { config := trusting.config.mergedInto {} } ∧
      ¬ RoundTrip (libraryFor trusting.config.toJson) trusting := by
  have himport := importJson_eq (libraryFor_documented trusting.config.toJson)
    (libraryFor_inverse trusting.config.toJson) {}
  refine ⟨rfl, himport, fun h => ?_⟩
  have hrestored := h.restores
  rw [himport] at hrestored
  have hvendors := congrArg (·.config.dsp.trustedVendors) (Except.ok.inj hrestored)
  cases hvendors

end MBootCore.Config
