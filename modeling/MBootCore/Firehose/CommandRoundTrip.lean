import MBootCore.Firehose.Packets
import MBootCore.Firehose.XmlRoundTrip
import MBootCore.Support.LittleEndian

/-!
# Firehose — CommandRoundTrip

What `parseFirehoseXml` makes of a serialized command, for all 13 classes.

Every command is one self-closing tag, so the XML comes back with its values
escaped. Numbers and byte buffers are written in digits, which no escape
touches, and read back; a string field comes back escaped
(`parseFirehoseXml_serialize`).
-/

namespace MBootCore

open FirehoseXmlEngine
open scoped Scan

/-! ## Digits -/

theorem attributeSafe_ofList {s : List Char} (h : ∀ c ∈ s, c ≠ '&' ∧ c ≠ '"' ∧ c ≠ '<' ∧ c ≠ '>' ∧
    c ≠ '\'') : AttributeSafe (String.ofList s) := by
  rwa [AttributeSafe, String.toList_ofList]

theorem digitChar_safe {d : Nat} (h : d < 16) : d.digitChar ≠ '&' ∧ d.digitChar ≠ '"' ∧
    d.digitChar ≠ '<' ∧ d.digitChar ≠ '>' ∧ d.digitChar ≠ '\'' := by
  have : ∀ d : Fin 16, d.val.digitChar ≠ '&' ∧ d.val.digitChar ≠ '"' ∧ d.val.digitChar ≠ '<' ∧
    d.val.digitChar ≠ '>' ∧ d.val.digitChar ≠ '\'' := by decide
  exact this ⟨d, h⟩

@[simp] theorem escapeAttribute_toDecimal (val : UInt32) :
    escapeAttribute (toDecimal val) = toDecimal val := by
  rw [escapeAttribute_eq_iff]
  apply attributeSafe_ofList
  intro c hc
  obtain ⟨d, hd, rfl⟩ := Digits.mem_toDigits (by decide) hc
  exact digitChar_safe (by omega)

@[simp] theorem escapeAttribute_toHex (val : UInt32) :
    escapeAttribute (toHex val) = toHex val := by
  rw [escapeAttribute_eq_iff]
  apply attributeSafe_ofList
  intro c hc
  rcases List.mem_cons.mp hc with rfl | hc
  · decide
  rcases List.mem_cons.mp hc with rfl | hc
  · decide
  obtain ⟨d, hd, rfl⟩ := Digits.mem_toDigits (by decide) hc
  exact digitChar_safe hd

theorem toNibble_hexDigit {nibble : UInt8} (h : nibble.toNat < 16) :
    toNibble (hexDigit nibble) = some nibble := by
  have : ∀ d : Fin 16, toNibble (hexDigit (UInt8.ofNat d.val)) = some (UInt8.ofNat d.val) := by
    decide
  simpa using this ⟨nibble.toNat, h⟩

theorem and_0xF_toNat (b : UInt8) : (b &&& 0xF).toNat = b.toNat % 16 := by
  rw [UInt8.toNat_and]
  exact Nat.and_two_pow_sub_one_eq_mod b.toNat 4

theorem shiftRight_4_toNat (b : UInt8) : (b >>> 4).toNat = b.toNat / 16 := by
  rw [UInt8.toNat_shiftRight]
  exact Nat.shiftRight_eq_div_pow b.toNat 4

/-- The two nibbles of a byte put together again. -/
theorem nibbles_or (b : UInt8) : (((b >>> 4) &&& 0xF) <<< 4) ||| (b &&& 0xF) = b := by
  have hb := b.toNat_lt
  have hhi : ((b >>> 4) &&& 0xF).toNat = b.toNat / 16 := by
    rw [and_0xF_toNat, shiftRight_4_toNat]
    omega
  have hshift : ((((b >>> 4) &&& 0xF) <<< 4) : UInt8).toNat = (b.toNat / 16) <<< 4 := by
    rw [UInt8.toNat_shiftLeft, hhi, show (4 : UInt8).toNat % 8 = 4 from rfl, Nat.shiftLeft_eq]
    omega
  apply UInt8.toNat_inj.mp
  rw [UInt8.toNat_or, hshift, and_0xF_toNat, Nat.or_comm,
    LittleEndian.or_shiftLeft_eq_add (show b.toNat % 16 < 2 ^ 4 by omega)]
  omega

theorem fromHex_toHexBuffer (data : ByteBuffer) : fromHex (toHexBuffer data) = data := by
  have hpairs : fromHexPairs (data.flatMap fun (b : UInt8) =>
      [hexDigit ((b >>> 4) &&& 0xF), hexDigit (b &&& 0xF)]) = some data := by
    induction data with
    | nil => rfl
    | cons b data ih =>
      have hhi : ((b >>> 4) &&& 0xF).toNat < 16 := by rw [and_0xF_toNat]; omega
      have hlo : (b &&& 0xF).toNat < 16 := by rw [and_0xF_toNat]; omega
      simp only [List.flatMap_cons, List.cons_append, List.nil_append, fromHexPairs,
        toNibble_hexDigit hhi, toNibble_hexDigit hlo, ih, Option.map_some, nibbles_or]
  rw [fromHex, toHexBuffer, String.toList_ofList, hpairs, Option.getD_some]

theorem hexDigit_safe {nibble : UInt8} (h : nibble.toNat < 16) :
    hexDigit nibble ≠ '&' ∧ hexDigit nibble ≠ '"' ∧ hexDigit nibble ≠ '<' ∧
      hexDigit nibble ≠ '>' ∧ hexDigit nibble ≠ '\'' := by
  have : ∀ d : Fin 16, hexDigit (UInt8.ofNat d.val) ≠ '&' ∧ hexDigit (UInt8.ofNat d.val) ≠ '"' ∧
    hexDigit (UInt8.ofNat d.val) ≠ '<' ∧ hexDigit (UInt8.ofNat d.val) ≠ '>' ∧
    hexDigit (UInt8.ofNat d.val) ≠ '\'' := by decide
  simpa using this ⟨nibble.toNat, h⟩

@[simp] theorem escapeAttribute_toHexBuffer (data : ByteBuffer) :
    escapeAttribute (toHexBuffer data) = toHexBuffer data := by
  rw [escapeAttribute_eq_iff]
  apply attributeSafe_ofList
  intro c hc
  rw [List.mem_flatMap] at hc
  obtain ⟨b, -, hb⟩ := hc
  simp only [List.mem_cons, List.not_mem_nil, or_false] at hb
  rcases hb with rfl | rfl
  · exact hexDigit_safe (by rw [and_0xF_toNat]; omega)
  · exact hexDigit_safe (by rw [and_0xF_toNat]; omega)

theorem toHexBuffer_ne_empty {data : ByteBuffer} (h : data ≠ []) : toHexBuffer data ≠ "" := by
  intro hempty
  have := fromHex_toHexBuffer data
  rw [hempty] at this
  exact h this.symm

/-! ## Attributes of an escaped tag -/

@[simp] theorem escapeAttribute_empty : escapeAttribute "" = "" := rfl

theorem find?_escapedLeaf (e : XmlElement) (name : String) :
    ((escapedLeaf e).attributes.find? fun attr => attr.name = name)
      = (e.attributes.find? fun attr => attr.name = name).map escapedAttribute := by
  rw [escapedLeaf, XmlElement.attributes, List.find?_map]
  rfl

/-- A lookup in an escaped tag, from the lookup in the tag. -/
theorem getAttribute_found {e : XmlElement} {name value : String}
    (h : (e.attributes.find? fun attr => attr.name = name) = some ⟨name, value⟩)
    (defaultValue : String) :
    getAttribute (escapedLeaf e) name defaultValue = escapeAttribute value := by
  rw [getAttribute, find?_escapedLeaf, h]
  rfl

theorem getAttribute_missing {e : XmlElement} {name : String}
    (h : (e.attributes.find? fun attr => attr.name = name) = none) (defaultValue : String) :
    getAttribute (escapedLeaf e) name defaultValue = defaultValue := by
  rw [getAttribute, find?_escapedLeaf, h]
  rfl

/-- An attribute that is left out reads as its empty default. -/
theorem getAttribute_optional {e : XmlElement} {name value : String}
    (h : (e.attributes.find? fun attr => attr.name = name)
      = (optionalAttribute name value).head?) :
    getAttribute (escapedLeaf e) name "" = escapeAttribute value := by
  by_cases hvalue : value = ""
  · rw [optionalAttribute, if_pos hvalue] at h
    rw [getAttribute_missing h, hvalue, escapeAttribute_empty]
  · rw [optionalAttribute, if_neg hvalue] at h
    exact getAttribute_found h ""

theorem getUint_decimal {e : XmlElement} {name : String} {val : UInt32}
    (h : (e.attributes.find? fun attr => attr.name = name) = some ⟨name, toDecimal val⟩)
    (defaultValue : UInt32) : getUintAttribute (escapedLeaf e) name defaultValue = val := by
  have hne : toDecimal val ≠ "" := by
    rw [← String.toList_inj.ne, toDecimal, String.toList_ofList]
    exact Nat.toDigits_ne_nil
  simp only [getUintAttribute, getAttribute_found h, escapeAttribute_toDecimal, if_neg hne]
  rw [toDecimal, String.toList_ofList, SafeParser.fromCharsUint32_decimal, Option.getD_some]

theorem getUint_hex {e : XmlElement} {name : String} {val : UInt32}
    (h : (e.attributes.find? fun attr => attr.name = name) = some ⟨name, toHex val⟩)
    (defaultValue : UInt32) : getUintAttribute (escapedLeaf e) name defaultValue = val := by
  have hne : toHex val ≠ "" := by
    rw [← String.toList_inj.ne, toHex, String.toList_ofList]
    simp
  simp only [getUintAttribute, getAttribute_found h, escapeAttribute_toHex, if_neg hne]
  rw [toHex, String.toList_ofList, SafeParser.fromCharsUint32_hex, Option.getD_some]

theorem find?_optionalAttribute (name : String) (value : String) :
    ((optionalAttribute name value).find? fun attr => attr.name = name)
      = (optionalAttribute name value).head? := by
  by_cases hvalue : value = "" <;> simp [optionalAttribute, hvalue]

theorem find?_optionalAttribute_ne {name other : String} (h : other ≠ name) (value : String) :
    ((optionalAttribute other value).find? fun attr => attr.name = name) = none := by
  by_cases hvalue : value = "" <;> simp [optionalAttribute, hvalue, h]

/-! ## Commands -/

namespace FirehoseCommand

/-- The command with every string field changed by `f`. -/
def mapText (f : String → String) : FirehoseCommand → FirehoseCommand
  | configure cmd => configure { cmd with memoryName := f cmd.memoryName }
  | program cmd => program { cmd with filename := f cmd.filename, label := f cmd.label }
  | erase cmd => erase { cmd with filename := f cmd.filename, label := f cmd.label }
  | patch cmd => patch { cmd with filename := f cmd.filename }
  | reset cmd => reset { cmd with value := f cmd.value }
  | power cmd => power { cmd with value := f cmd.value }
  | configureMemory cmd =>
    configureMemory { cmd with memoryName := f cmd.memoryName, config := f cmd.config }
  | cmd => cmd

/-- The string fields. -/
def texts : FirehoseCommand → List String
  | configure cmd => [cmd.memoryName]
  | program cmd => [cmd.filename, cmd.label]
  | erase cmd => [cmd.filename, cmd.label]
  | patch cmd => [cmd.filename]
  | reset cmd => [cmd.value]
  | power cmd => [cmd.value]
  | configureMemory cmd => [cmd.memoryName, cmd.config]
  | _ => []

theorem mapText_eq_self_iff (f : String → String) (c : FirehoseCommand) :
    c.mapText f = c ↔ ∀ s ∈ c.texts, f s = s := by
  cases c with
  | configure cmd => cases cmd; simp [mapText, texts]
  | program cmd => cases cmd; simp [mapText, texts]
  | erase cmd => cases cmd; simp [mapText, texts]
  | patch cmd => cases cmd; simp [mapText, texts]
  | reset cmd => cases cmd; simp [mapText, texts]
  | power cmd => cases cmd; simp [mapText, texts]
  | configureMemory cmd => cases cmd; simp [mapText, texts]
  | _ => simp [mapText, texts]

end FirehoseCommand

theorem fromXml_configure (cmd : ConfigureCommand) :
    ConfigureCommand.fromXml (escapedLeaf cmd.toXml)
      = { cmd with memoryName := escapeAttribute cmd.memoryName } := by
  rw [ConfigureCommand.fromXml, ConfigureCommand.mk.injEq]
  refine ⟨getAttribute_found ?_ _, getUint_decimal ?_ _, getUint_decimal ?_ _,
    getUint_decimal ?_ _, getUint_decimal ?_ _, getUint_decimal ?_ _⟩
  all_goals simp [ConfigureCommand.toXml, XmlElement.attributes]

theorem fromXml_program (cmd : ProgramCommand) :
    ProgramCommand.fromXml (escapedLeaf cmd.toXml)
      = { cmd with
          filename := escapeAttribute cmd.filename, label := escapeAttribute cmd.label } := by
  rw [ProgramCommand.fromXml, ProgramCommand.mk.injEq]
  refine ⟨getUint_decimal ?_ _, getUint_decimal ?_ _, getUint_decimal ?_ _, getUint_decimal ?_ _,
    getUint_decimal ?_ _, getUint_decimal ?_ _, getAttribute_optional ?_,
    getAttribute_optional ?_⟩
  all_goals simp [ProgramCommand.toXml, XmlElement.attributes, List.find?_append,
    find?_optionalAttribute, find?_optionalAttribute_ne]

theorem fromXml_read (cmd : ReadCommand) : ReadCommand.fromXml (escapedLeaf cmd.toXml) = cmd := by
  rw [ReadCommand.fromXml, ReadCommand.mk.injEq]
  refine ⟨getUint_decimal ?_ _, getUint_decimal ?_ _, getUint_decimal ?_ _, getUint_decimal ?_ _,
    getUint_decimal ?_ _⟩
  all_goals simp [ReadCommand.toXml, XmlElement.attributes]

theorem fromXml_erase (cmd : EraseCommand) :
    EraseCommand.fromXml (escapedLeaf cmd.toXml)
      = { cmd with
          filename := escapeAttribute cmd.filename, label := escapeAttribute cmd.label } := by
  rw [EraseCommand.fromXml, EraseCommand.mk.injEq]
  refine ⟨getUint_decimal ?_ _, getUint_decimal ?_ _, getUint_decimal ?_ _, getUint_decimal ?_ _,
    getUint_decimal ?_ _, getAttribute_optional ?_, getAttribute_optional ?_⟩
  all_goals simp [EraseCommand.toXml, XmlElement.attributes, List.find?_append,
    find?_optionalAttribute, find?_optionalAttribute_ne]

theorem fromXml_peek (cmd : PeekCommand) : PeekCommand.fromXml (escapedLeaf cmd.toXml) = cmd := by
  rw [PeekCommand.fromXml, PeekCommand.mk.injEq]
  refine ⟨getUint_hex ?_ _, getUint_decimal ?_ _⟩
  all_goals simp [PeekCommand.toXml, XmlElement.attributes]

theorem fromXml_poke (cmd : PokeCommand) : PokeCommand.fromXml (escapedLeaf cmd.toXml) = cmd := by
  rw [PokeCommand.fromXml, PokeCommand.mk.injEq]
  refine ⟨getUint_hex ?_ _, getUint_decimal ?_ _, ?_⟩
  · simp [PokeCommand.toXml, XmlElement.attributes]
  · simp [PokeCommand.toXml, XmlElement.attributes]
  · by_cases hdata : cmd.data = []
    · rw [getAttribute_missing (by simp [PokeCommand.toXml, XmlElement.attributes, hdata]),
        if_pos rfl, hdata]
    · have hfound : (((PokeCommand.toXml cmd).attributes.find? fun attr => attr.name = "data")
          = some ⟨"data", toHexBuffer cmd.data⟩) := by
        simp [PokeCommand.toXml, XmlElement.attributes, hdata]
      rw [getAttribute_found hfound, escapeAttribute_toHexBuffer,
        if_neg (toHexBuffer_ne_empty hdata), fromHex_toHexBuffer]

theorem fromXml_patch (cmd : PatchCommand) :
    PatchCommand.fromXml (escapedLeaf cmd.toXml)
      = { cmd with filename := escapeAttribute cmd.filename } := by
  rw [PatchCommand.fromXml, PatchCommand.mk.injEq]
  refine ⟨getUint_hex ?_ _, getUint_decimal ?_ _, getUint_hex ?_ _, getAttribute_found ?_ _,
    getUint_decimal ?_ _, getUint_decimal ?_ _, getUint_decimal ?_ _, getUint_decimal ?_ _⟩
  all_goals simp [PatchCommand.toXml, XmlElement.attributes]

theorem fromXml_reset (cmd : ResetCommand) :
    ResetCommand.fromXml (escapedLeaf cmd.toXml)
      = { cmd with value := escapeAttribute cmd.value } := by
  rw [ResetCommand.fromXml, ResetCommand.mk.injEq]
  exact getAttribute_found (by simp [ResetCommand.toXml, XmlElement.attributes]) _

theorem fromXml_power (cmd : PowerCommand) :
    PowerCommand.fromXml (escapedLeaf cmd.toXml)
      = { cmd with value := escapeAttribute cmd.value } := by
  rw [PowerCommand.fromXml, PowerCommand.mk.injEq]
  exact getAttribute_found (by simp [PowerCommand.toXml, XmlElement.attributes]) _

theorem fromXml_getSha256Digest (cmd : GetSha256DigestCommand) :
    GetSha256DigestCommand.fromXml (escapedLeaf cmd.toXml) = cmd := by
  rw [GetSha256DigestCommand.fromXml, GetSha256DigestCommand.mk.injEq]
  refine ⟨getUint_decimal ?_ _, getUint_decimal ?_ _, getUint_decimal ?_ _, getUint_decimal ?_ _,
    getUint_decimal ?_ _⟩
  all_goals simp [GetSha256DigestCommand.toXml, XmlElement.attributes]

theorem fromXml_configureMemory (cmd : ConfigureMemoryCommand) :
    ConfigureMemoryCommand.fromXml (escapedLeaf cmd.toXml)
      = { cmd with
          memoryName := escapeAttribute cmd.memoryName, config := escapeAttribute cmd.config } := by
  rw [ConfigureMemoryCommand.fromXml, ConfigureMemoryCommand.mk.injEq]
  refine ⟨getAttribute_found ?_ _, getAttribute_found ?_ _⟩
  all_goals simp [ConfigureMemoryCommand.toXml, XmlElement.attributes]

/-! ## All thirteen -/

namespace FirehoseCommand

theorem validName_optionalAttribute {name : String} (h : ValidName name) (value : String) :
    ∀ attr ∈ optionalAttribute name value, ValidName attr.name := by
  unfold optionalAttribute
  split <;> simp [h]

theorem validNames_append_optional {attributes : List XmlAttribute} {name : String}
    (h : ∀ attr ∈ attributes, ValidName attr.name) (hname : ValidName name) (value : String) :
    ∀ attr ∈ attributes ++ optionalAttribute name value, ValidName attr.name := by
  rw [List.forall_mem_append]
  exact ⟨h, validName_optionalAttribute hname value⟩

/-- A command is one self-closing tag with ordinary names. -/
theorem toXml_valid (c : FirehoseCommand) : Valid c.toXml ∧ c.toXml.Leaf := by
  have hleaf {name : String} {attributes : List XmlAttribute} (hname : ValidName name)
      (hattributes : ∀ attr ∈ attributes, ValidName attr.name) :
      Valid (.mk name attributes [] "") ∧ (XmlElement.mk name attributes [] "").Leaf :=
    ⟨valid_leaf hname hattributes, rfl, rfl⟩
  cases c with
  | program cmd | erase cmd =>
    refine hleaf (by decide) ?_
    refine validNames_append_optional ?_ (by decide) _
    refine validNames_append_optional ?_ (by decide) _
    simp only [List.forall_mem_cons]
    decide
  | poke cmd =>
    refine hleaf (by decide) ?_
    rw [List.forall_mem_append]
    refine ⟨?_, ?_⟩
    · simp only [List.forall_mem_cons]
      decide
    · split
      · simp
      · simp only [List.forall_mem_cons]
        decide
  | nop | getStorageInfo => exact hleaf (by decide) (by simp)
  | _ =>
    refine hleaf (by decide) ?_
    simp only [List.forall_mem_cons]
    decide

/-- The name of a serialized command selects its class again. -/
theorem commandFromXml_escaped (c : FirehoseCommand) :
    commandFromXml (escapedLeaf c.toXml) = .ok (c.mapText escapeAttribute) := by
  cases c with
  | configure cmd =>
    have hname : (escapedLeaf cmd.toXml).name = "configure" := rfl
    simp [commandFromXml, hname, toXml, mapText, fromXml_configure]
  | program cmd =>
    have hname : (escapedLeaf cmd.toXml).name = "program" := rfl
    simp [commandFromXml, hname, toXml, mapText, fromXml_program]
  | read cmd =>
    have hname : (escapedLeaf cmd.toXml).name = "read" := rfl
    simp [commandFromXml, hname, toXml, mapText, fromXml_read]
  | erase cmd =>
    have hname : (escapedLeaf cmd.toXml).name = "erase" := rfl
    simp [commandFromXml, hname, toXml, mapText, fromXml_erase]
  | peek cmd =>
    have hname : (escapedLeaf cmd.toXml).name = "peek" := rfl
    simp [commandFromXml, hname, toXml, mapText, fromXml_peek]
  | poke cmd =>
    have hname : (escapedLeaf cmd.toXml).name = "poke" := rfl
    simp [commandFromXml, hname, toXml, mapText, fromXml_poke]
  | patch cmd =>
    have hname : (escapedLeaf cmd.toXml).name = "patch" := rfl
    simp [commandFromXml, hname, toXml, mapText, fromXml_patch]
  | reset cmd =>
    have hname : (escapedLeaf cmd.toXml).name = "reset" := rfl
    simp [commandFromXml, hname, toXml, mapText, fromXml_reset]
  | power cmd =>
    have hname : (escapedLeaf cmd.toXml).name = "power" := rfl
    simp [commandFromXml, hname, toXml, mapText, fromXml_power]
  | getSha256Digest cmd =>
    have hname : (escapedLeaf cmd.toXml).name = "getsha256digest" := rfl
    simp [commandFromXml, hname, toXml, mapText, fromXml_getSha256Digest]
  | configureMemory cmd =>
    have hname : (escapedLeaf cmd.toXml).name = "configurememory" := rfl
    simp [commandFromXml, hname, toXml, mapText, fromXml_configureMemory]
  | nop | getStorageInfo => simp [commandFromXml, toXml, mapText, escapedLeaf, XmlElement.name]

/-- A serialized command parses to the same command with escaped strings. -/
theorem parseFirehoseXml_serialize (c : FirehoseCommand) :
    parseFirehoseXml c.serialize = .ok (c.mapText escapeAttribute) := by
  obtain ⟨hvalid, hleaf⟩ := c.toXml_valid
  have hflat : Flat c.toXml := by simp [Flat, hleaf.1]
  have hescaped : escapedFlat c.toXml = escapedLeaf c.toXml := by
    rw [escapedFlat, escapedLeaf, hleaf.1, hleaf.2]
    rfl
  have hparse : FirehoseXmlEngine.parse c.serialize = .ok (escapedLeaf c.toXml) := by
    rw [← hescaped, ← parse_render_flat hvalid hflat]
    rfl
  rw [parseFirehoseXml, hparse]
  exact c.commandFromXml_escaped

/-- A command survives the codec exactly when no string field has one of the
five escaped characters. -/
theorem parseFirehoseXml_serialize_iff (c : FirehoseCommand) :
    parseFirehoseXml c.serialize = .ok c ↔ ∀ s ∈ c.texts, AttributeSafe s := by
  rw [parseFirehoseXml_serialize, Except.ok.injEq, mapText_eq_self_iff]
  simp only [escapeAttribute_eq_iff]

/-- A file name with an ampersand comes back as another name. -/
theorem parseFirehoseXml_patch_ampersand :
    parseFirehoseXml (patch { filename := "a&b.bin" }).serialize
        = .ok (patch { filename := "a&amp;b.bin" }) ∧
      patch { filename := "a&amp;b.bin" } ≠ patch { filename := "a&b.bin" } := by
  refine ⟨?_, by decide⟩
  rw [parseFirehoseXml_serialize]
  decide

end FirehoseCommand

end MBootCore
