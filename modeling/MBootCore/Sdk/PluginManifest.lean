import MBootCore.Support.Scan

/-!
# Sdk — PluginManifest

`PluginManifest` of `sdk/PluginManifest.cpp`: the writer of its JSON text, and
the reader that looks for a key in quotes and takes the next string behind the
next colon. A `std::string` is the list of its bytes, as characters.

The reader knows nine strings and no list, and a value that is the name of a
later key is found in its place (`fromJson_toJson_iff`).
-/

namespace MBootCore

structure ManifestDependency where
  name : List Char
  minVersion : List Char := []
  maxVersion : List Char := []
  optional : Bool := false
  deriving DecidableEq, Repr

structure ManifestEntry where
  type : List Char := []
  name : List Char
  version : List Char := []
  vendor : List Char := []
  description : List Char := []
  attributes : List (List Char × List Char) := []
  deriving DecidableEq, Repr

structure PluginManifest where
  pluginName : List Char := "unnamed".toList
  pluginVersion : List Char := "1.0.0".toList
  sdkVersion : List Char := "1.0.0".toList
  minRuntimeVersion : List Char := "1.0.0".toList
  maxRuntimeVersion : List Char := "1.1.0".toList
  vendor : List Char := []
  author : List Char := []
  license : List Char := []
  description : List Char := []
  dependencies : List ManifestDependency := []
  entries : List ManifestEntry := []
  capabilities : List (List Char) := []
  deriving DecidableEq, Repr

/-- A string of the manifest and the key it is written under. -/
structure ManifestField where
  key : List Char
  value : List Char
  deriving DecidableEq, Repr

namespace PluginManifest

/-! ## Writing -/

def fields (m : PluginManifest) : List ManifestField :=
  [⟨"pluginName".toList, m.pluginName⟩, ⟨"pluginVersion".toList, m.pluginVersion⟩,
    ⟨"sdkVersion".toList, m.sdkVersion⟩, ⟨"minRuntimeVersion".toList, m.minRuntimeVersion⟩,
    ⟨"maxRuntimeVersion".toList, m.maxRuntimeVersion⟩, ⟨"vendor".toList, m.vendor⟩,
    ⟨"author".toList, m.author⟩, ⟨"license".toList, m.license⟩,
    ⟨"description".toList, m.description⟩]

/-- A line of the nine. -/
def fieldText (f : ManifestField) : List Char :=
  "  \"".toList ++ f.key ++ "\": \"".toList ++ f.value ++ "\",\n".toList

def dependencyText (d : ManifestDependency) : List Char :=
  "    \x7b\"name\": \"".toList ++ d.name ++ "\", \"minVersion\": \"".toList ++ d.minVersion ++
    "\", \"maxVersion\": \"".toList ++ d.maxVersion ++ "\", \"optional\": ".toList ++
    (if d.optional then "true".toList else "false".toList) ++ "\x7d".toList

def entryText (e : ManifestEntry) : List Char :=
  "    \x7b\"type\": \"".toList ++ e.type ++ "\", \"name\": \"".toList ++ e.name ++
    "\", \"version\": \"".toList ++ e.version ++ "\", \"vendor\": \"".toList ++ e.vendor ++
    "\", \"description\": \"".toList ++ e.description ++ "\"\x7d".toList

/-- One line for each element, with commas between them. -/
def listLines : List (List Char) → List Char
  | [] => []
  | [line] => line ++ "\n".toList
  | line :: lines => line ++ ",\n".toList ++ listLines lines

/-- What follows the nine strings, from the first key of a list on. -/
def listsText (m : PluginManifest) : List Char :=
  "\"dependencies\": [\n".toList ++ listLines (m.dependencies.map dependencyText) ++
    "  ],\n".toList ++ "  \"entries\": [\n".toList ++ listLines (m.entries.map entryText) ++
    "  ],\n".toList ++ "  \"capabilities\": [".toList ++
    (", ".toList).intercalate (m.capabilities.map fun c => '"' :: c ++ ['"']) ++
    "]\n".toList ++ "\x7d\n".toList

def toJson (m : PluginManifest) : List Char :=
  "\x7b\n".toList ++ m.fields.flatMap fieldText ++ "  ".toList ++ m.listsText

/-! ## Reading -/

/-- From a key on: the string behind the next colon. -/
def valueBehind (found : List Char) : List Char :=
  match (found.dropWhile (· ≠ ':')).dropWhile (· ≠ '"') with
  | [] => []
  | _ :: value => if '"' ∈ value then value.takeWhile (· ≠ '"') else []

def findValue (json key : List Char) : List Char :=
  match Scan.find ('"' :: key ++ ['"']) json with
  | none => []
  | some found => valueBehind found

/-- The reader starts from a new manifest and sets nine strings. -/
def fromJson (json : List Char) : PluginManifest :=
  { ({} : PluginManifest) with
    pluginName := findValue json "pluginName".toList
    pluginVersion := findValue json "pluginVersion".toList
    sdkVersion := findValue json "sdkVersion".toList
    minRuntimeVersion := findValue json "minRuntimeVersion".toList
    maxRuntimeVersion := findValue json "maxRuntimeVersion".toList
    vendor := findValue json "vendor".toList
    author := findValue json "author".toList
    license := findValue json "license".toList
    description := findValue json "description".toList }

/-! ## Strings -/

/-- No quotes, backslashes or control characters. -/
def PlainText (s : List Char) : Prop :=
  ∀ c ∈ s, c ≠ '"' ∧ c ≠ '\\' ∧ 0x20 ≤ c.toNat ∧ c.toNat ≠ 0x7F

instance : DecidablePred PlainText := fun s => List.decidableBAll _ s

/-- Every string of the manifest. -/
def strings (m : PluginManifest) : List (List Char) :=
  m.fields.map ManifestField.value ++
    m.dependencies.flatMap (fun d => [d.name, d.minVersion, d.maxVersion]) ++
    m.entries.flatMap (fun e => [e.type, e.name, e.version, e.vendor, e.description] ++
      e.attributes.flatMap fun a => [a.1, a.2]) ++
    m.capabilities

def Plain (m : PluginManifest) : Prop := ∀ s ∈ m.strings, PlainText s

/-- Where the first value that is the name of `g`'s key stands two or more lines
before `g`, the value behind it is `g`'s. -/
def Undisturbed (g : ManifestField) (fields : List ManifestField) : Prop :=
  ∀ front f next back, fields = front ++ f :: next :: back → g ∈ back → f.value = g.key →
    (∀ e ∈ front, e.value ≠ g.key) → next.value = g.value

def Harmless (fields : List ManifestField) : Prop := ∀ g ∈ fields, Undisturbed g fields

/-! ## Searching for a key -/

section Search

variable {key rest : List Char}

/-- Before a quote nothing is found. -/
theorem find_unquoted {seg : List Char} (hseg : '"' ∉ seg) :
    Scan.find ('"' :: key ++ ['"']) (seg ++ '"' :: rest)
      = Scan.find ('"' :: key ++ ['"']) ('"' :: rest) := by
  induction seg with
  | nil => rfl
  | cons c seg ih =>
    rw [List.mem_cons, not_or] at hseg
    obtain ⟨hc, hseg⟩ := hseg
    have hstart : ¬ ('"' :: key ++ ['"']).isPrefixOf (c :: (seg ++ '"' :: rest)) = true := by
      rw [List.isPrefixOf_iff_prefix, List.cons_append, List.cons_prefix_cons]
      exact fun h => hc h.1
    calc Scan.find ('"' :: key ++ ['"']) (c :: (seg ++ '"' :: rest))
        = Scan.find ('"' :: key ++ ['"']) (seg ++ '"' :: rest) := if_neg hstart
      _ = Scan.find ('"' :: key ++ ['"']) ('"' :: rest) := ih hseg

theorem quoted_unique {seg a b : List Char} (hkey : '"' ∉ key) (hseg : '"' ∉ seg)
    (h : key ++ '"' :: a = seg ++ '"' :: b) : key = seg := by
  have htext {s : List Char} (hs : '"' ∉ s) (t : List Char) :
      (s ++ '"' :: t).takeWhile (· ≠ '"') = s := by
    refine Scan.takeWhile_run ?_ (Scan.stops_cons rfl)
    intro c hc
    refine decide_eq_true ?_
    rintro rfl
    exact hs hc
  rw [← htext hkey a, h, htext hseg b]

/-- Between quotes, the key is found where it is all they enclose. -/
theorem find_quoted {seg : List Char} (rest : List Char) (hkey : '"' ∉ key) (hseg : '"' ∉ seg) :
    Scan.find ('"' :: key ++ ['"']) ('"' :: seg ++ '"' :: rest) =
      if seg = key then some ('"' :: seg ++ '"' :: rest)
      else Scan.find ('"' :: key ++ ['"']) ('"' :: rest) := by
  have hstarts :
      ('"' :: key ++ ['"']).isPrefixOf ('"' :: seg ++ '"' :: rest) = true ↔ seg = key := by
    rw [List.isPrefixOf_iff_prefix, List.cons_append, List.cons_append, List.cons_prefix_cons]
    constructor
    · rintro ⟨-, after, hafter⟩
      rw [List.append_assoc] at hafter
      exact (quoted_unique hkey hseg hafter).symm
    · rintro rfl
      exact ⟨rfl, rest, by rw [List.append_assoc]; rfl⟩
  by_cases h : seg = key
  · rw [if_pos h]
    exact if_pos (hstarts.mpr h)
  · rw [if_neg h]
    calc Scan.find ('"' :: key ++ ['"']) ('"' :: seg ++ '"' :: rest)
        = Scan.find ('"' :: key ++ ['"']) (seg ++ '"' :: rest) := if_neg (mt hstarts.mp h)
      _ = Scan.find ('"' :: key ++ ['"']) ('"' :: rest) := find_unquoted hseg

end Search

/-! ## Reading the nine strings back -/

/-- The text of the fields from the first quote on, up to the quote that `tail`
starts with. -/
def chain (tail : List Char) : List ManifestField → List Char
  | [] => tail
  | f :: fields => '"' :: f.key ++ '"' :: (": ".toList ++ '"' :: f.value ++
      '"' :: (",\n  ".toList ++ chain tail fields))

theorem flatMap_fieldText (tail : List Char) (fields : List ManifestField) :
    fields.flatMap fieldText ++ "  ".toList ++ tail = "  ".toList ++ chain tail fields := by
  induction fields with
  | nil => rfl
  | cons f fields ih =>
    have hline : fieldText f ++ ("  ".toList ++ chain tail fields)
        = "  ".toList ++ chain tail (f :: fields) := by
      simp [fieldText, chain]
    rw [List.flatMap_cons, List.append_assoc, List.append_assoc, ← List.append_assoc _ _ tail, ih,
      hline]

theorem toJson_eq (m : PluginManifest) :
    m.toJson = "\x7b\n".toList ++ ("  ".toList ++ chain m.listsText m.fields) := by
  rw [toJson, List.append_assoc, List.append_assoc, ← List.append_assoc _ _ m.listsText,
    flatMap_fieldText]

/-- What is found under a key. -/
def readBack (key : List Char) : List ManifestField → List Char
  | [] => []
  | f :: fields =>
    if f.key = key then f.value
    else if f.value = key then (fields.head?.map ManifestField.value).getD []
    else readBack key fields

/-- The string behind the first colon. -/
theorem valueBehind_eq {before value after : List Char} (hbefore : ':' ∉ before)
    (hvalue : '"' ∉ value) :
    valueBehind (before ++ (": ".toList ++ '"' :: value ++ '"' :: after)) = value := by
  have hcolon : (before ++ (": ".toList ++ '"' :: value ++ '"' :: after)).dropWhile (· ≠ ':')
      = ": ".toList ++ '"' :: value ++ '"' :: after := by
    refine Scan.dropWhile_run ?_ (Scan.stops_cons rfl)
    intro c hc
    refine decide_eq_true ?_
    rintro rfl
    exact hbefore hc
  have hquote : (": ".toList ++ '"' :: value ++ '"' :: after).dropWhile (· ≠ '"')
      = '"' :: (value ++ '"' :: after) := rfl
  have htake : (value ++ '"' :: after).takeWhile (· ≠ '"') = value := by
    refine Scan.takeWhile_run ?_ (Scan.stops_cons rfl)
    intro c hc
    refine decide_eq_true ?_
    rintro rfl
    exact hvalue hc
  rw [valueBehind, hcolon, hquote]
  dsimp only
  rw [if_pos (by simp), htake]

/-- A key is not taken for what stands between two strings. -/
structure IsKey (key : List Char) : Prop where
  quote : '"' ∉ key
  colon : ':' ∉ key
  newline : '\n' ∉ key

theorem IsKey.ne_colon {key : List Char} (h : IsKey key) : ": ".toList ≠ key := by
  rintro rfl
  exact h.colon (by decide)

theorem IsKey.ne_comma {key : List Char} (h : IsKey key) : ",\n  ".toList ≠ key := by
  rintro rfl
  exact h.newline (by decide)

/-- From the key of a field on, its value is read. -/
theorem valueBehind_chain (tail : List Char) (fields : List ManifestField) {before : List Char}
    {f : ManifestField} (hbefore : ':' ∉ before) (hkey : IsKey f.key)
    (hvalue : '"' ∉ f.value) :
    valueBehind (before ++ chain tail (f :: fields)) = f.value := by
  have hopening : ':' ∉ before ++ '"' :: f.key ++ ['"'] := by
    simp [hbefore, hkey.colon]
  have htext : before ++ chain tail (f :: fields)
      = (before ++ '"' :: f.key ++ ['"']) ++ (": ".toList ++ '"' :: f.value ++
        '"' :: (",\n  ".toList ++ chain tail fields)) := by
    simp [chain]
  rw [htext, valueBehind_eq hopening hvalue]

/-- Looking for a key, field by field: its name may stand as a key or as a value. -/
theorem findValue_chain {tail key : List Char} (hkey : IsKey key) {fields : List ManifestField}
    (hfields : ∀ f ∈ fields, IsKey f.key ∧ '"' ∉ f.value) (hmem : ∃ f ∈ fields, f.key = key) :
    findValue (chain tail fields) key = readBack key fields := by
  induction fields with
  | nil =>
    obtain ⟨f, hf, -⟩ := hmem
    cases hf
  | cons f fields ih =>
    obtain ⟨⟨hfkey, hfvalue⟩, hrest⟩ := List.forall_mem_cons.mp hfields
    have hfirst : Scan.find ('"' :: key ++ ['"']) (chain tail (f :: fields))
        = if f.key = key then some (chain tail (f :: fields)) else
          if f.value = key then
            some ('"' :: f.value ++ '"' :: (",\n  ".toList ++ chain tail fields))
          else Scan.find ('"' :: key ++ ['"']) ('"' :: (",\n  ".toList ++ chain tail fields)) := by
      have hcolon : '"' ∉ ": ".toList := by decide
      have hseparator := find_quoted (f.value ++ '"' :: (",\n  ".toList ++ chain tail fields))
        hkey.quote hcolon
      have hvalue := find_quoted (",\n  ".toList ++ chain tail fields) hkey.quote hfvalue
      rw [if_neg hkey.ne_colon] at hseparator
      rw [chain, find_quoted _ hkey.quote hfkey.quote]
      congr 1
      exact hseparator.trans hvalue
    rw [findValue, hfirst, readBack]
    by_cases hhere : f.key = key
    · rw [if_pos hhere, if_pos hhere]
      exact valueBehind_chain tail fields List.not_mem_nil hfkey hfvalue
    rw [if_neg hhere, if_neg hhere]
    -- The key stands further on, so a field follows.
    obtain ⟨g, hg, hgkey⟩ := hmem
    have hlater : g ∈ fields := by
      rcases List.mem_cons.mp hg with rfl | hg
      · exact absurd hgkey hhere
      · exact hg
    obtain ⟨next, fields, rfl⟩ := List.exists_cons_of_ne_nil (List.ne_nil_of_mem hlater)
    obtain ⟨hnextKey, hnextValue⟩ := hrest next List.mem_cons_self
    by_cases hvalue : f.value = key
    · rw [if_pos hvalue, if_pos hvalue, List.head?_cons]
      have hbefore : ':' ∉ '"' :: f.value ++ '"' :: ",\n  ".toList := by
        rw [hvalue]
        simp [hkey.colon]
      have hread := valueBehind_chain tail fields hbefore hnextKey hnextValue
      rw [List.append_assoc, List.cons_append] at hread
      exact hread
    · rw [if_neg hvalue, if_neg hvalue, ← ih hrest ⟨g, hlater, hgkey⟩, findValue]
      have hcomma : '"' ∉ ",\n  ".toList := by decide
      have hskip := find_quoted (next.key ++ '"' :: (": ".toList ++ '"' :: next.value ++
        '"' :: (",\n  ".toList ++ chain tail fields))) hkey.quote hcomma
      rw [if_neg hkey.ne_comma] at hskip
      have hfound : Scan.find ('"' :: key ++ ['"'])
          ('"' :: (",\n  ".toList ++ chain tail (next :: fields)))
          = Scan.find ('"' :: key ++ ['"']) (chain tail (next :: fields)) := hskip
      rw [hfound]

/-- The nine keys, whatever stands under them. -/
def keyNames : List (List Char) := ({} : PluginManifest).fields.map ManifestField.key

theorem map_key_fields (m : PluginManifest) : m.fields.map ManifestField.key = keyNames := rfl

theorem isKey_fields (m : PluginManifest) {f : ManifestField} (hf : f ∈ m.fields) :
    IsKey f.key := by
  have hkeys : ∀ key ∈ keyNames, '"' ∉ key ∧ ':' ∉ key ∧ '\n' ∉ key := by decide
  have hmem : f.key ∈ keyNames := by
    rw [← map_key_fields m]
    exact List.mem_map_of_mem hf
  obtain ⟨hquote, hcolon, hnewline⟩ := hkeys f.key hmem
  exact ⟨hquote, hcolon, hnewline⟩

theorem nodup_keys (m : PluginManifest) : (m.fields.map ManifestField.key).Nodup := by
  rw [map_key_fields]
  decide

theorem Plain.not_mem_value {m : PluginManifest} (h : m.Plain) {f : ManifestField}
    (hf : f ∈ m.fields) : '"' ∉ f.value := by
  intro hquote
  have hmem : f.value ∈ m.strings := by
    simp [strings, List.mem_map_of_mem hf]
  exact (h f.value hmem '"' hquote).1 rfl

/-- The reader finds in the whole text what `readBack` finds in the nine lines. -/
theorem findValue_toJson {m : PluginManifest} (h : m.Plain) {g : ManifestField}
    (hg : g ∈ m.fields) : findValue m.toJson g.key = readBack g.key m.fields := by
  have hprefix : '"' ∉ "\x7b\n  ".toList := by decide
  have htext : m.toJson = "\x7b\n  ".toList ++ chain m.listsText m.fields := m.toJson_eq
  have hfound : Scan.find ('"' :: g.key ++ ['"']) m.toJson
      = Scan.find ('"' :: g.key ++ ['"']) (chain m.listsText m.fields) := by
    rw [htext]
    exact find_unquoted hprefix
  have hread : findValue (chain m.listsText m.fields) g.key = readBack g.key m.fields := by
    apply findValue_chain (isKey_fields m hg)
    · intro f hf
      exact ⟨isKey_fields m hf, h.not_mem_value hf⟩
    · exact ⟨g, hg, rfl⟩
  rw [← hread, findValue, hfound, findValue]

/-! ## Which manifests come back -/

theorem undisturbed_cons {f g : ManifestField} {fields : List ManifestField} :
    Undisturbed g (f :: fields) ↔
      (∀ next back, fields = next :: back → g ∈ back → f.value = g.key → next.value = g.value) ∧
        (f.value ≠ g.key → Undisturbed g fields) := by
  constructor
  · intro h
    constructor
    · intro next back hfields hg hvalue
      refine h [] f next back ?_ hg hvalue ?_
      · rw [hfields, List.nil_append]
      · intro e he
        cases he
    · intro hvalue front e next back hfields hg hname hfront
      refine h (f :: front) e next back ?_ hg hname ?_
      · rw [hfields, List.cons_append]
      · exact List.forall_mem_cons.mpr ⟨hvalue, hfront⟩
  · rintro ⟨hhead, htail⟩ front e next back hfields hg hname hfront
    cases front with
    | nil =>
      injection hfields with hf hfields
      subst hf
      exact hhead next back hfields hg hname
    | cons first front =>
      injection hfields with hf hfields
      subst hf
      obtain ⟨hfirst, hfront⟩ := List.forall_mem_cons.mp hfront
      exact htail hfirst front e next back hfields hg hname hfront

theorem readBack_iff {fields : List ManifestField}
    (hkeys : (fields.map ManifestField.key).Nodup) {g : ManifestField} (hg : g ∈ fields) :
    readBack g.key fields = g.value ↔ Undisturbed g fields := by
  induction fields with
  | nil => cases hg
  | cons f fields ih =>
    rw [List.map_cons, List.nodup_cons] at hkeys
    obtain ⟨hnew, hkeys⟩ := hkeys
    rw [undisturbed_cons, readBack]
    by_cases hhere : f.key = g.key
    · -- `g` stands first, and nothing of it further on.
      have habsent : g ∉ fields := by
        intro hg
        exact hnew (hhere ▸ List.mem_map_of_mem hg)
      have hfg : g = f := by
        rcases List.mem_cons.mp hg with hgf | hg
        · exact hgf
        · exact absurd hg habsent
      rw [if_pos hhere]
      constructor
      · intro _
        constructor
        · intro next back hfields hback
          exact absurd (hfields ▸ List.mem_cons_of_mem next hback) habsent
        · intro _ front e next back hfields hback
          refine absurd ?_ habsent
          rw [hfields]
          simp [hback]
      · intro _
        rw [hfg]
    · have hlater : g ∈ fields := by
        rcases List.mem_cons.mp hg with rfl | hg
        · exact absurd rfl hhere
        · exact hg
      rw [if_neg hhere]
      by_cases hvalue : f.value = g.key
      · obtain ⟨next, back, rfl⟩ := List.exists_cons_of_ne_nil (List.ne_nil_of_mem hlater)
        rw [if_pos hvalue, List.head?_cons]
        constructor
        · intro hnext
          constructor
          · intro next' back' hfields _ _
            injection hfields with hfirst
            subst hfirst
            exact hnext
          · intro hother
            exact absurd hvalue hother
        · rintro ⟨hhead, -⟩
          rcases List.mem_cons.mp hlater with rfl | hback
          · rfl
          · exact hhead next back rfl hback hvalue
      · rw [if_neg hvalue, ih hkeys hlater]
        constructor
        · intro h
          constructor
          · intro _ _ _ _ hname
            exact absurd hname hvalue
          · intro _
            exact h
        · rintro ⟨-, htail⟩
          exact htail hvalue

/-- The nine strings that come back, and the lists that never do. -/
theorem fromJson_eq_iff (m : PluginManifest) (json : List Char) :
    fromJson json = m ↔ (m.dependencies = [] ∧ m.entries = [] ∧ m.capabilities = []) ∧
      ∀ f ∈ m.fields, findValue json f.key = f.value := by
  cases m with
  | mk pluginName pluginVersion sdkVersion minRuntime maxRuntime vendor author license description
      dependencies entries capabilities =>
    simp only [fromJson, fields, PluginManifest.mk.injEq, List.forall_mem_cons]
    constructor
    · rintro ⟨hn, hv, hs, hmin, hmax, hve, ha, hl, hd, hdeps, hentries, hcaps⟩
      refine ⟨⟨hdeps.symm, hentries.symm, hcaps.symm⟩, hn, hv, hs, hmin, hmax, hve, ha, hl, hd, ?_⟩
      intro f hf
      cases hf
    · rintro ⟨⟨hdeps, hentries, hcaps⟩, hn, hv, hs, hmin, hmax, hve, ha, hl, hd, -⟩
      exact ⟨hn, hv, hs, hmin, hmax, hve, ha, hl, hd, hdeps.symm, hentries.symm, hcaps.symm⟩

/-- A manifest comes back exactly when it has no lists and no value of it stands
for a key. -/
theorem fromJson_toJson_iff (m : PluginManifest) (h : m.Plain) :
    fromJson m.toJson = m ↔
      (m.dependencies = [] ∧ m.entries = [] ∧ m.capabilities = []) ∧ Harmless m.fields := by
  rw [fromJson_eq_iff]
  have hfields : (∀ f ∈ m.fields, findValue m.toJson f.key = f.value) ↔ Harmless m.fields := by
    constructor
    · intro hread g hg
      rw [← readBack_iff m.nodup_keys hg, ← findValue_toJson h hg]
      exact hread g hg
    · intro hharmless g hg
      rw [findValue_toJson h hg, readBack_iff m.nodup_keys hg]
      exact hharmless g hg
  rw [hfields]

theorem harmless_of_no_key {fields : List ManifestField}
    (h : ∀ f ∈ fields, ∀ g ∈ fields, f.value ≠ g.key) : Harmless fields := by
  intro g hg front f next back hfields _ hvalue
  have hf : f ∈ fields := by
    rw [hfields]
    simp
  exact absurd hvalue (h f hf g hg)

theorem fromJson_toJson_named :
    fromJson (toJson { pluginName := "edl-tools".toList, author := "Tester".toList })
      = { pluginName := "edl-tools".toList, author := "Tester".toList } := by
  apply (fromJson_toJson_iff _ (by unfold Plain; decide)).mpr
  exact ⟨⟨rfl, rfl, rfl⟩, harmless_of_no_key (by decide)⟩

/-- A capability is lost, and a plugin named "vendor" reads its version as the vendor. -/
theorem fromJson_toJson_loses :
    Plain { capabilities := ["flash".toList] } ∧
      fromJson (toJson { capabilities := ["flash".toList] })
        ≠ { capabilities := ["flash".toList] } ∧
      Plain { pluginName := "vendor".toList } ∧
      fromJson (toJson { pluginName := "vendor".toList })
        = { pluginName := "vendor".toList, vendor := "1.0.0".toList } := by
  refine ⟨?_, ?_, ?_, ?_⟩
  · unfold Plain
    decide
  · decide
  · unfold Plain
    decide
  · decide

end PluginManifest

end MBootCore
