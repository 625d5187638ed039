import MBootCore.Support.Scan
import MBootCore.Support.UnorderedMap
import Mathlib.Data.Finset.Card
import Mathlib.Data.List.TakeWhile

/-!
# Sdk — APICompatibility

`APICompatibilityChecker::compareVersions`: the class names found in two sets of
headers, and the report of what was added and removed. A text is the list of its
bytes, as characters.

The comparison of two sets of names is right (`compareNames_exact`). The names
are not found: `parseClassNames` looks for the end of a name from the start of
the line, where the blank behind `class` ends it at once, so no header has a
class (`parseClassNames_eq`).
-/

namespace MBootCore

inductive ChangeType where
  | removed | added | signatureChanged | accessChanged | typeChanged | virtualTableChanged
  deriving DecidableEq, Repr

structure APIDifference where
  className : String
  memberName : String
  type : ChangeType := .removed
  oldSignature : String := ""
  newSignature : String := ""
  breaking : Bool := true
  deriving DecidableEq, Repr

structure CompatibilityReport where
  differences : List APIDifference := []
  breakingChanges : List String := []
  nonBreakingChanges : List String := []
  warnings : List String := []
  compatible : Bool := true
  addedCount : Nat := 0
  removedCount : Nat := 0
  changedCount : Nat := 0
  summary : String := ""
  deriving DecidableEq, Repr

/-- What lies at a path: nothing, a file, or a directory with its files by their
extensions. A file that cannot be opened has no text. -/
inductive HeaderPath where
  | missing
  | file (content : Option (List Char))
  | directory (files : List (String × Option (List Char)))
  deriving Repr

namespace HeaderPath

/-- The texts of the headers at a path. -/
def headers : HeaderPath → List (List Char)
  | missing => []
  | file content => content.toList
  | directory files => files.filterMap fun f => if f.1 = ".hpp" then f.2 else none

/-- `all << ifs.rdbuf() << "\n"` for one text after the other. An empty one makes
the stream fail, and what comes after it is lost. -/
def streamed : List (List Char) → List Char
  | [] => []
  | text :: texts => if text = [] then [] else text ++ '\n' :: streamed texts

def readAllHeaders (path : HeaderPath) : List Char := streamed path.headers

end HeaderPath

namespace APICompatibilityChecker

/-- The lines of `std::getline`: there is none behind a newline at the end. -/
def textLines (text : List Char) : List (List Char) :=
  let parts := text.splitOn '\n'
  if parts.getLast? = some [] then parts.dropLast else parts

def isBlank (c : Char) : Bool := c = ' ' || c = '\t'

/-- The characters of `" \t:{;"`. -/
def endsName (c : Char) : Bool := isBlank c || c = ':' || c = '\x7b' || c = ';'

/-- `s.erase(0, s.find_first_not_of(" \t"))`; without such a character all is erased. -/
def trimStart (line : List Char) : List Char :=
  match line.findIdx? fun c => !isBlank c with
  | none => []
  | some first => line.drop first

/-- One line of `parseClassNames`. -/
def parseLine (line : List Char) : Option String :=
  let trimmed := trimStart line
  if "class ".toList.isPrefixOf trimmed then
    -- `trimmed.find(' ') + 1` of a position that is there
    let start := (trimmed.findIdx (· = ' ')) + 1
    match trimmed.findIdx? endsName with
    | none => none
    | some stop =>
      if stop > start then
        let className := (trimmed.drop start).take (stop - start)
        if className ≠ [] ∧ ¬ "//".toList.isPrefixOf className then some (String.ofList className)
        else none
      else none
  else none

/-- The set of the names, as a list without repetitions. -/
def parseClassNames (headerContent : List Char) : List String :=
  ((textLines headerContent).filterMap parseLine).dedup

/-- A new class in the loop over the new names. -/
def addedClass (oldClasses : List String) (report : CompatibilityReport) (cls : String) :
    CompatibilityReport :=
  if cls ∉ oldClasses then
    { report with
      differences := report.differences ++
        [{ className := cls, memberName := cls, type := .added, breaking := false }]
      addedCount := report.addedCount + 1
      nonBreakingChanges := report.nonBreakingChanges ++ ["Added class: " ++ cls] }
  else report

def removedClass (newClasses : List String) (report : CompatibilityReport) (cls : String) :
    CompatibilityReport :=
  if cls ∉ newClasses then
    { report with
      differences := report.differences ++
        [{ className := cls, memberName := cls, type := .removed, breaking := true }]
      removedCount := report.removedCount + 1
      breakingChanges := report.breakingChanges ++ ["Removed class: " ++ cls] }
  else report

/-- The body of `compareVersions`, from the two sets on. -/
def compareNames (walk : WalkOrder) (oldPath newPath : String)
    (oldClasses newClasses : List String) : CompatibilityReport :=
  let report := (walk.arrange newClasses).foldl (addedClass oldClasses) {}
  let report := (walk.arrange oldClasses).foldl (removedClass newClasses) report
  { report with
    compatible := report.removedCount = 0
    summary := "Compared headers: " ++ oldPath ++ " -> " ++ newPath ++ ". " ++
      "Added: " ++ toString report.addedCount ++ ", " ++
      "Removed: " ++ toString report.removedCount ++ ", " ++
      "Changed: " ++ toString report.changedCount ++ "." }

/-- `disk` is what lies at each path. -/
def compareVersions (walk : WalkOrder) (disk : String → HeaderPath) (oldPath newPath : String) :
    CompatibilityReport :=
  compareNames walk oldPath newPath (parseClassNames (disk oldPath).readAllHeaders)
    (parseClassNames (disk newPath).readAllHeaders)

/-! ## What a class declaration is -/

def isIdentifierChar (c : Char) : Bool := c.isAlphanum || c = '_'

def IsIdentifier (name : List Char) : Prop :=
  (∀ c ∈ name, isIdentifierChar c = true) ∧ ∃ c rest, name = c :: rest ∧ c.isDigit = false

/-- After leading blanks, `class `, the name, and a character that ends it. -/
def Declares (line name : List Char) : Prop :=
  ∃ blanks stop rest, line = blanks ++ "class ".toList ++ name ++ stop :: rest ∧
    (∀ c ∈ blanks, isBlank c = true) ∧ IsIdentifier name ∧ endsName stop = true

def declaredIn (line : List Char) : Option String :=
  match "class ".toList.isPrefixOf (line.dropWhile isBlank),
      ((line.dropWhile isBlank).drop 6).dropWhile isIdentifierChar,
      ((line.dropWhile isBlank).drop 6).takeWhile isIdentifierChar with
  | true, stop :: _, c :: name =>
    if endsName stop ∧ c.isDigit = false then some (String.ofList (c :: name)) else none
  | _, _, _ => none

/-- The class names that headers declare. -/
def declaredNames (texts : List (List Char)) : Finset String :=
  ((texts.flatMap textLines).filterMap declaredIn).toFinset

/-- What a report on old and new class names says. -/
structure Exact (report : CompatibilityReport) (old new : Finset String) : Prop where
  compatible : report.compatible = false ↔ ∃ name ∈ old, name ∉ new
  added : report.addedCount = (new \ old).card
  removed : report.removedCount = (old \ new).card

/-! ## Declarations -/

theorem dropWhile_blanks {blanks rest : List Char} (hblanks : ∀ c ∈ blanks, isBlank c = true)
    (hrest : Scan.Stops isBlank rest) : (blanks ++ rest).dropWhile isBlank = rest :=
  Scan.dropWhile_run hblanks hrest

theorem isIdentifierChar_of_endsName {c : Char} (h : endsName c = true) :
    isIdentifierChar c = false := by
  simp only [endsName, isBlank, Bool.or_eq_true, decide_eq_true_eq] at h
  rcases h with (((rfl | rfl) | rfl) | rfl) | rfl <;> rfl

/-- The reader of declarations finds what is declared. -/
theorem declaredIn_iff {line : List Char} {name : String} :
    declaredIn line = some name ↔ Declares line name.toList := by
  constructor
  · intro h
    unfold declaredIn at h
    split at h
    case h_1 stop rest c identifier hprefix hstop hname =>
      split at h
      case isTrue hends =>
        obtain rfl := Option.some.inj h
        obtain ⟨after, hafter⟩ := List.isPrefixOf_iff_prefix.mp hprefix
        have hdrop : (line.dropWhile isBlank).drop 6 = after := by
          rw [← hafter]
          rfl
        have hofList : (String.ofList (c :: identifier)).toList = c :: identifier :=
          String.toList_ofList
        rw [hdrop] at hstop hname
        refine ⟨line.takeWhile isBlank, stop, rest, ?_, ?_, ⟨?_, c, identifier, hofList, hends.2⟩,
          hends.1⟩
        · have hsplit := List.takeWhile_append_dropWhile (p := isIdentifierChar) (l := after)
          rw [hname, hstop] at hsplit
          rw [hofList, List.append_assoc, List.append_assoc, hsplit, hafter,
            List.takeWhile_append_dropWhile]
        · exact fun b hb => List.mem_takeWhile_imp hb
        · intro b hb
          rw [hofList, ← hname] at hb
          exact List.mem_takeWhile_imp hb
      case isFalse => cases h
    case h_2 => cases h
  · rintro ⟨blanks, stop, rest, rfl, hblanks, ⟨hchars, c, identifier, hname, hdigit⟩, hstop⟩
    have hstart : (blanks ++ "class ".toList ++ name.toList ++ stop :: rest).dropWhile isBlank
        = "class ".toList ++ (name.toList ++ stop :: rest) := by
      rw [List.append_assoc, List.append_assoc]
      exact dropWhile_blanks hblanks (Scan.stops_cons rfl)
    have hafter : ("class ".toList ++ (name.toList ++ stop :: rest)).drop 6
        = name.toList ++ stop :: rest := rfl
    have hends : Scan.Stops isIdentifierChar (stop :: rest) :=
      Scan.stops_cons (isIdentifierChar_of_endsName hstop)
    have htake : (name.toList ++ stop :: rest).takeWhile isIdentifierChar = c :: identifier := by
      rw [Scan.takeWhile_run hchars hends, hname]
    have hdrop : (name.toList ++ stop :: rest).dropWhile isIdentifierChar = stop :: rest :=
      Scan.dropWhile_run hchars hends
    have hprefix : "class ".toList.isPrefixOf ("class ".toList ++ (name.toList ++ stop :: rest))
        = true := List.isPrefixOf_iff_prefix.mpr (List.prefix_append _ _)
    rw [declaredIn, hstart, hafter, htake, hdrop, hprefix]
    show (if _ then _ else _) = _
    rw [if_pos ⟨hstop, hdigit⟩, ← hname, String.ofList_toList]

theorem mem_declaredNames {texts : List (List Char)} {name : String} :
    name ∈ declaredNames texts ↔
      ∃ text ∈ texts, ∃ line ∈ textLines text, Declares line name.toList := by
  simp only [declaredNames, List.mem_toFinset, List.mem_filterMap, List.mem_flatMap, declaredIn_iff]
  constructor
  · rintro ⟨line, ⟨text, htext, hline⟩, hname⟩
    exact ⟨text, htext, line, hline, hname⟩
  · rintro ⟨text, htext, line, hline, hname⟩
    exact ⟨line, ⟨text, htext, hline⟩, hname⟩

/-! ## The comparison -/

theorem foldl_addedClass (old names : List String) (report : CompatibilityReport) :
    (names.foldl (addedClass old) report).addedCount
        = report.addedCount + (names.filter (· ∉ old)).length ∧
      (names.foldl (addedClass old) report).removedCount = report.removedCount := by
  induction names generalizing report with
  | nil => exact ⟨rfl, rfl⟩
  | cons name names ih =>
    obtain ⟨hadded, hremoved⟩ := ih (addedClass old report name)
    rw [List.foldl_cons, hadded, hremoved]
    by_cases h : name ∈ old
    · rw [List.filter_cons_of_neg (by simpa using h), addedClass, if_neg (not_not_intro h)]
      exact ⟨rfl, rfl⟩
    · rw [List.filter_cons_of_pos (by simpa using h), addedClass, if_pos h, List.length_cons]
      exact ⟨by show report.addedCount + 1 + _ = _; omega, rfl⟩

theorem foldl_removedClass (new names : List String) (report : CompatibilityReport) :
    (names.foldl (removedClass new) report).removedCount
        = report.removedCount + (names.filter (· ∉ new)).length ∧
      (names.foldl (removedClass new) report).addedCount = report.addedCount := by
  induction names generalizing report with
  | nil => exact ⟨rfl, rfl⟩
  | cons name names ih =>
    obtain ⟨hremoved, hadded⟩ := ih (removedClass new report name)
    rw [List.foldl_cons, hremoved, hadded]
    by_cases h : name ∈ new
    · rw [List.filter_cons_of_neg (by simpa using h), removedClass, if_neg (not_not_intro h)]
      exact ⟨rfl, rfl⟩
    · rw [List.filter_cons_of_pos (by simpa using h), removedClass, if_pos h, List.length_cons]
      exact ⟨by show report.removedCount + 1 + _ = _; omega, rfl⟩

/-- The names of one set that are not in the other, in whatever order they are walked. -/
theorem length_filter_arrange (walk : WalkOrder) {names : List String} (hnames : names.Nodup)
    (others : List String) :
    ((walk.arrange names).filter (· ∉ others)).length
      = (names.toFinset \ others.toFinset).card := by
  have hset : names.toFinset \ others.toFinset = (names.filter (· ∉ others)).toFinset := by
    ext name
    simp
  rw [hset, List.toFinset_card_of_nodup (hnames.filter _)]
  exact ((walk.perm names).filter _).length_eq

theorem compareNames_exact (walk : WalkOrder) (oldPath newPath : String) {old new : List String}
    (hold : old.Nodup) (hnew : new.Nodup) :
    Exact (compareNames walk oldPath newPath old new) old.toFinset new.toFinset := by
  obtain ⟨hadded, hkept⟩ := foldl_addedClass old (walk.arrange new) {}
  obtain ⟨hremoved, hstays⟩ := foldl_removedClass new (walk.arrange old)
    ((walk.arrange new).foldl (addedClass old) {})
  rw [hkept, length_filter_arrange walk hold] at hremoved
  rw [length_filter_arrange walk hnew] at hadded
  have hremovedCount : (compareNames walk oldPath newPath old new).removedCount
      = (old.toFinset \ new.toFinset).card := hremoved.trans (Nat.zero_add _)
  refine ⟨?_, hstays.trans (hadded.trans (Nat.zero_add _)), hremovedCount⟩
  show decide ((compareNames walk oldPath newPath old new).removedCount = 0) = false ↔ _
  rw [hremovedCount, decide_eq_false_iff_not, Finset.card_eq_zero, ← ne_eq,
    ← Finset.nonempty_iff_ne_empty]
  constructor
  · rintro ⟨name, hname⟩
    obtain ⟨holdName, hnot⟩ := Finset.mem_sdiff.mp hname
    exact ⟨name, holdName, hnot⟩
  · rintro ⟨name, holdName, hnot⟩
    exact ⟨name, Finset.mem_sdiff.mpr ⟨holdName, hnot⟩⟩

/-! ## The search for names -/

/-- The end of the name is looked for from the start of the line, and found in
front of the name. -/
theorem parseLine_eq (line : List Char) : parseLine line = none := by
  unfold parseLine
  generalize trimStart line = trimmed
  dsimp only
  split
  case isTrue hprefix =>
    obtain ⟨after, rfl⟩ := List.isPrefixOf_iff_prefix.mp hprefix
    have hspace : ("class ".toList ++ after).findIdx (· = ' ') = 5 := rfl
    have hstop : ("class ".toList ++ after).findIdx? endsName = some 5 := rfl
    rw [hspace, hstop]
    exact if_neg (by decide)
  case isFalse => rfl

theorem parseClassNames_eq (headerContent : List Char) : parseClassNames headerContent = [] := by
  have hnone : (textLines headerContent).filterMap parseLine = [] :=
    List.filterMap_eq_nil_iff.mpr fun line _ => parseLine_eq line
  rw [parseClassNames, hnone]
  rfl

/-- Two sets differ by no name exactly if they are equal. -/
theorem compareVersions_exact_iff (walk : WalkOrder) (disk : String → HeaderPath)
    (oldPath newPath : String) :
    Exact (compareVersions walk disk oldPath newPath) (declaredNames (disk oldPath).headers)
        (declaredNames (disk newPath).headers) ↔
      declaredNames (disk oldPath).headers = declaredNames (disk newPath).headers := by
  have hnothing := compareNames_exact walk oldPath newPath List.nodup_nil List.nodup_nil
  rw [compareVersions, parseClassNames_eq, parseClassNames_eq]
  generalize declaredNames (disk oldPath).headers = old
  generalize declaredNames (disk newPath).headers = new
  constructor
  · intro h
    have hadded := h.added.symm.trans hnothing.added
    have hremoved := h.removed.symm.trans hnothing.removed
    rw [List.toFinset_nil, sdiff_self, Finset.bot_eq_empty, Finset.card_empty,
      Finset.card_eq_zero] at hadded hremoved
    exact Finset.Subset.antisymm (Finset.sdiff_eq_empty_iff_subset.mp hremoved)
      (Finset.sdiff_eq_empty_iff_subset.mp hadded)
  · rintro rfl
    refine ⟨?_, ?_, ?_⟩
    · rw [hnothing.compatible]
      simp
    · rw [hnothing.added, sdiff_self, sdiff_self]
    · rw [hnothing.removed, sdiff_self, sdiff_self]

/-- A removed class goes unnoticed. -/
theorem compareVersions_misses : ¬ ∀ walk disk oldPath newPath,
    Exact (compareVersions walk disk oldPath newPath) (declaredNames (disk oldPath).headers)
      (declaredNames (disk newPath).headers) := by
  intro h
  let disk (path : String) : HeaderPath :=
    if path = "old" then .file (some "class Device \x7b".toList) else .file (some "\n".toList)
  have hremoved := (h ⟨id, fun _ => List.Perm.refl _⟩ disk "old" "new").removed
  revert hremoved
  decide

end APICompatibilityChecker

end MBootCore
