import MBootCore.Config.ConfigManager

/-!
# Config — ImportTotal

An import as a call on the manager: what it returns, or throws, and the
configuration it leaves. The document is read into a configuration of its own,
which takes the place of the old one only when all of it was read.

Every value of an unexpected type is passed over, except that of `source`, which
is asked for as a string outside of every `try`.
-/

namespace MBootCore.Config

variable {lib : JsonLibrary} {text : String} {m : ConfigManager}

namespace ConfigManager

/-- `importJson` as a call on the manager. -/
def importCall (lib : JsonLibrary) (text : String) :
    ExceptT Failure (StateM ConfigManager) Unit := do
  let m ← get
  let parsed ← liftExcept (parseConfigFromJson lib text m.config)
  set ({ config := parsed } : ConfigManager)

/-- The call returns, and where it returns an error the configuration is what it was. -/
structure TotalAndAtomic (lib : JsonLibrary) (text : String) (m : ConfigManager) : Prop where
  returns : ((importCall lib text).run m).1 ≠ .error .thrown
  atomic : ∀ error, ((importCall lib text).run m).1 = .error (.returned error) →
    ((importCall lib text).run m).2 = m

/-- What a call leaves, by what is read of the text. -/
theorem run_importCall (lib : JsonLibrary) (text : String) (m : ConfigManager) :
    (importCall lib text).run m = match importJson lib text m with
      | .ok imported => (.ok (), imported)
      | .error failure => (.error failure, m) := by
  have hread : (importCall lib text).run m
      = ((liftExcept (parseConfigFromJson lib text m.config) >>= fun parsed =>
          set ({ config := parsed } : ConfigManager)) :
            ExceptT Failure (StateM ConfigManager) Unit).run m := rfl
  rw [hread, importJson]
  cases parseConfigFromJson lib text m.config with
  | ok config => rfl
  | error failure => rfl

theorem importCall_atomic (error : Failure)
    (h : ((importCall lib text).run m).1 = .error error) : ((importCall lib text).run m).2 = m := by
  rw [run_importCall] at h ⊢
  cases hread : importJson lib text m with
  | ok imported =>
    rw [hread] at h
    cases h
  | error failure => rfl

end ConfigManager

/-! ## What is thrown -/

/-- The source of the document, if it states one, is a string. -/
def SourceIsString (document : Json) : Prop :=
  ∀ value, document.member? "source" = some value → ∃ text, value = .string text

theorem readSource_thrown_iff (document : Json) (current : ConfigSource) :
    readSource document current = .error .thrown ↔ ¬ SourceIsString document := by
  rw [readSource, SourceIsString]
  cases document.member? "source" with
  | none => simp
  | some value => cases value <;> simp

theorem readSource_error {document : Json} {current : ConfigSource} {failure : Failure}
    (h : readSource document current = .error failure) : failure = .thrown := by
  rw [readSource] at h
  cases hsource : document.member? "source" with
  | none => simp [hsource] at h
  | some value => cases value <;> simp [hsource] at h <;> exact h.symm

/-- Of all that is read of a document only the source can fail. -/
theorem readConfig_error_iff (lib : JsonLibrary) (document : Json) (base : FullConfig)
    (failure : Failure) : readConfig lib document base = .error failure ↔
      failure = .thrown ∧ ¬ SourceIsString document := by
  rw [← readSource_thrown_iff document base.source, readConfig]
  cases hsource : readSource document base.source with
  | ok source => simp [bind, Except.bind, pure, Except.pure]
  | error _ =>
    obtain rfl := readSource_error hsource
    simp [bind, Except.bind, eq_comm]

theorem parseConfigFromJson_thrown_iff (base : FullConfig) :
    parseConfigFromJson lib text base = .error .thrown ↔
      ∃ members, lib.parse text = some (.object members) ∧ ¬ SourceIsString (.object members) := by
  rw [parseConfigFromJson]
  cases lib.parse text with
  | none => simp
  | some document =>
    cases document with
    | object members => simp [readConfig_error_iff]
    | _ => simp

namespace ConfigManager

/-- An import is total and atomic exactly when the text is not that of an object
whose source is something else than a string. -/
theorem totalAndAtomic_iff (lib : JsonLibrary) (text : String) (m : ConfigManager) :
    TotalAndAtomic lib text m ↔
      ∀ members, lib.parse text = some (.object members) → SourceIsString (.object members) := by
  have hthrown : ((importCall lib text).run m).1 = .error .thrown ↔
      parseConfigFromJson lib text m.config = .error .thrown := by
    rw [run_importCall, importJson]
    cases hparse : parseConfigFromJson lib text m.config with
    | ok config => simp [bind, Except.bind, pure, Except.pure]
    | error failure => simp [bind, Except.bind]
  rw [parseConfigFromJson_thrown_iff] at hthrown
  constructor
  · intro h members hparse
    refine Classical.not_not.mp fun hsource => ?_
    exact h.returns (hthrown.mpr ⟨members, hparse, hsource⟩)
  · intro h
    refine ⟨fun hfails => ?_, fun error herror => importCall_atomic _ herror⟩
    obtain ⟨members, hparse, hsource⟩ := hthrown.mp hfails
    exact hsource (h members hparse)

/-- A library that reads every text as the given document. -/
def readingAs (document : Json) : JsonLibrary where
  parse _ := some document
  dump _ := ""
  dumpIndented _ := ""

/-- The text `{"source":1}`: the type error leaves the call. -/
theorem importCall_throws :
    ¬ ∀ (lib : JsonLibrary) (text : String) (m : ConfigManager), TotalAndAtomic lib text m := by
  intro h
  have hsafe := h (readingAs (.object [("source", .unsigned 1)])) "\x7b\"source\":1\x7d" {}
  exact hsafe.returns rfl

end ConfigManager

end MBootCore.Config
