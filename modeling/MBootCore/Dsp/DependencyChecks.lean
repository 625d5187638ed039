import MBootCore.Dsp.DependencyResolver

/-!
# Dsp — DependencyChecks

The two checks of a package's dependencies against the installed ones: the one in
`DSPManager::install`, and `DSPValidator::validateDependencies` of `dsp/DSPValidator.cpp`.
A version that is not stated is the default `DSPVersion{}`, which is 1.0.0; the validator
takes that for no bound, the manager 0.0.0.
-/

namespace MBootCore

structure ValidationError where
  field : String
  message : String
  error : DSPError := .validationFailed
  critical : Bool := true
  deriving DecidableEq, Repr

/-- The fields that the check of the dependencies fills. -/
structure ValidationReport where
  valid : Bool := false
  errors : List ValidationError := []
  info : List String := []
  packageId : String := ""
  packageVersion : DSPVersion := {}
  deriving DecidableEq, Repr

/-! ## The validator's check -/

namespace DSPValidator

def fail (report : ValidationReport) (dep : DSPDependency) (message : String) (error : DSPError) :
    ValidationReport :=
  { report with
    errors := report.errors ++ [{ field := "dependency:" ++ dep.packageId, message, error }]
    valid := false }

/-- The version of the installed package against a minimum that is stated. -/
def checkMinimum (version : DSPVersion) (report : ValidationReport) (dep : DSPDependency) :
    ValidationReport :=
  if dep.minVersion ≠ {} ∧ version.lt dep.minVersion then
    fail report dep (dep.packageId ++ " version " ++ version.toString ++ " is below minimum "
      ++ dep.minVersion.toString) .versionMismatch
  else report

def checkMaximum (version : DSPVersion) (report : ValidationReport) (dep : DSPDependency) :
    ValidationReport :=
  if dep.maxVersion ≠ {} ∧ dep.maxVersion.lt version then
    fail report dep (dep.packageId ++ " version " ++ version.toString ++ " exceeds maximum "
      ++ dep.maxVersion.toString) .versionMismatch
  else report

def validateDependency (installed : List DSPPackageMetadata) (report : ValidationReport)
    (dep : DSPDependency) : ValidationReport :=
  if !dep.required then
    { report with
      info := report.info ++ ["Optional dependency '" ++ dep.packageId ++ "' not checked"] }
  else
    match installed.find? (·.manifest.packageId = dep.packageId) with
    | none =>
      fail report dep ("Required dependency not installed: " ++ dep.packageId) .dependencyMissing
    | some installedPkg =>
      if ¬ (dep.minVersion = {} ∧ dep.maxVersion = {}) then
        checkMaximum installedPkg.manifest.version
          (checkMinimum installedPkg.manifest.version report dep) dep
      else report

def validateDependencies (metadata : DSPPackageMetadata) (installed : List DSPPackageMetadata) :
    ValidationReport :=
  metadata.manifest.dependencies.foldl (validateDependency installed)
    { valid := true
      packageId := metadata.manifest.packageId
      packageVersion := metadata.manifest.version }

end DSPValidator

/-! ## The installed packages -/

/-- Installed packages, no two of one id. -/
structure InstalledSet where
  packages : List DSPPackageMetadata
  distinct : (packages.map (·.manifest.packageId)).Nodup

namespace InstalledSet

def find (installed : InstalledSet) (packageId : String) : Option DSPPackageMetadata :=
  installed.packages.find? (·.manifest.packageId = packageId)

def entry (pkg : DSPPackageMetadata) : Sigma fun _ : String => DSPPackageMetadata :=
  ⟨pkg.manifest.packageId, pkg⟩

/-- The manager that has installed them. -/
def manager (installed : InstalledSet) : DSPManager where
  packages :=
    { entries := installed.packages.map entry
      nodupKeys := by
        rw [List.NodupKeys, List.keys, List.map_map]
        exact installed.distinct }

theorem lookup_manager (installed : InstalledSet) (packageId : String) :
    installed.manager.packages.lookup packageId = installed.find packageId := by
  change List.dlookup packageId (installed.packages.map entry) = _
  unfold find
  induction installed.packages with
  | nil => rfl
  | cons pkg rest ih =>
    rw [List.map_cons]
    by_cases hid : packageId = pkg.manifest.packageId
    · subst hid
      rw [List.find?_cons_of_pos (by simp)]
      exact List.dlookup_cons_eq _ _ _
    · rw [List.find?_cons_of_neg (by simpa using Ne.symm hid), ← ih]
      exact List.dlookup_cons_ne _ _ hid

end InstalledSet

/-! ## Versions -/

namespace DSPVersion

theorem isZero_iff (v : DSPVersion) : v.isZero = true ↔ v = ⟨0, 0, 0⟩ := by
  obtain ⟨major, minor, patch⟩ := v
  simp [isZero, and_assoc]

theorem lt_zero (v : DSPVersion) : v.lt ⟨0, 0, 0⟩ = false := by
  simp [lt]

theorem zero_lt_iff (v : DSPVersion) : DSPVersion.lt ⟨0, 0, 0⟩ v = true ↔ v ≠ ⟨0, 0, 0⟩ := by
  obtain ⟨major, minor, patch⟩ := v
  have hpos (n : UInt32) : 0 < n ↔ n ≠ 0 := by
    rw [UInt32.lt_iff_toNat_lt, Ne, ← UInt32.toNat_inj]
    exact Nat.pos_iff_ne_zero
  unfold lt
  by_cases hmajor : major = 0
  · by_cases hminor : minor = 0
    · simp [hmajor, hminor, hpos]
    · simp [hmajor, hminor, hpos, Ne.symm hminor]
  · simp [hmajor, hpos, Ne.symm hmajor]

end DSPVersion

/-! ## What each accepts -/

/-- The installed version is within the bounds as `install` reads them. -/
def InstallAccepts (version : DSPVersion) (dep : DSPDependency) : Prop :=
  (dep.minVersion = ⟨0, 0, 0⟩ ∨ version.lt dep.minVersion = false) ∧
    (dep.maxVersion = ⟨0, 0, 0⟩ ∨ dep.maxVersion.lt version = false)

/-- The same as the validator reads them. -/
def ValidatorAccepts (version : DSPVersion) (dep : DSPDependency) : Prop :=
  (dep.minVersion = {} ∨ version.lt dep.minVersion = false) ∧
    (dep.maxVersion = {} ∨ dep.maxVersion.lt version = false)

/-- Each required dependency is installed in an accepted version. -/
def AllAccepted (accepts : DSPVersion → DSPDependency → Prop) (installed : InstalledSet)
    (pkg : DSPPackageMetadata) : Prop :=
  ∀ dep ∈ pkg.manifest.dependencies, dep.required = true →
    ∃ q, installed.find dep.packageId = some q ∧ accepts q.manifest.version dep

theorem satisfies_iff (installed : InstalledSet) (dep : DSPDependency) :
    installed.manager.satisfies dep = true ↔ (dep.required = true →
      ∃ q, installed.find dep.packageId = some q ∧ InstallAccepts q.manifest.version dep) := by
  unfold DSPManager.satisfies InstallAccepts
  rw [installed.lookup_manager]
  cases hrequired : dep.required with
  | false => simp
  | true =>
    cases hfind : installed.find dep.packageId with
    | none => simp
    | some q => simp [DSPVersion.isZero_iff]

theorem install_accepts_iff (installed : InstalledSet) (pkg : DSPPackageMetadata) :
    pkg.manifest.dependencies.all installed.manager.satisfies = true ↔
      AllAccepted InstallAccepts installed pkg := by
  rw [List.all_eq_true]
  exact forall₂_congr fun dep _ => satisfies_iff installed dep

namespace DSPValidator

theorem checkMinimum_valid (version : DSPVersion) (report : ValidationReport)
    (dep : DSPDependency) : (checkMinimum version report dep).valid = true ↔
      report.valid = true ∧ (dep.minVersion = {} ∨ version.lt dep.minVersion = false) := by
  unfold checkMinimum
  split
  · rename_i h
    simp [fail, h]
  · rename_i h
    rw [not_and_or, not_not, Bool.not_eq_true] at h
    simp [h]

theorem checkMaximum_valid (version : DSPVersion) (report : ValidationReport)
    (dep : DSPDependency) : (checkMaximum version report dep).valid = true ↔
      report.valid = true ∧ (dep.maxVersion = {} ∨ dep.maxVersion.lt version = false) := by
  unfold checkMaximum
  split
  · rename_i h
    simp [fail, h]
  · rename_i h
    rw [not_and_or, not_not, Bool.not_eq_true] at h
    simp [h]

theorem validateDependency_valid (installed : InstalledSet) (report : ValidationReport)
    (dep : DSPDependency) : (validateDependency installed.packages report dep).valid = true ↔
      report.valid = true ∧ (dep.required = true → ∃ q, installed.find dep.packageId = some q ∧
        ValidatorAccepts q.manifest.version dep) := by
  unfold validateDependency ValidatorAccepts
  rw [← InstalledSet.find]
  cases hrequired : dep.required with
  | false => simp
  | true =>
    cases hfind : installed.find dep.packageId with
    | none => simp [fail]
    | some q =>
      by_cases hnone : dep.minVersion = {} ∧ dep.maxVersion = {}
      · simp [hnone]
      · simp only [Bool.not_true, Bool.false_eq_true, if_false, if_pos hnone]
        rw [checkMaximum_valid, checkMinimum_valid]
        simp [and_assoc]

theorem validateDependencies_valid (installed : InstalledSet) (pkg : DSPPackageMetadata) :
    (validateDependencies pkg installed.packages).valid = true ↔
      AllAccepted ValidatorAccepts installed pkg := by
  have hfold (dependencies : List DSPDependency) (report : ValidationReport) :
      (dependencies.foldl (validateDependency installed.packages) report).valid = true ↔
        report.valid = true ∧ ∀ dep ∈ dependencies, dep.required = true →
          ∃ q, installed.find dep.packageId = some q ∧
            ValidatorAccepts q.manifest.version dep := by
    induction dependencies generalizing report with
    | nil => simp
    | cons dep rest ih =>
      rw [List.foldl_cons, ih, validateDependency_valid, List.forall_mem_cons, and_assoc]
  unfold validateDependencies AllAccepted
  rw [hfold]
  simp

end DSPValidator

/-- A default that the manager takes for a bound refuses the version. -/
def RefusedByInstall (version : DSPVersion) (dep : DSPDependency) : Prop :=
  ValidatorAccepts version dep ∧
    (dep.minVersion = {} ∧ version.lt {} = true ∨ dep.maxVersion = {} ∧ DSPVersion.lt {} version)

/-- A maximum of 0.0.0, which the validator takes for a bound, refuses the version. -/
def RefusedByValidator (version : DSPVersion) (dep : DSPDependency) : Prop :=
  InstallAccepts version dep ∧ dep.maxVersion = ⟨0, 0, 0⟩ ∧ version ≠ ⟨0, 0, 0⟩

theorem refusedByInstall_iff (version : DSPVersion) (dep : DSPDependency) :
    RefusedByInstall version dep ↔
      ¬ InstallAccepts version dep ∧ ValidatorAccepts version dep := by
  constructor
  · rintro ⟨haccepts, hrefused⟩
    refine ⟨?_, haccepts⟩
    rintro ⟨hmin, hmax⟩
    rcases hrefused with ⟨hdefault, hlt⟩ | ⟨hdefault, hlt⟩
    · rw [hdefault] at hmin
      rcases hmin with hzero | hnot
      · exact absurd hzero (by decide)
      · rw [hlt] at hnot
        cases hnot
    · rw [hdefault] at hmax
      rcases hmax with hzero | hnot
      · exact absurd hzero (by decide)
      · rw [hlt] at hnot
        cases hnot
  · rintro ⟨hrefused, haccepts⟩
    refine ⟨haccepts, ?_⟩
    by_contra hnone
    obtain ⟨hmin, hmax⟩ := not_or.mp hnone
    refine hrefused ⟨?_, ?_⟩
    · rcases haccepts.1 with hdefault | hnot
      · rw [hdefault]
        exact .inr (Bool.eq_false_iff.mpr fun hlt => hmin ⟨hdefault, hlt⟩)
      · exact .inr hnot
    · rcases haccepts.2 with hdefault | hnot
      · rw [hdefault]
        exact .inr (Bool.eq_false_iff.mpr fun hlt => hmax ⟨hdefault, hlt⟩)
      · exact .inr hnot

theorem refusedByValidator_iff (version : DSPVersion) (dep : DSPDependency) :
    RefusedByValidator version dep ↔
      InstallAccepts version dep ∧ ¬ ValidatorAccepts version dep := by
  constructor
  · rintro ⟨haccepts, hmax, hversion⟩
    refine ⟨haccepts, ?_⟩
    rintro ⟨-, hdefault | hnot⟩
    · rw [hmax] at hdefault
      exact absurd hdefault (by decide)
    · rw [hmax, (DSPVersion.zero_lt_iff version).mpr hversion] at hnot
      cases hnot
  · rintro ⟨haccepts, hrefused⟩
    have hmin : dep.minVersion = {} ∨ version.lt dep.minVersion = false := by
      rcases haccepts.1 with hzero | hnot
      · rw [hzero]
        exact .inr (DSPVersion.lt_zero version)
      · exact .inr hnot
    rcases haccepts.2 with hzero | hnot
    · refine ⟨haccepts, hzero, fun hversion => hrefused ⟨hmin, .inr ?_⟩⟩
      rw [hzero, hversion]
      exact DSPVersion.lt_zero _
    · exact absurd ⟨hmin, .inr hnot⟩ hrefused

/-! ## Their agreement -/

/-- Some required dependency is installed in a version like this. -/
def SomeInstalled (p : DSPVersion → DSPDependency → Prop) (installed : InstalledSet)
    (pkg : DSPPackageMetadata) : Prop :=
  ∃ dep ∈ pkg.manifest.dependencies, dep.required = true ∧
    ∃ q, installed.find dep.packageId = some q ∧ p q.manifest.version dep

/-- Some required dependency is not installed, or in a version that neither accepts. -/
def SomeRefused (installed : InstalledSet) (pkg : DSPPackageMetadata) : Prop :=
  ∃ dep ∈ pkg.manifest.dependencies, dep.required = true ∧
    ∀ q, installed.find dep.packageId = some q →
      ¬ InstallAccepts q.manifest.version dep ∧ ¬ ValidatorAccepts q.manifest.version dep

/-- The two checks give one answer, and where no minimum is stated both are satisfied with any
installed version up to the maximum, if one is stated. -/
structure ChecksAgree (installed : InstalledSet) (pkg : DSPPackageMetadata) : Prop where
  agree : pkg.manifest.dependencies.all installed.manager.satisfies = true ↔
    (DSPValidator.validateDependencies pkg installed.packages).valid = true
  unstated : ∀ dep ∈ pkg.manifest.dependencies, dep.minVersion = {} →
    ∀ q, installed.find dep.packageId = some q →
      (dep.maxVersion = {} ∨ dep.maxVersion.lt q.manifest.version = false) →
        installed.manager.satisfies dep = true ∧
          (DSPValidator.validateDependency installed.packages { valid := true } dep).valid = true

/-- Neither check can be satisfied, each refuses a version that the other accepts, or neither
does. -/
def SameAnswer (installed : InstalledSet) (pkg : DSPPackageMetadata) : Prop :=
  SomeRefused installed pkg ∨
    (SomeInstalled RefusedByInstall installed pkg ∧
      SomeInstalled RefusedByValidator installed pkg) ∨
    (¬ SomeInstalled RefusedByInstall installed pkg ∧
      ¬ SomeInstalled RefusedByValidator installed pkg)

/-- Without a dependency that both refuse, a check is satisfied unless it alone refuses one. -/
theorem allAccepted_of_not_refused {accepts other refuses : DSPVersion → DSPDependency → Prop}
    {installed : InstalledSet} {pkg : DSPPackageMetadata}
    (hiff : ∀ version dep, refuses version dep ↔ ¬ accepts version dep ∧ other version dep)
    (hnone : ¬ ∃ dep ∈ pkg.manifest.dependencies, dep.required = true ∧
      ∀ q, installed.find dep.packageId = some q →
        ¬ accepts q.manifest.version dep ∧ ¬ other q.manifest.version dep) :
    AllAccepted accepts installed pkg ↔ ¬ SomeInstalled refuses installed pkg := by
  constructor
  · rintro hall ⟨dep, hdep, hrequired, q, hfind, hrefuses⟩
    obtain ⟨q', hfind', haccepts⟩ := hall dep hdep hrequired
    cases hfind.symm.trans hfind'
    exact ((hiff _ _).mp hrefuses).1 haccepts
  · intro hno dep hdep hrequired
    by_contra hrefused
    refine hnone ⟨dep, hdep, hrequired, ?_⟩
    intro q hfind
    have haccepts : ¬ accepts q.manifest.version dep := fun h => hrefused ⟨q, hfind, h⟩
    refine ⟨haccepts, fun hother => hno ⟨dep, hdep, hrequired, q, hfind, ?_⟩⟩
    exact (hiff _ _).mpr ⟨haccepts, hother⟩

theorem sameAnswer_iff (installed : InstalledSet) (pkg : DSPPackageMetadata) :
    (AllAccepted InstallAccepts installed pkg ↔ AllAccepted ValidatorAccepts installed pkg) ↔
      SameAnswer installed pkg := by
  by_cases hrefused : SomeRefused installed pkg
  · have hinstall : ¬ AllAccepted InstallAccepts installed pkg := by
      intro hall
      obtain ⟨dep, hdep, hrequired, hno⟩ := hrefused
      obtain ⟨q, hfind, haccepts⟩ := hall dep hdep hrequired
      exact (hno q hfind).1 haccepts
    have hvalidator : ¬ AllAccepted ValidatorAccepts installed pkg := by
      intro hall
      obtain ⟨dep, hdep, hrequired, hno⟩ := hrefused
      obtain ⟨q, hfind, haccepts⟩ := hall dep hdep hrequired
      exact (hno q hfind).2 haccepts
    exact iff_of_true (iff_of_false hinstall hvalidator) (.inl hrefused)
  · have hinstall := allAccepted_of_not_refused refusedByInstall_iff hrefused
    have hvalidator : AllAccepted ValidatorAccepts installed pkg ↔
        ¬ SomeInstalled RefusedByValidator installed pkg := by
      apply @allAccepted_of_not_refused ValidatorAccepts InstallAccepts RefusedByValidator
      · intro version dep
        exact (refusedByValidator_iff version dep).trans and_comm
      · rintro ⟨dep, hdep, hrequired, hno⟩
        exact hrefused ⟨dep, hdep, hrequired, fun q hfind => (hno q hfind).symm⟩
    rw [hinstall, hvalidator, SameAnswer]
    tauto

/-- With no minimum stated, a version up to the maximum satisfies the validator; it satisfies
the manager unless a default is taken for a bound. -/
theorem satisfies_unstated_iff {installed : InstalledSet} {dep : DSPDependency}
    (hmin : dep.minVersion = {}) {q : DSPPackageMetadata}
    (hfind : installed.find dep.packageId = some q)
    (hmax : dep.maxVersion = {} ∨ dep.maxVersion.lt q.manifest.version = false) :
    (installed.manager.satisfies dep = true ∧
        (DSPValidator.validateDependency installed.packages { valid := true } dep).valid = true) ↔
      (dep.required = true → ¬ RefusedByInstall q.manifest.version dep) := by
  have haccepts : ValidatorAccepts q.manifest.version dep := ⟨.inl hmin, hmax⟩
  have hvalid :
      (DSPValidator.validateDependency installed.packages { valid := true } dep).valid = true :=
    (DSPValidator.validateDependency_valid installed _ dep).mpr
      ⟨rfl, fun _ => ⟨q, hfind, haccepts⟩⟩
  rw [and_iff_left hvalid, satisfies_iff]
  refine imp_congr_right fun _ => ?_
  rw [refusedByInstall_iff, hfind]
  simp [haccepts]

/-- The checks agree as stated when they give one answer and no required dependency without a
minimum is installed in a version that a default, taken for a bound, keeps out. -/
theorem checksAgree_iff (installed : InstalledSet) (pkg : DSPPackageMetadata) :
    ChecksAgree installed pkg ↔ SameAnswer installed pkg ∧
      ∀ dep ∈ pkg.manifest.dependencies, dep.required = true → dep.minVersion = {} →
        ∀ q, installed.find dep.packageId = some q →
          ¬ RefusedByInstall q.manifest.version dep := by
  rw [← sameAnswer_iff, ← install_accepts_iff, ← DSPValidator.validateDependencies_valid]
  constructor
  · rintro ⟨hagree, hunstated⟩
    refine ⟨hagree, ?_⟩
    intro dep hdep hrequired hmin q hfind hrefused
    have hmax := hrefused.1.2
    exact (satisfies_unstated_iff hmin hfind hmax).mp (hunstated dep hdep hmin q hfind hmax)
      hrequired hrefused
  · rintro ⟨hagree, hunstated⟩
    refine ⟨hagree, ?_⟩
    intro dep hdep hmin q hfind hmax
    rw [satisfies_unstated_iff hmin hfind hmax]
    exact fun hrequired => hunstated dep hdep hrequired hmin q hfind

/-- A required dependency of no stated version, installed as 2.0.0: the validator is satisfied,
`install` is not. -/
theorem checksAgree_fails : ∃ installed pkg, ¬ ChecksAgree installed pkg := by
  let base : DSPPackageMetadata :=
    { manifest := { packageId := "com.test.base", version := ⟨2, 0, 0⟩ } }
  let installed : InstalledSet := ⟨[base], by decide⟩
  let pkg : DSPPackageMetadata :=
    { manifest :=
        { packageId := "com.test.app", dependencies := [{ packageId := "com.test.base" }] } }
  refine ⟨installed, pkg, ?_⟩
  rintro ⟨hagree, -⟩
  have hvalid : (DSPValidator.validateDependencies pkg installed.packages).valid = true := by
    decide
  have hrefused : installed.manager.satisfies { packageId := "com.test.base" } = false := by
    decide
  have hall := List.all_eq_true.mp (hagree.mpr hvalid) _ (List.mem_singleton.mpr rfl)
  rw [hrefused] at hall
  cases hall

end MBootCore
