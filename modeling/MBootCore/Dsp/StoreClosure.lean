import MBootCore.Dsp.Manager
import MBootCore.Support.CallRun

/-!
# Dsp — StoreClosure

The required dependencies of an installed package stay installed, in the
version it was installed with: `uninstall` and `disable` look for dependents,
and an update never replaces a package. What `install` does not look at is the
state of a dependency, so that a package may be installed on a disabled one.
-/

namespace MBootCore

namespace DSPManager

variable {m m' : DSPManager}

/-- What every package that is to be used finds of its required dependencies. -/
def Closed (m : DSPManager) : Prop :=
  ∀ id pkg, m.packages.lookup id = some pkg → pkg.state = .installed ∨ pkg.state = .enabled →
    ∀ dep ∈ pkg.manifest.dependencies, dep.required = true →
      ∃ target, m.packages.lookup dep.packageId = some target ∧ target.state ≠ .disabled ∧
        target.manifest.version.lt dep.minVersion = false

/-- Packages are filed under their own ids, and the required dependencies of
each are other packages of the store. -/
structure Kept (m : DSPManager) : Prop where
  keyed : ∀ id pkg, m.packages.lookup id = some pkg → pkg.manifest.packageId = id
  dependencies : ∀ id pkg, m.packages.lookup id = some pkg →
    ∀ dep ∈ pkg.manifest.dependencies, dep.required = true → dep.packageId ≠ id ∧
      ∃ target, m.packages.lookup dep.packageId = some target ∧
        target.manifest.version.lt dep.minVersion = false

/-- No required dependency is disabled. -/
def Available (m : DSPManager) : Prop :=
  ∀ id pkg, m.packages.lookup id = some pkg → ∀ dep ∈ pkg.manifest.dependencies,
    dep.required = true → ∀ target, m.packages.lookup dep.packageId = some target →
      target.state ≠ .disabled

theorem closed_of_available (hkept : m.Kept) (h : m.Available) : m.Closed := by
  intro id pkg hpkg _ dep hdep hrequired
  obtain ⟨-, target, htarget, hversion⟩ := hkept.dependencies id pkg hpkg dep hdep hrequired
  exact ⟨target, htarget, h id pkg hpkg dep hdep hrequired target htarget, hversion⟩

theorem Kept.congr (h : m.Kept) (hsame : SameStore m m') : m'.Kept where
  keyed id pkg hpkg := h.keyed id pkg (hsame id ▸ hpkg)
  dependencies id pkg hpkg dep hdep hrequired := by
    rw [hsame]
    exact h.dependencies id pkg (hsame id ▸ hpkg) dep hdep hrequired

theorem Available.congr (h : m.Available) (hsame : SameStore m m') : m'.Available := by
  intro id pkg hpkg dep hdep hrequired target htarget
  rw [hsame] at hpkg htarget
  exact h id pkg hpkg dep hdep hrequired target htarget

theorem kept_start : Kept {} where
  keyed _ _ h := by cases h
  dependencies _ _ h := by cases h

theorem available_start : Available {} := by
  intro _ _ h
  cases h

/-! ## The three changes -/

section Register

variable {host : DSPHost} {packagePath targetDir : String} {pkg : DSPPackageMetadata}

theorem Kept.register (hm : m.Kept) (h : Installable host packagePath m pkg targetDir) :
    (m.register (asInstalled pkg targetDir)).Kept where
  keyed id other hother := by
    rw [lookup_register] at hother
    split at hother
    · rename_i hid
      obtain rfl := Option.some.inj hother
      exact hid.symm
    · exact hm.keyed id other hother
  dependencies id other hother dep hdep hrequired := by
    rw [lookup_register] at hother
    split at hother
    · rename_i hid
      obtain rfl := Option.some.inj hother
      obtain ⟨target, htarget, hversion⟩ :=
        satisfies_required (h.dependencies dep hdep) hrequired
      refine ⟨fun hself => ?_, target, lookup_register_of_mem h htarget, hversion⟩
      have habsent : m.packages.lookup dep.packageId = none := by
        rw [hself, hid]
        exact h.lookup
      rw [htarget] at habsent
      cases habsent
    · obtain ⟨hself, target, htarget, hversion⟩ :=
        hm.dependencies id other hother dep hdep hrequired
      exact ⟨hself, target, lookup_register_of_mem h htarget, hversion⟩

/-- A package is installed on packages that are not disabled. -/
def OnAvailable (m : DSPManager) (pkg : DSPPackageMetadata) : Prop :=
  ∀ dep ∈ pkg.manifest.dependencies, dep.required = true →
    ∀ target, m.packages.lookup dep.packageId = some target → target.state ≠ .disabled

theorem Available.register (hm : m.Available) (hkept : m.Kept)
    (h : Installable host packagePath m pkg targetDir) (hon : m.OnAvailable pkg) :
    (m.register (asInstalled pkg targetDir)).Available := by
  intro id other hother dep hdep hrequired target htarget
  rw [lookup_register] at hother
  split at hother
  · obtain rfl := Option.some.inj hother
    obtain ⟨before, hbefore, -⟩ := satisfies_required (h.dependencies dep hdep) hrequired
    obtain rfl : before = target :=
      Option.some.inj ((lookup_register_of_mem h hbefore).symm.trans htarget)
    exact hon dep hdep hrequired before hbefore
  · obtain ⟨-, before, hbefore, -⟩ := hkept.dependencies id other hother dep hdep hrequired
    obtain rfl : before = target :=
      Option.some.inj ((lookup_register_of_mem h hbefore).symm.trans htarget)
    exact hm id other hother dep hdep hrequired before hbefore

theorem onAvailable_of_closed (h : Installable host packagePath m pkg targetDir)
    (hclosed : (m.register (asInstalled pkg targetDir)).Closed) : m.OnAvailable pkg := by
  intro dep hdep hrequired target htarget
  obtain ⟨after, hafter, hstate, -⟩ := hclosed pkg.manifest.packageId (asInstalled pkg targetDir)
    (by rw [lookup_register]; exact if_pos rfl) (.inl rfl) dep hdep hrequired
  obtain rfl : target = after :=
    Option.some.inj ((lookup_register_of_mem h htarget).symm.trans hafter)
  exact hstate

end Register

section Erase

variable {packageId : String}

theorem lookup_erase_some {id : String} {pkg : DSPPackageMetadata}
    (h : (m.packages.erase packageId).lookup id = some pkg) :
    id ≠ packageId ∧ m.packages.lookup id = some pkg := by
  by_cases hid : id = packageId
  · subst hid
    rw [AList.lookup_erase] at h
    cases h
  · rw [AList.lookup_erase_ne hid] at h
    exact ⟨hid, h⟩

theorem Kept.erase (hm : m.Kept) (h : m.hasDependents packageId = false) :
    Kept { m with packages := m.packages.erase packageId } where
  keyed id pkg hpkg := hm.keyed id pkg (lookup_erase_some hpkg).2
  dependencies id pkg hpkg dep hdep hrequired := by
    obtain ⟨hid, hpkg⟩ := lookup_erase_some hpkg
    obtain ⟨hself, target, htarget, hversion⟩ := hm.dependencies id pkg hpkg dep hdep hrequired
    have hne := hasDependents_eq_false.mp h id pkg hpkg hid dep hdep hrequired
    exact ⟨hself, target, (AList.lookup_erase_ne hne).trans htarget, hversion⟩

theorem Available.erase (hm : m.Available) :
    Available { m with packages := m.packages.erase packageId } := by
  intro id pkg hpkg dep hdep hrequired target htarget
  exact hm id pkg (lookup_erase_some hpkg).2 dep hdep hrequired target (lookup_erase_some htarget).2

end Erase

section SetState

variable {packageId : String} {pkg : DSPPackageMetadata} {state : DSPState}

/-- A package whose state was set is, but for its state, one of before. -/
theorem lookup_setState_some (hpkg : m.packages.lookup packageId = some pkg) {id : String}
    {other : DSPPackageMetadata}
    (h : (m.setState packageId pkg state).packages.lookup id = some other) :
    ∃ before, m.packages.lookup id = some before ∧ other.manifest = before.manifest ∧
      (other.state = before.state ∨ (id = packageId ∧ other.state = state)) := by
  rw [lookup_setState] at h
  split at h
  · rename_i hid
    obtain rfl := Option.some.inj h
    exact ⟨pkg, hid ▸ hpkg, rfl, .inr ⟨hid, rfl⟩⟩
  · exact ⟨other, h, rfl, .inl rfl⟩

theorem Kept.setState (hm : m.Kept) (hpkg : m.packages.lookup packageId = some pkg) :
    (m.setState packageId pkg state).Kept where
  keyed id other hother := by
    obtain ⟨before, hbefore, hmanifest, -⟩ := lookup_setState_some hpkg hother
    rw [hmanifest]
    exact hm.keyed id before hbefore
  dependencies id other hother dep hdep hrequired := by
    obtain ⟨before, hbefore, hmanifest, -⟩ := lookup_setState_some hpkg hother
    obtain ⟨hself, target, htarget, hversion⟩ :=
      hm.dependencies id before hbefore dep (hmanifest ▸ hdep) hrequired
    refine ⟨hself, ?_⟩
    rw [lookup_setState]
    split
    · rename_i hid
      obtain rfl : pkg = target := Option.some.inj (hpkg.symm.trans (hid ▸ htarget))
      exact ⟨_, rfl, hversion⟩
    · exact ⟨target, htarget, hversion⟩

theorem Available.setState (hm : m.Available) (hkept : m.Kept)
    (hpkg : m.packages.lookup packageId = some pkg)
    (hstate : state = .disabled → m.hasDependents packageId = false) :
    (m.setState packageId pkg state).Available := by
  intro id other hother dep hdep hrequired target htarget
  obtain ⟨before, hbefore, hmanifest, -⟩ := lookup_setState_some hpkg hother
  obtain ⟨target', htarget', -, hsame | ⟨hid, hset⟩⟩ := lookup_setState_some hpkg htarget
  · rw [hsame]
    exact hm id before hbefore dep (hmanifest ▸ hdep) hrequired target' htarget'
  · -- the package is a dependency of another one, which `disable` would have found
    rw [hset]
    intro hdisabled
    have hself := (hkept.dependencies id before hbefore dep (hmanifest ▸ hdep) hrequired).1
    exact hasDependents_eq_false.mp (hstate hdisabled) id before hbefore (hid ▸ hself.symm) dep
      (hmanifest ▸ hdep) hrequired hid

end SetState

/-! ## What a call does to the store -/

/-- The call registers the package in this store. -/
def Registers (m : DSPManager) (pkg : DSPPackageMetadata) (targetDir : String) :
    ManagerCall → Prop
  | .install host packagePath => Installable host packagePath m pkg targetDir
  | .update host packageId packagePath =>
    packageId ∈ m.packages ∧ Installable host packagePath m pkg targetDir
  | _ => False

/-- An update that installs a package leaves the one it is to update as it is. -/
theorem update_registers {host : DSPHost} {packageId packagePath targetDir : String}
    {pkg old : DSPPackageMetadata} (hold : m.packages.lookup packageId = some old)
    (hkeyed : old.manifest.packageId = packageId)
    (h : Installable host packagePath m pkg targetDir) :
    SameStore (m.register (asInstalled pkg targetDir))
      (update host packageId packagePath m).2 := by
  intro id
  have hstays := lookup_register_of_mem h hold
  have hfound : (m.register (asInstalled pkg targetDir)).packages.lookup old.manifest.packageId
      = some old := by rw [hkeyed, hstays]
  rw [update_installed hold h, hfound]
  simp only [hkeyed, ne_eq, not_true_eq_false, if_false]
  rw [lookup_setState]
  split
  · rename_i hid
    rw [hid, hstays]
  · rfl

/-- A call leaves the packages as they are, adds one, removes one that no other
requires, or sets the state of one. -/
inductive Changed (m : DSPManager) (c : ManagerCall) (m' : DSPManager) : Prop
  | same (h : SameStore m m')
  | registered (pkg : DSPPackageMetadata) (host : DSPHost) (packagePath targetDir : String)
    (hregisters : m.Registers pkg targetDir c)
    (hinstallable : Installable host packagePath m pkg targetDir)
    (h : SameStore (m.register (asInstalled pkg targetDir)) m')
  | erased (packageId : String) (hnone : m.hasDependents packageId = false)
    (h : m' = { m with packages := m.packages.erase packageId })
  | stateSet (packageId : String) (pkg : DSPPackageMetadata) (state : DSPState)
    (hpkg : m.packages.lookup packageId = some pkg)
    (hnone : state = .disabled → m.hasDependents packageId = false)
    (h : m' = m.setState packageId pkg state)

theorem run_changed (hkept : m.Kept) (c : ManagerCall) : Changed m c (c.run m).2 := by
  have hsame : SameStore m m := fun _ => rfl
  cases c with
  | install host packagePath =>
    rw [ManagerCall.run]
    rcases install_cases host packagePath m with ⟨e, hfails⟩ | ⟨pkg, targetDir, h⟩
    · exact .same (hfails ▸ hsame)
    · rw [install_installable h]
      exact .registered pkg host packagePath targetDir h h fun _ => rfl
  | uninstall packageId =>
    rw [ManagerCall.run, uninstall]
    split
    · exact .same hsame
    · split
      · exact .same hsame
      · rename_i hdependents
        exact .erased packageId (by simpa using hdependents) rfl
  | update host packageId packagePath =>
    rw [ManagerCall.run]
    cases hold : m.packages.lookup packageId with
    | none =>
      rw [update, hold]
      exact .same hsame
    | some old =>
      rcases install_cases host packagePath m with ⟨e, hfails⟩ | ⟨pkg, targetDir, h⟩
      · simp only [update, hold, hfails]
        exact .same hsame
      · refine .registered pkg host packagePath targetDir ⟨?_, h⟩ h
          (update_registers hold (hkept.keyed packageId old hold) h)
        exact AList.lookup_isSome.mp (by rw [hold]; rfl)
  | enable packageId =>
    rw [ManagerCall.run, enable]
    cases hpkg : m.packages.lookup packageId with
    | none => exact .same hsame
    | some pkg =>
      dsimp only
      split_ifs
      · exact .same hsame
      · exact .stateSet packageId pkg .enabled hpkg (fun h => by cases h) rfl
  | disable packageId =>
    rw [ManagerCall.run, disable]
    cases hpkg : m.packages.lookup packageId with
    | none => exact .same hsame
    | some pkg =>
      dsimp only
      split_ifs with hdependents
      · exact .same hsame
      · exact .stateSet packageId pkg .disabled hpkg (fun _ => by simpa using hdependents) rfl

theorem Kept.run (h : m.Kept) (c : ManagerCall) : (c.run m).2.Kept := by
  cases run_changed h c with
  | same hsame => exact h.congr hsame
  | registered pkg host packagePath targetDir _ hinstallable hsame =>
    exact (h.register hinstallable).congr hsame
  | erased packageId hnone heq => exact heq ▸ h.erase hnone
  | stateSet packageId pkg state hpkg _ heq => exact heq ▸ h.setState hpkg

theorem Available.run (h : m.Available) (hkept : m.Kept) {c : ManagerCall}
    (hon : ∀ pkg targetDir, m.Registers pkg targetDir c → m.OnAvailable pkg) :
    (c.run m).2.Available := by
  cases run_changed hkept c with
  | same hsame => exact h.congr hsame
  | registered pkg host packagePath targetDir hregisters hinstallable hsame =>
    exact (h.register hkept hinstallable (hon pkg targetDir hregisters)).congr hsame
  | erased packageId hnone heq => exact heq ▸ h.erase
  | stateSet packageId pkg state hpkg hnone heq => exact heq ▸ h.setState hkept hpkg hnone

theorem Closed.congr (h : m.Closed) (hsame : SameStore m m') : m'.Closed := by
  intro id pkg hpkg hstate dep hdep hrequired
  rw [hsame] at hpkg ⊢
  exact h id pkg hpkg hstate dep hdep hrequired

theorem onAvailable_of_run (hkept : m.Kept) {c : ManagerCall} (h : (c.run m).2.Closed)
    {pkg : DSPPackageMetadata} {targetDir : String} (hregisters : m.Registers pkg targetDir c) :
    m.OnAvailable pkg := by
  cases c with
  | install host packagePath =>
    have hrun := install_installable hregisters
    rw [ManagerCall.run, hrun] at h
    exact onAvailable_of_closed hregisters h
  | update host packageId packagePath =>
    obtain ⟨hmem, hinstallable⟩ := hregisters
    obtain ⟨old, hold⟩ := Option.isSome_iff_exists.mp (AList.lookup_isSome.mpr hmem)
    have hsame := update_registers hold (hkept.keyed packageId old hold) hinstallable
    exact onAvailable_of_closed hinstallable (h.congr fun id => (hsame id).symm)
  | uninstall | enable | disable => exact hregisters.elim

/-! ## Runs -/

/-- In every state of a run the store is closed exactly when no call of it
registers a package with a required dependency that is disabled. -/
theorem closed_iff_onAvailable (calls : List ManagerCall) :
    (∀ r ∈ CallRun.records ManagerCall.run calls {}, r.after.Closed) ↔
      ∀ r ∈ CallRun.records ManagerCall.run calls {}, ∀ pkg targetDir,
        r.before.Registers pkg targetDir r.call → r.before.OnAvailable pkg := by
  have hkept : ∀ r ∈ CallRun.records ManagerCall.run calls {}, Kept r.before ∧ Kept r.after :=
    (CallRun.run_invariant Kept (fun c _ m h => h.run c) kept_start).1
  constructor
  · intro hclosed r hr pkg targetDir hregisters
    have hafter := hclosed r hr
    have hbefore := (hkept r hr).1
    obtain ⟨_, c, _, -, rfl⟩ := CallRun.mem_records.mp hr
    exact onAvailable_of_run hbefore hafter hregisters
  · intro hon r hr
    have hstep : ∀ r ∈ CallRun.records ManagerCall.run calls {},
        Available r.before → Available r.after := by
      intro r hr hbefore
      have hregisters := hon r hr
      have hr' := (hkept r hr).1
      obtain ⟨_, c, _, -, rfl⟩ := CallRun.mem_records.mp hr
      exact hbefore.run hr' hregisters
    have havailable := (CallRun.records_invariant Available hstep available_start).1
    exact closed_of_available (hkept r hr).2 (havailable r hr).2

/-- A host whose user repository takes every package. -/
def openHost (pkg : DSPPackageMetadata) : DSPHost where
  repository := { userPath := "user" }
  pathExists _ := true
  loadPackageManifest _ := .ok pkg
  joinPath dir name := dir ++ "/" ++ name
  createDirectories _ := true
  copyContents _ _ := true

def basePackage : DSPPackageMetadata where
  manifest := { packageId := "base" }

def appPackage : DSPPackageMetadata where
  manifest := { packageId := "app", dependencies := [{ packageId := "base" }] }

/-- A package is installed on one that was disabled. -/
theorem install_on_disabled :
    ¬ ∀ calls, ∀ r ∈ CallRun.records ManagerCall.run calls {}, r.after.Closed := by
  intro hall
  let calls : List ManagerCall := [.install (openHost basePackage) "base.dsp", .disable "base",
    .install (openHost appPackage) "app.dsp"]
  have hclosed := hall calls (CallRun.record ManagerCall.run
    (.install (openHost appPackage) "app.dsp") (CallRun.final ManagerCall.run (calls.take 2) {}))
    (CallRun.mem_records.mpr ⟨_, _, [], rfl, rfl⟩)
  obtain ⟨target, htarget, hstate, -⟩ := hclosed "app" (asInstalled appPackage "user/app")
    (by decide) (.inl rfl) { packageId := "base" } (List.mem_singleton_self _) rfl
  have hdisabled : target.state = .disabled := by
    have hfound : (some target).map DSPPackageMetadata.state = some DSPState.disabled := by
      rw [← htarget]
      decide
    exact Option.some.inj hfound
  exact hstate hdisabled

end DSPManager

end MBootCore
