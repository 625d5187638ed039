import MBootCore.Dsp.InstallFiles

/-!
# Dsp — RepositoryPaths

Where a package goes. The package id is joined to the repository path as it
stands in the manifest: an id that is absolute, or has enough `..`, leads out of
the repository, and one that leads back to it makes `uninstall` remove it.
-/

namespace MBootCore

open LexicalPath FileTree

namespace DSPManager

/-- The directories on the way to a path are there, the last one included. -/
def PathPresent (cwd : Place) (path : String) (disk : Disk ByteBuffer) : Prop :=
  ∀ place ∈ trail (start cwd path) (components path), disk.node place = some .directory

/-- A call of `install` for a package of this id that has no symbolic links, with a
repository to put it in. -/
structure StoreCall (packageId : String) (site : InstallSite) (packagePath path : String)
    (disk : Disk ByteBuffer) : Prop where
  manifest : ∃ pkg, site.loadPackageManifest packagePath = .ok pkg ∧
    pkg.manifest.packageId = packageId
  chosen : site.repository.chosenPath = some path
  present : PathPresent site.cwd path disk
  plain : ∀ listing, site.package packagePath = .directory listing → listing.Plain

def installPathOf (m : DSPManager) (packageId : String) : Option String :=
  (m.packages.lookup packageId).map (·.installPath)

/-- What is done for a package of this id is done strictly below the repository
path: by `install`, and by `uninstall` as long as the package is where it was
installed. -/
structure StaysInside (packageId : String) : Prop where
  install : ∀ site packagePath path m disk, StoreCall packageId site packagePath path disk →
    ∀ op ∈ (installOn site packagePath m disk).ops, Below (resolve site.cwd path) op.place
  uninstall : ∀ site packagePath path m disk, StoreCall packageId site packagePath path disk →
    (installOn site packagePath m disk).result = .ok () →
      ∀ m' : DSPManager, m'.installPathOf packageId
          = (installOn site packagePath m disk).manager.installPathOf packageId →
        ∀ op ∈ (uninstallOn site.cwd packageId m').ops, Below (resolve site.cwd path) op.place

theorem installPathOf_register (m : DSPManager) (pkg : DSPPackageMetadata) (targetDir : String) :
    (m.register (asInstalled pkg targetDir)).installPathOf pkg.manifest.packageId
      = some targetDir := by
  rw [installPathOf]
  exact congrArg _ (lookup_register_self m (asInstalled pkg targetDir))

theorem storePackage_ok {site : InstallSite} {packagePath targetDir : String}
    {pkg : DSPPackageMetadata} {m : DSPManager} {disk : Disk ByteBuffer}
    (h : (storePackage site packagePath targetDir pkg m disk).result = .ok ()) :
    (storePackage site packagePath targetDir pkg m disk).manager
      = m.register (asInstalled pkg targetDir) := by
  rw [storePackage] at h ⊢
  simp only at h ⊢
  split_ifs at h ⊢
  rfl

/-- `uninstall` removes nothing but the directory of the package. -/
theorem uninstallOn_removes {cwd : Place} {packageId : String} {m : DSPManager}
    {op : Op ByteBuffer} (h : op ∈ (uninstallOn cwd packageId m).ops) :
    ∃ path, m.installPathOf packageId = some path ∧ op = .removeAll (resolve cwd path) := by
  rw [uninstallOn] at h
  split at h
  · cases h
  · rename_i pkg hpkg
    split_ifs at h
    · cases h
    · cases h
    · exact ⟨pkg.installPath, by simp [installPathOf, hpkg], List.mem_singleton.mp h⟩

/-! ## Below the repository -/

section Inside

variable {cwd : Place} {path packageId : String} {disk : Disk ByteBuffer}
  {op : Op ByteBuffer} {relative : List String}

/-- No place on the way to the repository is free. -/
def PathTaken (cwd : Place) (path : String) (disk : Disk ByteBuffer) : Prop :=
  ∀ place ∈ trail (start cwd path) (components path), disk.node place ≠ none

theorem PathPresent.taken (h : PathPresent cwd path disk) : PathTaken cwd path disk := by
  intro place hplace
  rw [h place hplace]
  simp

theorem chosenPath_ne {repository : DSPRepository} (h : repository.chosenPath = some path) :
    path ≠ "" := by
  rintro rfl
  rw [DSPRepository.chosenPath] at h
  split_ifs at h with huser hsystem hportable <;> simp_all

theorem PathTaken.repository (h : PathTaken cwd path disk) :
    disk.node (resolve cwd path) ≠ none := by
  apply h
  apply walk_mem_trail
  rw [components]
  simp [List.splitOn_ne_nil]

/-- A free place on the way to an entry of the package lies below the repository. -/
theorem PathTaken.below (h : PathTaken cwd path disk) (hpath : path ≠ "")
    (hid : descends packageId = true) (hproper : ∀ name ∈ relative, IsName name) {place : Place}
    (hplace : place ∈ trail (start cwd (join path packageId))
      (components (join path packageId) ++ relative))
    (hfree : disk.node place = none) : Below (resolve cwd path) place := by
  have hrelative : isAbsolute packageId = false := by
    rw [descends, Bool.and_eq_true, Bool.not_eq_true'] at hid
    exact hid.1
  have hstart : start cwd (join path packageId) = start cwd path := by
    rw [start, start, isAbsolute_join hpath hrelative]
  have hne : ∀ {other}, disk.node other = none → other ≠ resolve cwd path := by
    rintro other hother rfl
    exact h.repository hother
  rw [hstart, trail_append, List.mem_append] at hplace
  rcases hplace with hplace | hplace
  · rcases trail_components_join hpath hrelative hplace with hplace | hplace
    · exact absurd hfree (h place hplace)
    · -- on the way along the id
      refine ⟨?_, hne hfree⟩
      rw [descends, hrelative, Bool.not_false, Bool.true_and] at hid
      split at hid
      · rename_i name rest hdescent
        apply trail_of_descent hdescent
        rwa [List.append_nil]
      · cases hid
  · -- below the target directory
    have htarget := below_of_descends hpath hid cwd
    have hbelow := prefix_trail_names hproper hplace
    have hresolve : resolve cwd (join path packageId)
        = walk (start cwd path) (components (join path packageId)) := by rw [resolve, hstart]
    rw [hresolve] at htarget
    exact ⟨htarget.1.trans hbelow.1, hne hfree⟩

theorem PathTaken.run (h : PathTaken cwd path disk) {ops : List (Op ByteBuffer)}
    (hops : ∀ op ∈ ops, ∀ dir, op ≠ .removeAll dir) : PathTaken cwd path (disk.run ops) :=
  fun place hplace => run_taken hops (h place hplace)

/-- Made or written strictly below the repository, and not removed. -/
def Stored (cwd : Place) (path : String) (op : Op ByteBuffer) : Prop :=
  Below (resolve cwd path) op.place ∧ ∀ dir, op ≠ .removeAll dir

variable (hpath : path ≠ "") (hid : descends packageId = true)

include hpath hid

theorem PathTaken.makeBelow (h : PathTaken cwd path disk) (hproper : ∀ name ∈ relative, IsName name)
    {fails : Nat → Bool} (hop : op ∈ (makeBelow cwd (join path packageId) fails disk relative).1) :
    Stored cwd path op := by
  obtain ⟨made, hmade, rfl, hfree⟩ := createDirectories_makes hop
  exact ⟨h.below hpath hid hproper hmade hfree, by simp⟩

theorem PathTaken.copyEntry (h : PathTaken cwd path disk) {step : CopyStep}
    (hplain : step.entry.link = none)
    (hop : op ∈ (copyEntry cwd (join path packageId) step disk).1) : Stored cwd path op := by
  have htarget := below_of_descends hpath hid cwd
  have hresolved : step.entry.resolved = step.entry.relative := by
    rw [PackageEntry.resolved, hplain, Option.getD_none]
  rw [DSPManager.copyEntry, hresolved, PackageEntry.dest_plain hplain] at hop
  split at hop
  · exact h.makeBelow hpath hid step.entry.proper hop
  · split at hop
    · simp only [List.mem_map] at hop
      obtain ⟨left, -, rfl⟩ := hop
      exact ⟨htarget.append _, by simp⟩
    · rw [List.mem_singleton] at hop
      subst hop
      exact ⟨htarget.append _, by simp⟩
  · cases hop

theorem PathTaken.copyEntries (h : PathTaken cwd path disk) {steps : List CopyStep} {ec : Bool}
    (hplain : ∀ step ∈ steps, step.entry.link = none)
    (hop : op ∈ (copyEntries cwd (join path packageId) ec steps disk).1) : Stored cwd path op := by
  induction steps generalizing disk ec with
  | nil => cases hop
  | cons step steps ih =>
    rw [List.forall_mem_cons] at hplain
    rw [DSPManager.copyEntries] at hop
    split_ifs at hop
    · cases hop
    · cases hop
    · exact h.copyEntry hpath hid hplain.1 hop
    · rcases List.mem_append.mp hop with hop | hop
      · exact h.copyEntry hpath hid hplain.1 hop
      · refine ih (h.run fun o ho => ?_) hplain.2 hop
        exact (h.copyEntry hpath hid hplain.1 ho).2

theorem PathTaken.storePackage {site : InstallSite} (h : PathTaken site.cwd path disk)
    {packagePath : String} {pkg : DSPPackageMetadata} {m : DSPManager}
    (hplain : ∀ listing, site.package packagePath = .directory listing → listing.Plain)
    (hop : op ∈ (storePackage site packagePath (join path packageId) pkg m disk).ops) :
    Stored site.cwd path op := by
  have hmade : ∀ o ∈ (makeTarget site (join path packageId) disk).1,
      Stored site.cwd path o := fun o ho => h.makeBelow hpath hid (by simp) ho
  have hcopied : ∀ o ∈ (copyContents site.cwd (join path packageId) (site.package packagePath)
      (disk.run (makeTarget site (join path packageId) disk).1)).1,
      Stored site.cwd path o := by
    intro o ho
    have htaken := h.run fun o ho => (hmade o ho).2
    unfold copyContents at ho
    split at ho
    · rename_i listing hsource
      split_ifs at ho
      · exact htaken.copyEntries hpath hid (hplain listing hsource) ho
      · cases ho
    · exact htaken.copyEntry hpath hid rfl ho
  rw [DSPManager.storePackage] at hop
  simp only at hop
  split_ifs at hop
  · exact hmade op hop
  · exact (List.mem_append.mp hop).elim (hmade op) (hcopied op)
  · exact (List.mem_append.mp hop).elim (hmade op) (hcopied op)

end Inside

/-! ## Ids that lead out of it -/

/-- A package of this id and nothing else, and a repository below the root. -/
def bareSite (root packageId : String) : InstallSite where
  repository := { userPath := root }
  pathExists _ := true
  loadPackageManifest _ := .ok { manifest := { packageId } }
  package _ := .directory { steps := [], distinct := List.nodup_nil }

/-- The root and the directories in it. -/
def bareDisk : Disk ByteBuffer := ⟨fun place => if place.length ≤ 1 then some .directory else none⟩

theorem bareDisk_present (cwd : Place) {root : String} (h : isAbsolute root = true)
    (hlength : ∀ place ∈ trail [] (components root), place.length ≤ 1) :
    PathPresent cwd root bareDisk := by
  intro place hplace
  rw [start, if_pos h] at hplace
  exact if_pos (hlength place hplace)

theorem installOn_bare {root packageId : String} (hroot : root ≠ "") (hid : packageId ≠ "") :
    (installOn (bareSite root packageId) "" {} bareDisk).result = .ok () ∧
      (installOn (bareSite root packageId) "" {} bareDisk).manager
        = register {} (asInstalled { manifest := { packageId } } (join root packageId)) := by
  have hprepared : Prepared (bareSite root packageId) "" {} { manifest := { packageId } } root := by
    refine ⟨rfl, rfl, by simpa using hid, by simp, rfl, rfl, ?_⟩
    rw [DSPRepository.chosenPath, if_pos (by simpa [bareSite] using hroot)]
    rfl
  have hmade : (makeTarget (bareSite root packageId) (join root packageId) bareDisk).2 = true :=
    createDirectories_total fun _ => rfl
  rw [installOn_prepared hprepared, storePackage]
  simp only [hmade]
  exact ⟨rfl, rfl⟩

/-- The directory of the package is strictly below the repository. -/
theorem StaysInside.below {packageId : String} (h : StaysInside packageId) (hid : packageId ≠ "")
    (root : String) (habsolute : isAbsolute root = true)
    (hlength : ∀ place ∈ trail [] (components root), place.length ≤ 1) :
    Below (resolve [] root) (resolve [] (join root packageId)) := by
  have hroot : root ≠ "" := by
    rintro rfl
    cases habsolute
  obtain ⟨hresult, hmanager⟩ := installOn_bare hroot hid
  have hcall : StoreCall packageId (bareSite root packageId) "" root bareDisk := by
    refine ⟨⟨_, rfl, rfl⟩, ?_, bareDisk_present [] habsolute hlength, ?_⟩
    · rw [DSPRepository.chosenPath, if_pos (by simpa [bareSite] using hroot)]
      rfl
    · intro listing hsource
      cases hsource
      simp [PackageListing.Plain]
  have hops := h.uninstall _ _ _ _ _ hcall hresult _ rfl
  have hpath : (join root packageId).isEmpty = false := by
    rw [join]
    split_ifs <;> simp_all
  have hlookup : (register {} (asInstalled { manifest := { packageId } }
      (join root packageId))).packages.lookup packageId
      = some (asInstalled { manifest := { packageId } } (join root packageId)) :=
    AList.lookup_insert _
  have hdependents : (register {} (asInstalled { manifest := { packageId } }
      (join root packageId))).hasDependents packageId = false := by
    rw [hasDependents_eq_false]
    intro id pkg hpkg hne
    rw [lookup_register_ne _ _ hne] at hpkg
    cases hpkg
  apply hops (.removeAll (resolve [] (join root packageId)))
  rw [hmanager, uninstallOn, hlookup]
  simp only [hdependents, Bool.false_eq_true, if_false]
  simp [asInstalled, hpath, bareSite]

/-- What lies below both of two directories of the root cannot be. -/
theorem not_below_both {place : Place} (ha : Below ["a"] place) (hb : Below ["b"] place) :
    False := by
  obtain ⟨rest, rfl⟩ := ha.1
  obtain ⟨rest', hrest⟩ := hb.1
  simp at hrest

theorem descends_of_below {packageId : String}
    (ha : Below (resolve [] "/a") (resolve [] (join "/a" packageId)))
    (hb : Below (resolve [] "/b") (resolve [] (join "/b" packageId))) :
    descends packageId = true := by
  have hplaceA : resolve [] "/a" = ["a"] := by decide
  have hplaceB : resolve [] "/b" = ["b"] := by decide
  cases habsolute : isAbsolute packageId with
  | true =>
    rw [join_absolute habsolute] at ha hb
    exact (not_below_both (hplaceA ▸ ha) (hplaceB ▸ hb)).elim
  | false =>
    rw [resolve_join (by decide) habsolute, hplaceA] at ha
    rw [resolve_join (by decide) habsolute, hplaceB] at hb
    rw [descends, habsolute]
    cases hdescent : descent [] (components packageId) with
    | none =>
      rw [walk_of_escape hdescent "b" "a"] at hb
      exact (not_below_both ha hb).elim
    | some rest =>
      have hwalk := walk_of_descent hdescent ["a"]
      rw [List.append_nil] at hwalk
      rw [hwalk] at ha
      cases rest with
      | nil => exact absurd rfl ha.2
      | cons name rest => rfl

/-- Exactly the packages stay in the repository whose id is a relative path that
ends below where it begins and does not leave it; without an id none is stored. -/
theorem staysInside_iff (packageId : String) :
    StaysInside packageId ↔ packageId = "" ∨ descends packageId = true := by
  constructor
  · intro h
    by_cases hid : packageId = ""
    · exact .inl hid
    · exact .inr (descends_of_below (h.below hid "/a" (by decide) (by decide))
        (h.below hid "/b" (by decide) (by decide)))
  · rintro (rfl | hid)
    · -- an empty id is refused before any file is touched
      have hrefused : ∀ site packagePath path m disk, StoreCall "" site packagePath path disk →
          ∃ e, installOn site packagePath m disk = ⟨.error e, m, []⟩ := by
        intro site packagePath path m disk hcall
        rcases installOn_cases site packagePath m disk with h | ⟨pkg, other, hprepared⟩
        · exact h
        · obtain ⟨pkg', hmanifest, hempty⟩ := hcall.manifest
          rw [hprepared.manifest] at hmanifest
          cases hmanifest
          have hnamed := hprepared.named
          rw [hempty] at hnamed
          cases hnamed
      constructor
      · intro site packagePath path m disk hcall op hop
        obtain ⟨e, he⟩ := hrefused site packagePath path m disk hcall
        rw [he] at hop
        cases hop
      · intro site packagePath path m disk hcall hresult
        obtain ⟨e, he⟩ := hrefused site packagePath path m disk hcall
        rw [he] at hresult
        cases hresult
    · constructor
      · intro site packagePath path m disk hcall op hop
        rcases installOn_cases site packagePath m disk with ⟨e, he⟩ | ⟨pkg, other, hprepared⟩
        · rw [he] at hop
          cases hop
        · obtain ⟨pkg', hmanifest, rfl⟩ := hcall.manifest
          rw [hprepared.manifest] at hmanifest
          cases hmanifest
          have hchosen := hprepared.chosen.symm.trans hcall.chosen
          cases hchosen
          rw [installOn_prepared hprepared] at hop
          exact (hcall.present.taken.storePackage (chosenPath_ne hcall.chosen) hid hcall.plain
            hop).1
      · intro site packagePath path m disk hcall hresult m' hm' op hop
        rcases installOn_cases site packagePath m disk with ⟨e, he⟩ | ⟨pkg, other, hprepared⟩
        · rw [he] at hresult
          cases hresult
        · obtain ⟨pkg', hmanifest, rfl⟩ := hcall.manifest
          rw [hprepared.manifest] at hmanifest
          cases hmanifest
          have hchosen := hprepared.chosen.symm.trans hcall.chosen
          cases hchosen
          rw [installOn_prepared hprepared] at hm' hresult
          rw [storePackage_ok hresult, installPathOf_register] at hm'
          obtain ⟨installed, hinstalled, rfl⟩ := uninstallOn_removes hop
          rw [hm'] at hinstalled
          cases hinstalled
          exact below_of_descends (chosenPath_ne hcall.chosen) hid site.cwd

/-- The id `..` leads to the directory the repository is in. -/
theorem staysInside_parent : ¬ ∀ packageId, StaysInside packageId := by
  intro hall
  have hbelow := (hall "..").below (by decide) "/a" (by decide) (by decide)
  revert hbelow
  decide

end DSPManager

end MBootCore
