import MBootCore.Dsp.Manager
import Mathlib

/-!
# Dsp — Replacement

What `update` does to the store. It calls `install` with the old package still
in place, so that a package of the same id is refused as already there, and a
package of another id is installed beside the one to be updated.
-/

namespace MBootCore.DSPManager

variable {host : DSPHost} {packageId packagePath targetDir : String} {m : DSPManager}
  {pkg : DSPPackageMetadata}

/-- A valid newer package of the same id, its dependencies satisfied, that
conflicts with none of the other packages. -/
structure Replacement (host : DSPHost) (packageId packagePath : String) (m : DSPManager)
    (pkg : DSPPackageMetadata) (targetDir : String) : Prop where
  present : host.pathExists packagePath = true
  manifest : host.loadPackageManifest packagePath = .ok pkg
  sameId : pkg.manifest.packageId = packageId
  named : packageId.isEmpty = false
  newer : ∃ old, m.packages.lookup packageId = some old ∧
    old.manifest.version.lt pkg.manifest.version = true
  loaders : ∀ id other, m.packages.lookup id = some other → id ≠ packageId →
    ∀ loader ∈ pkg.loaders, ∀ existing ∈ other.loaders, existing.loaderId ≠ loader.loaderId
  dependencies : ∀ dep ∈ pkg.manifest.dependencies, m.satisfies dep = true
  target : DSPManager.targetDir host packageId = some targetDir
  directories : host.createDirectories targetDir = true
  contents : host.copyContents packagePath targetDir = true

/-- What `update` is for. An exception counts as an error. -/
structure UpdateReplaces (host : DSPHost) (packageId packagePath : String) (m : DSPManager) :
    Prop where
  success : (update host packageId packagePath m).1 = .ok () →
    ∃ pkg, host.loadPackageManifest packagePath = .ok pkg ∧
      pkg.manifest.packageId = packageId ∧
      (∃ new, (update host packageId packagePath m).2.packages.lookup packageId = some new ∧
        new.manifest = pkg.manifest) ∧
      ∀ id, id ≠ packageId → (update host packageId packagePath m).2.packages.lookup id
        = m.packages.lookup id
  failure : ∀ e, (update host packageId packagePath m).1 = .error e →
    SameStore m (update host packageId packagePath m).2
  promised : (∃ pkg targetDir, Replacement host packageId packagePath m pkg targetDir) →
    (update host packageId packagePath m).1 = .ok ()

/-- The rollback removes the new package again: the id in the metadata of the
package to be updated leads to a package filed under another id than its own,
which is the new one's. -/
def RolledBack (m : DSPManager) (packageId : String) (pkg : DSPPackageMetadata) : Prop :=
  ∃ old misfiled, m.packages.lookup packageId = some old ∧
    m.packages.lookup old.manifest.packageId = some misfiled ∧
    misfiled.manifest.packageId = pkg.manifest.packageId ∧
    m.hasDependents pkg.manifest.packageId = false

/-! ## One update -/

/-- A package of an installed id is not installable. -/
theorem Replacement.not_installable {pkg' : DSPPackageMetadata} {targetDir' : String}
    (h : Replacement host packageId packagePath m pkg targetDir) :
    ¬ Installable host packagePath m pkg' targetDir' := by
  intro hinstallable
  obtain rfl : pkg = pkg' := Except.ok.inj (h.manifest.symm.trans hinstallable.manifest)
  obtain ⟨old, hold, -⟩ := h.newer
  have hnone := hinstallable.lookup
  rw [h.sameId, hold] at hnone
  cases hnone

theorem update_replacement (h : Replacement host packageId packagePath m pkg targetDir) :
    update host packageId packagePath m = (.error (.dsp .updateFailed), m) := by
  obtain ⟨old, hold, -⟩ := h.newer
  rcases install_cases host packagePath m with ⟨e, hfails⟩ | ⟨pkg', targetDir', hinstallable⟩
  · exact update_failed hold hfails
  · exact absurd hinstallable h.not_installable

theorem hasDependents_register (m : DSPManager) (pkg : DSPPackageMetadata) (targetDir : String) :
    (m.register (asInstalled pkg targetDir)).hasDependents pkg.manifest.packageId = false ↔
      m.hasDependents pkg.manifest.packageId = false := by
  rw [hasDependents_eq_false, hasDependents_eq_false]
  refine forall_congr' fun id => forall_congr' fun other => ?_
  have hlookup (hid : id ≠ pkg.manifest.packageId) :=
    lookup_register_ne m (asInstalled pkg targetDir) hid
  constructor
  · exact fun hnone hother hid => hnone ((hlookup hid).trans hother) hid
  · exact fun hnone hother hid => hnone ((hlookup hid).symm.trans hother) hid

/-- Removing what was just registered. -/
theorem sameStore_rolledBack (h : Installable host packagePath m pkg targetDir)
    (hnone : m.hasDependents pkg.manifest.packageId = false) :
    SameStore m (uninstall pkg.manifest.packageId (m.register (asInstalled pkg targetDir))).2 := by
  have hmem : pkg.manifest.packageId ∈ (m.register (asInstalled pkg targetDir)).packages :=
    (AList.mem_insert _).mpr (.inl rfl)
  intro id
  rw [uninstall, if_neg (not_not.mpr hmem), (hasDependents_register m pkg targetDir).mpr hnone]
  by_cases hid : id = pkg.manifest.packageId
  · rw [hid, h.lookup]
    exact AList.lookup_erase _ _
  · exact (AList.lookup_erase_ne hid).trans (lookup_register_ne m _ hid)

/-- What removing a package other than the new one leaves. -/
theorem uninstall_register_ne {id : String}
    (hid : pkg.manifest.packageId ≠ id) :
    (uninstall id (m.register (asInstalled pkg targetDir))).2.packages.lookup pkg.manifest.packageId
      = some (asInstalled pkg targetDir) := by
  have hfound : (m.register (asInstalled pkg targetDir)).packages.lookup pkg.manifest.packageId
      = some (asInstalled pkg targetDir) := lookup_register_self m _
  rw [uninstall]
  split
  · exact hfound
  · split
    · exact hfound
    · exact (AList.lookup_erase_ne hid).trans hfound

theorem not_sameStore (h : Installable host packagePath m pkg targetDir) {m' : DSPManager}
    (hfound : m'.packages.lookup pkg.manifest.packageId = some (asInstalled pkg targetDir)) :
    ¬ SameStore m m' := by
  intro hsame
  have hlookup := hsame pkg.manifest.packageId
  rw [hfound, h.lookup] at hlookup
  cases hlookup

/-- An update that installs a package is a replacement only if it is rolled back. -/
theorem rolledBack_of_updateReplaces (hupdate : UpdateReplaces host packageId packagePath m)
    {old : DSPPackageMetadata} (hold : m.packages.lookup packageId = some old)
    (h : Installable host packagePath m pkg targetDir) : m.RolledBack packageId pkg := by
  have hrun := update_installed hold h
  have hregistered : (m.register (asInstalled pkg targetDir)).packages.lookup
      pkg.manifest.packageId = some (asInstalled pkg targetDir) := lookup_register_self m _
  cases hfound : (m.register (asInstalled pkg targetDir)).packages.lookup
      old.manifest.packageId with
  | none =>
    rw [hfound] at hrun
    have hsame := hupdate.failure _ (congrArg Prod.fst hrun)
    rw [hrun] at hsame
    exact absurd hsame (not_sameStore h hregistered)
  | some newMeta =>
    rw [hfound] at hrun
    by_cases hid : newMeta.manifest.packageId = old.manifest.packageId
    · -- it succeeds although the new package has another id
      simp only [hid, ne_eq, not_true_eq_false, if_false] at hrun
      obtain ⟨pkg', hmanifest, hsameId, -⟩ := hupdate.success (congrArg Prod.fst hrun)
      obtain rfl : pkg = pkg' := Except.ok.inj (h.manifest.symm.trans hmanifest)
      have hnone := h.lookup
      rw [hsameId, hold] at hnone
      cases hnone
    · simp only [ne_eq, hid, not_false_eq_true, if_true] at hrun
      have hsame := hupdate.failure _ (congrArg Prod.fst hrun)
      rw [hrun] at hsame
      have hnew : pkg.manifest.packageId = newMeta.manifest.packageId := by
        by_contra hne
        exact not_sameStore h (uninstall_register_ne hne) hsame
      have hne : old.manifest.packageId ≠ pkg.manifest.packageId := by
        intro heq
        rw [heq, hregistered] at hfound
        obtain rfl := Option.some.inj hfound
        exact hid heq.symm
      rw [lookup_register_ne m (asInstalled pkg targetDir) hne] at hfound
      refine ⟨old, newMeta, hold, hfound, hnew.symm, ?_⟩
      by_contra hdependents
      rw [← hasDependents_register m pkg targetDir, Bool.not_eq_false] at hdependents
      refine not_sameStore h ?_ hsame
      rw [← hnew, uninstall, hdependents]
      split
      · exact hregistered
      · exact hregistered

theorem update_rolledBack (h : Installable host packagePath m pkg targetDir)
    (hback : m.RolledBack packageId pkg) :
    ∃ e m', update host packageId packagePath m = (.error e, m') ∧ SameStore m m' := by
  obtain ⟨old, misfiled, hold, hmisfiled, hid, hnone⟩ := hback
  have hne : misfiled.manifest.packageId ≠ old.manifest.packageId := by
    intro heq
    have habsent := h.lookup
    rw [← hid, heq, hmisfiled] at habsent
    cases habsent
  refine ⟨.dsp .packageIncompatible, _, ?_, sameStore_rolledBack h hnone⟩
  rw [update_installed hold h, lookup_register_of_mem h hmisfiled]
  dsimp only
  rw [if_pos hne, hid]

/-- An update is a replacement exactly when there is nothing to replace the
package by, and nothing to install beside it that is not removed again. -/
theorem updateReplaces_iff (host : DSPHost) (packageId packagePath : String) (m : DSPManager) :
    UpdateReplaces host packageId packagePath m ↔
      (∀ pkg targetDir, ¬ Replacement host packageId packagePath m pkg targetDir) ∧
      (packageId ∈ m.packages → ∀ pkg targetDir, Installable host packagePath m pkg targetDir →
        m.RolledBack packageId pkg) := by
  constructor
  · intro hupdate
    refine ⟨fun pkg targetDir hreplacement => ?_, fun hmem pkg targetDir h => ?_⟩
    · have hok := hupdate.promised ⟨pkg, targetDir, hreplacement⟩
      rw [update_replacement hreplacement] at hok
      cases hok
    · obtain ⟨old, hold⟩ := Option.isSome_iff_exists.mp (AList.lookup_isSome.mpr hmem)
      exact rolledBack_of_updateReplaces hupdate hold h
  · rintro ⟨hnone, hbeside⟩
    have hfails : ∃ e m', update host packageId packagePath m
        = (.error e, m') ∧ SameStore m m' := by
      cases hold : m.packages.lookup packageId with
      | none => exact ⟨.dsp .packageNotInstalled, m, by rw [update, hold], fun _ => rfl⟩
      | some old =>
        rcases install_cases host packagePath m with ⟨e, hfails⟩ | ⟨pkg, targetDir, h⟩
        · exact ⟨_, m, update_failed hold hfails, fun _ => rfl⟩
        · refine update_rolledBack h (hbeside ?_ pkg targetDir h)
          exact AList.lookup_isSome.mp (by rw [hold]; rfl)
    obtain ⟨e, m', hrun, hsame⟩ := hfails
    refine ⟨fun hok => ?_, fun _ _ => hrun ▸ hsame, fun hreplacement => ?_⟩
    · rw [hrun] at hok
      cases hok
    · obtain ⟨pkg, targetDir, h⟩ := hreplacement
      exact absurd h (hnone pkg targetDir)

/-- A store with version 1.0.0 of the app. -/
def appStore : DSPManager := register {} { manifest := { packageId := "app" }, state := .installed }

/-- Version 2.0.0 of the app is at every path. -/
def newerAppHost : DSPHost where
  repository := { userPath := "user" }
  pathExists _ := true
  loadPackageManifest _ := .ok { manifest := { packageId := "app", version := { major := 2 } } }
  joinPath dir name := dir ++ "/" ++ name
  createDirectories _ := true
  copyContents _ _ := true

/-- A package is not updated to a newer version of itself. -/
theorem update_refusesNewer :
    ¬ ∀ host packageId packagePath m, UpdateReplaces host packageId packagePath m := by
  intro hall
  have hreplacement : Replacement newerAppHost "app" "app.dsp" appStore
      { manifest := { packageId := "app", version := { major := 2 } } } "user/app" :=
    { present := rfl
      manifest := rfl
      sameId := rfl
      named := by decide
      newer := ⟨{ manifest := { packageId := "app" }, state := .installed }, by decide,
        by decide⟩
      loaders := fun _ _ _ _ loader hloader => absurd hloader List.not_mem_nil
      dependencies := fun dep hdep => absurd hdep List.not_mem_nil
      target := by decide
      directories := rfl
      contents := rfl }
  have hok := (hall newerAppHost "app" "app.dsp" appStore).promised ⟨_, _, hreplacement⟩
  rw [update_replacement hreplacement] at hok
  cases hok

end MBootCore.DSPManager
