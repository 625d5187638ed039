import MBootCore.Dsp.InstallFiles

/-!
# Dsp — InstallCopy

The copy of a package directory into the target directory, entry by entry up to
the first call that fails: what it leaves as it was, and which files arrive.
-/

namespace MBootCore

open LexicalPath FileTree

/-- The copy of the entry leaves an error code. -/
def CopyStep.reports (step : CopyStep) : Bool :=
  step.faults.copyFails && step.entry.node.isSome

/-- What is written to the file of the entry. -/
def CopyStep.written (step : CopyStep) : Option ByteBuffer :=
  match step.entry.node with
  | some (.file contents) => if step.faults.copyFails then step.faults.left else some contents
  | _ => none

/-- What the copy of the entry writes to a place. -/
def CopyStep.writtenAt (target place : Place) (step : CopyStep) : Option ByteBuffer :=
  if step.entry.dest target = place then step.written else none

/-- What the copy of these entries writes to a place last. -/
def lastWritten (target place : Place) : List CopyStep → Option ByteBuffer
  | [] => none
  | step :: steps => (lastWritten target place steps).or (step.writtenAt target place)

/-- The entries whose copy is attempted, which are all up to the first call that
fails, and whether the loop ends without an exception. -/
def attempted : List CopyStep → List CopyStep × Bool
  | [] => ([], true)
  | step :: steps =>
    if step.faults.examineThrows then ([], false)
    else if step.faults.advanceThrows then ([step], false)
    else if step.reports then ([step], true)
    else (step :: (attempted steps).1, (attempted steps).2)

def PackageListing.attempted (listing : PackageListing) : List CopyStep × Bool :=
  if listing.opened then MBootCore.attempted listing.steps else ([], true)

/-! ## What the copy comes to -/

section Disk

variable (disk : Disk ByteBuffer) (target : Place)

/-- The regular file that the entry is, if it is one, is in the target directory. -/
def Held (entry : PackageEntry) : Prop :=
  ∀ contents, entry.link = none → entry.node = some (.file contents) →
    disk.node (entry.place target) = some (.file contents)

/-- It is there after the copy of these entries: they write its contents to its
place last, or write nothing there and it was there already. -/
def Arrives (steps : List CopyStep) (entry : PackageEntry) : Prop :=
  ∀ contents, entry.link = none → entry.node = some (.file contents) →
    lastWritten target (entry.place target) steps = some contents ∨
      lastWritten target (entry.place target) steps = none ∧
        disk.node (entry.place target) = some (.file contents)

/-- The copy of these entries leaves the target directory as it is. -/
structure Unchanged (steps : List CopyStep) : Prop where
  file : ∀ place, Below target place → ∀ bytes, lastWritten target place steps = some bytes →
    disk.node place = some (.file bytes)
  directory : ∀ step ∈ steps, step.entry.node = some .directory → step.faults.copyFails = false →
    ∀ place ∈ trail target step.entry.resolved, Below target place → disk.node place ≠ none

end Disk

namespace DSPManager

/-- The copy of these entries, one after the other. -/
def copyAll (cwd : Place) (targetDir : String) :
    List CopyStep → Disk ByteBuffer → List (Op ByteBuffer)
  | [], _ => []
  | step :: steps, disk =>
    (copyEntry cwd targetDir step disk).1 ++
      copyAll cwd targetDir steps (disk.run (copyEntry cwd targetDir step disk).1)

section Copy

variable {cwd : Place} {targetDir : String} {disk : Disk ByteBuffer} {step : CopyStep}
  {steps : List CopyStep} {place : Place}

theorem components_append_ne_nil (path : String) (relative : List String) :
    components path ++ relative ≠ [] := by
  simp [components, List.splitOn_ne_nil]

theorem copyEntry_reports (step : CopyStep) (disk : Disk ByteBuffer) :
    (copyEntry cwd targetDir step disk).2 = step.reports := by
  rw [copyEntry, CopyStep.reports]
  split
  · rename_i hnode
    rw [hnode, Option.isSome_some, Bool.and_true, makeBelow]
    cases hfails : step.faults.copyFails with
    | true =>
      rw [createDirectories_fails (components_append_ne_nil _ _) rfl]
      rfl
    | false =>
      simp only [Bool.not_eq_false']
      exact createDirectories_total fun _ => rfl
  · rename_i contents hnode
    rw [hnode, Option.isSome_some, Bool.and_true]
    split <;> simp_all
  · rename_i hnode
    rw [hnode, Option.isSome_none, Bool.and_false]

/-- The loop copies the attempted entries. -/
theorem copyEntries_eq (steps : List CopyStep) (disk : Disk ByteBuffer) :
    copyEntries cwd targetDir false steps disk
      = (copyAll cwd targetDir (attempted steps).1 disk, (attempted steps).2) := by
  induction steps generalizing disk with
  | nil => rfl
  | cons step steps ih =>
    simp only [copyEntries, attempted, copyEntry_reports, Bool.false_eq_true, if_false]
    split_ifs with hexamine hadvance hreports
    · rfl
    · simp [copyAll]
    · cases steps <;> simp [copyAll, copyEntries, hreports]
    · simp only [Bool.not_eq_true] at hreports
      simp [copyAll, hreports, ih]

/-! ## One entry -/

theorem copyEntry_ops {op : Op ByteBuffer} (h : op ∈ (copyEntry cwd targetDir step disk).1) :
    (step.entry.node = some .directory ∧ step.faults.copyFails = false ∧
      ∃ made ∈ trail (start cwd targetDir) (components targetDir ++ step.entry.resolved),
        op = .makeDirectory made ∧ disk.node made = none) ∨
      ∃ bytes, step.written = some bytes ∧
        op = .writeFile (step.entry.dest (resolve cwd targetDir)) bytes := by
  rw [copyEntry] at h
  split at h
  · rename_i hnode
    cases hfails : step.faults.copyFails with
    | true =>
      rw [hfails, makeBelow, createDirectories_fails (components_append_ne_nil _ _) rfl] at h
      cases h
    | false => exact .inl ⟨hnode, rfl, createDirectories_makes h⟩
  · rename_i contents hnode
    rw [CopyStep.written, hnode]
    split_ifs at h with hfails
    · simp only [List.mem_map, Option.mem_toList] at h
      obtain ⟨left, hleft, rfl⟩ := h
      exact .inr ⟨left, by simp [hfails, hleft], rfl⟩
    · exact .inr ⟨contents, by simp [hfails], List.mem_singleton.mp h⟩
  · cases h

theorem copyEntry_taken (h : disk.node place ≠ none) (step : CopyStep) :
    (disk.run (copyEntry cwd targetDir step disk).1).node place ≠ none := by
  apply run_taken _ h
  intro op hop dir
  rcases copyEntry_ops hop with ⟨-, -, made, -, rfl, -⟩ | ⟨bytes, -, rfl⟩ <;> simp

theorem copyEntry_written {bytes : ByteBuffer} (h : step.written = some bytes) :
    (disk.run (copyEntry cwd targetDir step disk).1).node
      (step.entry.dest (resolve cwd targetDir)) = some (.file bytes) := by
  rw [CopyStep.written] at h
  split at h
  · rename_i contents hnode
    rw [copyEntry, hnode]
    split_ifs at h with hfails
    · simp [hfails, h]
    · cases h
      simp [hfails]
  · cases h

/-- A file is at a place after the copy of an entry that writes it there, or was
there before an entry that writes nothing there. -/
theorem copyEntry_file {contents : ByteBuffer} :
    (disk.run (copyEntry cwd targetDir step disk).1).node place = some (.file contents) ↔
      step.writtenAt (resolve cwd targetDir) place = some contents ∨
        step.writtenAt (resolve cwd targetDir) place = none ∧
          disk.node place = some (.file contents) := by
  cases hwritten : step.writtenAt (resolve cwd targetDir) place with
  | some bytes =>
    rw [CopyStep.writtenAt] at hwritten
    split_ifs at hwritten with hplace
    rw [← hplace, copyEntry_written hwritten]
    simp
  | none =>
    have hother : ∀ bytes, step.written = some bytes →
        place ≠ step.entry.dest (resolve cwd targetDir) := by
      rintro bytes hbytes rfl
      rw [CopyStep.writtenAt, if_pos rfl, hbytes] at hwritten
      cases hwritten
    simp only [reduceCtorEq, true_and, false_or]
    constructor
    · refine run_file fun op hop c => ?_
      rcases copyEntry_ops hop with ⟨-, -, made, -, rfl, -⟩ | ⟨bytes, hbytes, rfl⟩
      · simp
      · rintro ⟨⟩
        exact hother _ hbytes rfl
    · intro hfile
      rw [run_of_not_touches, hfile]
      intro op hop
      rcases copyEntry_ops hop with ⟨-, -, made, -, rfl, hmissing⟩ | ⟨bytes, hbytes, rfl⟩
      · rintro rfl
        rw [hmissing] at hfile
        cases hfile
      · exact hother bytes hbytes

/-- The directories of a directory entry. -/
theorem copyEntry_directory (hnode : step.entry.node = some .directory)
    (hfails : step.faults.copyFails = false)
    (hplace : place ∈ trail (resolve cwd targetDir) step.entry.resolved) :
    (disk.run (copyEntry cwd targetDir step disk).1).node place ≠ none := by
  rw [copyEntry, hnode]
  apply createDirectories_done
  · exact createDirectories_total fun _ => hfails
  · rw [trail_append, List.mem_append]
    exact .inr hplace

/-! ## All entries -/

theorem lastWritten_eq_none {target : Place} :
    lastWritten target place steps = none ↔
      ∀ step ∈ steps, ∀ bytes, step.written = some bytes → place ≠ step.entry.dest target := by
  induction steps with
  | nil => simp [lastWritten]
  | cons step steps ih =>
    rw [lastWritten, Option.or_eq_none_iff, ih, List.forall_mem_cons, and_comm]
    refine and_congr_left fun _ => ?_
    rw [CopyStep.writtenAt]
    split_ifs with hplace
    · rw [← hplace, Option.eq_none_iff_forall_ne_some]
      exact forall_congr' fun bytes =>
        ⟨fun h hbytes => absurd hbytes h, fun h hbytes => h hbytes rfl⟩
    · simpa using fun _ _ => Ne.symm hplace

theorem copyAll_ops {op : Op ByteBuffer} (h : op ∈ copyAll cwd targetDir steps disk) :
    ∃ step ∈ steps,
      (step.entry.node = some .directory ∧ step.faults.copyFails = false ∧
        ∃ made ∈ trail (start cwd targetDir) (components targetDir ++ step.entry.resolved),
          op = .makeDirectory made) ∨
        ∃ bytes, step.written = some bytes ∧
          op = .writeFile (step.entry.dest (resolve cwd targetDir)) bytes := by
  induction steps generalizing disk with
  | nil => cases h
  | cons step steps ih =>
    rw [copyAll, List.mem_append] at h
    rcases h with h | h
    · refine ⟨step, by simp, (copyEntry_ops h).imp_left ?_⟩
      rintro ⟨hnode, hfails, made, hmade, hop, -⟩
      exact ⟨hnode, hfails, made, hmade, hop⟩
    · obtain ⟨other, hother, hop⟩ := ih h
      exact ⟨other, List.mem_cons_of_mem _ hother, hop⟩

theorem copyAll_taken (h : disk.node place ≠ none) (steps : List CopyStep) :
    (disk.run (copyAll cwd targetDir steps disk)).node place ≠ none := by
  induction steps generalizing disk with
  | nil => exact h
  | cons step steps ih =>
    rw [copyAll, run_append]
    exact ih (copyEntry_taken h step)

/-- The last entry that writes to a place decides which file is there. -/
theorem copyAll_file {contents : ByteBuffer} :
    (disk.run (copyAll cwd targetDir steps disk)).node place = some (.file contents) ↔
      lastWritten (resolve cwd targetDir) place steps = some contents ∨
        lastWritten (resolve cwd targetDir) place steps = none ∧
          disk.node place = some (.file contents) := by
  induction steps generalizing disk with
  | nil => simp [copyAll, lastWritten]
  | cons step steps ih =>
    rw [copyAll, run_append, ih, copyEntry_file, lastWritten]
    cases lastWritten (resolve cwd targetDir) place steps <;> simp

theorem copyAll_directory (hstep : step ∈ steps) (hnode : step.entry.node = some .directory)
    (hfails : step.faults.copyFails = false)
    (hplace : place ∈ trail (resolve cwd targetDir) step.entry.resolved) :
    (disk.run (copyAll cwd targetDir steps disk)).node place ≠ none := by
  induction steps generalizing disk with
  | nil => cases hstep
  | cons first steps ih =>
    rw [copyAll, run_append]
    rcases List.mem_cons.mp hstep with rfl | hstep
    · exact copyAll_taken (copyEntry_directory hnode hfails hplace) steps
    · exact ih hstep

theorem copyAll_other (h : ∀ step ∈ steps, ∀ bytes, step.written = some bytes →
      place ≠ step.entry.dest (resolve cwd targetDir))
    (htaken : disk.node place ≠ none) :
    (disk.run (copyAll cwd targetDir steps disk)).node place = disk.node place := by
  induction steps generalizing disk with
  | nil => rfl
  | cons step steps ih =>
    have hstep : (disk.run (copyEntry cwd targetDir step disk).1).node place = disk.node place := by
      apply run_of_not_touches
      intro op hop
      rcases copyEntry_ops hop with ⟨-, -, made, -, rfl, hmissing⟩ | ⟨bytes, hwritten, rfl⟩
      · rintro rfl
        exact htaken hmissing
      · exact h step (by simp) bytes hwritten
    rw [copyAll, run_append, ih fun s hs => h s (by simp [hs])]
    · exact hstep
    · rwa [hstep]

/-- A free place that no entry is for stays free. -/
theorem copyAll_free (h : ∀ step ∈ steps, ∀ bytes, step.written = some bytes →
      place ≠ step.entry.dest (resolve cwd targetDir))
    (hdirectory : ∀ step ∈ steps, step.entry.node = some .directory →
      step.faults.copyFails = false → place ∉ trail (resolve cwd targetDir) step.entry.resolved)
    (htarget : place ∉ trail (start cwd targetDir) (components targetDir)) :
    (disk.run (copyAll cwd targetDir steps disk)).node place = disk.node place := by
  apply run_of_not_touches
  intro op hop
  obtain ⟨step, hstep, ⟨hnode, hfails, made, hmade, rfl⟩ | ⟨bytes, hwritten, rfl⟩⟩ :=
    copyAll_ops hop
  · rintro rfl
    rw [trail_append, List.mem_append] at hmade
    exact hmade.elim htarget (hdirectory step hstep hnode hfails)
  · exact h step hstep bytes hwritten

/-! ## What is there after the copy -/

/-- The copy changes nothing below the target directory exactly if it writes only
files that are there already, and makes only directories that are. -/
theorem copyAll_nothing_iff
    (htaken : ∀ place ∈ trail (start cwd targetDir) (components targetDir),
      disk.node place ≠ none) :
    (∀ place, Below (resolve cwd targetDir) place →
      (disk.run (copyAll cwd targetDir steps disk)).node place = none ∨
        (disk.run (copyAll cwd targetDir steps disk)).node place = disk.node place) ↔
      Unchanged disk (resolve cwd targetDir) steps := by
  constructor
  · intro h
    constructor
    · intro place hbelow bytes hwritten
      have hfile : (disk.run (copyAll cwd targetDir steps disk)).node place = some (.file bytes) :=
        copyAll_file.mpr (.inl hwritten)
      rcases h place hbelow with hnone | hsame
      · rw [hfile] at hnone
        cases hnone
      · rw [← hsame, hfile]
    · intro step hstep hnode hfails place hplace hbelow hfree
      have hmade : (disk.run (copyAll cwd targetDir steps disk)).node place ≠ none :=
        copyAll_directory hstep hnode hfails hplace
      rcases h place hbelow with hnone | hsame
      · exact hmade hnone
      · exact hmade (hsame.trans hfree)
  · intro h place hbelow
    right
    cases hwritten : lastWritten (resolve cwd targetDir) place steps with
    | some bytes => rw [h.file place hbelow bytes hwritten, copyAll_file.mpr (.inl hwritten)]
    | none =>
      rw [lastWritten_eq_none] at hwritten
      by_cases hfree : disk.node place = none
      · apply copyAll_free hwritten
        · intro step hstep hnode hfails hplace
          exact h.directory step hstep hnode hfails place hplace hbelow hfree
        · exact fun hplace => htaken place hplace hfree
      · exact copyAll_other hwritten hfree

theorem held_copyAll_iff {entry : PackageEntry} :
    Held (disk.run (copyAll cwd targetDir steps disk)) (resolve cwd targetDir) entry ↔
      Arrives disk (resolve cwd targetDir) steps entry :=
  forall_congr' fun _ => forall₂_congr fun _ _ => copyAll_file

/-! ## Plain packages -/

theorem below_place (entry : PackageEntry) (target : Place) : Below target (entry.place target) :=
  ⟨List.prefix_append _ _, by simpa [PackageEntry.place] using entry.nonempty⟩

theorem place_inj {entry entry' : PackageEntry} {target : Place}
    (h : entry.place target = entry'.place target) : entry.relative = entry'.relative :=
  List.append_cancel_left h

/-- Without symbolic links no two entries have one place. -/
theorem lastWritten_of_plain {target : Place} (hplain : ∀ s ∈ steps, s.entry.link = none)
    (hdistinct : (steps.map (·.entry.relative)).Nodup) (hstep : step ∈ steps) {bytes : ByteBuffer}
    (hwritten : step.written = some bytes) :
    lastWritten target (step.entry.place target) steps = some bytes := by
  induction steps with
  | nil => cases hstep
  | cons first steps ih =>
    rw [List.map_cons, List.nodup_cons] at hdistinct
    rw [List.forall_mem_cons] at hplain
    rw [lastWritten]
    rcases List.mem_cons.mp hstep with rfl | hstep
    · have hrest : lastWritten target (step.entry.place target) steps = none := by
        rw [lastWritten_eq_none]
        intro other hother _ _ hplace
        rw [PackageEntry.dest_plain (hplain.2 other hother)] at hplace
        exact hdistinct.1 (List.mem_map.mpr ⟨other, hother, (place_inj hplace).symm⟩)
      rw [hrest, Option.none_or, CopyStep.writtenAt,
        if_pos (PackageEntry.dest_plain hplain.1 target),
        hwritten]
    · rw [ih hplain.2 hdistinct.2 hstep, Option.some_or]

end Copy

end DSPManager

end MBootCore
