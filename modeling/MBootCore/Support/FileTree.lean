import MBootCore.Support.LexicalPath

/-!
# Support — FileTree

A file system as a map from places to what lies there, the effects of the calls
that change it, and the making of all missing directories on a path.
-/

namespace FileTree

open LexicalPath

variable {α : Type}

inductive Node (α : Type) where
  | directory
  | file (contents : α)
  deriving DecidableEq, Repr

structure Disk (α : Type) where
  node : Place → Option (Node α)

inductive Op (α : Type) where
  | makeDirectory (dir : Place)
  | writeFile (file : Place) (contents : α)
  | removeAll (dir : Place)
  deriving DecidableEq, Repr

/-- The place the effect is about. -/
def Op.place : Op α → Place
  | makeDirectory dir => dir
  | writeFile file _ => file
  | removeAll dir => dir

/-- The places at which an effect may change something. -/
def Op.Touches : Op α → Place → Prop
  | makeDirectory dir, place => place = dir
  | writeFile file _, place => place = file
  | removeAll dir, place => dir <+: place

def Disk.perform (disk : Disk α) : Op α → Disk α
  | .makeDirectory dir => ⟨fun place => if place = dir then some .directory else disk.node place⟩
  | .writeFile file contents =>
    ⟨fun place => if place = file then some (.file contents) else disk.node place⟩
  | .removeAll dir => ⟨fun place => if dir <+: place then none else disk.node place⟩

def Disk.run (disk : Disk α) (ops : List (Op α)) : Disk α := ops.foldl Disk.perform disk

/-- All missing directories on the way along the names are made, unless the step of
one of them fails: a file in its place is one reason. What is done, and whether all
of it was. -/
def createDirectories (fails : Nat → Bool) (disk : Disk α) :
    Nat → Place → List String → List (Op α) × Bool
  | _, _, [] => ([], true)
  | i, dir, name :: names =>
    if fails i then ([], false)
    else if (disk.node (enter dir name)).isSome then
      createDirectories fails disk (i + 1) (enter dir name) names
    else
      let rest := createDirectories fails (disk.perform (.makeDirectory (enter dir name))) (i + 1)
        (enter dir name) names
      (.makeDirectory (enter dir name) :: rest.1, rest.2)

/-! ## Effects -/

variable {disk : Disk α} {op : Op α} {ops : List (Op α)} {place dir : Place}

@[simp] theorem run_nil (disk : Disk α) : disk.run [] = disk := rfl

@[simp] theorem run_cons (disk : Disk α) (op : Op α) (ops : List (Op α)) :
    disk.run (op :: ops) = (disk.perform op).run ops := rfl

theorem run_append (disk : Disk α) (ops ops' : List (Op α)) :
    disk.run (ops ++ ops') = (disk.run ops).run ops' := List.foldl_append

theorem perform_of_not_touches (h : ¬ op.Touches place) :
    (disk.perform op).node place = disk.node place := by
  cases op with
  | makeDirectory _ => exact if_neg h
  | writeFile _ _ => exact if_neg h
  | removeAll _ => exact if_neg h

theorem run_of_not_touches (h : ∀ op ∈ ops, ¬ op.Touches place) :
    (disk.run ops).node place = disk.node place := by
  induction ops generalizing disk with
  | nil => rfl
  | cons op ops ih =>
    rw [run_cons, ih fun o ho => h o (by simp [ho]), perform_of_not_touches (h op (by simp))]

@[simp] theorem perform_makeDirectory (disk : Disk α) (dir place : Place) :
    (disk.perform (.makeDirectory dir)).node place
      = if place = dir then some .directory else disk.node place := rfl

@[simp] theorem perform_writeFile (disk : Disk α) (file : Place) (contents : α) (place : Place) :
    (disk.perform (.writeFile file contents)).node place
      = if place = file then some (.file contents) else disk.node place := rfl

@[simp] theorem perform_removeAll (disk : Disk α) (dir place : Place) :
    (disk.perform (.removeAll dir)).node place
      = if dir <+: place then none else disk.node place := rfl

/-- Without a removal what is taken stays taken. -/
theorem run_taken (hops : ∀ op ∈ ops, ∀ dir, op ≠ .removeAll dir) (h : disk.node place ≠ none) :
    (disk.run ops).node place ≠ none := by
  induction ops generalizing disk with
  | nil => exact h
  | cons op ops ih =>
    rw [run_cons]
    apply ih fun o ho => hops o (by simp [ho])
    cases op with
    | makeDirectory dir =>
      rw [perform_makeDirectory]
      split <;> simp [h]
    | writeFile file contents =>
      rw [perform_writeFile]
      split <;> simp [h]
    | removeAll dir => exact absurd rfl (hops _ (by simp) dir)

/-- A directory that was made is there. -/
theorem run_made (hops : ∀ op ∈ ops, ∀ removed, op ≠ .removeAll removed)
    (h : Op.makeDirectory dir ∈ ops) : (disk.run ops).node dir ≠ none := by
  induction ops generalizing disk with
  | nil => cases h
  | cons op ops ih =>
    rw [run_cons]
    have hrest : ∀ o ∈ ops, ∀ removed, o ≠ .removeAll removed := fun o ho => hops o (by simp [ho])
    rcases List.mem_cons.mp h with rfl | h
    · exact run_taken hrest (by simp)
    · exact ih hrest h

/-- A file that was not written was there before. -/
theorem run_file {contents : α} (hops : ∀ op ∈ ops, ∀ c, op ≠ .writeFile place c)
    (h : (disk.run ops).node place = some (.file contents)) :
    disk.node place = some (.file contents) := by
  induction ops generalizing disk with
  | nil => exact h
  | cons op ops ih =>
    have hperform := ih (fun o ho => hops o (by simp [ho])) h
    cases op with
    | makeDirectory dir =>
      rw [perform_makeDirectory] at hperform
      split at hperform
      · cases hperform
      · exact hperform
    | writeFile file c =>
      rw [perform_writeFile, if_neg] at hperform
      · exact hperform
      · rintro rfl
        exact hops _ (by simp) c rfl
    | removeAll dir =>
      rw [perform_removeAll] at hperform
      split at hperform
      · cases hperform
      · exact hperform

/-! ## Missing directories -/

variable {fails : Nat → Bool} {i : Nat} {names : List String}

/-- Each step makes a directory that is missing, on the way. -/
theorem createDirectories_makes (h : op ∈ (createDirectories fails disk i dir names).1) :
    ∃ made ∈ trail dir names, op = .makeDirectory made ∧ disk.node made = none := by
  induction names generalizing disk i dir with
  | nil => cases h
  | cons name names ih =>
    rw [createDirectories] at h
    split_ifs at h with hfails htaken
    · cases h
    · obtain ⟨made, hmade, hop⟩ := ih h
      exact ⟨made, List.mem_cons_of_mem _ hmade, hop⟩
    · have hnone : disk.node (enter dir name) = none := by simpa using htaken
      rcases List.mem_cons.mp h with rfl | h
      · exact ⟨enter dir name, by simp, rfl, hnone⟩
      · obtain ⟨made, hmade, hop, hmissing⟩ := ih h
        rw [perform_makeDirectory] at hmissing
        split at hmissing
        · cases hmissing
        · exact ⟨made, List.mem_cons_of_mem _ hmade, hop, hmissing⟩

/-- What is there already is left as it is. -/
theorem createDirectories_keeps (h : disk.node place ≠ none) :
    (disk.run (createDirectories fails disk i dir names).1).node place = disk.node place := by
  apply run_of_not_touches
  intro op hop
  obtain ⟨made, -, rfl, hmissing⟩ := createDirectories_makes hop
  rintro rfl
  exact h hmissing

/-- If all of it was done, everything on the way is there. -/
theorem createDirectories_done (h : (createDirectories fails disk i dir names).2 = true)
    (hplace : place ∈ trail dir names) :
    (disk.run (createDirectories fails disk i dir names).1).node place ≠ none := by
  induction names generalizing disk i dir with
  | nil => cases hplace
  | cons name names ih =>
    rw [createDirectories] at h ⊢
    split_ifs at h ⊢ with hfails htaken
    · rcases List.mem_cons.mp hplace with rfl | hplace
      · rw [createDirectories_keeps] <;> simpa [Option.isSome_iff_ne_none] using htaken
      · exact ih h hplace
    · rw [run_cons]
      rcases List.mem_cons.mp hplace with rfl | hplace
      · rw [createDirectories_keeps] <;> simp
      · exact ih h hplace

/-- Nothing can go wrong where no step fails. -/
theorem createDirectories_total (hfails : ∀ i, fails i = false) :
    (createDirectories fails disk i dir names).2 = true := by
  induction names generalizing disk i dir with
  | nil => rfl
  | cons name names ih =>
    rw [createDirectories, if_neg (by simp [hfails])]
    split
    · exact ih
    · exact ih

/-- Nothing is done where the first step fails. -/
theorem createDirectories_fails (hnames : names ≠ []) (hfails : fails i = true) :
    createDirectories fails disk i dir names = ([], false) := by
  cases names with
  | nil => exact absurd rfl hnames
  | cons name names => rw [createDirectories, if_pos hfails]

end FileTree
