import MBootCore.Support.FileTree
import Mathlib.Data.List.AList

/-!
# Support — PathTree

The finite contents of one directory: what lies at each of the places below it.
Directories are entries of their own. Copying one tree over another replaces the
files of the second by those of the first and keeps the others; it is refused where
a file would take the place of a directory, or a directory that of a file.
-/

namespace PathTree

open LexicalPath FileTree

variable {α : Type}

abbrev Tree (α : Type) : Type := AList fun _ : Place => Node α

/-- The entries of a tree, or some of them, in their order. -/
abbrev Entries (α : Type) : Type := List (Sigma fun _ : Place => Node α)

def write (place : Place) (contents : α) (tree : Tree α) : Option (Tree α) :=
  match tree.lookup place with
  | some .directory => none
  | _ => some (tree.insert place (.file contents))

def makeDirectory (place : Place) (tree : Tree α) : Option (Tree α) :=
  match tree.lookup place with
  | some .directory => some tree
  | some (.file _) => none
  | none => some (tree.insert place .directory)

def copyEntry (entry : Sigma fun _ : Place => Node α) (tree : Tree α) : Option (Tree α) :=
  match entry.2 with
  | .directory => makeDirectory entry.1 tree
  | .file contents => write entry.1 contents tree

def copyEntries : Entries α → Tree α → Option (Tree α)
  | [], tree => some tree
  | entry :: entries, tree => (copyEntry entry tree).bind (copyEntries entries)

/-- The entries that are files. -/
def files (entries : Entries α) : List (Place × α) :=
  entries.filterMap fun entry =>
    match entry.2 with
    | .directory => none
    | .file contents => some (entry.1, contents)

/-! ## What is found afterwards -/

variable {tree tree' : Tree α} {place q : Place} {contents : α}

theorem lookup_write (h : write place contents tree = some tree') (q : Place) :
    tree'.lookup q = if q = place then some (.file contents) else tree.lookup q := by
  rw [write] at h
  have hinsert : tree.insert place (.file contents) = tree' := by
    split at h
    · cases h
    · exact Option.some.inj h
  rw [← hinsert]
  split
  · rename_i hq
    rw [hq, AList.lookup_insert]
  · rename_i hq
    rw [AList.lookup_insert_ne hq]

theorem lookup_makeDirectory (h : makeDirectory place tree = some tree') (q : Place) :
    tree'.lookup q = if q = place then some .directory else tree.lookup q := by
  rw [makeDirectory] at h
  split at h
  · rename_i hfound
    cases h
    split
    · rename_i hq
      rw [hq, hfound]
    · rfl
  · cases h
  · cases h
    split
    · rename_i hq
      rw [hq, AList.lookup_insert]
    · rename_i hq
      rw [AList.lookup_insert_ne hq]

theorem lookup_copyEntry {entry : Sigma fun _ : Place => Node α}
    (h : copyEntry entry tree = some tree') (q : Place) :
    tree'.lookup q = if q = entry.1 then some entry.2 else tree.lookup q := by
  obtain ⟨place, node⟩ := entry
  cases node with
  | directory => exact lookup_makeDirectory h q
  | file contents => exact lookup_write h q

/-- What was copied is found, and what was there before everywhere else. -/
theorem lookup_copyEntries {entries : Entries α} (hkeys : entries.NodupKeys)
    (h : copyEntries entries tree = some tree') (q : Place) :
    tree'.lookup q = (entries.dlookup q).or (tree.lookup q) := by
  induction entries generalizing tree with
  | nil =>
    cases h
    rw [List.dlookup_nil, Option.none_or]
  | cons entry entries ih =>
    obtain ⟨tree₁, hentry, hrest⟩ := Option.bind_eq_some_iff.mp h
    obtain ⟨place, node⟩ := entry
    obtain ⟨hnew, hkeys⟩ := List.nodupKeys_cons.mp hkeys
    rw [ih hkeys hrest, lookup_copyEntry hentry]
    by_cases hq : q = place
    · subst hq
      rw [List.dlookup_cons_eq, List.dlookup_eq_none.mpr hnew, if_pos rfl]
      rfl
    · rw [List.dlookup_cons_ne _ _ hq, if_neg hq]

/-- Entries that are in the tree already change nothing of what is found. -/
theorem lookup_copyEntries_again {source : Tree α} {p : (Sigma fun _ : Place => Node α) → Bool}
    (hthere : ∀ place node, source.lookup place = some node → p ⟨place, node⟩ = true →
      tree.lookup place = some node)
    (h : copyEntries (source.entries.filter p) tree = some tree') (q : Place) :
    tree'.lookup q = tree.lookup q := by
  have hkeys : (source.entries.filter p).NodupKeys :=
    source.nodupKeys.sublist List.filter_sublist
  rw [lookup_copyEntries hkeys h]
  cases hfound : (source.entries.filter p).dlookup q with
  | none => rw [Option.none_or]
  | some node =>
    obtain ⟨hmem, hp⟩ := List.mem_filter.mp (List.of_mem_dlookup hfound)
    rw [hthere q node (List.mem_dlookup source.nodupKeys hmem) hp, Option.some_or]

end PathTree
