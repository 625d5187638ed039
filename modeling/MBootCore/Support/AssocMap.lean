/-!
# AssocMap — maps as lists of entries

A map whose order does not matter, as the list of its entries, one for each key.
An insertion replaces the entry of its key, or else adds one at the end. Inserting
the entries of a map one after another into an empty map gives the map
(`foldl_insert_empty`), and into the map itself changes nothing
(`foldl_insert_self`).
-/

namespace MBootCore

structure AssocMap (α β : Type) where
  entries : List (α × β)
  nodup : (entries.map (·.1)).Nodup

namespace AssocMap

section Entries
variable {α β : Type} [DecidableEq α] {k : α} {v : β} {entries : List (α × β)}

def insertEntry (k : α) (v : β) : List (α × β) → List (α × β)
  | [] => [(k, v)]
  | e :: rest => if e.1 = k then (k, v) :: rest else e :: insertEntry k v rest

theorem keys_insertEntry {k' : α} (h : k' ∈ (insertEntry k v entries).map (·.1)) :
    k' = k ∨ k' ∈ entries.map (·.1) := by
  induction entries with
  | nil => exact .inl (List.mem_singleton.mp h)
  | cons e rest ih =>
    rw [insertEntry] at h
    split at h
    · rename_i hkey
      rw [List.map_cons, List.mem_cons] at h ⊢
      rcases h with rfl | hrest
      · exact .inl rfl
      · exact .inr (.inr hrest)
    · rw [List.map_cons, List.mem_cons] at h ⊢
      rcases h with rfl | hrest
      · exact .inr (.inl rfl)
      · exact (ih hrest).imp_right .inr

theorem nodup_insertEntry (h : (entries.map (·.1)).Nodup) :
    ((insertEntry k v entries).map (·.1)).Nodup := by
  induction entries with
  | nil => exact List.nodup_cons.mpr ⟨by simp, .nil⟩
  | cons e rest ih =>
    obtain ⟨hfresh, hrest⟩ := List.nodup_cons.mp h
    rw [insertEntry]
    split
    · rename_i hkey
      exact List.nodup_cons.mpr ⟨hkey ▸ hfresh, hrest⟩
    · rename_i hkey
      refine List.nodup_cons.mpr ⟨fun hmem => ?_, ih hrest⟩
      rcases keys_insertEntry hmem with heq | hmem
      · exact hkey heq
      · exact hfresh hmem

theorem insertEntry_fresh (h : k ∉ entries.map (·.1)) :
    insertEntry k v entries = entries ++ [(k, v)] := by
  induction entries with
  | nil => rfl
  | cons e rest ih =>
    rw [List.map_cons, List.mem_cons, not_or] at h
    rw [insertEntry, if_neg fun heq => h.1 heq.symm, ih h.2, List.cons_append]

theorem foldl_insertEntry {acc : List (α × β)} (h : ((acc ++ entries).map (·.1)).Nodup) :
    entries.foldl (fun acc e => insertEntry e.1 e.2 acc) acc = acc ++ entries := by
  induction entries generalizing acc with
  | nil => simp
  | cons e rest ih =>
    have hfresh : e.1 ∉ acc.map (·.1) := by
      intro hmem
      rw [List.map_append, List.nodup_append] at h
      exact h.2.2 e.1 hmem e.1 List.mem_cons_self rfl
    rw [List.foldl_cons, insertEntry_fresh hfresh, ih (by simpa using h)]
    simp

theorem insertEntry_mem (h : (entries.map (·.1)).Nodup) (hmem : (k, v) ∈ entries) :
    insertEntry k v entries = entries := by
  induction entries with
  | nil => cases hmem
  | cons e rest ih =>
    obtain ⟨hfresh, hrest⟩ := List.nodup_cons.mp h
    rw [insertEntry]
    rcases List.mem_cons.mp hmem with rfl | hmem
    · rw [if_pos rfl]
    · have hne : e.1 ≠ k := by
        rintro rfl
        exact hfresh (List.mem_map.mpr ⟨_, hmem, rfl⟩)
      rw [if_neg hne, ih hrest hmem]

end Entries

variable {α β : Type}

theorem ext {m m' : AssocMap α β} (h : m.entries = m'.entries) : m = m' := by
  cases m
  cases m'
  cases h
  rfl

instance [DecidableEq α] [DecidableEq β] : DecidableEq (AssocMap α β) := fun m m' =>
  decidable_of_iff (m.entries = m'.entries) ⟨ext, congrArg entries⟩

def empty : AssocMap α β where
  entries := []
  nodup := .nil

variable [DecidableEq α]

def insert (k : α) (v : β) (m : AssocMap α β) : AssocMap α β where
  entries := insertEntry k v m.entries
  nodup := nodup_insertEntry m.nodup

theorem entries_foldl_insert (entries : List (α × β)) (m : AssocMap α β) :
    (entries.foldl (fun m e => m.insert e.1 e.2) m).entries
      = entries.foldl (fun acc e => insertEntry e.1 e.2 acc) m.entries := by
  induction entries generalizing m with
  | nil => rfl
  | cons e rest ih =>
    rw [List.foldl_cons, ih, List.foldl_cons]
    rfl

theorem foldl_insert_empty (m : AssocMap α β) :
    m.entries.foldl (fun m e => m.insert e.1 e.2) empty = m := by
  apply ext
  rw [entries_foldl_insert, empty, foldl_insertEntry (by simpa using m.nodup), List.nil_append]

theorem foldl_insert_self (m : AssocMap α β) :
    m.entries.foldl (fun m e => m.insert e.1 e.2) m = m := by
  suffices hsub : ∀ entries : List (α × β), (∀ e ∈ entries, e ∈ m.entries) →
      entries.foldl (fun m e => m.insert e.1 e.2) m = m from hsub _ fun _ h => h
  intro entries hsub
  induction entries with
  | nil => rfl
  | cons e rest ih =>
    obtain ⟨he, hrest⟩ := List.forall_mem_cons.mp hsub
    have hsame : m.insert e.1 e.2 = m := ext (insertEntry_mem m.nodup he)
    rw [List.foldl_cons, hsame, ih hrest]

end AssocMap

end MBootCore
