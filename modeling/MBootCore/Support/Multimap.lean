import Mathlib.Data.List.Basic
import Mathlib.Data.List.Perm.Basic

/-!
# Multimap — indexes of a collection

A multimap as the list of its entries, in the order of a walk over it. `Indexes keys objects m`
says that `m` is the index of `objects` by `keys`: an object has an entry for each of its keys,
perhaps several times, and there is no other entry. Adding an object and rearranging the
entries keep it, and `equalRange` then finds the objects that have the key.
-/

namespace MBootCore

abbrev Multimap (κ α : Type) : Type := List (κ × α)

namespace Multimap

variable {κ α : Type}

def equalRange [DecidableEq κ] (m : Multimap κ α) (k : κ) : List α :=
  (m.filter (·.1 = k)).map (·.2)

def Indexes (keys : α → List κ) (objects : List α) (m : Multimap κ α) : Prop :=
  ∀ k a, (k, a) ∈ m ↔ a ∈ objects ∧ k ∈ keys a

theorem mem_equalRange [DecidableEq κ] {m : Multimap κ α} {k : κ} {a : α} :
    a ∈ m.equalRange k ↔ (k, a) ∈ m := by
  rw [equalRange, List.mem_map]
  constructor
  · rintro ⟨⟨k', a'⟩, hmem, rfl⟩
    rw [List.mem_filter, decide_eq_true_eq] at hmem
    obtain ⟨hmem, rfl⟩ := hmem
    exact hmem
  · intro hmem
    exact ⟨(k, a), List.mem_filter.mpr ⟨hmem, decide_eq_true rfl⟩, rfl⟩

namespace Indexes

variable {keys : α → List κ} {objects : List α} {m : Multimap κ α}

theorem empty (keys : α → List κ) : Indexes keys [] [] := by
  intro k a
  simp

theorem mem_equalRange [DecidableEq κ] (h : Indexes keys objects m) {k : κ} {a : α} :
    a ∈ m.equalRange k ↔ a ∈ objects ∧ k ∈ keys a :=
  Multimap.mem_equalRange.trans (h k a)

/-- Entries for the keys of an object, which may be new. -/
theorem append (h : Indexes keys objects m) {objects' : List α} {a : α}
    (hobjects : ∀ b, b ∈ objects' ↔ b ∈ objects ∨ b = a) :
    Indexes keys objects' (m ++ (keys a).map (·, a)) := by
  intro k b
  rw [List.mem_append, h k b, hobjects, List.mem_map]
  constructor
  · rintro (⟨hb, hk⟩ | ⟨k', hk', heq⟩)
    · exact ⟨.inl hb, hk⟩
    · cases heq
      exact ⟨.inr rfl, hk'⟩
  · rintro ⟨hb | rfl, hk⟩
    · exact .inl ⟨hb, hk⟩
    · exact .inr ⟨k, hk, rfl⟩

theorem perm (h : Indexes keys objects m) {objects' : List α} {m' : Multimap κ α}
    (hobjects : objects'.Perm objects) (hm : m'.Perm m) : Indexes keys objects' m' := by
  intro k a
  rw [hm.mem_iff, hobjects.mem_iff]
  exact h k a

end Indexes

end Multimap

end MBootCore
