import Mathlib.Data.List.Sort
import Mathlib.Order.Basic

/-!
# StableSort — lists sorted by a key, the highest first

`IsStableSort key l sorted` says what a stable sort does: no key is followed by a
higher one, and the elements of one key stand as they stood in `l`. `sortBy` is
one, `filter` keeps it, and `first` says which element comes first.
-/

namespace MBootCore

structure IsStableSort {α β : Type} [LinearOrder β] (key : α → β) (l sorted : List α) :
    Prop where
  descending : sorted.Pairwise fun a b => key b ≤ key a
  classes : ∀ k, sorted.filter (fun a => key a = k) = l.filter (fun a => key a = k)

namespace StableSort

variable {α β : Type} [LinearOrder β] (key : α → β)

def NotBelow (a b : α) : Prop := key b ≤ key a

instance : DecidableRel (NotBelow key) := fun a b => inferInstanceAs (Decidable (key b ≤ key a))

instance : IsTrans α (NotBelow key) where
  trans _ _ _ hab hbc := le_trans hbc hab

instance : Std.Total (NotBelow key) where
  total a b := le_total (key b) (key a)

def sortBy (l : List α) : List α := l.insertionSort (NotBelow key)

theorem sortBy_perm (l : List α) : (sortBy key l).Perm l := List.perm_insertionSort _ l

theorem isStableSort_sortBy (l : List α) : IsStableSort key l (sortBy key l) where
  descending := List.pairwise_insertionSort _ l
  classes k := by
    have hclass : (l.filter fun a => key a = k).Pairwise (NotBelow key) := by
      apply List.pairwise_of_forall_mem_list
      intro a ha b hb
      have hka : key a = k := of_decide_eq_true (List.mem_filter.mp ha).2
      have hkb : key b = k := of_decide_eq_true (List.mem_filter.mp hb).2
      exact (hkb.trans hka.symm).le
    have hsub := (List.sublist_insertionSort hclass List.filter_sublist).filter
      fun a => key a = k
    simp only [List.filter_filter, Bool.and_self] at hsub
    exact (hsub.eq_of_length (((sortBy_perm key l).filter _).length_eq).symm).symm

end StableSort

namespace IsStableSort

variable {α β : Type} [LinearOrder β] {key : α → β} {l sorted : List α}

theorem mem_iff (h : IsStableSort key l sorted) {a : α} : a ∈ sorted ↔ a ∈ l := by
  have hclass := congrArg (a ∈ ·) (h.classes (key a))
  simpa using hclass

theorem filter (h : IsStableSort key l sorted) (p : α → Bool) :
    IsStableSort key (l.filter p) (sorted.filter p) where
  descending := h.descending.filter p
  classes k := by
    rw [List.filter_comm, h.classes k, List.filter_comm]

/-- The first element has the highest key, and of those that have it, it is the
first of `l`. -/
theorem first {a : α} {rest : List α} (h : IsStableSort key l (a :: rest)) :
    (∀ b ∈ l, key b ≤ key a) ∧ ∃ others, l.filter (fun b => key b = key a) = a :: others := by
  constructor
  · intro b hb
    rcases List.mem_cons.mp (h.mem_iff.mpr hb) with rfl | hrest
    · exact le_refl _
    · exact (List.pairwise_cons.mp h.descending).1 b hrest
  · rw [← h.classes (key a), List.filter_cons_of_pos (by simp)]
    exact ⟨_, rfl⟩

end IsStableSort

end MBootCore
