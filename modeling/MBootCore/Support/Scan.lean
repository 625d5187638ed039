/-!
# Scan — reading a list up to a delimiter

`takeWhile` and `dropWhile` on a list that is known to be a run of accepted
elements followed by something that ends the run, and deciding a condition
along a list.
-/

namespace MBootCore.Scan

variable {α : Type} {p : α → Bool}

/-- What may follow a run: nothing, or an element that ends it. -/
def Stops (p : α → Bool) (rest : List α) : Prop := ∀ x, rest.head? = some x → p x = false

theorem stops_nil : Stops p [] := by
  intro x h
  cases h

theorem stops_cons {x : α} {rest : List α} (h : p x = false) : Stops p (x :: rest) := by
  intro y hy
  obtain rfl : x = y := by simpa using hy
  exact h

theorem takeWhile_eq_nil {rest : List α} (h : Stops p rest) : rest.takeWhile p = [] := by
  cases rest with
  | nil => rfl
  | cons x rest => simp [h x rfl]

theorem dropWhile_eq_self {rest : List α} (h : Stops p rest) : rest.dropWhile p = rest := by
  cases rest with
  | nil => rfl
  | cons x rest => simp [h x rfl]

theorem takeWhile_run {run rest : List α} (hrun : ∀ x ∈ run, p x = true) (h : Stops p rest) :
    (run ++ rest).takeWhile p = run := by
  rw [List.takeWhile_append_of_pos hrun, takeWhile_eq_nil h, List.append_nil]

theorem dropWhile_run {run rest : List α} (hrun : ∀ x ∈ run, p x = true) (h : Stops p rest) :
    (run ++ rest).dropWhile p = rest := by
  rw [List.dropWhile_append_of_pos hrun, dropWhile_eq_self h]

/-- A quantifier over a list is decided along the list, not over its whole type. -/
scoped instance (priority := 2000) decidableForallMem (p : α → Prop) [DecidablePred p]
    (l : List α) : Decidable (∀ x ∈ l, p x) :=
  List.decidableBAll p l

/-! ## Searching -/

section Find

variable [DecidableEq α] {pattern xs ys found : List α}

/-- What stands in the list from the first place on at which the pattern starts. -/
def find (pattern : List α) : List α → Option (List α)
  | [] => if pattern = [] then some [] else none
  | x :: xs => if pattern.isPrefixOf (x :: xs) then some (x :: xs) else find pattern xs

theorem find_suffix (h : find pattern xs = some found) : found <:+ xs := by
  induction xs with
  | nil =>
    rw [find] at h
    split at h
    · obtain rfl := Option.some.inj h
      exact List.suffix_refl _
    · cases h
  | cons x xs ih =>
    rw [find] at h
    split at h
    · obtain rfl := Option.some.inj h
      exact List.suffix_refl _
    · exact (ih h).trans (List.suffix_cons x xs)

theorem find_starts (h : find pattern xs = some found) : pattern <+: found := by
  induction xs with
  | nil =>
    rw [find] at h
    split at h
    · rename_i hpattern
      rw [hpattern]
      exact List.nil_prefix
    · cases h
  | cons x xs ih =>
    rw [find] at h
    split at h
    · rename_i hstarts
      obtain rfl := Option.some.inj h
      exact List.isPrefixOf_iff_prefix.mp hstarts
    · exact ih h

/-- What is found in a list is found in a longer one. -/
theorem find_append (h : find pattern xs = some found) (hne : pattern ≠ []) (ys : List α) :
    find pattern (xs ++ ys) = some (found ++ ys) := by
  induction xs with
  | nil =>
    rw [find, if_neg hne] at h
    cases h
  | cons x xs ih =>
    have hfits : pattern.length ≤ (x :: xs).length :=
      Nat.le_trans (find_starts h).length_le (find_suffix h).length_le
    have hstarts : pattern.isPrefixOf (x :: (xs ++ ys)) ↔ pattern.isPrefixOf (x :: xs) := by
      rw [List.isPrefixOf_iff_prefix, List.isPrefixOf_iff_prefix, ← List.cons_append]
      constructor
      · exact fun hlonger => List.prefix_of_prefix_length_le hlonger (List.prefix_append _ ys) hfits
      · exact fun hshorter => hshorter.trans (List.prefix_append _ ys)
    rw [find] at h
    rw [List.cons_append, find]
    by_cases hhere : pattern.isPrefixOf (x :: xs)
    · rw [if_pos hhere] at h
      obtain rfl := Option.some.inj h
      rw [if_pos (hstarts.mpr hhere), List.cons_append]
    · rw [if_neg hhere] at h
      rw [if_neg fun hlonger => hhere (hstarts.mp hlonger)]
      exact ih h

/-- What is found in a list is found in a shorter one that has the pattern. -/
theorem find_of_append (h : find pattern (xs ++ ys) = some (found ++ ys))
    (hstarts : pattern <+: found) : find pattern xs = some found := by
  induction xs with
  | nil =>
    have hlength := (find_suffix h).length_le
    rw [List.nil_append, List.length_append] at hlength
    obtain rfl : found = [] := List.length_eq_zero_iff.mp (by omega)
    rw [find, if_pos (List.prefix_nil.mp hstarts)]
  | cons x xs ih =>
    rw [List.cons_append, find] at h
    rw [find]
    split at h
    · have hwhole := Option.some.inj h
      rw [← List.cons_append] at hwhole
      obtain rfl := List.append_cancel_right hwhole
      rw [if_pos (List.isPrefixOf_iff_prefix.mpr hstarts)]
    · rename_i hnot
      rw [if_neg]
      · exact ih h
      · intro hhere
        have hlonger := (List.isPrefixOf_iff_prefix.mp hhere).trans (List.prefix_append _ ys)
        exact hnot (List.isPrefixOf_iff_prefix.mpr hlonger)

end Find

end MBootCore.Scan
