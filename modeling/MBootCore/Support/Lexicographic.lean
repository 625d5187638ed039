import Mathlib

/-!
# Lexicographic — lists compared element by element

Where two lists part, and what decides between them there. A text that is joined of pieces by a
separator parts where the first pieces do that differ, so the order of the texts is that of these
pieces with what follows them (`lt_of_not_extends`).
-/

namespace MBootCore.Lexicographic

section Order

variable {α : Type} [LinearOrder α]

@[simp] theorem append_lt_append_iff (common : List α) {xs ys : List α} :
    common ++ xs < common ++ ys ↔ xs < ys := by
  induction common with
  | nil => rfl
  | cons a rest ih =>
    rw [List.cons_append, List.cons_append, List.cons_lt_cons_iff, ih]
    simp

/-- Elements that differ decide. -/
theorem cons_lt_cons_of_ne {x y : α} (h : x ≠ y) {xs ys : List α} :
    x :: xs < y :: ys ↔ x < y := by
  rw [List.cons_lt_cons_iff]
  simp [h]

theorem lt_append (xs : List α) {ys : List α} (h : ys ≠ []) : xs < xs ++ ys := by
  obtain ⟨y, rest, rfl⟩ := List.exists_cons_of_ne_nil h
  have hnil : xs ++ [] < xs ++ y :: rest := (append_lt_append_iff xs).mpr (List.nil_lt_cons y rest)
  rwa [List.append_nil] at hnil

/-- A prefix comes first. -/
theorem lt_of_extends {xs ys : List α} (h : xs <+: ys) (hne : xs ≠ ys) : xs < ys := by
  obtain ⟨rest, rfl⟩ := h
  refine lt_append xs ?_
  rintro rfl
  exact hne (List.append_nil xs).symm

/-- Of two lists one is a prefix of the other, or there is an element at which they part. -/
theorem first_difference (xs ys : List α) : xs <+: ys ∨ ys <+: xs ∨
    ∃ common x xs' y ys', x ≠ y ∧ xs = common ++ x :: xs' ∧ ys = common ++ y :: ys' := by
  induction xs generalizing ys with
  | nil => exact .inl List.nil_prefix
  | cons a xs ih =>
    cases ys with
    | nil => exact .inr (.inl List.nil_prefix)
    | cons b ys =>
      by_cases hab : a = b
      · subst hab
        rcases ih ys with hextends | hextends | ⟨common, x, xs', y, ys', hne, rfl, rfl⟩
        · exact .inl (List.cons_prefix_cons.mpr ⟨rfl, hextends⟩)
        · exact .inr (.inl (List.cons_prefix_cons.mpr ⟨rfl, hextends⟩))
        · exact .inr (.inr ⟨a :: common, x, xs', y, ys', hne, rfl, rfl⟩)
      · exact .inr (.inr ⟨[], a, xs, b, ys, hab, rfl, rfl⟩)

/-- Without a prefix between them, two lists stay in order whatever is put behind them. -/
theorem lt_of_not_extends {xs ys : List α} (h : xs < ys) (hextends : ¬ xs <+: ys)
    (xs' ys' : List α) : xs ++ xs' < ys ++ ys' := by
  rcases first_difference xs ys with hxs | hys | ⟨common, x, t, y, t', hne, rfl, rfl⟩
  · exact absurd hxs hextends
  · have hne : ys ≠ xs := fun heq => lt_irrefl ys (heq ▸ h)
    exact absurd (lt_of_extends hys hne) (lt_asymm h)
  · rw [append_lt_append_iff, cons_lt_cons_of_ne hne] at h
    rw [List.append_assoc, List.append_assoc, append_lt_append_iff, List.cons_append,
      List.cons_append, cons_lt_cons_of_ne hne]
    exact h

end Order

/-! ## Joined texts -/

section Joined

variable {α : Type}

/-- What follows a piece in a joined text. -/
def continued (separator : α) : List (List α) → List α
  | [] => []
  | piece :: rest => separator :: [separator].intercalate (piece :: rest)

theorem intercalate_cons (separator : α) (piece : List α) (rest : List (List α)) :
    [separator].intercalate (piece :: rest) = piece ++ continued separator rest := by
  cases rest with
  | nil => simp [continued]
  | cons next rest => simp [continued]

/-- Pieces that are the same in front of two texts. -/
theorem intercalate_append (separator : α) (common : List (List α)) (piece : List α)
    (rest : List (List α)) : [separator].intercalate (common ++ piece :: rest)
      = common.flatMap (· ++ [separator]) ++ (piece ++ continued separator rest) := by
  induction common with
  | nil => exact intercalate_cons separator piece rest
  | cons first common ih =>
    rw [List.cons_append, intercalate_cons, List.flatMap_cons, List.append_assoc, ← ih]
    cases common with
    | nil => simp [continued]
    | cons second common => simp [continued]

end Joined

end MBootCore.Lexicographic
