import MBootCore.Support.Accesses

/-!
# TextReads — scanning a text by position

The accesses a scanner with a position makes to a text: one character, a piece
of the text, the loop that moves the position on while a condition holds. A
scanner of this kind does what one on the rest of the text does
(`drop_skipWhile`, `find_eq`), and `charAt` and `substr` are safe where their
arguments lie inside of the text.
-/

namespace MBootCore.Logged

variable (s : List Char)

def charAt (i : Nat) : Logged Char :=
  { value := s.getD i '\x00', log := [⟨s.length, i, 1⟩] }

/-- At most `n` characters from `pos` on; a text that ends before is read to its
end. -/
def substr (pos n : Nat) : Logged (List Char) :=
  { value := (s.drop pos).take n, log := [⟨s.length, pos, min n (s.length - pos)⟩] }

/-- A difference of positions, which must not fall below zero. -/
def diff (a b : Nat) : Logged Nat := { value := a - b, log := [⟨a, b, 0⟩] }

@[simp] theorem value_charAt (i : Nat) : (charAt s i).value = s.getD i '\x00' := rfl

@[simp] theorem value_substr (pos n : Nat) : (substr s pos n).value = (s.drop pos).take n := rfl

@[simp] theorem value_diff (a b : Nat) : (diff a b).value = a - b := rfl

@[simp] theorem safe_charAt (i : Nat) : (charAt s i).Safe ↔ i < s.length :=
  List.forall_mem_singleton

@[simp] theorem safe_substr (pos n : Nat) : (substr s pos n).Safe ↔ pos ≤ s.length := by
  have hinside : (substr s pos n).Safe ↔ pos + min n (s.length - pos) ≤ s.length :=
    List.forall_mem_singleton
  rw [hinside]
  omega

@[simp] theorem safe_diff (a b : Nat) : (diff a b).Safe ↔ b ≤ a :=
  List.forall_mem_singleton

/-- `i < s.size() && s[i] == c`. -/
def charIs (c : Char) (i : Nat) : Logged Bool :=
  if i < s.length then do
    let x ← charAt s i
    pure (x = c)
  else pure false

@[simp] theorem value_charIs (c : Char) (i : Nat) :
    (charIs s c i).value = decide ((s.drop i).head? = some c) := by
  unfold charIs
  by_cases hi : i < s.length
  · rw [if_pos hi, List.drop_eq_getElem_cons hi]
    simp [List.getD_eq_getElem?_getD, hi]
  · rw [if_neg hi, List.drop_of_length_le (by omega)]
    rfl

@[simp] theorem safe_charIs (c : Char) (i : Nat) : (charIs s c i).Safe := by
  unfold charIs
  by_cases hi : i < s.length
  · rw [if_pos hi]
    simpa using hi
  · rw [if_neg hi]
    exact safe_pure false

/-! ## A loop over the position -/

/-- `left` is what the text has from `pos` on, so that the loop's guard fails at
zero. -/
def skipLoop (p : Char → Bool) : Nat → Nat → Logged Nat
  | 0, pos => pure pos
  | left + 1, pos => do
    let c ← charAt s pos
    if p c then skipLoop p left (pos + 1) else pure pos

/-- `while (pos < s.size() && p(s[pos])) pos++;`. -/
def skipWhile (p : Char → Bool) (pos : Nat) : Logged Nat := skipLoop s p (s.length - pos) pos

variable {s} {p : Char → Bool} {pos : Nat}

theorem skipLoop_spec (left : Nat) (hleft : left = s.length - pos) :
    (skipLoop s p left pos).value = pos + ((s.drop pos).takeWhile p).length ∧
      (skipLoop s p left pos).Safe := by
  induction left generalizing pos with
  | zero =>
    rw [List.drop_of_length_le (by omega)]
    exact ⟨rfl, safe_pure pos⟩
  | succ left ih =>
    have hpos : pos < s.length := by omega
    have hchar : s.getD pos '\x00' = s[pos] := by simp [List.getD_eq_getElem?_getD, hpos]
    rw [skipLoop, value_bind, safe_bind, value_charAt, safe_charAt, hchar,
      List.drop_eq_getElem_cons hpos]
    by_cases hp : p s[pos] = true
    · have hnext : left = s.length - (pos + 1) := by omega
      obtain ⟨hvalue, hsafe⟩ := ih hnext
      rw [if_pos hp, List.takeWhile_cons_of_pos hp, hvalue, List.length_cons]
      exact ⟨by omega, hpos, hsafe⟩
    · rw [if_neg hp, List.takeWhile_cons_of_neg hp]
      exact ⟨rfl, hpos, safe_pure pos⟩

@[simp] theorem value_skipWhile :
    (skipWhile s p pos).value = pos + ((s.drop pos).takeWhile p).length :=
  (skipLoop_spec _ rfl).1

@[simp] theorem safe_skipWhile : (skipWhile s p pos).Safe := (skipLoop_spec _ rfl).2

theorem drop_length_takeWhile (l : List Char) :
    l.drop (l.takeWhile p).length = l.dropWhile p := by
  induction l with
  | nil => rfl
  | cons c l ih =>
    by_cases hc : p c = true
    · rw [List.takeWhile_cons_of_pos hc, List.dropWhile_cons_of_pos hc, List.length_cons,
        List.drop_succ_cons, ih]
    · rw [List.takeWhile_cons_of_neg hc, List.dropWhile_cons_of_neg hc, List.length_nil,
        List.drop_zero]

theorem drop_skipWhile :
    s.drop (pos + ((s.drop pos).takeWhile p).length) = (s.drop pos).dropWhile p := by
  rw [← List.drop_drop, drop_length_takeWhile]

theorem take_length_takeWhile (l : List Char) :
    l.take (l.takeWhile p).length = l.takeWhile p :=
  List.prefix_iff_eq_take.mp (List.takeWhile_prefix p) |>.symm

/-- Where the loop leaves the position. -/
theorem skipWhile_spec (p : Char → Bool) (h : pos ≤ s.length) :
    ∃ stop, (skipWhile s p pos).value = stop ∧ pos ≤ stop ∧ stop ≤ s.length ∧
      s.drop stop = (s.drop pos).dropWhile p ∧
      (s.drop pos).take (stop - pos) = (s.drop pos).takeWhile p := by
  have hprefix := (List.takeWhile_prefix p (l := s.drop pos)).length_le
  rw [List.length_drop] at hprefix
  refine ⟨_, value_skipWhile, Nat.le_add_right _ _, by omega, drop_skipWhile, ?_⟩
  rw [Nat.add_sub_cancel_left]
  exact take_length_takeWhile _

/-! ## Searching -/

/-- Where `c` first stands at or after `pos`. -/
def find (s : List Char) (c : Char) (pos : Nat) : Option Nat :=
  let stop := pos + ((s.drop pos).takeWhile (· ≠ c)).length
  if stop < s.length then some stop else none

theorem find_eq (s : List Char) (c : Char) (pos : Nat) :
    match (s.drop pos).dropWhile (· ≠ c) with
    | [] => find s c pos = none
    | x :: after => ∃ stop, find s c pos = some stop ∧ pos ≤ stop ∧ stop < s.length ∧
        s.drop stop = x :: after ∧ (s.drop pos).take (stop - pos)
          = (s.drop pos).takeWhile (· ≠ c) := by
  have hdrop : s.drop (pos + ((s.drop pos).takeWhile (· ≠ c)).length)
      = (s.drop pos).dropWhile (· ≠ c) := drop_skipWhile
  have hlength := congrArg List.length hdrop
  rw [List.length_drop] at hlength
  unfold find
  generalize hrest : (s.drop pos).dropWhile (· ≠ c) = rest at hdrop hlength ⊢
  cases rest with
  | nil =>
    rw [List.length_nil] at hlength
    exact if_neg (by omega)
  | cons x after =>
    rw [List.length_cons] at hlength
    refine ⟨_, if_pos (by omega), Nat.le_add_right _ _, by omega, hdrop, ?_⟩
    rw [Nat.add_sub_cancel_left]
    exact take_length_takeWhile _

end MBootCore.Logged
