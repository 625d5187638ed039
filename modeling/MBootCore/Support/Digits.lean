/-!
# Digits — numbers as text

Reading back what `Nat.toDigits` writes, in any base up to 16.
-/

namespace MBootCore.Digits

/-- Digits and letters of either case, as C-family number readers take them. -/
def digitValue (c : Char) : Option Nat :=
  if '0' ≤ c ∧ c ≤ '9' then some (c.toNat - '0'.toNat)
  else if 'a' ≤ c ∧ c ≤ 'z' then some (c.toNat - 'a'.toNat + 10)
  else if 'A' ≤ c ∧ c ≤ 'Z' then some (c.toNat - 'A'.toNat + 10)
  else none

/-- The value of a text of digits below `base`, after those read into `acc`. -/
def readDigits (base : Nat) (acc : Nat) : List Char → Option Nat
  | [] => some acc
  | c :: cs =>
    match digitValue c with
    | none => none
    | some d => if d < base then readDigits base (acc * base + d) cs else none

theorem digitValue_digitChar {d : Nat} (h : d < 16) : digitValue d.digitChar = some d := by
  have : ∀ d : Fin 16, digitValue d.val.digitChar = some d.val := by decide
  exact this ⟨d, h⟩

theorem readDigits_append (base acc : Nat) (s t : List Char) :
    readDigits base acc (s ++ t) = (readDigits base acc s).bind fun v => readDigits base v t := by
  induction s generalizing acc with
  | nil => rfl
  | cons c s ih =>
    simp only [List.cons_append, readDigits]
    cases digitValue c with
    | none => rfl
    | some d =>
      by_cases hd : d < base
      · simp only [if_pos hd, ih]
      · simp only [if_neg hd, Option.bind_none]

theorem readDigits_singleton {base d : Nat} (hd : d < base) (hbase : base ≤ 16) (acc : Nat) :
    readDigits base acc [d.digitChar] = some (acc * base + d) := by
  simp [readDigits, digitValue_digitChar (Nat.lt_of_lt_of_le hd hbase), hd]

/-- The digits of a number read back as the number. -/
theorem readDigits_toDigits {base : Nat} (hbase : 1 < base) (h16 : base ≤ 16) (n : Nat) :
    readDigits base 0 (Nat.toDigits base n) = some n := by
  induction n using Nat.strongRecOn with
  | ind n ih =>
    rw [Nat.toDigits_eq_if hbase]
    by_cases hn : n < base
    · rw [if_pos hn, readDigits_singleton hn h16, Nat.zero_mul, Nat.zero_add]
    · have hdiv : n / base < n := Nat.div_lt_self (by omega) hbase
      rw [if_neg hn, readDigits_append, ih _ hdiv, Option.bind_some,
        readDigits_singleton (Nat.mod_lt n (by omega)) h16, Nat.div_add_mod']

/-- Every digit `Nat.toDigits` writes is one of the sixteen. -/
theorem mem_toDigits {base : Nat} (hbase : 1 < base) {n : Nat} {c : Char}
    (h : c ∈ Nat.toDigits base n) : ∃ d < base, c = d.digitChar := by
  induction n using Nat.strongRecOn with
  | ind n ih =>
    rw [Nat.toDigits_eq_if hbase] at h
    by_cases hn : n < base
    · rw [if_pos hn, List.mem_singleton] at h
      exact ⟨n, hn, h⟩
    · rw [if_neg hn, List.mem_append, List.mem_singleton] at h
      rcases h with h | h
      · exact ih _ (Nat.div_lt_self (by omega) hbase) h
      · exact ⟨n % base, Nat.mod_lt n (by omega), h⟩

end MBootCore.Digits
