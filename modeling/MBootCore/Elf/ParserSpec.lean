import MBootCore.Elf.ElfParser

/-!
# Elf — ParserSpec

What the parser has checked of a file it calls valid: the segments lie in the
file, and no two of those to be loaded overlap by their addresses in memory.
-/

namespace MBootCore.Elf

namespace ElfValidation

variable (v : ElfValidation)

@[simp] theorem valid_warnIf (condition : Bool) (message : String) :
    (v.warnIf condition message).valid = v.valid := by
  cases condition <;> rfl

@[simp] theorem valid_errorIf (condition : Bool) (message : String) :
    (v.errorIf condition message).valid = (v.valid && !condition) := by
  cases condition <;> simp [errorIf, addError]

end ElfValidation

variable {v : ElfValidation} {dataSize : Nat} {phs : List ProgramHeader}

theorem valid_validateSegment (i : Nat) (ph : ProgramHeader) :
    (validateSegment dataSize i ph v).valid
      = (v.valid && (decide (ph.type = .null) || !ph.outsideFile dataSize)) := by
  rw [validateSegment]
  by_cases hnull : ph.type = .null <;> simp [hnull]

theorem valid_validateSegments (indexed : List (ProgramHeader × Nat)) :
    (indexed.foldl (fun v ph => validateSegment dataSize ph.2 ph.1 v) v).valid = true ↔
      v.valid = true ∧
        ∀ ph ∈ indexed, ph.1.type ≠ .null → ph.1.outsideFile dataSize = false := by
  induction indexed generalizing v with
  | nil => simp
  | cons ph rest ih =>
    rw [List.foldl_cons, ih, valid_validateSegment, List.forall_mem_cons]
    simp only [Bool.and_eq_true, Bool.or_eq_true, decide_eq_true_eq, Bool.not_eq_true',
      and_assoc, ne_eq, Decidable.or_iff_not_imp_left]

theorem valid_validateAgainst (i : Nat) (ph : ProgramHeader) (rest : List (ProgramHeader × Nat)) :
    (validateAgainst i ph rest v).valid = true ↔
      v.valid = true ∧ ∀ other ∈ rest, overlaps ph other.1 = false := by
  rw [validateAgainst]
  induction rest generalizing v with
  | nil => simp
  | cons other rest ih =>
    rw [List.foldl_cons, ih, List.forall_mem_cons]
    simp only [ElfValidation.valid_errorIf, Bool.and_eq_true, Bool.not_eq_true', and_assoc]

theorem valid_validateOverlaps (indexed : List (ProgramHeader × Nat)) :
    (validateOverlaps indexed v).valid = true ↔
      v.valid = true ∧ indexed.Pairwise fun ph other => overlaps ph.1 other.1 = false := by
  induction indexed generalizing v with
  | nil => simp [validateOverlaps]
  | cons ph rest ih =>
    rw [validateOverlaps, ih, valid_validateAgainst, List.pairwise_cons, and_assoc]

theorem valid_validateProgramHeaders :
    (validateProgramHeaders dataSize phs v).valid = true ↔
      v.valid = true ∧ (∀ ph ∈ phs, ph.type ≠ .null → ph.outsideFile dataSize = false) ∧
        phs.Pairwise fun ph other => overlaps ph other = false := by
  have hfst : phs.zipIdx.map Prod.fst = phs := List.zipIdx_map_fst 0 phs
  have hinside : (∀ ph ∈ phs.zipIdx, ph.1.type ≠ .null → ph.1.outsideFile dataSize = false) ↔
      ∀ ph ∈ phs, ph.type ≠ .null → ph.outsideFile dataSize = false := by
    conv_rhs => rw [← hfst, List.forall_mem_map]
  have hapart : (phs.zipIdx.Pairwise fun ph other => overlaps ph.1 other.1 = false) ↔
      phs.Pairwise fun ph other => overlaps ph other = false := by
    conv_rhs => rw [← hfst, List.pairwise_map]
  rw [validateProgramHeaders]
  simp only [ElfValidation.valid_warnIf]
  rw [valid_validateOverlaps, valid_validateSegments, hinside, hapart, and_assoc]

/-- What is known of a file that is parsed and valid. -/
structure Checked (elf : ElfFile) : Prop where
  inside : ∀ ph ∈ elf.programHeaders, ph.type ≠ .null →
    ph.outsideFile elf.rawData.length = false
  apart : elf.programHeaders.Pairwise fun ph other => overlaps ph other = false

theorem checked_of_parse {data : ByteBuffer} {elf : ElfFile} (hparse : parse data = .ok elf)
    (hvalid : elf.isValid = true) : Checked elf := by
  rw [parse] at hparse
  split at hparse
  · cases hparse
  · simp only at hparse
    split at hparse
    · cases hparse
    · split at hparse
      · cases hparse
        have hheaders := (Bool.and_eq_true_iff.mp hvalid).1
        obtain ⟨-, hinside, hapart⟩ := valid_validateProgramHeaders.mp hheaders
        exact ⟨hinside, hapart⟩
      · cases hparse
        exact ⟨by simp, .nil⟩

end MBootCore.Elf
