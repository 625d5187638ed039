import MBootCore.Elf.ProgramTable
import Mathlib.Order.Interval.Set.Defs

/-!
# Elf — SegmentOverlap

Which overlaps the parser reports. It compares the end of a segment in 64 bits,
and it does not leave out segments of size zero: a segment that ends beyond the
last address may be missed, and an empty one inside another is reported.
-/

namespace MBootCore.Elf

/-- Two of the program headers are related. -/
def SomePair (R : ProgramHeader → ProgramHeader → Prop) (phs : List ProgramHeader) : Prop :=
  ∃ (i j : Nat) (ph other : ProgramHeader),
    i < j ∧ phs[i]? = some ph ∧ phs[j]? = some other ∧ R ph other

variable {R S : ProgramHeader → ProgramHeader → Prop} {phs : List ProgramHeader}
  {ph other : ProgramHeader}

theorem SomePair.imp (h : ∀ ph other, R ph other → S ph other) (hR : SomePair R phs) :
    SomePair S phs := by
  obtain ⟨i, j, ph, other, hij, hi, hj, hpair⟩ := hR
  exact ⟨i, j, ph, other, hij, hi, hj, h _ _ hpair⟩

theorem somePair_congr (h : ∀ ph other, R ph other ↔ S ph other) :
    SomePair R phs ↔ SomePair S phs :=
  ⟨.imp fun _ _ => (h _ _).mp, .imp fun _ _ => (h _ _).mpr⟩

theorem somePair_or : SomePair (fun ph other => R ph other ∨ S ph other) phs ↔
    SomePair R phs ∨ SomePair S phs := by
  constructor
  · rintro ⟨i, j, ph, other, hij, hi, hj, hpair⟩
    rcases hpair with hpair | hpair
    · exact .inl ⟨i, j, ph, other, hij, hi, hj, hpair⟩
    · exact .inr ⟨i, j, ph, other, hij, hi, hj, hpair⟩
  · rintro (h | h)
    · exact h.imp fun _ _ => .inl
    · exact h.imp fun _ _ => .inr

theorem somePair_iff_not_pairwise :
    SomePair R phs ↔ ¬ phs.Pairwise fun ph other => ¬ R ph other := by
  rw [List.pairwise_iff_getElem]
  constructor
  · rintro ⟨i, j, ph, other, hij, hi, hj, hpair⟩ hnone
    obtain ⟨hi, rfl⟩ := List.getElem?_eq_some_iff.mp hi
    obtain ⟨hj, rfl⟩ := List.getElem?_eq_some_iff.mp hj
    exact hnone i j _ _ hij hpair
  · intro hsome
    simp only [not_forall, not_not] at hsome
    obtain ⟨i, j, hi, hj, hij, hpair⟩ := hsome
    exact ⟨i, j, _, _, hij, List.getElem?_eq_getElem hi, List.getElem?_eq_getElem hj, hpair⟩

/-! ## What is reported -/

def overlapMessage (i j : Nat) : String :=
  "Overlapping PT_LOAD segments " ++ toString i ++ " and " ++ toString j

/-- The parser, having warned of the header, reports that segments overlap. -/
def ReportsOverlap (dataSize : Nat) (warnings : List String) (phs : List ProgramHeader) : Prop :=
  ∃ i j, overlapMessage i j ∈ (validateProgramHeaders dataSize phs { warnings }).errors

namespace ElfValidation

variable (v : ElfValidation)

@[simp] theorem errors_warnIf (condition : Bool) (message : String) :
    (v.warnIf condition message).errors = v.errors := by
  cases condition <;> rfl

@[simp] theorem errors_errorIf (condition : Bool) (message : String) :
    (v.errorIf condition message).errors = v.errors ++ if condition then [message] else [] := by
  cases condition <;> simp [errorIf, addError]

end ElfValidation

theorem head_append {text rest : String} {c : Char} (h : text.toList.head? = some c) :
    (text ++ rest).toList.head? = some c := by
  rw [String.toList_append, List.head?_append, h]
  rfl

theorem overlapMessage_head (i j : Nat) : (overlapMessage i j).toList.head? = some 'O' :=
  head_append (head_append (head_append (by decide)))

theorem overlapMessage_ne (i j k : Nat) :
    overlapMessage i j ≠ "Segment " ++ toString k ++ " (file data) extends beyond file bounds" := by
  intro heq
  have hsegment : ("Segment " ++ toString k ++
      " (file data) extends beyond file bounds").toList.head? = some 'S' :=
    head_append (head_append (by decide))
  rw [← heq, overlapMessage_head] at hsegment
  cases hsegment

theorem overlapMessage_notMem_segments {dataSize : Nat} {v : ElfValidation}
    (indexed : List (ProgramHeader × Nat)) {i j : Nat} :
    overlapMessage i j ∈
        (indexed.foldl (fun v ph => validateSegment dataSize ph.2 ph.1 v) v).errors ↔
      overlapMessage i j ∈ v.errors := by
  induction indexed generalizing v with
  | nil => rfl
  | cons ph rest ih =>
    rw [List.foldl_cons, ih, validateSegment]
    split
    · rfl
    · simp only [ElfValidation.errors_warnIf, ElfValidation.errors_errorIf, List.mem_append]
      rw [or_iff_left]
      split
      · rw [List.mem_singleton]
        exact overlapMessage_ne i j ph.2
      · exact List.not_mem_nil

theorem mem_validateAgainst {i k l : Nat} {v : ElfValidation}
    (rest : List (ProgramHeader × Nat)) :
    overlapMessage k l ∈ (validateAgainst i ph rest v).errors ↔ overlapMessage k l ∈ v.errors ∨
      ∃ other ∈ rest, overlaps ph other.1 = true ∧
        overlapMessage k l = overlapMessage i other.2 := by
  rw [validateAgainst]
  induction rest generalizing v with
  | nil => simp
  | cons other rest ih =>
    rw [List.foldl_cons, ih, ElfValidation.errors_errorIf, List.mem_append]
    have hmessage : "Overlapping PT_LOAD segments " ++ toString i ++ " and " ++ toString other.2
        = overlapMessage i other.2 := rfl
    rw [hmessage]
    cases hoverlap : overlaps ph other.1 with
    | false => simp [hoverlap]
    | true => simp [hoverlap, or_assoc]

/-- Some overlap is reported when two of the segments overlap. -/
theorem exists_validateOverlaps {v : ElfValidation} (indexed : List (ProgramHeader × Nat)) :
    (∃ i j, overlapMessage i j ∈ (validateOverlaps indexed v).errors) ↔
      (∃ i j, overlapMessage i j ∈ v.errors) ∨
        ¬ indexed.Pairwise fun ph other => ¬ overlaps ph.1 other.1 = true := by
  induction indexed generalizing v with
  | nil => simp [validateOverlaps]
  | cons ph rest ih =>
    rw [validateOverlaps, ih, List.pairwise_cons, not_and_or, ← or_assoc]
    apply or_congr_left
    simp only [mem_validateAgainst, exists_or]
    apply or_congr_right
    constructor
    · rintro ⟨i, j, other, hother, hoverlap, -⟩ hnone
      exact hnone other hother hoverlap
    · intro hsome
      simp only [not_forall, not_not] at hsome
      obtain ⟨other, hother, hoverlap⟩ := hsome
      exact ⟨_, _, other, hother, hoverlap, rfl⟩

theorem reportsOverlap_iff_overlaps {dataSize : Nat} {warnings : List String} :
    ReportsOverlap dataSize warnings phs ↔
      SomePair (fun ph other => overlaps ph other = true) phs := by
  have hfst : phs.zipIdx.map Prod.fst = phs := List.zipIdx_map_fst 0 phs
  rw [ReportsOverlap, somePair_iff_not_pairwise, validateProgramHeaders]
  simp only [ElfValidation.errors_warnIf]
  rw [exists_validateOverlaps]
  simp only [overlapMessage_notMem_segments, List.not_mem_nil, exists_false, false_or]
  conv_rhs => rw [← hfst, List.pairwise_map]

/-! ## What overlaps -/

namespace ProgramHeader

/-- The end of the segment over the integers. -/
def exactEnd (ph : ProgramHeader) : Nat := ph.vaddr.toNat + ph.memsz.toNat

def addresses (ph : ProgramHeader) : Set Nat := Set.Ico ph.vaddr.toNat ph.exactEnd

end ProgramHeader

/-- Two loadable segments that take up memory have an address in common. -/
def Intersects (ph other : ProgramHeader) : Prop :=
  ph.isLoadable = true ∧ other.isLoadable = true ∧ 0 < ph.memsz ∧ 0 < other.memsz ∧
    (ph.addresses ∩ other.addresses).Nonempty

/-- An end beyond the last address, less 2^64, still lies above the start of the
other segment. -/
def SeenWrapped (ph other : ProgramHeader) : Prop :=
  2 ^ 64 ≤ ph.exactEnd → other.vaddr.toNat + 2 ^ 64 < ph.exactEnd

def Seen (ph other : ProgramHeader) : Prop := SeenWrapped ph other ∧ SeenWrapped other ph

/-- A loadable segment of size zero lies strictly inside of another one. -/
def Swallows (ph other : ProgramHeader) : Prop :=
  ph.isLoadable = true ∧ other.isLoadable = true ∧ other.memsz = 0 ∧
    ph.vaddr.toNat < other.vaddr.toNat ∧ other.vaddr.toNat < ph.exactEnd ∧ ph.exactEnd < 2 ^ 64

def EmptyInside (ph other : ProgramHeader) : Prop := Swallows ph other ∨ Swallows other ph

theorem intersects_iff : Intersects ph other ↔
    ph.isLoadable = true ∧ other.isLoadable = true ∧ 0 < ph.memsz.toNat ∧ 0 < other.memsz.toNat ∧
      ph.vaddr.toNat < other.exactEnd ∧ other.vaddr.toNat < ph.exactEnd := by
  have hpos : ∀ n : UInt64, 0 < n ↔ 0 < n.toNat := fun _ => UInt64.lt_iff_toNat_lt
  rw [Intersects, hpos, hpos]
  constructor
  · rintro ⟨hload, hother, hsize, hotherSize, addr, ⟨hfrom, hto⟩, hotherFrom, hotherTo⟩
    exact ⟨hload, hother, hsize, hotherSize, by omega, by omega⟩
  · rintro ⟨hload, hother, hsize, hotherSize, hbelow, habove⟩
    -- the higher one of the two starts is a common address
    refine ⟨hload, hother, hsize, hotherSize, max ph.vaddr.toNat other.vaddr.toNat, ⟨?_, ?_⟩,
      ?_, ?_⟩
    · exact le_max_left _ _
    · exact max_lt (by rw [ProgramHeader.exactEnd]; omega) habove
    · exact le_max_right _ _
    · exact max_lt hbelow (by rw [ProgramHeader.exactEnd]; omega)

theorem endVaddr_toNat (ph : ProgramHeader) : ph.endVaddr.toNat = ph.exactEnd % 2 ^ 64 :=
  UInt64.toNat_add _ _

/-- What the comparison in 64 bits finds. -/
theorem overlaps_iff : overlaps ph other = true ↔
    Intersects ph other ∧ Seen ph other ∨ EmptyInside ph other := by
  have hend := endVaddr_toNat ph
  have hotherEnd := endVaddr_toNat other
  have hstart := ph.vaddr.toNat_lt
  have hotherStart := other.vaddr.toNat_lt
  have hsize := ph.memsz.toNat_lt
  have hotherSize := other.memsz.toNat_lt
  have hzero : ∀ n : UInt64, n = 0 ↔ n.toNat = 0 := fun _ => UInt64.toNat_inj.symm
  rw [intersects_iff, overlaps, Bool.and_eq_true, Bool.and_eq_true, Bool.and_eq_true,
    decide_eq_true_eq, decide_eq_true_eq, UInt64.lt_iff_toNat_lt, UInt64.lt_iff_toNat_lt, hend,
    hotherEnd]
  simp only [Seen, SeenWrapped, EmptyInside, Swallows, hzero, ProgramHeader.exactEnd] at *
  by_cases hload : ph.isLoadable = true <;> by_cases hother : other.isLoadable = true <;>
    simp only [hload, hother, true_and, false_and, and_true, and_false, or_self, iff_self,
      Bool.false_eq_true]
  omega

/-! ## Exact reports -/

/-- If segments intersect, some of them are seen or an empty one lies inside of
another; if none do, no empty one does. -/
structure Detectable (phs : List ProgramHeader) : Prop where
  seen : SomePair Intersects phs →
    SomePair (fun ph other => Intersects ph other ∧ Seen ph other) phs ∨ SomePair EmptyInside phs
  genuine : SomePair EmptyInside phs → SomePair Intersects phs

/-- The parser reports an overlap exactly when two segments intersect, if and only
if none is missed and none reported without one. -/
theorem reportsOverlap_iff (dataSize : Nat) (warnings : List String) (phs : List ProgramHeader) :
    (ReportsOverlap dataSize warnings phs ↔ SomePair Intersects phs) ↔ Detectable phs := by
  have hreports : ReportsOverlap dataSize warnings phs ↔
      SomePair (fun ph other => Intersects ph other ∧ Seen ph other) phs ∨
        SomePair EmptyInside phs := by
    rw [reportsOverlap_iff_overlaps, somePair_congr fun _ _ => overlaps_iff, somePair_or]
  rw [hreports]
  constructor
  · intro hexact
    constructor
    · exact hexact.mpr
    · intro hinside
      exact hexact.mp (.inr hinside)
  · rintro ⟨hseen, hgenuine⟩
    constructor
    · rintro (hpair | hinside)
      · exact hpair.imp fun _ _ h => h.1
      · exact hgenuine hinside
    · exact hseen

/-- The second segment ends beyond the last address and overlaps the first. -/
def wrappingSegments : List ProgramHeader :=
  [{ type := .load, vaddr := 0xFFFFFFFFFFFFF800, memsz := 16 },
    { type := .load, vaddr := 0xFFFFFFFFFFFFF000, memsz := 0x2000 }]

/-- An overlap with a segment that wraps around is not reported. -/
theorem reportsOverlap_missed : ¬ ∀ (dataSize : Nat) (warnings : List String)
    (phs : List ProgramHeader),
      ReportsOverlap dataSize warnings phs ↔ SomePair Intersects phs := by
  intro hall
  have hintersects : SomePair Intersects wrappingSegments := by
    refine ⟨0, 1, _, _, by decide, rfl, rfl, ?_⟩
    rw [intersects_iff]
    decide
  obtain ⟨i, j, hreported⟩ := (hall 0 [] wrappingSegments).mpr hintersects
  have hnone : (validateProgramHeaders 0 wrappingSegments { warnings := [] }).errors = [] := by
    decide
  rw [hnone] at hreported
  cases hreported

end MBootCore.Elf
