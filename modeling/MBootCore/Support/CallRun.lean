/-!
# CallRun — the calls of a client, one after the other

An object answers calls: `step` takes a call and the state it finds to an
outcome and the state left behind. `run` makes the calls of a list in order,
whatever each of them returns, and records what every call found and how it
ended.

`run_invariant` is the rule for what holds in every state a run reaches; the
rule asks each call only at the states where the invariant holds, and
`records_invariant` only at the states where the run makes it. `final_append` and
`mem_records` take a run apart at one of its calls.
-/

namespace MBootCore

/-- One call of a run. -/
structure CallRecord (C S R : Type) where
  call : C
  before : S
  result : R
  after : S

namespace CallRun

variable {C S R : Type} (step : C → S → R × S)

/-- The record of one call. -/
def record (c : C) (s : S) : CallRecord C S R := ⟨c, s, (step c s).1, (step c s).2⟩

def run : List C → S → List (CallRecord C S R) × S
  | [], s => ([], s)
  | c :: calls, s =>
    let rest := run calls (step c s).2
    (record step c s :: rest.1, rest.2)

/-- The state a run ends in. -/
def final (calls : List C) (s : S) : S := (run step calls s).2

def records (calls : List C) (s : S) : List (CallRecord C S R) := (run step calls s).1

variable {step}

@[simp] theorem records_nil (s : S) : records step [] s = [] := rfl

@[simp] theorem records_cons (c : C) (calls : List C) (s : S) :
    records step (c :: calls) s = record step c s :: records step calls (step c s).2 := rfl

@[simp] theorem final_nil (s : S) : final step [] s = s := rfl

@[simp] theorem final_cons (c : C) (calls : List C) (s : S) :
    final step (c :: calls) s = final step calls (step c s).2 := rfl

theorem forall_records_cons {c : C} {calls : List C} {s : S} {P : CallRecord C S R → Prop} :
    (∀ r ∈ records step (c :: calls) s, P r) ↔
      P (record step c s) ∧ ∀ r ∈ records step calls (step c s).2, P r :=
  List.forall_mem_cons

theorem final_append (calls more : List C) (s : S) :
    final step (calls ++ more) s = final step more (final step calls s) := by
  induction calls generalizing s with
  | nil => rfl
  | cons c calls ih => rw [List.cons_append, final_cons, final_cons, ih]

/-- Where a record of a run comes from. -/
theorem mem_records {calls : List C} {s : S} {r : CallRecord C S R} :
    r ∈ records step calls s ↔
      ∃ earlier c later, calls = earlier ++ c :: later ∧
        r = record step c (final step earlier s) := by
  induction calls generalizing s with
  | nil => simp
  | cons c calls ih =>
    rw [records_cons, List.mem_cons, ih]
    constructor
    · rintro (rfl | ⟨earlier, c', later, rfl, rfl⟩)
      · exact ⟨[], c, calls, rfl, rfl⟩
      · exact ⟨c :: earlier, c', later, rfl, rfl⟩
    · rintro ⟨earlier, c', later, hcalls, rfl⟩
      cases earlier with
      | nil =>
        obtain ⟨rfl, rfl⟩ := List.cons.inj hcalls
        exact .inl rfl
      | cons c'' earlier =>
        obtain ⟨rfl, rfl⟩ := List.cons.inj hcalls
        exact .inr ⟨earlier, c', later, rfl, rfl⟩

/-- What the calls of a run keep, each where it is made, holds before and after
every one of them. -/
theorem records_invariant (I : S → Prop) {calls : List C} {s : S}
    (hI : ∀ r ∈ records step calls s, I r.before → I r.after) (hs : I s) :
    (∀ r ∈ records step calls s, I r.before ∧ I r.after) ∧ I (final step calls s) := by
  induction calls generalizing s with
  | nil => exact ⟨by simp, hs⟩
  | cons c calls ih =>
    have hc : I (step c s).2 := hI (record step c s) List.mem_cons_self hs
    obtain ⟨hrecords, hfinal⟩ := ih (fun r hr => hI r (List.mem_cons_of_mem _ hr)) hc
    refine ⟨?_, hfinal⟩
    intro r hr
    rw [records_cons, List.mem_cons] at hr
    rcases hr with rfl | hr
    · exact ⟨hs, hc⟩
    · exact hrecords r hr

/-- What is said of the calls so far and the state they lead to holds after
every call of a run exactly when each call, made where it holds, keeps it. -/
theorem forall_prefix_iff {P : List (CallRecord C S R) → S → Prop} {Q : CallRecord C S R → Prop}
    (hstep : ∀ done c s, P done s →
      (P (done ++ [record step c s]) (step c s).2 ↔ Q (record step c s)))
    {calls : List C} {s : S} (hs : P [] s) :
    (∀ earlier later, calls = earlier ++ later →
        P (records step earlier s) (final step earlier s)) ↔
      ∀ r ∈ records step calls s, Q r := by
  suffices h : ∀ done, P done s →
      ((∀ earlier later, calls = earlier ++ later →
        P (done ++ records step earlier s) (final step earlier s)) ↔
          ∀ r ∈ records step calls s, Q r) from by simpa using h [] hs
  clear hs
  induction calls generalizing s with
  | nil =>
    intro done hdone
    refine iff_of_true (fun earlier later h => ?_) (by simp)
    obtain ⟨rfl, -⟩ := List.append_eq_nil_iff.mp h.symm
    simpa using hdone
  | cons c calls ih =>
    intro done hdone
    rw [forall_records_cons, ← hstep done c s hdone]
    constructor
    · intro h
      have hfirst := h [c] calls rfl
      refine ⟨by simpa using hfirst, (ih (done ++ [record step c s]) (by simpa using hfirst)).mp ?_⟩
      rintro earlier later rfl
      simpa using h (c :: earlier) later rfl
    · rintro ⟨hfirst, hrest⟩ earlier later h
      cases earlier with
      | nil => simpa using hdone
      | cons c' earlier =>
        obtain ⟨rfl, rfl⟩ := List.cons.inj h
        simpa using (ih (done ++ [record step c s]) hfirst).mpr hrest earlier later rfl

/-- What every call keeps holds before and after every call of a run. -/
theorem run_invariant (I : S → Prop) {calls : List C}
    (hI : ∀ c ∈ calls, ∀ s, I s → I (step c s).2) {s : S} (hs : I s) :
    (∀ r ∈ records step calls s, I r.before ∧ I r.after) ∧ I (final step calls s) := by
  refine records_invariant I ?_ hs
  intro r hr hbefore
  obtain ⟨earlier, c, later, rfl, rfl⟩ := mem_records.mp hr
  exact hI c (List.mem_append_right _ List.mem_cons_self) _ hbefore

end CallRun

end MBootCore
