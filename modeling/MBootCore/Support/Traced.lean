import MBootCore.Support.Program

/-!
# Traced — programs that keep a log of events

A program over a state, with a log beside it. `Erases` says that it does what a
plain program does if the log is left aside. `Adds P` says that what every run adds
to the log satisfies `P`; for a `P` that holds of nothing and of two parts together
it is closed under sequencing, so that a property of a whole run's events is
assembled from those of its steps. `Yields Q` says the same of a `Q` that looks at
the outcome too; what a sequence adds is then split where its second part begins.
A program whose log grows with its fuel never halts (`not_halts_of_grows`).
-/

namespace MBootCore

abbrev Traced (S E ε α : Type) : Type := Program (S × List E) ε α

namespace Traced

variable {S E ε α β : Type}

def note (events : List E) : Traced S E ε Unit :=
  Program.modify fun s => (s.1, s.2 ++ events)

/-- A program that adds nothing to the log. -/
def quiet (p : Program S ε α) : Traced S E ε α :=
  Program.zoom Prod.fst (fun s t => (s, t.2)) p

theorem run_quiet (p : Program S ε α) (s : S × List E) :
    (quiet p : Traced S E ε α) s = ((p s.1).1, ((p s.1).2, s.2)) := rfl

/-- A program that logs what its outcome says. -/
def noting (f : Except ε α → List E) (p : Program S ε α) : Traced S E ε α := fun s =>
  ((p s.1).1, ((p s.1).2, s.2 ++ f (p s.1).1))

theorem run_noting (f : Except ε α → List E) (p : Program S ε α) (s : S × List E) :
    noting f p s = ((p s.1).1, ((p s.1).2, s.2 ++ f (p s.1).1)) := rfl

/-! ## The plain program -/

def Erases (p : Traced S E ε α) (q : Program S ε α) : Prop := Program.Simulates Prod.fst p q

namespace Erases

protected theorem pure (a : α) : Erases (pure a : Traced S E ε α) (pure a) := fun _ => rfl

protected theorem quiet (q : Program S ε α) : Erases (quiet q : Traced S E ε α) q := fun _ => rfl

/-- Events make no difference. -/
theorem note_bind (events : List E) {p : Traced S E ε α} {q : Program S ε α} (h : Erases p q) :
    Erases (note events >>= fun _ => p) q := by
  intro s
  exact h (s.1, s.2 ++ events)

protected theorem bind {p : Traced S E ε α} {q : Program S ε α} {k : α → Traced S E ε β}
    {k' : α → Program S ε β} (hp : Erases p q) (hk : ∀ a, Erases (k a) (k' a)) :
    Erases (p >>= k) (q >>= k') :=
  Program.Simulates.bind hp hk

protected theorem attempt {p : Traced S E ε α} {q : Program S ε α} (h : Erases p q) :
    Erases (Program.attempt p) (Program.attempt q) :=
  Program.Simulates.attempt h

/-- A sequence whose result is not looked at. -/
theorem void_bind {p : Traced S E ε α} {q : Program S ε α} {k : α → Traced S E ε β}
    {k' : α → Program S ε Unit} (hp : Erases p q) (hk : ∀ a, Erases (Program.void (k a)) (k' a)) :
    Erases (Program.void (p >>= k)) (q >>= k') := by
  intro s
  have hvoid : Program.void (p >>= k) s = (p >>= fun a => Program.void (k a)) s := by
    simp only [Program.void, Program.run_bind]
    rcases p s with ⟨e | a, s₁⟩ <;> rfl
  rw [hvoid]
  exact Erases.bind hp hk s

protected theorem ite {c : Prop} [Decidable c] {p p' : Traced S E ε α} {q q' : Program S ε α}
    (h : c → Erases p q) (h' : ¬ c → Erases p' q') :
    Erases (if c then p else p') (if c then q else q') := by
  by_cases hc : c
  · rw [if_pos hc, if_pos hc]
    exact h hc
  · rw [if_neg hc, if_neg hc]
    exact h' hc

end Erases

/-! ## Events -/

/-- Holds of nothing, and of two parts together. -/
structure Additive (P : List E → Prop) : Prop where
  nil : P []
  append : ∀ {new new'}, P new → P new' → P (new ++ new')

def Adds (P : List E → Prop) (p : Traced S E ε α) : Prop :=
  Program.Steps (fun s t => ∃ new, t.2 = s.2 ++ new ∧ P new) p

namespace Adds

variable {P : List E → Prop}

protected theorem pure (hP : Additive P) (a : α) : Adds P (pure a : Traced S E ε α) :=
  fun _ => ⟨[], (List.append_nil _).symm, hP.nil⟩

protected theorem quiet (hP : Additive P) (p : Program S ε α) :
    Adds P (quiet p : Traced S E ε α) :=
  fun _ => ⟨[], (List.append_nil _).symm, hP.nil⟩

protected theorem note {events : List E} (h : P events) :
    Adds P (note events : Traced S E ε Unit) :=
  fun _ => ⟨events, rfl, h⟩

protected theorem bind (hP : Additive P) {p : Traced S E ε α} {k : α → Traced S E ε β}
    (hp : Adds P p) (hk : ∀ a, Adds P (k a)) : Adds P (p >>= k) := by
  refine Program.Steps.bind ?_ hp hk
  rintro a b c ⟨new, hb, hnew⟩ ⟨new', hc, hnew'⟩
  exact ⟨new ++ new', by rw [hc, hb, List.append_assoc], hP.append hnew hnew'⟩

protected theorem ite {c : Prop} [Decidable c] {p p' : Traced S E ε α} (h : c → Adds P p)
    (h' : ¬ c → Adds P p') : Adds P (if c then p else p') := by
  by_cases hc : c
  · rw [if_pos hc]
    exact h hc
  · rw [if_neg hc]
    exact h' hc

end Adds

/-- The events of a run. -/
def events (p : Traced S E ε α) (s : S) : List E := (p (s, [])).2.2

theorem Adds.events {P : List E → Prop} {p : Traced S E ε α} (h : Adds P p) (s : S) :
    P (p.events s) := by
  obtain ⟨new, hlog, hnew⟩ := h (s, [])
  rw [List.nil_append] at hlog
  rw [Traced.events, hlog]
  exact hnew

/-- A program that logs something for every unit of fuel does not halt. -/
theorem not_halts_of_grows {p : Nat → Traced S E ε α} {s : S × List E}
    (h : ∀ fuel, fuel ≤ (p fuel s).2.2.length) : ¬ Program.Halts p s := by
  rintro ⟨n, hn⟩
  -- more fuel than the run that no longer changes has logged
  have hmore := h (max n ((p n s).2.2.length + 1))
  rw [hn _ (Nat.le_max_left _ _)] at hmore
  omega

/-! ## Events and outcome -/

/-- What every run adds to the log fits its outcome. -/
def Yields (Q : Except ε α → List E → Prop) (p : Traced S E ε α) : Prop :=
  ∀ s, ∃ new, (p s).2.2 = s.2 ++ new ∧ Q (p s).1 new

namespace Yields

variable {Q : Except ε α → List E → Prop}

protected theorem pure {a : α} (h : Q (.ok a) []) : Yields Q (pure a : Traced S E ε α) :=
  fun _ => ⟨[], (List.append_nil _).symm, h⟩

protected theorem fail {e : ε} (h : Q (.error e) []) :
    Yields Q (Program.fail e : Traced S E ε α) :=
  fun _ => ⟨[], (List.append_nil _).symm, h⟩

protected theorem noting {f : Except ε α → List E} (h : ∀ r, Q r (f r)) (p : Program S ε α) :
    Yields Q (noting f p : Traced S E ε α) :=
  fun s => ⟨f (p s.1).1, rfl, h _⟩

protected theorem mono {Q' : Except ε α → List E → Prop} (hQ : ∀ r new, Q r new → Q' r new)
    {p : Traced S E ε α} (h : Yields Q p) : Yields Q' p := by
  intro s
  obtain ⟨new, hlog, hnew⟩ := h s
  exact ⟨new, hlog, hQ _ _ hnew⟩

protected theorem attempt {p : Traced S E ε α} (h : Yields Q p) :
    Yields (fun r new => ∃ outcome, r = .ok outcome ∧ Q outcome new) (Program.attempt p) := by
  intro s
  obtain ⟨new, hlog, hnew⟩ := h s
  exact ⟨new, hlog, _, rfl, hnew⟩

/-- A part that fails is all there is; after one that does not, the second part
adds its events. -/
protected theorem bind {Q' : Except ε β → List E → Prop} {p : Traced S E ε α}
    {k : α → Traced S E ε β} (hp : Yields Q p)
    (hfail : ∀ e new, Q (.error e) new → Q' (.error e) new)
    (hk : ∀ a new, Q (.ok a) new → Yields (fun r new' => Q' r (new ++ new')) (k a)) :
    Yields Q' (p >>= k) := by
  intro s
  obtain ⟨new, hlog, hnew⟩ := hp s
  rcases hrun : p s with ⟨e | a, s₁⟩
  · rw [Program.run_bind_error hrun]
    rw [hrun] at hlog hnew
    exact ⟨new, hlog, hfail e new hnew⟩
  · rw [Program.run_bind_ok hrun]
    rw [hrun] at hlog hnew
    obtain ⟨new', hlog', hnew'⟩ := hk a new hnew s₁
    refine ⟨new ++ new', ?_, hnew'⟩
    rw [hlog', hlog, List.append_assoc]

end Yields

end Traced

end MBootCore
