/-!
# Program — stateful programs that may fail

A method of a class with mutable fields that returns a value or an error:
a function from the state to an outcome and the state left behind. An error
does not undo what was done before it, so the state is returned on both
outcomes, and "return early on error" is the monad's bind.

Two ways to reason about a program are packaged here. `bind_eq_ok` takes a
successful run of a sequence apart into the runs of its parts. `Steps R p`
says that every run of `p`, failing or not, moves the state along `R`; for a
reflexive and transitive `R` it is closed under sequencing, which is how an
invariant or a frame condition of a whole method is assembled from those of
its statements. `Simulates f p q` says that `q` does on `f s` what `p` does on
`s`, with the same outcome; it is closed under the same combinators and moves
a result about a program over an abstract state to one over the real state.
-/

namespace MBootCore

/-- A program over the state `S` with errors in `ε` and results in `α`. -/
abbrev Program (S ε α : Type) : Type := S → Except ε α × S

namespace Program

variable {S T ε α β : Type}

protected def pure (a : α) : Program S ε α := fun s => (.ok a, s)

def fail (e : ε) : Program S ε α := fun s => (.error e, s)

protected def bind (p : Program S ε α) (f : α → Program S ε β) : Program S ε β := fun s =>
  match p s with
  | (.ok a, s') => f a s'
  | (.error e, s') => (.error e, s')

instance : Monad (Program S ε) where
  pure := Program.pure
  bind := Program.bind

def get : Program S ε S := fun s => (.ok s, s)

/-- Read a part of the state. -/
def gets (g : S → α) : Program S ε α := fun s => (.ok (g s), s)

def modify (f : S → S) : Program S ε Unit := fun s => (.ok (), f s)

/-- Run `p` and hand its outcome to the caller instead of returning early. -/
def attempt (p : Program S ε α) : Program S ε (Except ε α) := fun s =>
  ((.ok (p s).1), (p s).2)

/-- Run `p` for its effect only. -/
def void (p : Program S ε α) : Program S ε Unit := p >>= fun _ => pure ()

/-- A computed outcome as a program that leaves the state alone. -/
def ofExcept (r : Except ε α) : Program S ε α := fun s => (r, s)

/-- Run `p` under another type of errors. -/
def mapError {δ : Type} (f : ε → δ) (p : Program S ε α) : Program S δ α := fun s =>
  ((p s).1.mapError f, (p s).2)

/-- `if (g) return e;`. -/
def failIf (g : S → Bool) (e : ε) : Program S ε Unit := fun s =>
  (if g s then .error e else .ok (), s)

/-- Run a program of a part of the state: `view` takes the part out and `put`
puts it back. -/
def zoom (view : T → S) (put : S → T → T) (p : Program S ε α) : Program T ε α := fun t =>
  ((p (view t)).1, put (p (view t)).2 t)

/-- `while (true)`: run `body` until it returns `false`. The loop gives up with
`out` after `fuel` rounds; where the rounds are bounded by a measure the fuel
does not show (`EndsWithin.repeatWhile_add`). -/
def repeatWhile (body : Program S ε Bool) (out : ε) : Nat → Program S ε Unit
  | 0 => fail out
  | fuel + 1 => do
    if ← body then repeatWhile body out fuel else pure ()

/-- Try `p` once more when it fails where the state allows it. -/
def retryOnce (again : S → Prop) [DecidablePred again] (p : Program S ε Unit) :
    Program S ε Unit := do
  match ← attempt p with
  | .ok () => pure ()
  | .error e =>
    let retries ← gets fun s => decide (again s)
    if retries then p else fail e

/-! ## Running the combinators -/

@[simp] theorem run_pure (a : α) (s : S) : (pure a : Program S ε α) s = (.ok a, s) := rfl

@[simp] theorem run_fail (e : ε) (s : S) : (fail e : Program S ε α) s = (.error e, s) := rfl

@[simp] theorem run_get (s : S) : (get : Program S ε S) s = (.ok s, s) := rfl

@[simp] theorem run_gets (g : S → α) (s : S) :
    (gets g : Program S ε α) s = (.ok (g s), s) := rfl

@[simp] theorem run_modify (f : S → S) (s : S) :
    (modify f : Program S ε Unit) s = (.ok (), f s) := rfl

@[simp] theorem run_attempt (p : Program S ε α) (s : S) :
    attempt p s = (.ok (p s).1, (p s).2) := rfl

@[simp] theorem run_void_state (p : Program S ε α) (s : S) : (void p s).2 = (p s).2 := by
  simp only [void, Bind.bind, Program.bind]
  rcases p s with ⟨e | a, s₁⟩ <;> rfl

@[simp] theorem run_ofExcept (r : Except ε α) (s : S) :
    (ofExcept r : Program S ε α) s = (r, s) := rfl

theorem run_failIf (g : S → Bool) (e : ε) (s : S) :
    (failIf g e : Program S ε Unit) s = (if g s then .error e else .ok (), s) := rfl

theorem run_zoom (view : T → S) (put : S → T → T) (p : Program S ε α) (t : T) :
    zoom view put p t = ((p (view t)).1, put (p (view t)).2 t) := rfl

theorem run_bind (p : Program S ε α) (f : α → Program S ε β) (s : S) :
    (p >>= f) s = match p s with
      | (.ok a, s') => f a s'
      | (.error e, s') => (.error e, s') := rfl

theorem run_bind_ok {p : Program S ε α} {f : α → Program S ε β} {s s' : S} {a : α}
    (h : p s = (.ok a, s')) : (p >>= f) s = f a s' := by
  rw [run_bind, h]

theorem run_bind_error {p : Program S ε α} {f : α → Program S ε β} {s s' : S} {e : ε}
    (h : p s = (.error e, s')) : (p >>= f) s = (.error e, s') := by
  rw [run_bind, h]

protected theorem pure_bind (a : α) (f : α → Program S ε β) :
    (pure a >>= f : Program S ε β) = f a := rfl

protected theorem bind_assoc {γ : Type} (p : Program S ε α) (f : α → Program S ε β)
    (g : β → Program S ε γ) : p >>= f >>= g = p >>= fun a => f a >>= g := by
  funext s
  rw [run_bind, run_bind, run_bind]
  rcases p s with ⟨e | a, s₁⟩ <;> rfl

/-- A sequence succeeds exactly when both parts do, one from where the other
ended. -/
theorem bind_eq_ok {p : Program S ε α} {f : α → Program S ε β} {s s' : S} {b : β} :
    (p >>= f) s = (.ok b, s') ↔ ∃ a s₁, p s = (.ok a, s₁) ∧ f a s₁ = (.ok b, s') := by
  rw [run_bind]
  cases h : p s with
  | mk r s₁ =>
    cases r with
    | error e => simp
    | ok a =>
      constructor
      · intro hf
        exact ⟨a, s₁, rfl, hf⟩
      · rintro ⟨a', s₂, heq, hf⟩
        obtain ⟨rfl, rfl⟩ : a = a' ∧ s₁ = s₂ := by simpa using heq
        exact hf

theorem mapError_ok {δ : Type} (f : ε → δ) {p : Program S ε α} {s s' : S} {a : α}
    (h : p s = (.ok a, s')) : mapError f p s = (.ok a, s') := by
  rw [mapError, h]
  rfl

theorem mapError_error {δ : Type} (f : ε → δ) {p : Program S ε α} {s s' : S} {e : ε}
    (h : p s = (.error e, s')) : mapError f p s = (.error (f e), s') := by
  rw [mapError, h]
  rfl

theorem mapError_failIf {δ : Type} (f : ε → δ) (g : S → Bool) (e : ε) :
    mapError f (failIf g e) = failIf g (f e) := by
  funext s
  rw [mapError, run_failIf, run_failIf]
  cases g s <;> rfl

theorem failIf_eq_ok {g : S → Bool} {e : ε} {s s' : S} :
    (failIf g e : Program S ε Unit) s = (.ok (), s') ↔ g s = false ∧ s = s' := by
  rw [run_failIf]
  cases g s <;> simp

/-- A run that ended well, with its result and the state it left. -/
theorem eq_ok_of_isOk {p : Program S ε α} {s : S} (h : (p s).1.isOk = true) :
    ∃ a, p s = (.ok a, (p s).2) := by
  rcases hp : p s with ⟨e | a, s₁⟩
  · rw [hp] at h
    cases h
  · exact ⟨a, rfl⟩

/-- A first try that ends well is the only one. -/
theorem retryOnce_ok {again : S → Prop} [DecidablePred again] {p : Program S ε Unit} {s t : S}
    (h : p s = (.ok (), t)) : retryOnce again p s = (.ok (), t) := by
  rw [retryOnce, run_bind, run_attempt, h]
  rfl

theorem void_eq_ok {p : Program S ε α} {s s' : S} :
    void p s = (.ok (), s') ↔ ∃ a, p s = (.ok a, s') := by
  rw [void, run_bind]
  rcases p s with ⟨e | a, s₁⟩ <;> simp

/-- A part of the state succeeds exactly when its program does there. -/
theorem zoom_eq_ok {view : T → S} {put : S → T → T} {p : Program S ε α} {t t' : T} {a : α} :
    zoom view put p t = (.ok a, t') ↔ ∃ s, p (view t) = (.ok a, s) ∧ t' = put s t := by
  rw [run_zoom, Prod.mk.injEq]
  constructor
  · rintro ⟨hr, rfl⟩
    exact ⟨(p (view t)).2, by rw [← hr], rfl⟩
  · rintro ⟨s, hp, rfl⟩
    rw [hp]
    exact ⟨rfl, rfl⟩

/-! ## Loops -/

section Loops

variable {body : Program S ε Bool} {out : ε}

theorem repeatWhile_error {s t : S} {e : ε} (h : body s = (.error e, t)) (fuel : Nat) :
    repeatWhile body out (fuel + 1) s = (.error e, t) :=
  run_bind_error h

theorem repeatWhile_break {s t : S} (h : body s = (.ok false, t)) (fuel : Nat) :
    repeatWhile body out (fuel + 1) s = (.ok (), t) :=
  run_bind_ok h

theorem repeatWhile_continue {s t : S} (h : body s = (.ok true, t)) (fuel : Nat) :
    repeatWhile body out (fuel + 1) s = repeatWhile body out fuel t :=
  run_bind_ok h

/-- One of the first `n` rounds breaks or fails. -/
def EndsWithin (body : Program S ε Bool) : Nat → S → Prop
  | 0, _ => False
  | n + 1, s => ∀ t, body s = (.ok true, t) → EndsWithin body n t

/-- A measure that every round lowers bounds the rounds. -/
theorem endsWithin_of_measure (μ : S → Nat) (hμ : ∀ s t, body s = (.ok true, t) → μ t < μ s)
    {n : Nat} {s : S} (hn : μ s < n) : EndsWithin body n s := by
  induction n generalizing s with
  | zero => omega
  | succ n ih =>
    intro t hbody
    have hless := hμ s t hbody
    exact ih (by omega)

/-- The fuel of a loop that ends within it does not show. -/
theorem EndsWithin.repeatWhile_add {n : Nat} {s : S} (h : EndsWithin body n s) (more : Nat) :
    repeatWhile body out (n + more) s = repeatWhile body out n s := by
  induction n generalizing s with
  | zero => exact h.elim
  | succ n ih =>
    rw [Nat.succ_add]
    rcases hbody : body s with ⟨e | continues, t⟩
    · rw [repeatWhile_error hbody, repeatWhile_error hbody]
    · cases continues with
      | false => rw [repeatWhile_break hbody, repeatWhile_break hbody]
      | true =>
        rw [repeatWhile_continue hbody, repeatWhile_continue hbody]
        exact ih (h t hbody)

/-- A loop that returns has broken out of some round; what every round keeps
holds where that round began. -/
theorem repeatWhile_ok (I : S → Prop) (hI : ∀ s t, I s → body s = (.ok true, t) → I t)
    {fuel : Nat} {s t : S} (hs : I s) (h : repeatWhile body out fuel s = (.ok (), t)) :
    ∃ s', I s' ∧ body s' = (.ok false, t) := by
  induction fuel generalizing s with
  | zero => cases h
  | succ fuel ih =>
    rcases hbody : body s with ⟨e | continues, s₁⟩
    · rw [repeatWhile_error hbody] at h
      cases h
    · cases continues with
      | false =>
        rw [repeatWhile_break hbody, Prod.mk.injEq] at h
        exact ⟨s, hs, h.2 ▸ hbody⟩
      | true =>
        rw [repeatWhile_continue hbody] at h
        exact ih (hI s s₁ hs hbody) h

/-- What every round that goes on keeps, and every round leads to, holds where the
loop ends, however it ends. -/
theorem repeatWhile_final (I J : S → Prop) (hI : ∀ s t, I s → body s = (.ok true, t) → I t)
    (hJ : ∀ s, I s → J (body s).2) (hout : ∀ s, I s → J s) {s : S} (hs : I s) (fuel : Nat) :
    J (repeatWhile body out fuel s).2 := by
  induction fuel generalizing s with
  | zero => exact hout s hs
  | succ fuel ih =>
    have hround := hJ s hs
    rcases hbody : body s with ⟨e | continues, t⟩
    · rw [hbody] at hround
      rw [repeatWhile_error hbody]
      exact hround
    · rw [hbody] at hround
      cases continues with
      | false =>
        rw [repeatWhile_break hbody]
        exact hround
      | true =>
        rw [repeatWhile_continue hbody]
        exact ih (hI s t hs hbody)

end Loops

/-! ## Fuel -/

/-- With enough fuel more of it makes no difference. -/
def Halts (p : Nat → Program S ε α) (s : S) : Prop := ∃ n, ∀ m, n ≤ m → p m s = p n s

namespace Halts

theorem of_done {p : Nat → Program S ε α} {s : S} {r : Except ε α × S}
    (h : ∀ fuel, p (fuel + 1) s = r) : Halts p s := by
  refine ⟨1, fun m hm => ?_⟩
  obtain ⟨m, rfl⟩ : ∃ n, m = n + 1 := ⟨m - 1, by omega⟩
  rw [h, ← h 0]

/-- A program that takes one unit of fuel to get to one that halts. -/
theorem of_step {p q : Nat → Program S ε α} {s t : S} (hstep : ∀ fuel, p (fuel + 1) s = q fuel t)
    (h : Halts q t) : Halts p s := by
  obtain ⟨n, hn⟩ := h
  refine ⟨n + 1, fun m hm => ?_⟩
  obtain ⟨m, rfl⟩ : ∃ k, m = k + 1 := ⟨m - 1, by omega⟩
  rw [hstep, hstep, hn m (by omega)]

/-- What follows a program that halts. -/
protected theorem bind {p : Nat → Program S ε α} {s : S} (h : Halts p s)
    (k : α → Program S ε β) : Halts (fun fuel => p fuel >>= k) s := by
  obtain ⟨n, hn⟩ := h
  refine ⟨n, fun m hm => ?_⟩
  simp only [run_bind, hn m hm]

/-- A program without fuel, and what follows it. -/
theorem bind_iff {p : Program S ε α} {k : Nat → α → Program S ε β} {s : S} :
    Halts (fun fuel => p >>= k fuel) s ↔
      ∀ a t, p s = (.ok a, t) → Halts (fun fuel => k fuel a) t := by
  rcases hp : p s with ⟨e | a, t⟩
  · refine iff_of_true ⟨0, fun m _ => ?_⟩ (by rintro a t ⟨⟩)
    simp only [run_bind_error hp]
  · constructor
    · rintro ⟨n, hn⟩ a' t' ⟨⟩
      refine ⟨n, fun m hm => ?_⟩
      have hsame := hn m hm
      simp only [run_bind_ok hp] at hsame
      exact hsame
    · intro h
      obtain ⟨n, hn⟩ := h a t rfl
      refine ⟨n, fun m hm => ?_⟩
      simp only [run_bind_ok hp]
      exact hn m hm

end Halts

/-! ## Two-state relations -/

/-- Every run of `p` moves the state along `R`, whatever its outcome. -/
def Steps (R : S → S → Prop) (p : Program S ε α) : Prop := ∀ s, R s (p s).2

namespace Steps

variable {R : S → S → Prop}

protected theorem pure (hr : ∀ s, R s s) (a : α) : Steps R (pure a : Program S ε α) :=
  fun s => hr s

protected theorem fail (hr : ∀ s, R s s) (e : ε) : Steps R (fail e : Program S ε α) :=
  fun s => hr s

protected theorem get (hr : ∀ s, R s s) : Steps R (get : Program S ε S) :=
  fun s => hr s

protected theorem gets (hr : ∀ s, R s s) (g : S → α) : Steps R (gets g : Program S ε α) :=
  fun s => hr s

protected theorem ofExcept (hr : ∀ s, R s s) (r : Except ε α) :
    Steps R (ofExcept r : Program S ε α) :=
  fun s => hr s

protected theorem failIf (hr : ∀ s, R s s) (g : S → Bool) (e : ε) :
    Steps R (failIf g e : Program S ε Unit) :=
  fun s => hr s

protected theorem modify {f : S → S} (h : ∀ s, R s (f s)) :
    Steps R (modify f : Program S ε Unit) :=
  h

protected theorem attempt {p : Program S ε α} (h : Steps R p) : Steps R (attempt p) :=
  h

protected theorem bind (ht : ∀ ⦃a b c⦄, R a b → R b c → R a c) {p : Program S ε α}
    {f : α → Program S ε β} (hp : Steps R p) (hf : ∀ a, Steps R (f a)) :
    Steps R (p >>= f) := by
  intro s
  have h := hp s
  rw [run_bind]
  cases hps : p s with
  | mk r s₁ =>
    rw [hps] at h
    cases r with
    | error e => exact h
    | ok a => exact ht h (hf a s₁)

protected theorem void {p : Program S ε α} (h : Steps R p) : Steps R (void p) := by
  intro s
  rw [run_void_state]
  exact h s

protected theorem retryOnce (hr : ∀ s, R s s) (ht : ∀ ⦃a b c⦄, R a b → R b c → R a c)
    (again : S → Prop) [DecidablePred again] {p : Program S ε Unit} (h : Steps R p) :
    Steps R (retryOnce again p) := by
  refine Steps.bind ht (Steps.attempt h) fun r => ?_
  cases r with
  | ok => exact Steps.pure hr ()
  | error e =>
    refine Steps.bind ht (Steps.gets hr _) fun retries => ?_
    by_cases hretries : retries = true
    · simp only [if_pos hretries]
      exact h
    · simp only [if_neg hretries]
      exact Steps.fail hr e

protected theorem repeatWhile (hr : ∀ s, R s s) (ht : ∀ ⦃a b c⦄, R a b → R b c → R a c)
    {body : Program S ε Bool} (h : Steps R body) (out : ε) (fuel : Nat) :
    Steps R (repeatWhile body out fuel) := by
  induction fuel with
  | zero => exact Steps.fail hr out
  | succ fuel ih =>
    refine Steps.bind ht h fun continues => ?_
    cases continues with
    | false => exact Steps.pure hr ()
    | true => exact ih

end Steps

/-! ## Frames -/

/-- Every run of `p`, whatever its outcome, leaves `g` of the state as it was. -/
def Preserves {γ : Type} (g : S → γ) (p : Program S ε α) : Prop := Steps (fun s t => g t = g s) p

namespace Preserves

variable {γ δ : Type} {g : S → γ}

protected theorem pure (a : α) : Preserves g (pure a : Program S ε α) := fun _ => rfl

protected theorem fail (e : ε) : Preserves g (fail e : Program S ε α) := fun _ => rfl

protected theorem gets (f : S → α) : Preserves g (gets f : Program S ε α) :=
  fun _ => rfl

protected theorem ofExcept (r : Except ε α) : Preserves g (ofExcept r : Program S ε α) :=
  fun _ => rfl

protected theorem modify {f : S → S} (h : ∀ s, g (f s) = g s) :
    Preserves g (modify f : Program S ε Unit) :=
  Steps.modify h

protected theorem attempt {p : Program S ε α} (h : Preserves g p) : Preserves g (attempt p) :=
  Steps.attempt h

protected theorem retryOnce (again : S → Prop) [DecidablePred again] {p : Program S ε Unit}
    (h : Preserves g p) : Preserves g (retryOnce again p) :=
  Steps.retryOnce (R := fun s t => g t = g s) (fun _ => rfl)
    (fun _ _ _ h h' => Eq.trans h' h) again h

/-- What is kept is kept in part. -/
protected theorem map (f : γ → δ) {p : Program S ε α} (h : Preserves g p) :
    Preserves (fun s => f (g s)) p :=
  fun s => congrArg f (h s)

protected theorem void {p : Program S ε α} (h : Preserves g p) : Preserves g (void p) :=
  Steps.void h

protected theorem bind {p : Program S ε α} {f : α → Program S ε β} (hp : Preserves g p)
    (hf : ∀ a, Preserves g (f a)) : Preserves g (p >>= f) :=
  Steps.bind (R := fun s t => g t = g s) (fun _ _ _ h h' => Eq.trans h' h) hp hf

/-- A program of a part of the state keeps what the part determines of it. -/
protected theorem zoom {view : T → S} {put : S → T → T} {g' : T → δ}
    (h : ∀ t s, g s = g (view t) → g' (put s t) = g' t) {p : Program S ε α} (hp : Preserves g p) :
    Preserves g' (zoom view put p) :=
  fun t => h t _ (hp (view t))

end Preserves

/-! ## Simulation -/

/-- `q` does on `f s` what `p` does on `s`. -/
def Simulates (f : S → T) (p : Program S ε α) (q : Program T ε α) : Prop :=
  ∀ s, q (f s) = ((p s).1, f (p s).2)

namespace Simulates

variable {f : S → T}

protected theorem pure (a : α) : Simulates f (pure a : Program S ε α) (pure a) := fun _ => rfl

protected theorem fail (e : ε) : Simulates f (fail e : Program S ε α) (fail e) := fun _ => rfl

protected theorem gets {g : S → α} {g' : T → α} (h : ∀ s, g' (f s) = g s) :
    Simulates f (gets g : Program S ε α) (gets g') := by
  intro s
  rw [run_gets, run_gets, h]

protected theorem modify {g : S → S} {g' : T → T} (h : ∀ s, g' (f s) = f (g s)) :
    Simulates f (modify g : Program S ε Unit) (modify g') := by
  intro s
  rw [run_modify, run_modify, h]

protected theorem attempt {p : Program S ε α} {q : Program T ε α} (h : Simulates f p q) :
    Simulates f (attempt p) (attempt q) := by
  intro s
  rw [run_attempt, run_attempt, h s]

protected theorem bind {p : Program S ε α} {q : Program T ε α} {k : α → Program S ε β}
    {k' : α → Program T ε β} (hp : Simulates f p q) (hk : ∀ a, Simulates f (k a) (k' a)) :
    Simulates f (p >>= k) (q >>= k') := by
  intro s
  rw [run_bind, run_bind, hp s]
  rcases p s with ⟨e | a, s₁⟩
  · rfl
  · exact hk a s₁

/-- A run of the abstract program is a run of the real one. -/
theorem run {p : Program S ε α} {q : Program T ε α} (h : Simulates f p q) {s : S} {t : T}
    {r : Except ε α} (hq : q (f s) = (r, t)) : ∃ s', p s = (r, s') ∧ f s' = t := by
  have hs := h s
  rw [hq, Prod.mk.injEq] at hs
  exact ⟨(p s).2, by rw [hs.1], hs.2.symm⟩

end Simulates

end Program

end MBootCore
