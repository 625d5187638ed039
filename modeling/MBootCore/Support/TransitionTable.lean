/-!
# TransitionTable — state machines given by a list of edges

A machine whose behaviour is a table searched from the front: the first edge
that leaves the current state on the event is taken, and an event with no
edge is refused and leaves the state alone. Several machines of this
development are written that way, so their common theory is stated once, over
arbitrary state and event types.

`Confined` is the invariant rule: a set of states that no edge on the given
events leaves holds every state a run of such events reaches.
-/

namespace MBootCore.TransitionTable

structure Edge (σ ε : Type) where
  fromState : σ
  toState : σ
  event : ε
  deriving DecidableEq, Repr

variable {σ ε : Type} [DecidableEq σ] [DecidableEq ε]

/-- Where the first matching edge leads. -/
def next (table : List (Edge σ ε)) (s : σ) (e : ε) : Option σ :=
  (table.find? fun t => t.fromState = s ∧ t.event = e).map Edge.toState

def Enabled (table : List (Edge σ ε)) (s : σ) (e : ε) : Prop := (next table s e).isSome

instance (table : List (Edge σ ε)) (s : σ) (e : ε) : Decidable (Enabled table s e) :=
  inferInstanceAs (Decidable (_ = _))

/-- The state after the event; a refused one changes nothing. -/
def fire (table : List (Edge σ ε)) (s : σ) (e : ε) : σ := (next table s e).getD s

variable {table : List (Edge σ ε)}

/-- A successor comes from an edge of the table. -/
theorem next_eq_some {s s' : σ} {e : ε} (h : next table s e = some s') :
    ∃ t ∈ table, t.fromState = s ∧ t.event = e ∧ t.toState = s' := by
  rw [next, Option.map_eq_some_iff] at h
  obtain ⟨t, hfind, hto⟩ := h
  have hmem := List.mem_of_find?_eq_some hfind
  have hmatch := List.find?_some hfind
  simp only [decide_eq_true_eq] at hmatch
  exact ⟨t, hmem, hmatch.1, hmatch.2, hto⟩

theorem fire_of_not_enabled {s : σ} {e : ε} (h : ¬ Enabled table s e) : fire table s e = s := by
  rw [Enabled, Option.not_isSome_iff_eq_none] at h
  rw [fire, h, Option.getD_none]

/-- An enabled event follows an edge. -/
theorem fire_of_enabled {s : σ} {e : ε} (h : Enabled table s e) :
    ∃ t ∈ table, t.fromState = s ∧ t.event = e ∧ t.toState = fire table s e := by
  obtain ⟨s', hs'⟩ := Option.isSome_iff_exists.mp h
  rw [fire, hs', Option.getD_some]
  exact next_eq_some hs'

/-- No edge on an event of `E` leaves the states `X`. -/
def Confined (table : List (Edge σ ε)) (X : σ → Prop) (E : ε → Prop) : Prop :=
  ∀ t ∈ table, X t.fromState → E t.event → X t.toState

theorem Confined.fire {X : σ → Prop} {E : ε → Prop} (hc : Confined table X E) {s : σ} {e : ε}
    (hs : X s) (he : E e) : X (fire table s e) := by
  by_cases h : Enabled table s e
  · obtain ⟨t, hmem, rfl, rfl, hto⟩ := fire_of_enabled h
    rw [← hto]
    exact hc t hmem hs he
  · rw [fire_of_not_enabled h]
    exact hs

end MBootCore.TransitionTable
