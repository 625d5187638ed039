import MBootCore.Support.FiniteGraph
import Mathlib.Data.List.Basic

/-!
# DepthFirst — searching a graph for a cycle

What a depth-first search knows half way. The nodes it has visited are those on
the path it is on and those it is done with; `Inv` says that the path is one of
the graph and that no cycle goes through a node it is done with. `enter` and
`leave` are what it does at a node, and `acyclic_of_visited` what it has found
out when no node is left.

A search that stops at a cycle and one that goes on behind it both keep this
invariant up to the first cycle.
-/

namespace MBootCore.DepthFirst

open FiniteGraph

variable {α : Type} {g : FiniteGraph α}

/-- All that can be reached from a node that is done is done, and nothing of it
lies on a cycle. -/
structure Explored (g : FiniteGraph α) (done : α → Prop) : Prop where
  closed : ∀ u v, done u → g.Edge u v → done v
  acyclic : ∀ v, done v → ¬ Relation.TransGen g.Edge v v

namespace Explored

variable {done : α → Prop}

theorem none : Explored g fun _ => False where
  closed _ _ h := h.elim
  acyclic _ h := h.elim

theorem reached (h : Explored g done) {u v : α} (hu : done u)
    (hreach : Relation.TransGen g.Edge u v) : done v := by
  induction hreach with
  | single hedge => exact h.closed _ _ hu hedge
  | tail _ hedge ih => exact h.closed _ _ ih hedge

/-- A node is done once its successors are. -/
theorem finish (h : Explored g done) {v : α} (hv : ¬ done v)
    (hsuccs : ∀ w, g.Edge v w → done w) : Explored g fun w => done w ∨ w = v where
  closed u w hu hedge := by
    rcases hu with hu | rfl
    · exact .inl (h.closed u w hu hedge)
    · exact .inl (hsuccs w hedge)
  acyclic u hu hcycle := by
    rcases hu with hu | rfl
    · exact h.acyclic u hu hcycle
    · -- the cycle leaves through a successor, from which there is no way back
      obtain ⟨w, hedge, hback⟩ := Relation.TransGen.head'_iff.mp hcycle
      have hw : done w := hsuccs w hedge
      rcases Relation.reflTransGen_iff_eq_or_transGen.mp hback with rfl | hback
      · exact hv hw
      · exact hv (h.reached hw hback)

theorem acyclic_of_all (h : Explored g done) (hall : ∀ v ∈ g.nodes, done v) : g.Acyclic := by
  intro v hcycle
  obtain ⟨_, hedge, -⟩ := Relation.TransGen.head'_iff.mp hcycle
  exact h.acyclic v (hall v hedge.1) hcycle

end Explored

/-- The path the search is on, and the nodes it has visited so far. -/
structure Inv (g : FiniteGraph α) (visited path : List α) : Prop where
  subset : path ⊆ visited
  explored : Explored g fun v => v ∈ visited ∧ v ∉ path

namespace Inv

variable {visited path : List α} {v : α}

theorem start (g : FiniteGraph α) : Inv g [] [] where
  subset := List.Subset.refl _
  explored := by
    simpa using Explored.none

theorem enter (h : Inv g visited path) (hv : v ∉ visited) :
    Inv g (v :: visited) (path ++ [v]) where
  subset := by
    intro w hw
    rcases List.mem_append.mp hw with hw | hw
    · exact List.mem_cons_of_mem _ (h.subset hw)
    · exact List.mem_cons.mpr (.inl (List.mem_singleton.mp hw))
  explored := by
    have hdone : ∀ w, (w ∈ v :: visited ∧ w ∉ path ++ [v]) ↔ (w ∈ visited ∧ w ∉ path) := by
      intro w
      simp only [List.mem_cons, List.mem_append, List.not_mem_nil, or_false, not_or]
      constructor
      · rintro ⟨rfl | hw, hpath, hne⟩
        · exact absurd rfl hne
        · exact ⟨hw, hpath⟩
      · rintro ⟨hw, hpath⟩
        exact ⟨.inr hw, hpath, fun heq => hv (heq ▸ hw)⟩
    simpa only [hdone] using h.explored

theorem leave (h : Inv g visited (path ++ [v])) (hv : v ∉ path)
    (hsuccs : ∀ w, g.Edge v w → w ∈ visited ∧ w ∉ path ++ [v]) : Inv g visited path where
  subset _ hw := h.subset (List.mem_append_left _ hw)
  explored := by
    have hvisited : v ∈ visited :=
      h.subset (List.mem_append_right _ (List.mem_singleton_self _))
    have hfinish := h.explored.finish (v := v) (by simp) hsuccs
    have hdone : ∀ w, ((w ∈ visited ∧ w ∉ path ++ [v]) ∨ w = v) ↔
        (w ∈ visited ∧ w ∉ path) := by
      intro w
      simp only [List.mem_append, List.mem_singleton, not_or]
      constructor
      · rintro (⟨hw, hpath, -⟩ | rfl)
        · exact ⟨hw, hpath⟩
        · exact ⟨hvisited, hv⟩
      · rintro ⟨hw, hpath⟩
        by_cases heq : w = v
        · exact .inr heq
        · exact .inl ⟨hw, hpath, heq⟩
    simpa only [hdone] using hfinish

/-- A search that is back at the start and has seen all nodes. -/
theorem acyclic_of_visited (h : Inv g visited []) (hall : ∀ v ∈ g.nodes, v ∈ visited) :
    g.Acyclic :=
  h.explored.acyclic_of_all fun v hv => ⟨hall v hv, List.not_mem_nil⟩

end Inv

/-! ## Nodes left -/

variable [DecidableEq α]

/-- The number of nodes not visited yet. -/
def unvisited (g : FiniteGraph α) (visited : List α) : Nat :=
  (g.nodes.filter (· ∉ visited)).length

theorem unvisited_anti {visited visited' : List α} (h : visited ⊆ visited') :
    unvisited g visited' ≤ unvisited g visited := by
  refine (List.monotone_filter_right g.nodes fun v => ?_).length_le
  simpa using fun hv hmem => hv (h hmem)

theorem unvisited_cons {visited : List α} {v : α} (hv : v ∈ g.nodes) (hnew : v ∉ visited) :
    unvisited g (v :: visited) < unvisited g visited := by
  have hfilter : g.nodes.filter (· ∉ v :: visited)
      = (g.nodes.filter (· ∉ visited)).filter (· ≠ v) := by
    rw [List.filter_filter]
    congr 1
    ext w
    simp
  rw [unvisited, unvisited, hfilter]
  refine List.length_filter_lt_length_iff_exists.mpr ⟨v, ?_, by simp⟩
  simpa using ⟨hv, hnew⟩

end MBootCore.DepthFirst
