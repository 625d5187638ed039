import Mathlib.Data.List.Chain
import Mathlib.Data.List.TakeWhile
import Mathlib.Logic.Relation

/-!
# FiniteGraph — graphs, cycles and closed walks
-/

namespace MBootCore

/-- A finite graph, each node with the ends of its edges. -/
structure FiniteGraph (α : Type) where
  nodes : List α
  nodup : nodes.Nodup
  succs : α → List α
  closed : ∀ u ∈ nodes, ∀ v ∈ succs u, v ∈ nodes

namespace FiniteGraph

variable {α : Type}

def Edge (g : FiniteGraph α) (u v : α) : Prop := u ∈ g.nodes ∧ v ∈ g.succs u

def Acyclic (g : FiniteGraph α) : Prop := ∀ v, ¬ Relation.TransGen g.Edge v v

/-- A walk along the edges, of one edge or more, that ends where it began. -/
def ClosedWalk (edge : α → α → Prop) (walk : List α) : Prop :=
  ∃ v middle, walk = v :: (middle ++ [v]) ∧ walk.IsChain edge

variable {edge : α → α → Prop}

theorem transGen_of_isChain {u v : α} {middle : List α}
    (h : (u :: (middle ++ [v])).IsChain edge) : Relation.TransGen edge u v := by
  induction middle generalizing u with
  | nil => exact .single (List.isChain_pair.mp h)
  | cons w middle ih =>
    rw [List.cons_append, List.isChain_cons_cons] at h
    exact .head h.1 (ih h.2)

theorem ClosedWalk.cycle {walk : List α} (h : ClosedWalk edge walk) :
    ∃ v, Relation.TransGen edge v v := by
  obtain ⟨v, middle, rfl, hchain⟩ := h
  exact ⟨v, transGen_of_isChain hchain⟩

theorem ClosedWalk.ne_nil {walk : List α} (h : ClosedWalk edge walk) : walk ≠ [] := by
  obtain ⟨v, middle, rfl, -⟩ := h
  exact List.cons_ne_nil _ _

theorem isChain_snoc {path : List α} {u v : α} (h : (path ++ [u]).IsChain edge)
    (hedge : edge u v) : (path ++ [u] ++ [v]).IsChain edge := by
  refine h.append (List.isChain_singleton v) ?_
  intro last hlast first hfirst
  obtain rfl : u = last := by simpa using hlast
  obtain rfl : v = first := by simpa using hfirst
  exact hedge

/-- An edge back into a path closes the part of the path from there on. -/
theorem closedWalk_of_path [DecidableEq α] {path : List α} {v : α}
    (hchain : (path ++ [v]).IsChain edge) (hv : v ∈ path) :
    ClosedWalk edge (path.dropWhile (· ≠ v) ++ [v]) := by
  have hsuffix : path.dropWhile (· ≠ v) ++ [v] <:+ path ++ [v] :=
    ⟨path.takeWhile (· ≠ v), by rw [← List.append_assoc, List.takeWhile_append_dropWhile]⟩
  have hchain' := hchain.suffix hsuffix
  cases hdrop : path.dropWhile (· ≠ v) with
  | nil =>
    have hnone := List.dropWhile_eq_nil_iff.mp hdrop v hv
    simp at hnone
  | cons w rest =>
    have hhead := List.head?_dropWhile_not (fun u => decide (u ≠ v)) path
    rw [hdrop] at hhead hchain'
    obtain rfl : w = v := by simpa using hhead
    exact ⟨w, rest, rfl, hchain'⟩

/-! ## A new node -/

section NewNode

variable {old new : α → α → Prop} {x : α}

/-- A path with a new node in it can be left at that node. -/
theorem transGen_old_or_reached (hold : ∀ u v, new u v → u ≠ x → v ≠ x → old u v) {u v : α}
    (h : Relation.TransGen new u v) :
    Relation.TransGen old u v ∨ Relation.ReflTransGen new x v := by
  induction h with
  | @single v hedge =>
    by_cases hv : v = x
    · exact .inr (hv ▸ .refl)
    · by_cases hu : u = x
      · exact .inr (hu ▸ .single hedge)
      · exact .inl (.single (hold u v hedge hu hv))
  | @tail w v hpath hedge ih =>
    rcases ih with holds | hreached
    · by_cases hv : v = x
      · exact .inr (hv ▸ .refl)
      · by_cases hw : w = x
        · exact .inr (hw ▸ .single hedge)
        · exact .inl (holds.tail (hold w v hedge hw hv))
    · exact .inr (hreached.tail hedge)

/-- A new node only closes cycles that can be reached from it. -/
theorem cycle_reached (hold : ∀ u v, new u v → u ≠ x → v ≠ x → old u v)
    (hacyclic : ∀ v, ¬ Relation.TransGen old v v) {v : α} (hcycle : Relation.TransGen new v v) :
    Relation.ReflTransGen new x v :=
  (transGen_old_or_reached hold hcycle).resolve_left (hacyclic v)

end NewNode

/-- A cycle is reached from a node when it is from one of the node's successors. -/
theorem reaches_cycle_iff {u : α} :
    (∃ v, Relation.ReflTransGen edge u v ∧ Relation.TransGen edge v v) ↔
      ∃ w, edge u w ∧ ∃ v, Relation.ReflTransGen edge w v ∧ Relation.TransGen edge v v := by
  constructor
  · rintro ⟨v, hreach, hcycle⟩
    rcases Relation.ReflTransGen.cases_head hreach with rfl | ⟨w, hedge, hback⟩
    · obtain ⟨w, hedge, hback⟩ := Relation.TransGen.head'_iff.mp hcycle
      exact ⟨w, hedge, u, hback, hcycle⟩
    · exact ⟨w, hedge, v, hback, hcycle⟩
  · rintro ⟨w, hedge, v, hreach, hcycle⟩
    exact ⟨v, .head hedge hreach, hcycle⟩

end FiniteGraph

end MBootCore
