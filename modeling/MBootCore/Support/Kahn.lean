import MBootCore.Support.FiniteGraph
import Mathlib.Data.List.Nodup
import Mathlib.Data.List.Perm.Subperm
import Mathlib.Order.WellFoundedSet

/-!
# Kahn — sorting a graph by its in-degrees

Kahn's algorithm on a finite graph. Every node has a count of the edges that
come into it from nodes not placed yet; nodes without any wait in a queue, and
placing one takes its edges off the counts of its successors.

`Inv` is the invariant of the run, with the edges of the node being placed
that are still to be taken off as a parameter. What it says at the end is
`sort_perm` (an acyclic graph is placed completely, its order a permutation of
the nodes) and `sort_before` (a node comes after all of its predecessors).
-/

namespace MBootCore

namespace Kahn

structure State (α : Type) where
  inDegree : α → Int
  queue : List α
  order : List α

variable {α : Type} [DecidableEq α]

/-- One more edge into `v`. -/
def countEdge (inDegree : α → Int) (v : α) : α → Int :=
  fun w => if w = v then inDegree w + 1 else inDegree w

def inDegrees (succs : α → List α) (nodes : List α) : α → Int :=
  (nodes.flatMap succs).foldl countEdge fun _ => 0

/-- One edge into `v` less; without any left the node is queued. -/
def release (s : State α) (v : α) : State α :=
  let inDegree : α → Int := fun w => if w = v then s.inDegree w - 1 else s.inDegree w
  if inDegree v = 0 then { s with inDegree, queue := s.queue ++ [v] }
  else { s with inDegree }

def loop (succs : α → List α) : Nat → State α → State α
  | 0, s => s
  | fuel + 1, s =>
    match s.queue with
    | [] => s
    | v :: queue =>
      loop succs fuel ((succs v).foldl release { s with queue, order := s.order ++ [v] })

/-! ## Counts -/

theorem foldl_countEdge (edges : List α) (inDegree : α → Int) (v : α) :
    edges.foldl countEdge inDegree v = inDegree v + edges.count v := by
  induction edges generalizing inDegree with
  | nil => simp
  | cons w edges ih =>
    rw [List.foldl_cons, ih, countEdge]
    by_cases h : v = w
    · subst h
      rw [if_pos rfl, List.count_cons_self]
      omega
    · rw [if_neg h, List.count_cons_of_ne (Ne.symm h)]

theorem inDegrees_eq (succs : α → List α) (nodes : List α) (v : α) :
    inDegrees succs nodes v = (nodes.flatMap succs).count v := by
  rw [inDegrees, foldl_countEdge, zero_add]

variable {g : FiniteGraph α}

/-- The nodes of a partial order and the ones it leaves out. -/
theorem nodes_perm {order : List α} (hnodup : order.Nodup) (hsubset : order ⊆ g.nodes) :
    g.nodes.Perm (order ++ g.nodes.filter (· ∉ order)) := by
  have hdisjoint : order.Disjoint (g.nodes.filter (· ∉ order)) := by
    intro v hv hfilter
    simp only [List.mem_filter, decide_eq_true_eq] at hfilter
    exact hfilter.2 hv
  refine (List.perm_ext_iff_of_nodup g.nodup
    (List.Nodup.append hnodup (g.nodup.filter _) hdisjoint)).mpr fun v => ?_
  simp only [List.mem_append, List.mem_filter, decide_eq_true_eq]
  constructor
  · intro hv
    by_cases horder : v ∈ order
    · exact .inl horder
    · exact .inr ⟨hv, horder⟩
  · rintro (hv | ⟨hv, -⟩)
    · exact hsubset hv
    · exact hv

/-- The edges into `v`, by whether they come from a placed node. -/
theorem count_edges {order : List α} (hnodup : order.Nodup) (hsubset : order ⊆ g.nodes) (v : α) :
    (g.nodes.flatMap g.succs).count v = (order.flatMap g.succs).count v
      + ((g.nodes.filter (· ∉ order)).flatMap g.succs).count v := by
  rw [((nodes_perm hnodup hsubset).flatMap_right g.succs).count_eq, List.flatMap_append,
    List.count_append]

/-- All edges into `v` accounted for, all predecessors are placed. -/
theorem placed_of_count {order : List α} (hnodup : order.Nodup) (hsubset : order ⊆ g.nodes)
    {u v : α} (hedge : g.Edge u v)
    (hcount : (order.flatMap g.succs).count v = (g.nodes.flatMap g.succs).count v) :
    u ∈ order := by
  by_contra hplaced
  have hsplit := count_edges hnodup hsubset v
  have hmem : v ∈ (g.nodes.filter (· ∉ order)).flatMap g.succs :=
    List.mem_flatMap.mpr ⟨u, by simpa using ⟨hedge.1, hplaced⟩, hedge.2⟩
  have hpos := List.count_pos_iff.mpr hmem
  omega

/-! ## The invariant -/

/-- The edges `rest` of the node placed last are still to be taken off. -/
structure Inv (g : FiniteGraph α) (rest : List α) (s : State α) : Prop where
  nodup : (s.order ++ s.queue).Nodup
  subset : s.order ++ s.queue ⊆ g.nodes
  degree : ∀ v, s.inDegree v + (s.order.flatMap g.succs).count v
    = (g.nodes.flatMap g.succs).count v + rest.count v
  free : ∀ v ∈ g.nodes, v ∈ s.order ++ s.queue ↔ s.inDegree v = 0
  before : ∀ pre v post, s.order = pre ++ v :: post → ∀ u, g.Edge u v → u ∈ pre

namespace Inv

variable {rest : List α} {s : State α}

theorem order_nodup (h : Inv g rest s) : s.order.Nodup := (List.nodup_append.mp h.nodup).1

theorem order_subset (h : Inv g rest s) : s.order ⊆ g.nodes :=
  fun _ hv => h.subset (List.mem_append_left _ hv)

/-- A node in the queue has its predecessors placed. -/
theorem placed_of_queued (h : Inv g [] s) {u v : α} (hv : v ∈ s.queue) (hedge : g.Edge u v) :
    u ∈ s.order := by
  have hmem : v ∈ s.order ++ s.queue := List.mem_append_right _ hv
  have hzero : s.inDegree v = 0 := (h.free v (h.subset hmem)).mp hmem
  have hdegree := h.degree v
  refine placed_of_count h.order_nodup h.order_subset hedge ?_
  simp only [hzero, List.count_nil] at hdegree
  omega

/-- A node left out has a predecessor left out. -/
theorem exists_unplaced (h : Inv g [] s) (hqueue : s.queue = []) {v : α} (hv : v ∈ g.nodes)
    (hplaced : v ∉ s.order) : ∃ u, g.Edge u v ∧ u ∉ s.order := by
  have hdegree := h.degree v
  have hnonzero : s.inDegree v ≠ 0 := by
    intro hzero
    have hmem := (h.free v hv).mpr hzero
    rw [hqueue, List.append_nil] at hmem
    exact hplaced hmem
  have hsplit := count_edges h.order_nodup h.order_subset v
  have hpos : 0 < ((g.nodes.filter (· ∉ s.order)).flatMap g.succs).count v := by
    simp only [List.count_nil] at hdegree
    omega
  obtain ⟨u, hu, hmem⟩ := List.mem_flatMap.mp (List.count_pos_iff.mp hpos)
  simp only [List.mem_filter, decide_eq_true_eq] at hu
  exact ⟨u, ⟨hu.1, hmem⟩, hu.2⟩

/-- With an empty queue, an acyclic graph is placed completely. -/
theorem order_perm (h : Inv g [] s) (hqueue : s.queue = []) (hacyclic : g.Acyclic) :
    s.order.Perm g.nodes := by
  refine (List.perm_ext_iff_of_nodup h.order_nodup g.nodup).mpr fun v => ?_
  refine ⟨fun hv => h.order_subset hv, fun hv => ?_⟩
  by_contra hplaced
  -- along the edges, no node is the first of those left out
  have hstrict : IsStrictOrder α (Relation.TransGen g.Edge) :=
    { irrefl := hacyclic, trans := fun _ _ _ => Relation.TransGen.trans }
  have hfinite : { w | w ∈ g.nodes ∧ w ∉ s.order }.Finite :=
    (List.finite_toSet g.nodes).subset fun w hw => hw.1
  have hwf : { w | w ∈ g.nodes ∧ w ∉ s.order }.WellFoundedOn (Relation.TransGen g.Edge) :=
    hfinite.wellFoundedOn
  refine hwf.induction (P := fun _ => False) ⟨hv, hplaced⟩ fun w hw hnone => ?_
  obtain ⟨u, hedge, hu⟩ := h.exists_unplaced hqueue hw.1 hw.2
  exact hnone u ⟨hedge.1, hu⟩ (Relation.TransGen.single hedge)

/-- Placing a node of the queue, wherever it stands there. -/
theorem place (h : Inv g [] s) {v : α} {queue : List α} (hqueue : s.queue.Perm (v :: queue)) :
    Inv g (g.succs v) { s with queue, order := s.order ++ [v] } := by
  have hperm : ((s.order ++ [v]) ++ queue).Perm (s.order ++ s.queue) := by
    rw [List.append_assoc]
    exact hqueue.symm.append_left s.order
  constructor
  · exact hperm.nodup_iff.mpr h.nodup
  · intro w hw
    exact h.subset (hperm.mem_iff.mp hw)
  · intro w
    have hdegree := h.degree w
    simp only [List.count_nil] at hdegree
    simp only [List.flatMap_append, List.flatMap_singleton, List.count_append]
    push_cast
    omega
  · intro w hw
    exact hperm.mem_iff.trans (h.free w hw)
  · intro pre w post hsplit u hedge
    rcases List.eq_nil_or_concat post with rfl | ⟨post, last, rfl⟩
    · obtain ⟨rfl, hw⟩ := List.append_inj' hsplit rfl
      obtain rfl : v = w := by simpa using hw
      exact h.placed_of_queued (hqueue.mem_iff.mpr List.mem_cons_self) hedge
    · have hsplit' : s.order ++ [v] = (pre ++ w :: post) ++ [last] := by simpa using hsplit
      exact h.before pre w post (List.append_inj' hsplit' rfl).1 u hedge

/-- An edge that is still to be taken off is one of those counted. -/
theorem degree_pos {v : α} (h : Inv g (v :: rest) s) : 0 < s.inDegree v := by
  have hdegree := h.degree v
  have hsplit := count_edges h.order_nodup h.order_subset v
  rw [List.count_cons_self] at hdegree
  omega

theorem release {v : α} (h : Inv g (v :: rest) s) (hv : v ∈ g.nodes) :
    Inv g rest (release s v) := by
  have hdegree := h.degree v
  have hpos := h.degree_pos
  rw [List.count_cons_self] at hdegree
  have hwaiting : v ∉ s.order ++ s.queue := by
    rw [h.free v hv]
    omega
  have hdegrees (w : α) : (if w = v then s.inDegree w - 1 else s.inDegree w)
      + (s.order.flatMap g.succs).count w = (g.nodes.flatMap g.succs).count w + rest.count w := by
    by_cases hw : w = v
    · subst hw
      rw [if_pos rfl]
      omega
    · have hother := h.degree w
      rw [List.count_cons_of_ne (Ne.symm hw)] at hother
      rw [if_neg hw, hother]
  rw [Kahn.release]
  by_cases hzero : s.inDegree v - 1 = 0
  · rw [if_pos (by simpa using hzero)]
    have happend : s.order ++ (s.queue ++ [v]) = (s.order ++ s.queue) ++ [v] := by simp
    refine ⟨?_, ?_, hdegrees, ?_, h.before⟩
    · change (s.order ++ (s.queue ++ [v])).Nodup
      rw [happend]
      exact List.Nodup.append h.nodup (List.nodup_singleton v) (by simpa using hwaiting)
    · change s.order ++ (s.queue ++ [v]) ⊆ g.nodes
      rw [happend]
      exact List.append_subset.mpr ⟨h.subset, by simpa using hv⟩
    · intro w hw
      change w ∈ s.order ++ (s.queue ++ [v]) ↔ _
      rw [happend, List.mem_append, List.mem_singleton]
      by_cases heq : w = v
      · subst heq
        simpa using hzero
      · simp only [heq, or_false, if_false]
        exact h.free w hw
  · rw [if_neg (by simpa using hzero)]
    refine ⟨h.nodup, h.subset, hdegrees, ?_, h.before⟩
    intro w hw
    by_cases heq : w = v
    · subst heq
      simpa [hzero] using hwaiting
    · simp only [heq, if_false]
      exact h.free w hw

theorem releases (h : Inv g rest s) (hrest : ∀ w ∈ rest, w ∈ g.nodes) :
    Inv g [] (rest.foldl Kahn.release s) := by
  induction rest generalizing s with
  | nil => exact h
  | cons w rest ih =>
    rw [List.foldl_cons]
    exact ih (h.release (hrest w List.mem_cons_self))
      fun x hx => hrest x (List.mem_cons_of_mem _ hx)

/-- With every node placed, none is left in the queue. -/
theorem queue_eq_nil (h : Inv g rest s) (hlength : g.nodes.length ≤ s.order.length) :
    s.queue = [] := by
  have hnodes := (List.subperm_of_subset h.nodup h.subset).length_le
  rw [List.length_append] at hnodes
  exact List.length_eq_zero_iff.mp (by omega)

/-- As long as nothing is placed, only the counts have to be right. -/
theorem start {queue : List α} (hqueue : queue.Perm (g.nodes.filter fun v =>
      inDegrees g.succs g.nodes v = 0)) :
    Inv g [] ⟨inDegrees g.succs g.nodes, queue, []⟩ := by
  refine ⟨?_, ?_, ?_, ?_, ?_⟩
  · exact hqueue.nodup_iff.mpr (g.nodup.filter _)
  · intro v hv
    exact (List.mem_filter.mp (hqueue.mem_iff.mp hv)).1
  · intro v
    simp [inDegrees_eq]
  · intro v hv
    simp [hqueue.mem_iff, hv]
  · intro pre v post hsplit
    simp at hsplit

end Inv

/-! ## Runs of the loop -/

@[simp] theorem release_order (s : State α) (v : α) : (release s v).order = s.order := by
  rw [release]
  split <;> rfl

@[simp] theorem foldl_release_order (edges : List α) (s : State α) :
    (edges.foldl release s).order = s.order := by
  induction edges generalizing s with
  | nil => rfl
  | cons v edges ih => rw [List.foldl_cons, ih, release_order]

/-- The invariant holds at the end of the loop, and with a round for every
node left the queue runs empty. -/
theorem loop_inv (fuel : Nat) {s : State α} (h : Inv g [] s)
    (hfuel : g.nodes.length ≤ s.order.length + fuel) :
    Inv g [] (loop g.succs fuel s) ∧ (loop g.succs fuel s).queue = [] := by
  induction fuel generalizing s with
  | zero => exact ⟨h, h.queue_eq_nil hfuel⟩
  | succ fuel ih =>
    rw [loop]
    cases hqueue : s.queue with
    | nil => exact ⟨h, hqueue⟩
    | cons v queue =>
      have hv : v ∈ g.nodes := h.subset (by simp [hqueue])
      refine ih ((h.place (.of_eq hqueue)).releases (g.closed v hv)) ?_
      rw [foldl_release_order, List.length_append, List.length_singleton]
      omega

/-- Kahn's algorithm, the nodes queued first in any order. -/
def sort (g : FiniteGraph α) (first : List α) : List α :=
  (loop g.succs g.nodes.length ⟨inDegrees g.succs g.nodes, first, []⟩).order

variable {first : List α}

theorem sort_inv (hfirst : first.Perm (g.nodes.filter fun v =>
      inDegrees g.succs g.nodes v = 0)) :
    ∃ s, Inv g [] s ∧ s.queue = [] ∧ sort g first = s.order := by
  obtain ⟨hinv, hqueue⟩ := loop_inv g.nodes.length (Inv.start hfirst) (by simp)
  exact ⟨_, hinv, hqueue, rfl⟩

/-- A node comes after its predecessors. -/
theorem sort_before (hfirst : first.Perm (g.nodes.filter fun v =>
      inDegrees g.succs g.nodes v = 0)) {pre post : List α} {u v : α}
    (hsplit : sort g first = pre ++ v :: post) (hedge : g.Edge u v) : u ∈ pre := by
  obtain ⟨s, hinv, -, horder⟩ := sort_inv hfirst
  exact hinv.before pre v post (horder.symm.trans hsplit) u hedge

/-- An acyclic graph is placed completely. -/
theorem sort_perm (hacyclic : g.Acyclic) (hfirst : first.Perm (g.nodes.filter fun v =>
      inDegrees g.succs g.nodes v = 0)) : (sort g first).Perm g.nodes := by
  obtain ⟨s, hinv, hqueue, horder⟩ := sort_inv hfirst
  exact horder ▸ hinv.order_perm hqueue hacyclic

/-- A graph that is placed completely is acyclic. -/
theorem acyclic_of_length (hfirst : first.Perm (g.nodes.filter fun v =>
      inDegrees g.succs g.nodes v = 0)) (hlength : (sort g first).length = g.nodes.length) :
    g.Acyclic := by
  obtain ⟨s, hinv, -, horder⟩ := sort_inv hfirst
  rw [horder] at hlength
  have hperm : s.order.Perm g.nodes :=
    (List.subperm_of_subset hinv.order_nodup hinv.order_subset).perm_of_length_le hlength.ge
  have hbefore {u v : α} (hreach : Relation.TransGen g.Edge u v) :
      ∀ pre post, s.order = pre ++ v :: post → u ∈ pre := by
    induction hreach with
    | single hedge => exact fun pre post hsplit => hinv.before pre _ post hsplit u hedge
    | @tail w x _ hedge ih =>
      intro pre post hsplit
      obtain ⟨pre', between, rfl⟩ := List.append_of_mem (hinv.before pre x post hsplit w hedge)
      refine List.mem_append_left _ (ih pre' (between ++ x :: post) ?_)
      rw [hsplit, List.append_assoc, List.cons_append]
  intro v hcycle
  obtain ⟨_, hedge, -⟩ := Relation.TransGen.head'_iff.mp hcycle
  obtain ⟨pre, post, hsplit⟩ := List.append_of_mem (hperm.mem_iff.mpr hedge.1)
  have hnodup := hinv.order_nodup
  rw [hsplit] at hnodup
  exact (List.nodup_append.mp hnodup).2.2 v (hbefore hcycle pre post hsplit) v
    List.mem_cons_self rfl

end Kahn

end MBootCore
