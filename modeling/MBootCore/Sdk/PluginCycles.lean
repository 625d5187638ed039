import MBootCore.Sdk.PluginDependencyGraph
import MBootCore.Support.DepthFirst

/-!
# Sdk — PluginCycles

The depth-first search of the plugin graph finds a cycle exactly when the
dependencies have one, and every cycle it collects is a closed walk along them.
-/

namespace MBootCore.PluginDependencyGraph

open FiniteGraph DepthFirst

variable {g : PluginDependencyGraph}

/-- The plugin depends on a plugin that is in the graph. -/
def DependsOn (g : PluginDependencyGraph) (pkg dep : String) : Prop :=
  dep ∈ g.dependsOn pkg ∧ dep ∈ g.nodes

def Acyclic (g : PluginDependencyGraph) : Prop := ∀ id, ¬ Relation.TransGen g.DependsOn id id

theorem mem_of_dependsOn {pkg dep : String} (h : g.DependsOn pkg dep) :
    pkg ∈ g.nodes.keys ∧ dep ∈ g.nodes.keys := by
  obtain ⟨hdep, hpresent⟩ := h
  refine ⟨?_, AList.mem_keys.mp hpresent⟩
  rw [dependsOn] at hdep
  cases hpkg : g.nodes.lookup pkg with
  | none => simp [hpkg] at hdep
  | some node =>
    have hsome : (g.nodes.lookup pkg).isSome = true := by rw [hpkg]; rfl
    exact AList.mem_keys.mp (AList.lookup_isSome.mp hsome)

/-- The graph the search walks through. -/
def toFiniteGraph (g : PluginDependencyGraph) : FiniteGraph String where
  nodes := g.nodes.keys
  nodup := g.nodes.keys_nodup
  succs id := (g.dependsOn id).filter (· ∈ g.nodes)
  closed _ _ _ h := AList.mem_keys.mp (of_decide_eq_true (List.mem_filter.mp h).2)

theorem toFiniteGraph_edge : g.toFiniteGraph.Edge = g.DependsOn := by
  ext pkg dep
  have hsuccs : dep ∈ g.toFiniteGraph.succs pkg ↔ g.DependsOn pkg dep := by
    simp [toFiniteGraph, DependsOn]
  rw [Edge, hsuccs]
  exact and_iff_right_of_imp fun h => (mem_of_dependsOn h).1

theorem toFiniteGraph_acyclic : g.toFiniteGraph.Acyclic ↔ g.Acyclic := by
  rw [FiniteGraph.Acyclic, toFiniteGraph_edge, Acyclic]

/-- The search is on a path; up to the first cycle it keeps its invariant. -/
structure Searching (g : PluginDependencyGraph) (s : Search) : Prop where
  inStack : s.inStack = s.stack.reverse
  present : ∀ id ∈ s.stack, id ∈ g.nodes
  chain : s.stack.IsChain g.DependsOn
  walks : ∀ walk ∈ s.cycles, ClosedWalk g.DependsOn walk
  hasCycle : s.hasCycle = true ↔ s.cycles ≠ []
  inv : s.hasCycle = false → Inv g.toFiniteGraph s.visited s.stack

theorem searching_start : Searching g {} where
  inStack := rfl
  present _ h := absurd h List.not_mem_nil
  chain := .nil
  walks _ h := absurd h List.not_mem_nil
  hasCycle := by simp
  inv _ := Inv.start _

/-- A part of the search that begins at `s` is back on the path, with `ids` done
unless there is a cycle. -/
structure Searched (g : PluginDependencyGraph) (s : Search) (ids : List String) (s' : Search) :
    Prop where
  searching : Searching g s'
  stack : s'.stack = s.stack
  visited : s.visited ⊆ s'.visited
  hasCycle : s.hasCycle = true → s'.hasCycle = true
  done : s'.hasCycle = false → ∀ id ∈ ids, id ∈ g.nodes → id ∈ s'.visited ∧ id ∉ s.stack

theorem Searched.trans {s s₁ s₂ : Search} {id : String} {ids : List String}
    (hfirst : Searched g s [id] s₁) (hrest : Searched g s₁ ids s₂) :
    Searched g s (id :: ids) s₂ where
  searching := hrest.searching
  stack := hrest.stack.trans hfirst.stack
  visited := List.Subset.trans hfirst.visited hrest.visited
  hasCycle h := hrest.hasCycle (hfirst.hasCycle h)
  done hnone := by
    have hnone₁ : s₁.hasCycle = false := by
      by_contra hcycle
      exact absurd (hnone.symm.trans (hrest.hasCycle (by simpa using hcycle))) (by decide)
    intro dep hdep hpresent
    rcases List.mem_cons.mp hdep with rfl | hdep
    · obtain ⟨hvisited, hnotOn⟩ := hfirst.done hnone₁ dep (List.mem_singleton_self _) hpresent
      exact ⟨hrest.visited hvisited, hnotOn⟩
    · exact hfirst.stack ▸ hrest.done hnone dep hdep hpresent

theorem foldl_searched {visit : Search → String → Search} {ids : List String} {s : Search}
    (hs : Searching g s) (hvisit : ∀ id ∈ ids, ∀ s', Searching g s' → s'.stack = s.stack →
      s.visited ⊆ s'.visited → Searched g s' [id] (visit s' id)) :
    Searched g s ids (ids.foldl visit s) := by
  induction ids generalizing s with
  | nil => exact ⟨hs, rfl, List.Subset.refl _, id, fun _ id hid => absurd hid List.not_mem_nil⟩
  | cons id ids ih =>
    have hfirst := hvisit id List.mem_cons_self s hs rfl (List.Subset.refl _)
    refine hfirst.trans (ih hfirst.searching fun dep hdep s' hs' hstack hsub => ?_)
    exact hvisit dep (List.mem_cons_of_mem _ hdep) s' hs' (hstack.trans hfirst.stack)
      (List.Subset.trans hfirst.visited hsub)

theorem Searched.of_done {s : Search} {id : String} (hs : Searching g s)
    (hdone : id ∈ g.nodes → id ∈ s.visited ∧ id ∉ s.stack) : Searched g s [id] s where
  searching := hs
  stack := rfl
  visited := List.Subset.refl _
  hasCycle h := h
  done _ other hother hpresent := by
    obtain rfl := List.mem_singleton.mp hother
    exact hdone hpresent

/-- What the search carries when it turns to the dependencies of `id`. -/
def Search.enter (s : Search) (id : String) : Search :=
  { s with visited := id :: s.visited, inStack := id :: s.inStack, stack := s.stack ++ [id] }

theorem Searching.enter {s : Search} {id : String} (hs : Searching g s) (hid : id ∈ g.nodes)
    (hnew : id ∉ s.visited) (hchain : (s.stack ++ [id]).IsChain g.DependsOn) :
    Searching g (s.enter id) where
  inStack := by simp [Search.enter, hs.inStack]
  present other hother := by
    rcases List.mem_append.mp hother with hother | hother
    · exact hs.present other hother
    · exact List.mem_singleton.mp hother ▸ hid
  chain := hchain
  walks := hs.walks
  hasCycle := hs.hasCycle
  inv hnone := (hs.inv hnone).enter hnew

/-- The search leaves `id` when it is through with its dependencies. -/
theorem Searched.leave {s s₁ : Search} {id : String} (hs : Searching g s) (hnew : id ∉ s.visited)
    (hdeps : Searched g (s.enter id) (g.dependsOn id) s₁) :
    Searched g s [id]
      { s₁ with stack := s₁.stack.dropLast, inStack := s₁.inStack.erase id } := by
  have hpath : s₁.stack = s.stack ++ [id] := hdeps.stack
  have hback : s₁.stack.dropLast = s.stack := by rw [hpath, List.dropLast_concat]
  have hnotOn (hnone : s₁.hasCycle = false) : id ∉ s.stack := by
    intro hid
    refine hnew ((hs.inv ?_).subset hid)
    by_contra hcycle
    exact absurd (hnone.symm.trans (hdeps.hasCycle (Bool.eq_true_of_not_eq_false hcycle)))
      (by decide)
  refine ⟨⟨?_, ?_, ?_, hdeps.searching.walks, hdeps.searching.hasCycle, ?_⟩, hback, ?_,
    fun h => hdeps.hasCycle h, ?_⟩
  · simp [hdeps.searching.inStack, hpath]
  · exact fun other hother => hdeps.searching.present other (List.mem_of_mem_dropLast hother)
  · exact hdeps.searching.chain.dropLast
  · intro hnone
    have hinv := hdeps.searching.inv hnone
    rw [hpath] at hinv
    simp only [hback]
    refine hinv.leave (hnotOn hnone) fun dep hdep => ?_
    rw [toFiniteGraph_edge] at hdep
    exact hdeps.done hnone dep hdep.1 hdep.2
  · exact fun other hother => hdeps.visited (List.mem_cons_of_mem _ hother)
  · intro hnone other hother _
    obtain rfl := List.mem_singleton.mp hother
    exact ⟨hdeps.visited List.mem_cons_self, hnotOn hnone⟩

/-- The search meets a node of the path it is on. -/
theorem Searched.collect {s : Search} {id : String} (hs : Searching g s) (hid : id ∈ s.stack)
    (hchain : (s.stack ++ [id]).IsChain g.DependsOn) :
    Searched g s [id] { s with
      cycles := s.cycles ++ [s.stack.dropWhile (· ≠ id) ++ [id]]
      hasCycle := true } := by
  refine ⟨⟨hs.inStack, hs.present, hs.chain, ?_, by simp, fun h => (by cases h)⟩, rfl,
    List.Subset.refl _, fun _ => rfl, fun h => (by cases h)⟩
  intro walk hwalk
  rcases List.mem_append.mp hwalk with hwalk | hwalk
  · exact hs.walks walk hwalk
  · exact List.mem_singleton.mp hwalk ▸ closedWalk_of_path hchain hid

/-- The search from a node, with more fuel than there are nodes not visited. -/
theorem dfs_searched (fuel : Nat) {id : String} {s : Search} (hs : Searching g s)
    (hchain : id ∈ g.nodes → (s.stack ++ [id]).IsChain g.DependsOn)
    (hfuel : unvisited g.toFiniteGraph s.visited < fuel) :
    Searched g s [id] (g.dfs fuel id s).2 := by
  induction fuel generalizing id s with
  | zero => omega
  | succ fuel ih =>
    have hon : id ∈ s.inStack ↔ id ∈ s.stack := by rw [hs.inStack, List.mem_reverse]
    rw [dfs]
    by_cases hstack : id ∈ s.inStack
    · have hpath := hon.mp hstack
      rw [if_pos hstack, if_pos hpath]
      exact Searched.collect hs hpath (hchain (hs.present id hpath))
    rw [if_neg hstack]
    by_cases hvisited : id ∈ s.visited
    · rw [if_pos hvisited]
      exact Searched.of_done hs fun _ => ⟨hvisited, mt hon.mpr hstack⟩
    rw [if_neg hvisited]
    by_cases hpresent : id ∉ g.nodes
    · rw [if_pos hpresent]
      exact Searched.of_done hs fun h => absurd h hpresent
    rw [if_neg hpresent]
    have hchain' := hchain (not_not.mp hpresent)
    have hless : unvisited g.toFiniteGraph (id :: s.visited) < _ :=
      unvisited_cons (AList.mem_keys.mp (not_not.mp hpresent)) hvisited
    refine Searched.leave hs hvisited (foldl_searched
      (hs.enter (not_not.mp hpresent) hvisited hchain') fun dep hdep s' hs' hpath hsub => ?_)
    have hbelow : unvisited g.toFiniteGraph s'.visited
        ≤ unvisited g.toFiniteGraph (id :: s.visited) := unvisited_anti hsub
    refine ih hs' (fun hdepPresent => ?_) (by omega)
    rw [hpath]
    exact isChain_snoc hchain' ⟨hdep, hdepPresent⟩

theorem searchAll_searched (walk : WalkOrder) :
    Searched g {} (walk.arrange g.nodes.keys) (g.searchAll walk) := by
  refine foldl_searched searching_start fun id hid s hs hpath _ => ?_
  have hnone : s.stack = [] := hpath
  by_cases hvisited : id ∈ s.visited
  · rw [if_pos hvisited]
    exact Searched.of_done hs fun _ => ⟨hvisited, hnone ▸ List.not_mem_nil⟩
  · rw [if_neg hvisited]
    refine dfs_searched _ hs (fun _ => ?_) (Nat.lt_succ_of_le (List.length_filter_le _ _))
    rw [hnone]
    exact List.isChain_singleton id

/-- Every cycle the search collects is one of the dependencies. -/
theorem searchAll_walks (walk : WalkOrder) :
    ∀ cycle ∈ (g.searchAll walk).cycles, ClosedWalk g.DependsOn cycle :=
  (searchAll_searched walk).searching.walks

theorem searchAll_hasCycle (walk : WalkOrder) :
    (g.searchAll walk).hasCycle = true ↔ ¬ g.Acyclic := by
  have hsearched := searchAll_searched (g := g) walk
  constructor
  · intro hhas hacyclic
    obtain ⟨cycle, rest, hcycles⟩ :=
      List.exists_cons_of_ne_nil (hsearched.searching.hasCycle.mp hhas)
    have hwalk := searchAll_walks walk cycle (hcycles ▸ List.mem_cons_self)
    obtain ⟨id, hcycle⟩ := hwalk.cycle
    exact hacyclic id hcycle
  · intro hcyclic
    by_contra hhas
    have hnone : (g.searchAll walk).hasCycle = false := by simpa using hhas
    have hinv := hsearched.searching.inv hnone
    rw [hsearched.stack] at hinv
    refine hcyclic (toFiniteGraph_acyclic.mp (hinv.acyclic_of_visited fun id hid => ?_))
    exact (hsearched.done hnone id ((walk.perm _).mem_iff.mpr hid) (AList.mem_keys.mpr hid)).1

end MBootCore.PluginDependencyGraph
