import MBootCore.Dsp.ResolutionOrder
import MBootCore.Support.DepthFirst

/-!
# Dsp — CycleReport

What `hasCircularDependency` and `circularDependencyPath` say of the packages
in the graph. The depth-first search behind them is right; what they say from
memory is not once `resolve` has found no cycle and has left the path of an
earlier one in place.
-/

namespace MBootCore.DSPDependencyGraph

open FiniteGraph DepthFirst

variable {g : DSPDependencyGraph}

/-! ## The search -/

/-- The search is on a path and has met no cycle. -/
structure Searching (g : DSPDependencyGraph) (s : Search) : Prop where
  stack : s.inStack = s.path.reverse
  chain : s.path.IsChain g.DependsOn
  inv : Inv g.toFiniteGraph s.visited s.path
  cyclePath : s.cyclePath = []

theorem searching_start : Searching g {} where
  stack := rfl
  chain := .nil
  inv := Inv.start _
  cyclePath := rfl

/-- A part of the search that begins at `s` ends at a cycle, or back on the path
with `ids` done. -/
structure Ends (g : DSPDependencyGraph) (s : Search) (ids : List String)
    (outcome : Bool × Search) : Prop where
  found : outcome.1 = true → ClosedWalk g.DependsOn outcome.2.cyclePath
  passed : outcome.1 = false → Searching g outcome.2 ∧ outcome.2.path = s.path ∧
    s.visited ⊆ outcome.2.visited ∧ ∀ id ∈ ids, id ∈ outcome.2.visited ∧ id ∉ s.path

theorem Ends.of_visited {s : Search} (hs : Searching g s) {id : String} (hid : id ∈ s.visited)
    (hpath : id ∉ s.path) : Ends g s [id] (false, s) where
  found h := by cases h
  passed _ := by
    refine ⟨hs, rfl, List.Subset.refl _, ?_⟩
    intro other hother
    rw [List.mem_singleton] at hother
    exact hother ▸ ⟨hid, hpath⟩

theorem searchEach_ends {visit : String → Search → Bool × Search} {ids : List String} {s : Search}
    (hs : Searching g s) (hvisit : ∀ id ∈ ids, ∀ s', Searching g s' → s'.path = s.path →
      s.visited ⊆ s'.visited → Ends g s' [id] (visit id s')) :
    Ends g s ids (searchEach visit ids s) := by
  induction ids generalizing s with
  | nil =>
    refine ⟨fun h => (by cases h), fun _ => ⟨hs, rfl, List.Subset.refl _, ?_⟩⟩
    intro id hid
    cases hid
  | cons id ids ih =>
    have hfirst := hvisit id List.mem_cons_self s hs rfl (List.Subset.refl _)
    rw [searchEach]
    rcases hr : visit id s with ⟨found, s₁⟩
    rw [hr] at hfirst
    cases found with
    | true => exact ⟨fun _ => hfirst.found rfl, fun h => by cases h⟩
    | false =>
      obtain ⟨hs₁, hpath₁, hsub₁, hid₁⟩ := hfirst.passed rfl
      have hrest : Ends g s₁ ids (searchEach visit ids s₁) := by
        refine ih hs₁ fun dep hdep s' hs' hpath hsub => ?_
        exact hvisit dep (List.mem_cons_of_mem _ hdep) s' hs' (hpath.trans hpath₁)
          (List.Subset.trans hsub₁ hsub)
      refine ⟨hrest.found, fun h => ?_⟩
      obtain ⟨hs₂, hpath₂, hsub₂, hids⟩ := hrest.passed h
      refine ⟨hs₂, hpath₂.trans hpath₁, List.Subset.trans hsub₁ hsub₂, ?_⟩
      intro dep hdep
      rcases List.mem_cons.mp hdep with rfl | hdep
      · obtain ⟨hvisited, hnotOn⟩ := hid₁ dep (List.mem_singleton_self _)
        exact ⟨hsub₂ hvisited, hnotOn⟩
      · obtain ⟨hvisited, hnotOn⟩ := hids dep hdep
        exact ⟨hvisited, hpath₁ ▸ hnotOn⟩

/-- The search from a package, with fuel for every package not visited. -/
theorem dfs_ends (fuel : Nat) {id : String} {s : Search} (hs : Searching g s)
    (hid : id ∈ g.nodes.keys) (hnew : id ∉ s.visited)
    (hchain : (s.path ++ [id]).IsChain g.DependsOn)
    (hfuel : unvisited g.toFiniteGraph s.visited ≤ fuel) : Ends g s [id] (g.dfs fuel id s) := by
  induction fuel generalizing id s with
  | zero =>
    have hless : unvisited g.toFiniteGraph (id :: s.visited) < _ := unvisited_cons hid hnew
    omega
  | succ fuel ih =>
    have hless : unvisited g.toFiniteGraph (id :: s.visited) < _ := unvisited_cons hid hnew
    have hnotOn : id ∉ s.path := fun h => hnew (hs.inv.subset h)
    let entered : Search :=
      { s with visited := id :: s.visited, inStack := id :: s.inStack, path := s.path ++ [id] }
    have hentered : Searching g entered :=
      ⟨by simp [entered, hs.stack], hchain, hs.inv.enter hnew, hs.cyclePath⟩
    rw [dfs]
    rcases hr : searchEach _ (g.presentDependencies id) entered with ⟨found, s₁⟩
    have hdeps : Ends g entered (g.presentDependencies id) (found, s₁) := by
      rw [← hr]
      refine searchEach_ends hentered ?_
      intro dep hdep s' hs' hpath hsub
      have hchain' : (s'.path ++ [dep]).IsChain g.DependsOn := by
        rw [hpath]
        exact isChain_snoc hchain hdep
      have hon : dep ∈ s'.inStack ↔ dep ∈ s'.path := by rw [hs'.stack, List.mem_reverse]
      by_cases hstack : dep ∈ s'.inStack
      · simp only [if_pos hstack, if_pos (hon.mp hstack)]
        exact ⟨fun _ => closedWalk_of_path hchain' (hon.mp hstack), fun h => by cases h⟩
      · rw [if_neg hstack]
        by_cases hvisited : dep ∈ s'.visited
        · rw [if_pos hvisited]
          exact Ends.of_visited hs' hvisited (mt hon.mpr hstack)
        · rw [if_neg hvisited]
          have hbelow : unvisited g.toFiniteGraph s'.visited
              ≤ unvisited g.toFiniteGraph (id :: s.visited) := unvisited_anti hsub
          exact ih hs' (mem_of_dependsOn hdep).2 hvisited hchain' (by omega)
    cases found with
    | true => exact ⟨fun _ => hdeps.found rfl, fun h => by cases h⟩
    | false =>
      obtain ⟨hs₁, hpath₁, hsub₁, hdone⟩ := hdeps.passed rfl
      have hpath : s₁.path = s.path ++ [id] := hpath₁
      have hstack : s₁.inStack = s₁.path.reverse := hs₁.stack
      refine ⟨fun h => (by cases h), fun _ => ⟨⟨?_, ?_, ?_, hs₁.cyclePath⟩, ?_, ?_, ?_⟩⟩
      · simp [hstack, hpath]
      · exact hs₁.chain.dropLast
      · have hinv := hs₁.inv
        rw [hpath] at hinv
        simp only [hpath, List.dropLast_concat]
        refine hinv.leave hnotOn fun dep hdep => ?_
        exact hdone dep ((toFiniteGraph_edge _ _).mp hdep)
      · simp [hpath]
      · exact fun other hother => hsub₁ (List.mem_cons_of_mem _ hother)
      · intro other hother
        obtain rfl := List.mem_singleton.mp hother
        exact ⟨hsub₁ List.mem_cons_self, hnotOn⟩

theorem detectCycle_ends (walk : WalkOrder) :
    (g.detectCycle walk).1 = true ∧ ClosedWalk g.DependsOn (g.detectCycle walk).2.cyclePath ∨
      (g.detectCycle walk).1 = false ∧ (g.detectCycle walk).2.cyclePath = [] ∧ g.Acyclic := by
  have hends : Ends g {} (walk.arrange g.nodes.keys) (searchEach (fun id s =>
      if id ∈ s.visited then (false, s) else g.dfs g.nodes.keys.length id s)
        (walk.arrange g.nodes.keys) {}) := by
    refine searchEach_ends searching_start fun id hid s hs hpath _ => ?_
    have hnone : s.path = [] := hpath
    by_cases hvisited : id ∈ s.visited
    · rw [if_pos hvisited]
      exact Ends.of_visited hs hvisited (by simp [hnone])
    · rw [if_neg hvisited]
      refine dfs_ends _ hs ((walk.perm _).mem_iff.mp hid) hvisited ?_ (List.length_filter_le _ _)
      rw [hnone]
      exact List.isChain_singleton id
  cases hfound : (g.detectCycle walk).1 with
  | true => exact .inl ⟨rfl, hends.found hfound⟩
  | false =>
    obtain ⟨hs, hpath, -, hall⟩ := hends.passed hfound
    refine .inr ⟨rfl, hs.cyclePath, toFiniteGraph_acyclic.mp ?_⟩
    have hinv := hs.inv
    rw [hpath] at hinv
    exact hinv.acyclic_of_visited fun id hid => (hall id ((walk.perm _).mem_iff.mpr hid)).1

theorem not_acyclic_of_closedWalk {walk : List String} (h : ClosedWalk g.DependsOn walk) :
    ¬ g.Acyclic := by
  intro hacyclic
  obtain ⟨id, hcycle⟩ := h.cycle
  exact hacyclic id hcycle

theorem detectCycle_of_cyclic (h : ¬ g.Acyclic) (walk : WalkOrder) :
    (g.detectCycle walk).1 = true ∧ ClosedWalk g.DependsOn (g.detectCycle walk).2.cyclePath := by
  rcases detectCycle_ends (g := g) walk with hfound | ⟨-, -, hacyclic⟩
  · exact hfound
  · exact absurd hacyclic h

theorem detectCycle_of_acyclic (h : g.Acyclic) (walk : WalkOrder) :
    (g.detectCycle walk).1 = false ∧ (g.detectCycle walk).2.cyclePath = [] := by
  rcases detectCycle_ends (g := g) walk with ⟨-, hwalk⟩ | ⟨hfound, hnone, -⟩
  · exact absurd h (not_acyclic_of_closedWalk hwalk)
  · exact ⟨hfound, hnone⟩

/-! ## The report -/

/-- What the two queries say is so. -/
structure ReportsCycles (g : DSPDependencyGraph) : Prop where
  has : ∀ walk, (g.hasCircularDependency walk).1 = true ↔ ¬ g.Acyclic
  path : ∀ walk, ¬ g.Acyclic → ClosedWalk g.DependsOn (g.circularDependencyPath walk).1
  none : ∀ walk, g.Acyclic → (g.circularDependencyPath walk).1 = []

theorem reportsCycles_of_searched (h : g.resolved = false) : g.ReportsCycles := by
  have hreport (walk : WalkOrder) : (g.hasCircularDependency walk).1 = (g.detectCycle walk).1 ∧
      (g.circularDependencyPath walk).1 = (g.detectCycle walk).2.cyclePath := by
    simp [hasCircularDependency, circularDependencyPath, h, detectCycle]
  refine ⟨fun walk => ?_, fun walk hcyclic => ?_, fun walk hacyclic => ?_⟩
  · rw [(hreport walk).1]
    by_cases hacyclic : g.Acyclic
    · simpa [(detectCycle_of_acyclic hacyclic walk).1] using hacyclic
    · simpa [(detectCycle_of_cyclic hacyclic walk).1] using hacyclic
  · rw [(hreport walk).2]
    exact (detectCycle_of_cyclic hcyclic walk).2
  · rw [(hreport walk).2]
    exact (detectCycle_of_acyclic hacyclic walk).2

/-- What is remembered of a resolved graph: a cycle, if it has one. -/
structure Remembers (g : DSPDependencyGraph) : Prop where
  path : g.hasCycle = true → g.cyclePath ≠ []
  cycle : g.resolved = true → ¬ g.Acyclic → g.hasCycle = true ∧ ClosedWalk g.DependsOn g.cyclePath

/-- A path is remembered of a graph that has no cycle. -/
def Stale (g : DSPDependencyGraph) : Prop := g.Acyclic ∧ g.cyclePath ≠ []

theorem reportsCycles_iff (h : g.Remembers) :
    g.ReportsCycles ↔ ¬ (g.resolved = true ∧ g.Stale) := by
  cases hresolved : g.resolved with
  | false => simpa using reportsCycles_of_searched hresolved
  | true =>
    have hreport (walk : WalkOrder) : (g.hasCircularDependency walk).1 = g.hasCycle ∧
        (g.circularDependencyPath walk).1 = g.cyclePath := by
      simp [hasCircularDependency, circularDependencyPath, hresolved]
    constructor
    · rintro hreports ⟨-, hacyclic, hpath⟩
      exact hpath ((hreport unchanged).2 ▸ hreports.none unchanged hacyclic)
    · intro hfresh
      have hnone (hacyclic : g.Acyclic) : g.cyclePath = [] := by
        by_contra hpath
        exact hfresh ⟨rfl, hacyclic, hpath⟩
      refine ⟨fun walk => ?_, fun walk hcyclic => ?_, fun walk hacyclic => ?_⟩
      · rw [(hreport walk).1]
        constructor
        · exact fun hhas hacyclic => h.path hhas (hnone hacyclic)
        · exact fun hcyclic => (h.cycle hresolved hcyclic).1
      · rw [(hreport walk).2]
        exact (h.cycle hresolved hcyclic).2
      · rw [(hreport walk).2]
        exact hnone hacyclic

/-! ## Runs -/

theorem Remembers.of_unresolved (hpath : g.hasCycle = true → g.cyclePath ≠ [])
    (h : g.resolved = false) : g.Remembers where
  path := hpath
  cycle hresolved := by
    rw [h] at hresolved
    cases hresolved

theorem addPackage_unresolved (pkg : DSPPackageMetadata) :
    (g.addPackage pkg).2 = g ∨ (g.addPackage pkg).2.resolved = false ∧
      (g.addPackage pkg).2.hasCycle = g.hasCycle ∧
      (g.addPackage pkg).2.cyclePath = g.cyclePath := by
  rw [addPackage]
  split_ifs
  · exact .inl rfl
  · exact .inl rfl
  · exact .inr ⟨rfl, rfl, rfl⟩

theorem removePackage_unresolved (packageId : String) :
    (g.removePackage packageId).2 = g ∨ (g.removePackage packageId).2.resolved = false ∧
      (g.removePackage packageId).2.hasCycle = g.hasCycle ∧
      (g.removePackage packageId).2.cyclePath = g.cyclePath := by
  rw [removePackage]
  cases g.nodes.lookup packageId with
  | none => exact .inl rfl
  | some _ => exact .inr ⟨rfl, rfl, rfl⟩

theorem detectCycle_remembers (walk : WalkOrder) : (g.detectCycle walk).2.Remembers := by
  by_cases hacyclic : g.Acyclic
  · have hnone := (detectCycle_of_acyclic hacyclic walk).1
    exact ⟨fun hhas => absurd (hnone.symm.trans hhas) (by decide),
      fun _ hcyclic => absurd hacyclic hcyclic⟩
  · obtain ⟨hfound, hwalk⟩ := detectCycle_of_cyclic hacyclic walk
    exact ⟨fun _ => hwalk.ne_nil, fun _ _ => ⟨hfound, hwalk⟩⟩

theorem resolve_nodes (walks : WalkOrders) : (g.resolve walks).nodes = g.nodes := by
  rw [resolve, topoSort]
  split_ifs <;> rfl

theorem resolve_dependsOn (walks : WalkOrders) : (g.resolve walks).DependsOn = g.DependsOn := by
  ext pkg dep
  rw [DependsOn, DependsOn, presentDependencies, presentDependencies, dependencies, dependencies,
    resolve_nodes]

theorem resolve_acyclic_iff (walks : WalkOrders) : (g.resolve walks).Acyclic ↔ g.Acyclic := by
  rw [Acyclic, Acyclic, resolve_dependsOn]

theorem resolve_resolved (walks : WalkOrders) : (g.resolve walks).resolved = true := by
  rw [resolve, topoSort]
  split_ifs <;> rfl

theorem topoSort_length_iff (walks : WalkOrders) :
    (g.topoSort walks).resolutionOrder.length = g.nodes.keys.length ↔ g.Acyclic := by
  rw [topoSort_resolutionOrder, ← toFiniteGraph_acyclic]
  constructor
  · exact fun hlength => Kahn.acyclic_of_length (firstQueued_perm walks) hlength
  · exact fun hacyclic => (Kahn.sort_perm hacyclic (firstQueued_perm walks)).length_eq

/-- Without a cycle `resolve` leaves the remembered path as it is. -/
theorem resolve_cyclePath (h : g.Acyclic) (walks : WalkOrders) :
    (g.resolve walks).cyclePath = g.cyclePath ∧
      ((g.resolve walks).hasCycle = true → g.hasCycle = true) := by
  rw [resolve]
  split
  · exact ⟨rfl, id⟩
  · have hlength := (topoSort_length_iff walks).mpr h
    rw [topoSort] at hlength ⊢
    split
    · rename_i hne
      rw [if_pos hne] at hlength
      exact absurd hlength hne
    · exact ⟨rfl, fun hhas => by cases hhas⟩

theorem resolve_cycle (h : ¬ g.Acyclic) (walks : WalkOrders) :
    (g.resolve walks).hasCycle = true ∧
      ClosedWalk g.DependsOn (g.resolve walks).cyclePath := by
  have hlength := mt (topoSort_length_iff walks).mp h
  rw [resolve]
  split
  · rename_i hempty
    refine absurd (fun id hcycle => ?_) h
    obtain ⟨_, hedge, -⟩ := Relation.TransGen.head'_iff.mp hcycle
    exact absurd (mem_of_dependsOn hedge).1 (by rw [hempty]; exact List.not_mem_nil)
  · rw [topoSort] at hlength ⊢
    split
    · exact detectCycle_of_cyclic (g := { g with unresolved := [], resolutionOrder := _ }) h _
    · rename_i hall
      rw [if_neg hall] at hlength
      exact absurd (not_not.mp hall) hlength

theorem Remembers.run (h : g.Remembers) (call : DSPCall) : (call.run g).2.Remembers := by
  have hquery (walk : WalkOrder) :
      (if g.resolved then g else (g.detectCycle walk).2).Remembers := by
    split
    · exact h
    · exact detectCycle_remembers walk
  cases call with
  | addPackage pkg =>
    rcases addPackage_unresolved (g := g) pkg with hsame | ⟨hresolved, hhas, hpath⟩
    · exact (congrArg Remembers hsame).mpr h
    · exact .of_unresolved (fun hcycle => hpath.symm ▸ h.path (hhas ▸ hcycle)) hresolved
  | removePackage packageId =>
    rcases removePackage_unresolved (g := g) packageId with hsame | ⟨hresolved, hhas, hpath⟩
    · exact (congrArg Remembers hsame).mpr h
    · exact .of_unresolved (fun hcycle => hpath.symm ▸ h.path (hhas ▸ hcycle)) hresolved
  | clear => exact .of_unresolved (fun hhas => by cases hhas) rfl
  | resolve walks =>
    change (g.resolve walks).Remembers
    by_cases hacyclic : g.Acyclic
    · obtain ⟨hpath, hhas⟩ := resolve_cyclePath hacyclic walks
      refine ⟨fun hresolved => hpath ▸ h.path (hhas hresolved), fun _ hcyclic => ?_⟩
      exact absurd ((resolve_acyclic_iff walks).mpr hacyclic) hcyclic
    · obtain ⟨hhas, hwalk⟩ := resolve_cycle hacyclic walks
      exact ⟨fun _ => hwalk.ne_nil, fun _ _ => ⟨hhas, (resolve_dependsOn walks).symm ▸ hwalk⟩⟩
  | hasCircularDependency walk => exact hquery walk
  | circularDependencyPath walk => exact hquery walk

/-- A call leaves a resolved graph with a stale path only by resolving one. -/
theorem stale_of_run {call : DSPCall} (h : (call.run g).2.resolved = true)
    (hstale : (call.run g).2.Stale) :
    (g.resolved = true ∨ ∃ walks, call = .resolve walks) ∧ g.Stale := by
  have hquery (walk : WalkOrder)
      (h : (if g.resolved then g else (g.detectCycle walk).2).resolved = true)
      (hstale : (if g.resolved then g else (g.detectCycle walk).2).Stale) :
      g.resolved = true ∧ g.Stale := by
    cases hresolved : g.resolved with
    | true => exact ⟨rfl, by simpa [hresolved] using hstale⟩
    | false =>
      have hnone : (g.detectCycle walk).2.resolved = false := hresolved
      simp [hresolved, hnone] at h
  cases call with
  | addPackage pkg =>
    rcases addPackage_unresolved (g := g) pkg with hsame | ⟨hresolved, -⟩
    · rw [DSPCall.run, hsame] at h hstale
      exact ⟨.inl h, hstale⟩
    · exact absurd (hresolved.symm.trans h) (by decide)
  | removePackage packageId =>
    rcases removePackage_unresolved (g := g) packageId with hsame | ⟨hresolved, -⟩
    · rw [DSPCall.run, hsame] at h hstale
      exact ⟨.inl h, hstale⟩
    · exact absurd (hresolved.symm.trans h) (by decide)
  | clear => cases h
  | resolve walks =>
    have hacyclic : g.Acyclic := (resolve_acyclic_iff walks).mp hstale.1
    refine ⟨.inr ⟨walks, rfl⟩, hacyclic, ?_⟩
    rw [← (resolve_cyclePath hacyclic walks).1]
    exact hstale.2
  | hasCircularDependency walk => exact (hquery walk h hstale).imp_left .inl
  | circularDependencyPath walk => exact (hquery walk h hstale).imp_left .inl

theorem remembers_start : Remembers {} := .of_unresolved (fun hhas => by cases hhas) rfl

/-- After every call of a run the queries tell the truth exactly when no
`resolve` of the run finds a path remembered of a graph without a cycle. -/
theorem reportsCycles_iff_fresh (calls : List DSPCall) :
    (∀ r ∈ CallRun.records DSPCall.run calls {}, r.after.ReportsCycles) ↔
      ∀ r ∈ CallRun.records DSPCall.run calls {}, (∃ walks, r.call = .resolve walks) →
        ¬ r.before.Stale := by
  have hremembers : ∀ r ∈ CallRun.records DSPCall.run calls {},
      Remembers r.before ∧ Remembers r.after :=
    (CallRun.run_invariant Remembers (fun call _ g h => h.run call) remembers_start).1
  constructor
  · rintro hreports r hr ⟨walks, hcall⟩ ⟨hacyclic, hpath⟩
    have hafter : r.after = r.before.resolve walks := by
      obtain ⟨_, _, _, -, rfl⟩ := CallRun.mem_records.mp hr
      exact congrArg (fun call => (DSPCall.run call _).2) hcall
    refine (reportsCycles_iff (hremembers r hr).2).mp (hreports r hr) ⟨?_, ?_, ?_⟩
    · rw [hafter, resolve_resolved]
    · rw [hafter, resolve_acyclic_iff]
      exact hacyclic
    · rw [hafter, (resolve_cyclePath hacyclic walks).1]
      exact hpath
  · intro hfresh
    have hstep : ∀ r ∈ CallRun.records DSPCall.run calls {},
        ¬ (r.before.resolved = true ∧ r.before.Stale) →
          ¬ (r.after.resolved = true ∧ r.after.Stale) := by
      intro r hr hbefore ⟨hresolved, hstale⟩
      obtain ⟨earlier, call, later, rfl, rfl⟩ := CallRun.mem_records.mp hr
      obtain ⟨hresolved | hcall, hstale⟩ := stale_of_run hresolved hstale
      · exact hbefore ⟨hresolved, hstale⟩
      · exact hfresh _ hr hcall hstale
    have hnotStale :=
      (CallRun.records_invariant (fun g : DSPDependencyGraph => ¬ (g.resolved = true ∧ g.Stale))
        hstep (by simp)).1
    intro r hr
    exact (reportsCycles_iff (hremembers r hr).2).mpr (hnotStale r hr).2

/-- A package that depends on itself. -/
def selfish : DSPPackageMetadata where
  manifest := { packageId := "app", dependencies := [{ packageId := "app" }] }

/-- A graph without packages is said to have a circular dependency. -/
theorem resolve_empty_stale :
    ¬ ∀ (calls : List DSPCall), ∀ r ∈ CallRun.records DSPCall.run calls {},
      r.after.ReportsCycles := by
  intro hall
  let calls : List DSPCall := [.addPackage selfish, .hasCircularDependency unchanged,
    .removePackage "app", .resolve ⟨unchanged, unchanged⟩]
  have hreports := hall calls (CallRun.record DSPCall.run (.resolve ⟨unchanged, unchanged⟩)
    (CallRun.final DSPCall.run (calls.take 3) {})) (CallRun.mem_records.mpr ⟨_, _, [], rfl, rfl⟩)
  have hcyclic := (hreports.has unchanged).mp (by decide)
  refine hcyclic fun id hcycle => ?_
  obtain ⟨_, hedge, -⟩ := Relation.TransGen.head'_iff.mp hcycle
  exact absurd (mem_of_dependsOn hedge).1 (List.not_mem_nil)

end MBootCore.DSPDependencyGraph
