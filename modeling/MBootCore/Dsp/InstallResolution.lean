import MBootCore.Dsp.DependencyResolver

/-!
# Dsp — InstallResolution

Whether a resolution names all that an installation needs. The search looks at the
dependencies of the package itself only, and the graph holds nothing but the package; so the
order is right where nothing else has to be installed.
-/

namespace MBootCore

namespace DSPDependencyResolver

variable {r : DSPDependencyResolver}

/-! ## The search -/

/-- A dependency that is neither installed nor on offer. -/
def Missing (r : DSPDependencyResolver) (dep : DSPDependency) : Prop :=
  dep.required = true ∧ r.installedPackage dep.packageId = none ∧
    r.availablePackage dep.packageId = none

theorem checkDependency_missing (s : InstallSearch) (dep : DSPDependency) :
    (r.checkDependency s dep).missing = s.missing ∧ ¬ r.Missing dep ∨
      (r.checkDependency s dep).missing = s.missing ++ [dep.packageId] ∧ r.Missing dep := by
  unfold checkDependency Missing
  cases hinstalled : r.installedPackage dep.packageId with
  | some installedPkg =>
    refine .inl ⟨?_, by simp⟩
    simp only
    split <;> rfl
  | none =>
    cases havailable : r.availablePackage dep.packageId with
    | some availablePkg => left; simp
    | none =>
      cases hrequired : dep.required with
      | false => left; simp
      | true => right; simp

/-- What is missing is never taken off the list. -/
theorem foldl_checkDependency_missing (dependencies : List DSPDependency) (s : InstallSearch) :
    (dependencies.foldl r.checkDependency s).missing = [] ↔
      s.missing = [] ∧ ∀ dep ∈ dependencies, ¬ r.Missing dep := by
  induction dependencies generalizing s with
  | nil => simp
  | cons dep rest ih =>
    rw [List.foldl_cons, ih, List.forall_mem_cons]
    rcases checkDependency_missing (r := r) s dep with ⟨hkept, hfound⟩ | ⟨hadded, hmissing⟩
    · rw [hkept]
      simp only [hfound, not_false_eq_true, true_and]
    · rw [hadded]
      simp [hmissing]

theorem searchRound_missing {dependencies : List DSPDependency}
    (h : ∀ dep ∈ dependencies, ¬ r.Missing dep) (s : InstallSearch) :
    (r.searchRound dependencies s).missing = [] ↔ s.missing = [] := by
  unfold searchRound
  cases s.toProcess with
  | nil => rfl
  | cons current rest =>
    by_cases hprocessed : current ∈ s.processed
    · simp only [if_pos hprocessed]
    · simp only [if_neg hprocessed]
      rw [foldl_checkDependency_missing]
      exact ⟨fun hnone => hnone.1, fun hnone => ⟨hnone, h⟩⟩

theorem search_missing_of_none {dependencies : List DSPDependency} {fuel : Nat}
    {s found : InstallSearch} (h : ∀ dep ∈ dependencies, ¬ r.Missing dep)
    (hsearch : r.search dependencies fuel s = some found) :
    found.missing = [] ↔ s.missing = [] := by
  induction fuel generalizing s with
  | zero => cases hsearch
  | succ fuel ih =>
    rw [search] at hsearch
    by_cases hempty : s.toProcess = []
    · rw [if_pos hempty] at hsearch
      rw [Option.some.inj hsearch]
    · rw [if_neg hempty] at hsearch
      rw [ih hsearch, searchRound_missing h]

theorem searchRound_missing_ne {dependencies : List DSPDependency} {s : InstallSearch}
    (h : s.missing ≠ []) : (r.searchRound dependencies s).missing ≠ [] := by
  unfold searchRound
  cases s.toProcess with
  | nil => exact h
  | cons current rest =>
    by_cases hprocessed : current ∈ s.processed
    · simp only [if_pos hprocessed]
      exact h
    · simp only [if_neg hprocessed]
      rw [Ne, foldl_checkDependency_missing]
      exact fun hnone => h hnone.1

theorem search_missing_ne {dependencies : List DSPDependency} {fuel : Nat}
    {s found : InstallSearch} (h : s.missing ≠ [])
    (hsearch : r.search dependencies fuel s = some found) : found.missing ≠ [] := by
  induction fuel generalizing s with
  | zero => cases hsearch
  | succ fuel ih =>
    rw [search] at hsearch
    by_cases hempty : s.toProcess = []
    · rw [if_pos hempty] at hsearch
      rw [← Option.some.inj hsearch]
      exact h
    · rw [if_neg hempty] at hsearch
      exact ih (searchRound_missing_ne h) hsearch

/-- The search misses something exactly where the package itself does. -/
theorem search_missing_iff {dependencies : List DSPDependency} {fuel : Nat} {packageId : String}
    {found : InstallSearch}
    (hsearch : r.search dependencies fuel { toProcess := [packageId] } = some found) :
    found.missing = [] ↔ ∀ dep ∈ dependencies, ¬ r.Missing dep := by
  by_cases h : ∀ dep ∈ dependencies, ¬ r.Missing dep
  · rw [search_missing_of_none h hsearch]
    exact ⟨fun _ => h, fun _ => rfl⟩
  · refine ⟨fun hnone => absurd hnone ?_, fun hnone => absurd hnone h⟩
    cases fuel with
    | zero => cases hsearch
    | succ fuel =>
      -- the first round already finds it
      rw [search, if_neg (List.cons_ne_nil _ _)] at hsearch
      refine search_missing_ne ?_ hsearch
      rw [searchRound]
      simp only [List.not_mem_nil, if_false]
      rw [Ne, foldl_checkDependency_missing]
      exact fun hnone => h hnone.2

/-! ## The end of the search -/

/-- What the search can come to look at. -/
def candidates (packageId : String) (dependencies : List DSPDependency) : List String :=
  packageId :: dependencies.map DSPDependency.packageId

def unprocessed (ids : List String) (s : InstallSearch) : Nat :=
  (ids.filter (· ∉ s.processed)).length

theorem checkDependency_processed (s : InstallSearch) (dep : DSPDependency) :
    (r.checkDependency s dep).processed = s.processed := by
  unfold checkDependency
  split <;> split
  · rfl
  · rfl
  · rfl
  · split <;> rfl

theorem checkDependency_toProcess (s : InstallSearch) (dep : DSPDependency) :
    (r.checkDependency s dep).toProcess = s.toProcess ∨
      (r.checkDependency s dep).toProcess = dep.packageId :: s.toProcess := by
  unfold checkDependency
  split <;> split
  · exact .inl rfl
  · exact .inl rfl
  · exact .inr rfl
  · left
    split <;> rfl

/-- Each dependency puts at most itself on. -/
theorem foldl_checkDependency_grows (dependencies : List DSPDependency) (s : InstallSearch)
    {ids : List String} (hids : ∀ dep ∈ dependencies, dep.packageId ∈ ids)
    (hs : ∀ id ∈ s.toProcess, id ∈ ids) :
    (dependencies.foldl r.checkDependency s).processed = s.processed ∧
      (dependencies.foldl r.checkDependency s).toProcess.length
        ≤ s.toProcess.length + dependencies.length ∧
      ∀ id ∈ (dependencies.foldl r.checkDependency s).toProcess, id ∈ ids := by
  induction dependencies generalizing s with
  | nil => exact ⟨rfl, Nat.le_refl _, hs⟩
  | cons dep rest ih =>
    obtain ⟨hdep, hrest⟩ := List.forall_mem_cons.mp hids
    have hnext : ∀ id ∈ (r.checkDependency s dep).toProcess, id ∈ ids := by
      rcases checkDependency_toProcess (r := r) s dep with hkept | hput
      · rw [hkept]
        exact hs
      · rw [hput]
        exact List.forall_mem_cons.mpr ⟨hdep, hs⟩
    have hlength : (r.checkDependency s dep).toProcess.length ≤ s.toProcess.length + 1 := by
      rcases checkDependency_toProcess (r := r) s dep with hkept | hput
      · rw [hkept]
        exact Nat.le_succ _
      · rw [hput]
        exact Nat.le_refl _
    obtain ⟨hprocessed, hgrown, hmem⟩ := ih (r.checkDependency s dep) hrest hnext
    rw [List.foldl_cons]
    refine ⟨hprocessed.trans (checkDependency_processed s dep), ?_, hmem⟩
    rw [List.length_cons]
    omega

/-- A round for every package that is still to be looked at, and for all it may put on. -/
def roundsLeft (ids : List String) (dependencies : List DSPDependency) (s : InstallSearch) : Nat :=
  unprocessed ids s * (dependencies.length + 1) + s.toProcess.length

theorem unprocessed_cons {ids : List String} {s s' : InstallSearch} {id : String}
    (hid : id ∈ ids) (hnew : id ∉ s.processed) (hs' : s'.processed = id :: s.processed) :
    unprocessed ids s' < unprocessed ids s := by
  have hfilter : ids.filter (· ∉ s'.processed)
      = (ids.filter (· ∉ s.processed)).filter (· ≠ id) := by
    rw [List.filter_filter]
    refine List.filter_congr fun other _ => ?_
    simp [hs', not_or]
  unfold unprocessed
  rw [hfilter, List.length_filter_lt_length_iff_exists]
  exact ⟨id, List.mem_filter.mpr ⟨hid, by simpa using hnew⟩, by simp⟩

theorem searchRound_lt {dependencies : List DSPDependency} {ids : List String} {s : InstallSearch}
    (hids : ∀ dep ∈ dependencies, dep.packageId ∈ ids) (hs : ∀ id ∈ s.toProcess, id ∈ ids)
    (hmore : s.toProcess ≠ []) :
    roundsLeft ids dependencies (r.searchRound dependencies s) < roundsLeft ids dependencies s ∧
      ∀ id ∈ (r.searchRound dependencies s).toProcess, id ∈ ids := by
  unfold searchRound
  cases hqueue : s.toProcess with
  | nil => exact absurd hqueue hmore
  | cons current rest =>
    rw [hqueue] at hs
    obtain ⟨hcurrent, hrest⟩ := List.forall_mem_cons.mp hs
    by_cases hprocessed : current ∈ s.processed
    · simp only [if_pos hprocessed]
      refine ⟨?_, hrest⟩
      unfold roundsLeft unprocessed
      rw [hqueue, List.length_cons]
      exact Nat.lt_succ_self _
    · simp only [if_neg hprocessed]
      obtain ⟨hkept, hgrown, hmem⟩ := foldl_checkDependency_grows (r := r) dependencies
        { s with toProcess := rest, processed := current :: s.processed } hids hrest
      refine ⟨?_, hmem⟩
      have hless := unprocessed_cons hcurrent hprocessed hkept
      have hpaid := Nat.mul_le_mul_right (dependencies.length + 1) (Nat.succ_le_of_lt hless)
      rw [Nat.succ_mul] at hpaid
      unfold roundsLeft
      rw [hqueue, List.length_cons]
      simp only at hgrown
      omega

theorem search_done {dependencies : List DSPDependency} (ids : List String) (fuel : Nat)
    {s : InstallSearch} (hids : ∀ dep ∈ dependencies, dep.packageId ∈ ids)
    (hs : ∀ id ∈ s.toProcess, id ∈ ids) (hfuel : roundsLeft ids dependencies s < fuel) :
    ∃ found, r.search dependencies fuel s = some found := by
  induction fuel generalizing s with
  | zero => omega
  | succ fuel ih =>
    rw [search]
    by_cases hempty : s.toProcess = []
    · exact ⟨s, if_pos hempty⟩
    · rw [if_neg hempty]
      obtain ⟨hless, hmem⟩ := searchRound_lt (r := r) hids hs hempty
      exact ih hmem (by omega)

/-- The fuel is enough. -/
theorem search_ends (dependencies : List DSPDependency) (packageId : String) :
    ∃ found, r.search dependencies (searchFuel dependencies) { toProcess := [packageId] }
      = some found := by
  refine search_done (candidates packageId dependencies) _ ?_ ?_ ?_
  · intro dep hdep
    exact List.mem_cons_of_mem _ (List.mem_map_of_mem hdep)
  · intro id hid
    rw [List.mem_singleton.mp hid]
    exact List.mem_cons_self
  · have hall : unprocessed (candidates packageId dependencies) { toProcess := [packageId] }
        ≤ dependencies.length + 1 := by
      refine (List.length_filter_le _ _).trans ?_
      rw [candidates, List.length_cons, List.length_map]
    have hbound := Nat.mul_le_mul_right (dependencies.length + 1) hall
    unfold roundsLeft searchFuel
    simp only [List.length_singleton]
    omega

/-! ## The order -/

/-- The graph of the package alone. -/
def singleton (pkg : DSPPackageMetadata) : DSPDependencyGraph :=
  (DSPDependencyGraph.addPackage {} pkg).2

section Singleton

variable {pkg : DSPPackageMetadata}

theorem addPackage_empty (hid : pkg.manifest.packageId ≠ "") :
    DSPDependencyGraph.addPackage {} pkg = (.ok (), singleton pkg) := by
  have hnonempty : pkg.manifest.packageId.isEmpty = false := by
    rw [Bool.eq_false_iff, Ne, String.isEmpty_iff]
    exact hid
  have hnew : ¬ pkg.manifest.packageId ∈ (∅ : AList fun _ : String => DependencyNode) :=
    AList.notMem_empty _
  unfold singleton DSPDependencyGraph.addPackage
  simp only [hnonempty, Bool.false_eq_true, if_false]
  rw [if_neg hnew]

theorem singleton_nodes (hid : pkg.manifest.packageId ≠ "") :
    (singleton pkg).nodes = (∅ : AList fun _ : String => DependencyNode).insert
      pkg.manifest.packageId
      { packageId := pkg.manifest.packageId
        version := pkg.manifest.version
        installed := pkg.state = .installed
        enabled := pkg.state = .enabled
        dependencies := pkg.manifest.dependencies } := by
  have hnonempty : pkg.manifest.packageId.isEmpty = false := by
    rw [Bool.eq_false_iff, Ne, String.isEmpty_iff]
    exact hid
  have hnew : ¬ pkg.manifest.packageId ∈ (∅ : AList fun _ : String => DependencyNode) :=
    AList.notMem_empty _
  unfold singleton DSPDependencyGraph.addPackage
  simp only [hnonempty, Bool.false_eq_true, if_false]
  rw [if_neg hnew]

theorem singleton_keys (hid : pkg.manifest.packageId ≠ "") :
    (singleton pkg).nodes.keys = [pkg.manifest.packageId] := by
  rw [singleton_nodes hid, AList.keys_insert]
  rfl

theorem singleton_dependsOn (hid : pkg.manifest.packageId ≠ "") (a b : String) :
    (singleton pkg).DependsOn a b ↔ a = pkg.manifest.packageId ∧ b = pkg.manifest.packageId ∧
      ∃ dep ∈ pkg.manifest.dependencies, dep.packageId = pkg.manifest.packageId := by
  have hmem (id : String) : id ∈ (singleton pkg).nodes ↔ id = pkg.manifest.packageId := by
    rw [AList.mem_keys, singleton_keys hid, List.mem_singleton]
  unfold DSPDependencyGraph.DependsOn DSPDependencyGraph.presentDependencies
  rw [List.mem_filter, decide_eq_true_iff, hmem]
  constructor
  · rintro ⟨hdep, rfl⟩
    unfold DSPDependencyGraph.dependencies at hdep
    by_cases ha : a = pkg.manifest.packageId
    · subst ha
      rw [singleton_nodes hid, AList.lookup_insert] at hdep
      obtain ⟨dep, hdep, hname⟩ := List.mem_map.mp hdep
      exact ⟨rfl, rfl, dep, hdep, hname⟩
    · rw [singleton_nodes hid, AList.lookup_insert_ne ha] at hdep
      simp at hdep
  · rintro ⟨rfl, rfl, dep, hdep, hname⟩
    refine ⟨?_, rfl⟩
    unfold DSPDependencyGraph.dependencies
    rw [singleton_nodes hid, AList.lookup_insert]
    exact List.mem_map.mpr ⟨dep, hdep, hname⟩

/-- The package alone, unless it depends on itself. -/
theorem singleton_order (hid : pkg.manifest.packageId ≠ "") (walks : WalkOrders)
    (hself : ∀ dep ∈ pkg.manifest.dependencies, dep.packageId ≠ pkg.manifest.packageId) :
    ((singleton pkg).resolve walks).resolutionOrder = [pkg.manifest.packageId] := by
  have hnone (a b : String) : ¬ (singleton pkg).DependsOn a b := by
    rw [singleton_dependsOn hid]
    rintro ⟨-, -, dep, hdep, hname⟩
    exact hself dep hdep hname
  have hacyclic : (singleton pkg).Acyclic := by
    intro id hcycle
    cases hcycle with
    | single hedge => exact hnone _ _ hedge
    | tail _ hedge => exact hnone _ _ hedge
  have hperm := DSPDependencyGraph.resolve_perm walks hacyclic
  rw [singleton_keys hid] at hperm
  exact List.perm_singleton.mp hperm

/-- A package that depends on itself is in no order. -/
theorem singleton_order_self (hid : pkg.manifest.packageId ≠ "") (walks : WalkOrders)
    (hself : ∃ dep ∈ pkg.manifest.dependencies, dep.packageId = pkg.manifest.packageId) :
    pkg.manifest.packageId ∉ ((singleton pkg).resolve walks).resolutionOrder := by
  intro hmem
  have hedge := (singleton_dependsOn hid _ _).mpr ⟨rfl, rfl, hself⟩
  obtain ⟨pre, post, hsplit, hfirst⟩ := List.eq_append_cons_of_mem hmem
  exact hfirst (DSPDependencyGraph.resolve_dependents_first hedge hsplit)

end Singleton

/-! ## What an installation needs -/

/-- The package of an id: the one to be installed, one that is, or one on offer. -/
def packageOf (r : DSPDependencyResolver) (pkg : DSPPackageMetadata) (id : String) :
    Option DSPPackageMetadata :=
  if id = pkg.manifest.packageId then some pkg
  else (r.installedPackage id).or (r.availablePackage id)

/-- `id` requires the package `needed`. -/
def Requires (r : DSPDependencyResolver) (pkg : DSPPackageMetadata) (id needed : String) : Prop :=
  ∃ m, r.packageOf pkg id = some m ∧
    ∃ dep ∈ m.manifest.dependencies, dep.required = true ∧ dep.packageId = needed

/-- The package requires it, directly or through others. -/
def Needed (r : DSPDependencyResolver) (pkg : DSPPackageMetadata) (id : String) : Prop :=
  Relation.TransGen (r.Requires pkg) pkg.manifest.packageId id

/-- The installed packages that are required, by the package or by what it needs, have the
minima that are stated. -/
def MinimaMet (r : DSPDependencyResolver) (pkg : DSPPackageMetadata) : Prop :=
  ∀ id m, (id = pkg.manifest.packageId ∨ r.Needed pkg id) → r.packageOf pkg id = some m →
    ∀ dep ∈ m.manifest.dependencies, dep.required = true →
      dep.packageId ≠ pkg.manifest.packageId →
      ∀ q, r.installedPackage dep.packageId = some q → ¬ belowMinimum q.manifest.version dep

/-- The order is all that has to be installed for the package. -/
structure CompleteOrder (r : DSPDependencyResolver) (pkg : DSPPackageMetadata)
    (order : List String) : Prop where
  contains : pkg.manifest.packageId ∈ order
  closed : ∀ id, r.Needed pkg id → r.installedPackage id = none → id ∈ order
  once : order.Nodup
  after : ∀ id needed, r.Requires pkg id needed → r.installedPackage needed = none →
    ∀ pre post, order = pre ++ id :: post → needed ∈ pre
  minima : r.MinimaMet pkg
  present : ∀ id, r.Needed pkg id → (r.packageOf pkg id).isSome = true

/-- Whatever order is returned is complete. -/
def ResolvesInstall (r : DSPDependencyResolver) (pkg : DSPPackageMetadata) (walks : WalkOrders) :
    Prop :=
  ∀ order, (r.resolveInstall walks pkg).1 = .ok order → r.CompleteOrder pkg order

/-- The resolution is not refused. -/
def Resolvable (r : DSPDependencyResolver) (pkg : DSPPackageMetadata) : Prop :=
  r.alreadyInstalled pkg = false ∧ pkg.manifest.packageId ≠ "" ∧
    ∀ dep ∈ pkg.manifest.dependencies, ¬ r.Missing dep

/-- Nothing but the package has to be installed, and it does not depend on itself. -/
def NothingElse (r : DSPDependencyResolver) (pkg : DSPPackageMetadata) : Prop :=
  (∀ dep ∈ pkg.manifest.dependencies, dep.packageId ≠ pkg.manifest.packageId) ∧
    (∀ id, r.Needed pkg id → id = pkg.manifest.packageId ∨
      (r.installedPackage id).isSome = true) ∧
    r.MinimaMet pkg

theorem resolveInstall_ok_iff (pkg : DSPPackageMetadata) (walks : WalkOrders)
    (order : List String) :
    (r.resolveInstall walks pkg).1 = .ok order ↔
      r.Resolvable pkg ∧ order = ((singleton pkg).resolve walks).resolutionOrder := by
  unfold resolveInstall Resolvable
  have hcleared : ({ r with missing := [], conflicts := [], obsoleted := [] } :
      DSPDependencyResolver).alreadyInstalled pkg = r.alreadyInstalled pkg := rfl
  simp only [hcleared]
  cases hthere : r.alreadyInstalled pkg with
  | true => simp
  | false =>
    by_cases hid : pkg.manifest.packageId = ""
    · have hrefused : DSPDependencyGraph.addPackage {} pkg = (.error .invalidArgument, {}) := by
        unfold DSPDependencyGraph.addPackage
        simp [hid]
      simp [hrefused, hid]
    · rw [addPackage_empty hid]
      obtain ⟨found, hsearch⟩ := search_ends
        (r := { r with missing := [], conflicts := [], obsoleted := [] })
        pkg.manifest.dependencies pkg.manifest.packageId
      have hmissing : found.missing = [] ↔ ∀ dep ∈ pkg.manifest.dependencies, ¬ r.Missing dep :=
        search_missing_iff (r := { r with missing := [], conflicts := [], obsoleted := [] }) hsearch
      rw [hsearch]
      simp only [Bool.false_eq_true, if_false]
      by_cases hnone : found.missing = []
      · rw [if_neg (not_not.mpr hnone)]
        constructor
        · intro h
          exact ⟨⟨trivial, hid, hmissing.mp hnone⟩, (Except.ok.inj h).symm⟩
        · rintro ⟨-, rfl⟩
          rfl
      · rw [if_pos hnone]
        constructor
        · intro h
          cases h
        · rintro ⟨⟨-, -, hall⟩, -⟩
          exact absurd (hmissing.mpr hall) hnone

/-- Installation resolution is complete exactly where it refuses, or nothing but the package
has to be installed. -/
theorem resolvesInstall_iff (r : DSPDependencyResolver) (pkg : DSPPackageMetadata)
    (walks : WalkOrders) :
    r.ResolvesInstall pkg walks ↔ ¬ r.Resolvable pkg ∨ r.NothingElse pkg := by
  unfold ResolvesInstall
  simp only [resolveInstall_ok_iff]
  by_cases hresolvable : r.Resolvable pkg
  swap
  · exact ⟨fun _ => .inl hresolvable, fun _ order h => absurd h.1 hresolvable⟩
  have hid := hresolvable.2.1
  constructor
  · intro hcomplete
    have horder := hcomplete _ ⟨hresolvable, rfl⟩
    have hself : ∀ dep ∈ pkg.manifest.dependencies, dep.packageId ≠ pkg.manifest.packageId := by
      intro dep hdep hname
      exact singleton_order_self hid walks ⟨dep, hdep, hname⟩ horder.contains
    refine .inr ⟨hself, fun id hneeded => ?_, horder.minima⟩
    cases hinstalled : r.installedPackage id with
    | some _ => exact .inr rfl
    | none =>
      have hmem := horder.closed id hneeded hinstalled
      rw [singleton_order hid walks hself, List.mem_singleton] at hmem
      exact .inl hmem
  · rintro (hrefused | ⟨hself, hinstalled, hminima⟩) order ⟨-, rfl⟩
    · exact absurd hresolvable hrefused
    rw [singleton_order hid walks hself]
    refine ⟨List.mem_singleton_self _, ?_, List.nodup_singleton _, ?_, hminima, ?_⟩
    · intro id hneeded hnone
      rcases hinstalled id hneeded with rfl | hsome
      · exact List.mem_singleton_self _
      · rw [hnone] at hsome
        cases hsome
    · intro id needed hrequires hnone pre post hsplit
      obtain ⟨rfl, rfl, -⟩ : pre = [] ∧ id = pkg.manifest.packageId ∧ post = [] := by
        cases pre with
        | nil =>
          obtain ⟨hhead, htail⟩ := List.cons.inj hsplit
          exact ⟨rfl, hhead.symm, htail.symm⟩
        | cons a pre =>
          have htail := (List.cons.inj hsplit).2
          exact absurd htail.symm (List.append_ne_nil_of_right_ne_nil _ (List.cons_ne_nil _ _))
      rcases hinstalled needed (.single hrequires) with rfl | hsome
      · obtain ⟨m, hm, dep, hdep, -, hname⟩ := hrequires
        rw [packageOf, if_pos rfl] at hm
        cases hm
        exact absurd hname (hself dep hdep)
      · rw [hnone] at hsome
        cases hsome
    · intro id hneeded
      unfold packageOf
      rcases hinstalled id hneeded with rfl | hsome
      · rw [if_pos rfl]
        rfl
      · by_cases hsame : id = pkg.manifest.packageId
        · rw [if_pos hsame]
          rfl
        · rw [if_neg hsame, Option.isSome_or, hsome]
          rfl

def offered : DSPPackageMetadata where
  manifest := { packageId := "base" }

def dependent : DSPPackageMetadata where
  manifest := { packageId := "app", dependencies := [{ packageId := "base" }] }

/-- A package that is needed and on offer is left out of the order. -/
theorem resolveInstall_incomplete :
    ((({ available := [offered] } : DSPDependencyResolver).resolveInstall
        ⟨DSPDependencyGraph.unchanged, DSPDependencyGraph.unchanged⟩ dependent).1
          = .ok ["app"]) ∧
      ¬ ResolvesInstall { available := [offered] } dependent
        ⟨DSPDependencyGraph.unchanged, DSPDependencyGraph.unchanged⟩ := by
  have hok : ((({ available := [offered] } : DSPDependencyResolver).resolveInstall
      ⟨DSPDependencyGraph.unchanged, DSPDependencyGraph.unchanged⟩ dependent).1
        = .ok ["app"]) := by rfl
  refine ⟨hok, fun hcomplete => ?_⟩
  have hrequires : Requires { available := [offered] } dependent "app" "base" :=
    ⟨dependent, rfl, _, List.mem_cons_self, rfl, rfl⟩
  have hmem := (hcomplete _ hok).closed "base" (.single hrequires) rfl
  exact absurd hmem (by decide)

end DSPDependencyResolver

end MBootCore
