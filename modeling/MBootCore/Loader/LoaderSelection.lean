import MBootCore.Loader.LoaderMatcher

/-!
# Loader — LoaderSelection

What `findBestLoader` returns of the loaders that were added: the first one, in
the order of the names, of the highest score, whatever key it is signed for. The
right key is worth points, and so a loader that states it comes before the others;
one that states no key does not.
-/

namespace MBootCore

namespace LoaderFramework

open LoaderMatcher

/-- A call of `addLoader`. -/
structure Addition where
  name : String
  data : ByteBuffer
  metadata : LoaderMetadata
  deriving DecidableEq, Repr

def build (additions : List Addition) : LoaderFramework :=
  additions.foldl (fun f a => (f.addLoader a.name a.data a.metadata).2) {}

/-- A loader of the highest score among the compatible ones, if there is one. -/
structure FindsBest (f : LoaderFramework) (wanted : MatchCriteria) : Prop where
  found : ∀ loader, (f.findBestLoader wanted.deviceId wanted.vendor wanted.chipset wanted.protocol
      wanted.storageType).1 = .ok loader →
    loader ∈ f.repo.loaders ∧ compatible wanted loader.metadata = true ∧
      ∀ other ∈ f.repo.loaders, compatible wanted other.metadata = true →
        computeScore other.metadata { f.criteria with deviceId := wanted.deviceId } ≤
          computeScore loader.metadata { f.criteria with deviceId := wanted.deviceId }
  missing : ∀ e, (f.findBestLoader wanted.deviceId wanted.vendor wanted.chipset wanted.protocol
      wanted.storageType).1 = .error e →
    ∀ loader ∈ f.repo.loaders, compatible wanted loader.metadata = false

/-- All the criteria but that of the key. -/
def offered (wanted : MatchCriteria) (metadata : LoaderMetadata) : Bool :=
  passes wanted metadata && LoaderMatcher.matchChipset wanted metadata

/-- A loader for another key is offered only beside one for this key, or one for any
key whose name comes first. -/
def KeyPreferred (f : LoaderFramework) (wanted : MatchCriteria) : Prop :=
  ∀ bad ∈ f.repo.loaders, offered wanted bad.metadata = true →
    matchPkHash wanted bad.metadata = false →
      ∃ good ∈ f.repo.loaders, offered wanted good.metadata = true ∧
        matchPkHash wanted good.metadata = true ∧
          (good.metadata.pkhash ≠ [] ∨ good.name < bad.name)

/-! ## The loaders that were added -/

/-- What `addLoader` keeps. -/
structure Added (f : LoaderFramework) : Prop where
  criteria : f.criteria = {}
  named : ∀ loader ∈ f.repo.loaders, loader.name ≠ ""

theorem Added.addLoader {f : LoaderFramework} (h : f.Added) (a : Addition) :
    (f.addLoader a.name a.data a.metadata).2.Added := by
  rw [LoaderFramework.addLoader]
  split
  · exact h
  · rename_i hname
    refine ⟨h.criteria, ?_⟩
    intro loader hloader
    dsimp only [LoaderRepository.add] at hloader
    split at hloader
    · rcases LoaderRepository.mem_emplace.mp hloader with rfl | hloader
      · exact hname
      · exact h.named loader hloader
    · exact h.named loader hloader

theorem added_foldl {f : LoaderFramework} (h : f.Added) (additions : List Addition) :
    (additions.foldl (fun f a => (f.addLoader a.name a.data a.metadata).2) f).Added := by
  induction additions generalizing f with
  | nil => exact h
  | cons a additions ih => exact ih (h.addLoader a)

theorem build_added (additions : List Addition) : (build additions).Added :=
  added_foldl ⟨rfl, by simp⟩ additions

end LoaderFramework

namespace LoaderRepository

theorem find_mem {repo : LoaderRepository} {loader : LoaderData} (h : loader ∈ repo.loaders) :
    repo.find loader.name = some loader := by
  rw [find, List.find?_eq_some_iff_append]
  obtain ⟨before, after, hsplit⟩ := List.append_of_mem h
  refine ⟨by simp, before, after, hsplit, ?_⟩
  have hsorted := repo.sorted
  rw [hsplit, List.pairwise_append] at hsorted
  intro other hother
  have hlt := hsorted.2.2 other hother loader List.mem_cons_self
  simpa using ne_of_lt hlt

theorem eq_of_name {repo : LoaderRepository} {loader other : LoaderData}
    (h : loader ∈ repo.loaders) (h' : other ∈ repo.loaders) (hname : loader.name = other.name) :
    loader = other := by
  have hfound := find_mem h
  rw [hname, find_mem h'] at hfound
  exact (Option.some.inj hfound).symm

end LoaderRepository

/-! ## Scores -/

namespace LoaderMatcher

theorem points_le (p : Prop) [Decidable p] (n : Nat) : (if p then n else 0) ≤ n := by
  split
  · exact Nat.le_refl n
  · exact Nat.zero_le n

theorem computeScore_le (metadata : LoaderMetadata) (criteria : MatchCriteria) :
    computeScore metadata criteria ≤ 225 := by
  show _ ≤ 40 + 30 + 15 + 10 + 80 + 50
  apply Nat.add_le_add
  · apply Nat.add_le_add
    · apply Nat.add_le_add
      · exact Nat.add_le_add (Nat.add_le_add (points_le _ 40) (points_le _ 30)) (points_le _ 15)
      · exact points_le _ 10
    · exact points_le _ 80
  · exact points_le _ 50

/-- The loader states the key of the device. -/
def Keyed (criteria : MatchCriteria) (metadata : LoaderMetadata) : Prop :=
  metadata.pkhash ≠ [] ∧ isPkHashEmpty criteria.deviceId.pkhash = false ∧
    metadata.pkhash.length = 32 ∧ metadata.pkhash = criteria.deviceId.pkhash.toList

instance (criteria : MatchCriteria) (metadata : LoaderMetadata) :
    Decidable (Keyed criteria metadata) := inferInstanceAs (Decidable (_ ∧ _))

theorem matchPkHash_of_keyed {criteria : MatchCriteria} {metadata : LoaderMetadata}
    (h : Keyed criteria metadata) : matchPkHash criteria metadata = true := by
  obtain ⟨hstated, hdevice, hlength, heq⟩ := h
  rw [matchPkHash, if_neg (by simp [hdevice]), if_neg hstated, if_neg (by simp [hlength])]
  exact beq_iff_eq.mpr heq

theorem keyed_of_matchPkHash {criteria : MatchCriteria} {metadata : LoaderMetadata}
    (h : matchPkHash criteria metadata = true) (hstated : metadata.pkhash ≠ [])
    (hdevice : isPkHashEmpty criteria.deviceId.pkhash = false) : Keyed criteria metadata := by
  rw [matchPkHash, if_neg (by simp [hdevice]), if_neg hstated] at h
  split at h
  · cases h
  · rename_i hlength
    exact ⟨hstated, hdevice, not_not.mp hlength, beq_iff_eq.mp h⟩

theorem isPkHashEmpty_of_mismatch {criteria : MatchCriteria} {metadata : LoaderMetadata}
    (h : matchPkHash criteria metadata = false) :
    isPkHashEmpty criteria.deviceId.pkhash = false := by
  cases hdevice : isPkHashEmpty criteria.deviceId.pkhash with
  | false => rfl
  | true =>
    rw [matchPkHash, if_pos hdevice] at h
    cases h

/-- Where only the device is asked for, the key decides. -/
theorem computeScore_device {deviceId : DeviceId} {metadata : LoaderMetadata}
    (h : matchMsmId { deviceId } metadata = true) :
    computeScore metadata { deviceId }
      = (if Keyed { deviceId } metadata then 80 else 0) +
        (if deviceId.msmId > 0 then 50 else 0) := by
  have hmsm : (deviceId.msmId > 0 ∧ metadata.msmId = deviceId.msmId) ↔ deviceId.msmId > 0 := by
    apply and_iff_left_of_imp
    intro hpos
    rw [matchMsmId, Bool.or_eq_true, beq_iff_eq, beq_iff_eq] at h
    apply h.resolve_left
    intro hzero
    rw [hzero] at hpos
    exact absurd hpos (by decide)
  simp only [computeScore, Keyed, hmsm]
  simp only [ne_eq, not_true_eq_false, false_and, if_false, Nat.zero_add]
  congr

end LoaderMatcher

/-! ## The selection -/

theorem maxElement_first {α : Type} {less : α → α → Bool} {first : α} {rest : List α}
    (h : ∀ x ∈ rest, less first x = false) : maxElement less first rest = first := by
  induction rest with
  | nil => rfl
  | cons x rest ih =>
    obtain ⟨hx, hrest⟩ := List.forall_mem_cons.mp h
    rw [maxElement, hx]
    exact ih hrest

/-- The scores fit into the priority of a candidate. -/
theorem select_first {first : MatchResult} {rest : List MatchResult}
    (hscores : ∀ r ∈ first :: rest, r.score ≤ 225) (hfirst : ∀ r ∈ rest, r.score ≤ first.score) :
    PrioritySelection.select ((first :: rest).map fun r => ⟨r.name, r.metadata, r.score.toUInt8⟩)
      = first.name := by
  rw [List.map_cons, PrioritySelection.select, maxElement_first]
  intro x hx
  obtain ⟨r, hr, rfl⟩ := List.mem_map.mp hx
  have hrest := hscores r (List.mem_cons_of_mem _ hr)
  have hhead := hscores first List.mem_cons_self
  have hle := hfirst r hr
  simp only [decide_eq_false_iff_not, UInt8.not_lt, UInt8.le_iff_toNat_le,
    Nat.toUInt8_eq, UInt8.toNat_ofNat']
  omega

namespace LoaderFramework

open LoaderMatcher

variable {f : LoaderFramework} {wanted : MatchCriteria}

def resultOf (deviceId : DeviceId) (loader : LoaderData) : MatchResult :=
  matchResult { deviceId } (loader.name, loader.metadata)

theorem isMatch_eq (result : MatchResult) (vendor chipset protocol storageType : String) :
    isMatch result vendor chipset protocol storageType
      = (matchText vendor result.metadata.vendor && matchText chipset result.metadata.chipset &&
        matchText protocol result.metadata.protocol &&
        matchText storageType result.metadata.storageType) := by
  rw [Bool.eq_iff_iff]
  simp only [isMatch, matchText, Bool.and_eq_true, Bool.or_eq_true, beq_iff_eq]
  grind

theorem offered_eq (wanted : MatchCriteria) (loader : LoaderData) :
    offered wanted loader.metadata = (isMatch (resultOf wanted.deviceId loader) wanted.vendor
      wanted.chipset wanted.protocol wanted.storageType &&
        passes { deviceId := wanted.deviceId } loader.metadata) := by
  rw [isMatch_eq, Bool.eq_iff_iff]
  simp only [offered, passes, LoaderMatcher.matchVendor, matchProtocol, matchMsmId,
    matchStorageType, LoaderMatcher.matchChipset, matchText, resultOf, matchResult,
    Bool.and_eq_true, Bool.or_eq_true, beq_iff_eq]
  grind

theorem results_isStableSort (f : LoaderFramework) (wanted : MatchCriteria) :
    IsStableSort MatchResult.score
      ((f.repo.loaders.filter fun l => offered wanted l.metadata).map (resultOf wanted.deviceId))
      ((LoaderMatcher.find { deviceId := wanted.deviceId } f.repo.listWithMetadata).filter fun r =>
        isMatch r wanted.vendor wanted.chipset wanted.protocol wanted.storageType) := by
  have hsort := (find_isStableSort { deviceId := wanted.deviceId } f.repo.listWithMetadata).filter
    fun r => isMatch r wanted.vendor wanted.chipset wanted.protocol wanted.storageType
  have hsame : (((f.repo.listWithMetadata.filter fun c =>
        passes { deviceId := wanted.deviceId } c.2).map
          (matchResult { deviceId := wanted.deviceId })).filter fun r =>
            isMatch r wanted.vendor wanted.chipset wanted.protocol wanted.storageType)
      = (f.repo.loaders.filter fun l => offered wanted l.metadata).map
          (resultOf wanted.deviceId) := by
    simp only [LoaderRepository.listWithMetadata, List.filter_map, List.map_map,
      List.filter_filter, offered_eq]
    rfl
  rwa [hsame] at hsort

/-- How the choice goes. -/
inductive Chooses (f : LoaderFramework) (wanted : MatchCriteria) :
    Except ErrorCode LoaderData → Prop
  | nothing (h : ∀ loader ∈ f.repo.loaders, offered wanted loader.metadata = false) :
    Chooses f wanted (.error .loaderNotFound)
  | best (loader : LoaderData) (hmem : loader ∈ f.repo.loaders)
    (hoffered : offered wanted loader.metadata = true)
    (hbest : ∀ other ∈ f.repo.loaders, offered wanted other.metadata = true →
      computeScore other.metadata { deviceId := wanted.deviceId } ≤
          computeScore loader.metadata { deviceId := wanted.deviceId } ∧
        (computeScore other.metadata { deviceId := wanted.deviceId } =
            computeScore loader.metadata { deviceId := wanted.deviceId } → other ≠ loader →
          loader.name < other.name)) : Chooses f wanted (.ok loader)

/-- The first of the results is the best loader. -/
theorem first_best {first : MatchResult} {rest : List MatchResult}
    (h : IsStableSort MatchResult.score
      ((f.repo.loaders.filter fun l => offered wanted l.metadata).map (resultOf wanted.deviceId))
      (first :: rest)) :
    ∃ loader ∈ f.repo.loaders, first.name = loader.name ∧ Chooses f wanted (.ok loader) := by
  obtain ⟨hhighest, others, hclass⟩ := h.first
  obtain ⟨loader, hloader, rfl⟩ := List.mem_map.mp (h.mem_iff.mp List.mem_cons_self)
  obtain ⟨hmem, hoffered⟩ := List.mem_filter.mp hloader
  refine ⟨loader, hmem, rfl, .best loader hmem hoffered ?_⟩
  intro other hother hotherOffered
  have hresult : resultOf wanted.deviceId other ∈
      (f.repo.loaders.filter fun l => offered wanted l.metadata).map (resultOf wanted.deviceId) :=
    List.mem_map.mpr ⟨other, List.mem_filter.mpr ⟨hother, hotherOffered⟩, rfl⟩
  refine ⟨hhighest _ hresult, ?_⟩
  intro hscore hne
  -- the results of one score stand in the order of the names
  have hsorted : ((f.repo.loaders.filter fun l => offered wanted l.metadata).map
      (resultOf wanted.deviceId)).Pairwise (·.name < ·.name) :=
    List.pairwise_map.mpr (f.repo.sorted.filter _)
  have hclassSorted := hsorted.filter fun r =>
    decide (r.score = (resultOf wanted.deviceId loader).score)
  have hinClass : resultOf wanted.deviceId other ∈
      ((f.repo.loaders.filter fun l => offered wanted l.metadata).map
        (resultOf wanted.deviceId)).filter fun r =>
          decide (r.score = (resultOf wanted.deviceId loader).score) :=
    List.mem_filter.mpr ⟨hresult, decide_eq_true hscore⟩
  rw [hclass] at hclassSorted hinClass
  rcases List.mem_cons.mp hinClass with heq | hlater
  · have hname : other.name = loader.name := congrArg (·.name) heq
    exact absurd (LoaderRepository.eq_of_name hother hmem hname) hne
  · exact (List.pairwise_cons.mp hclassSorted).1 _ hlater

theorem findBestLoader_chooses (h : f.Added) (wanted : MatchCriteria) :
    Chooses f wanted (f.findBestLoader wanted.deviceId wanted.vendor wanted.chipset wanted.protocol
      wanted.storageType).1 := by
  have hsort := results_isStableSort f wanted
  have hnone (hempty : (LoaderMatcher.find { deviceId := wanted.deviceId }
      f.repo.listWithMetadata).filter (fun r => isMatch r wanted.vendor wanted.chipset
        wanted.protocol wanted.storageType) = []) :
      ∀ loader ∈ f.repo.loaders, offered wanted loader.metadata = false := by
    intro loader hloader
    rw [← Bool.not_eq_true]
    intro hoffered
    have hresult := hsort.mem_iff.mpr
      (List.mem_map.mpr ⟨loader, List.mem_filter.mpr ⟨hloader, hoffered⟩, rfl⟩)
    rw [hempty] at hresult
    cases hresult
  rw [findBestLoader, findAll, h.criteria]
  dsimp only
  split_ifs with hcandidates hresults
  · apply Chooses.nothing
    apply hnone
    rw [hcandidates]
    rfl
  · apply Chooses.nothing
    apply hnone
    rw [hresults]
    rfl
  · dsimp only
    generalize hchosen : (LoaderMatcher.find { deviceId := wanted.deviceId }
      f.repo.listWithMetadata).filter (fun r => isMatch r wanted.vendor wanted.chipset
        wanted.protocol wanted.storageType) = chosen at hsort hnone
    cases chosen with
    | nil => exact .nothing (hnone rfl)
    | cons first rest =>
      obtain ⟨loader, hmem, hname, hbest⟩ := first_best hsort
      have hselect : PrioritySelection.select ((first :: rest).map fun r =>
          ⟨r.name, r.metadata, r.score.toUInt8⟩) = first.name := by
        apply select_first
        · intro r hr
          obtain ⟨l, -, rfl⟩ := List.mem_map.mp (hsort.mem_iff.mp hr)
          exact computeScore_le _ _
        · exact (List.pairwise_cons.mp hsort.descending).1
      have hnamed := h.named loader hmem
      rw [hselect, hname, if_neg (List.cons_ne_nil _ _), if_neg hnamed, LoaderRepository.get,
        LoaderRepository.find_mem hmem]
      exact hbest

/-! ## Keys -/

theorem compatible_eq (wanted : MatchCriteria) (metadata : LoaderMetadata) :
    compatible wanted metadata = (offered wanted metadata && matchPkHash wanted metadata) := rfl

/-- The points for the device itself, which every offered loader has. -/
def devicePoints (deviceId : DeviceId) : Nat := if deviceId.msmId > 0 then 50 else 0

theorem score_offered {metadata : LoaderMetadata} (h : offered wanted metadata = true) :
    computeScore metadata { deviceId := wanted.deviceId }
      = (if Keyed { deviceId := wanted.deviceId } metadata then 80 else 0)
        + devicePoints wanted.deviceId := by
  apply computeScore_device
  simp only [offered, passes, Bool.and_eq_true] at h
  exact h.1.1.2

theorem score_unkeyed {metadata : LoaderMetadata} (h : offered wanted metadata = true)
    (hkey : ¬ Keyed { deviceId := wanted.deviceId } metadata) :
    computeScore metadata { deviceId := wanted.deviceId } = devicePoints wanted.deviceId := by
  rw [score_offered h, if_neg hkey, Nat.zero_add]

theorem not_keyed_of_mismatch {metadata : LoaderMetadata}
    (h : matchPkHash wanted metadata = false) :
    ¬ Keyed { deviceId := wanted.deviceId } metadata := by
  intro hkeyed
  have hmatch : matchPkHash wanted metadata = true := matchPkHash_of_keyed hkeyed
  rw [h] at hmatch
  cases hmatch

/-- The best loader is not signed for another key exactly when the key is preferred. -/
theorem Chooses.key_iff {loader : LoaderData} (h : Chooses f wanted (.ok loader)) :
    matchPkHash wanted loader.metadata = true ↔ f.KeyPreferred wanted := by
  cases h with
  | best _ hmem hoffered hbest =>
    constructor
    · intro hmatch bad hbad hbadOffered hmismatch
      refine ⟨loader, hmem, hoffered, hmatch, ?_⟩
      by_cases hstated : loader.metadata.pkhash = []
      · right
        have hunkeyed : ¬ Keyed { deviceId := wanted.deviceId } loader.metadata :=
          fun hkeyed => hkeyed.1 hstated
        apply (hbest bad hbad hbadOffered).2
        · rw [score_unkeyed hbadOffered (not_keyed_of_mismatch hmismatch),
            score_unkeyed hoffered hunkeyed]
        · rintro rfl
          rw [hmatch] at hmismatch
          cases hmismatch
      · exact .inl hstated
    · intro hpreferred
      by_contra hmatch
      rw [Bool.not_eq_true] at hmatch
      obtain ⟨good, hgood, hgoodOffered, hgoodMatch, hahead⟩ :=
        hpreferred loader hmem hoffered hmatch
      have hscore := score_unkeyed hoffered (not_keyed_of_mismatch hmatch)
      have hgoodScore := score_offered hgoodOffered
      obtain ⟨hle, htie⟩ := hbest good hgood hgoodOffered
      have hne : good ≠ loader := by
        rintro rfl
        rw [hgoodMatch] at hmatch
        cases hmatch
      by_cases hkeyed : Keyed { deviceId := wanted.deviceId } good.metadata
      · rw [if_pos hkeyed] at hgoodScore
        omega
      · rw [if_neg hkeyed, Nat.zero_add] at hgoodScore
        have hstated : good.metadata.pkhash = [] := by
          by_contra hstated
          exact hkeyed (keyed_of_matchPkHash hgoodMatch hstated
            (isPkHashEmpty_of_mismatch hmatch))
        have hbefore := hahead.resolve_left (not_not.mpr hstated)
        exact lt_asymm hbefore (htie (hgoodScore.trans hscore.symm) hne)

theorem Chooses.best_compatible {loader : LoaderData} (h : Chooses f wanted (.ok loader)) :
    ∀ other ∈ f.repo.loaders, compatible wanted other.metadata = true →
      computeScore other.metadata { deviceId := wanted.deviceId } ≤
        computeScore loader.metadata { deviceId := wanted.deviceId } := by
  cases h with
  | best _ hmem hoffered hbest =>
    intro other hother hcompatible
    rw [compatible_eq, Bool.and_eq_true] at hcompatible
    exact (hbest other hother hcompatible.1).1

theorem findsBest_of_added (h : f.Added) (wanted : MatchCriteria) :
    f.FindsBest wanted ↔ f.KeyPreferred wanted := by
  have hchooses := findBestLoader_chooses h wanted
  generalize houtcome : (f.findBestLoader wanted.deviceId wanted.vendor wanted.chipset
    wanted.protocol wanted.storageType).1 = outcome at hchooses
  cases outcome with
  | error e =>
    cases hchooses with
    | nothing hnone =>
      apply iff_of_true
      · constructor
        · intro loader heq
          rw [houtcome] at heq
          cases heq
        · intro e _ loader hloader
          rw [compatible_eq, hnone loader hloader, Bool.false_and]
      · intro bad hbad hoffered
        rw [hnone bad hbad] at hoffered
        cases hoffered
  | ok loader =>
    rw [← hchooses.key_iff]
    constructor
    · intro hbest
      have hcompatible := (hbest.found loader houtcome).2.1
      rw [compatible_eq, Bool.and_eq_true] at hcompatible
      exact hcompatible.2
    · intro hmatch
      constructor
      · intro other heq
        obtain rfl : other = loader := by
          rw [houtcome] at heq
          exact (Except.ok.inj heq).symm
        rw [h.criteria]
        refine ⟨?_, ?_, hchooses.best_compatible⟩
        · cases hchooses with
          | best _ hmem => exact hmem
        · cases hchooses with
          | best _ hmem hoffered =>
            rw [compatible_eq, hoffered, hmatch]
            rfl
      · intro e heq
        rw [houtcome] at heq
        cases heq

/-! ## Matching and selection -/

/-- `find` and `findBestLoader`, each against what it is for. -/
theorem matching_iff (criteria : MatchCriteria) (candidates : List (String × LoaderMetadata))
    (additions : List Addition) (wanted : MatchCriteria) :
    (FindsExactly criteria candidates ↔
      ∀ candidate ∈ candidates, passes criteria candidate.2 = true →
        LoaderMatcher.matchChipset criteria candidate.2 = true ∧
          matchPkHash criteria candidate.2 = true) ∧
    ((build additions).FindsBest wanted ↔ (build additions).KeyPreferred wanted) :=
  ⟨findsExactly_iff criteria candidates, findsBest_of_added (build_added additions) wanted⟩

/-- A device with a key of its own. -/
def keyedDevice : DeviceId where
  pkhash := Vector.replicate 32 1

/-- A loader that is signed for another key. -/
def foreignLoader : LoaderMetadata where
  pkhash := List.replicate 32 2

/-- The only loader there is is for another key, and it is found. -/
theorem matching_fails :
    ¬ ((∀ criteria candidates, FindsExactly criteria candidates) ∧
      ∀ additions wanted, (build additions).FindsBest wanted) := by
  rintro ⟨-, hbest⟩
  have hfound := (hbest [⟨"vip", [1], foreignLoader⟩] { deviceId := keyedDevice }).found
    ⟨"vip", [1], { foreignLoader with loaderSize := 1 }⟩ (by decide +kernel)
  have hmismatch : compatible { deviceId := keyedDevice } { foreignLoader with loaderSize := 1 }
      = false := by
    decide +kernel
  cases hmismatch.symm.trans hfound.2.1

end LoaderFramework

end MBootCore
