import MBootCore.Domain.Error
import MBootCore.Domain.Types
import MBootCore.Support.StableSort
import Mathlib.Data.String.Basic

/-!
# Loader — LoaderMatcher

`LoaderMatcher.cpp`, and the part of `LoaderFramework.cpp` that adds loaders and
finds the best one. `find` asks four of the six criteria: `matchChipset` and
`matchPkHash` are there, and nothing calls them. Of the metadata of a loader what
no modelled function reads is left out.
-/

namespace MBootCore

structure LoaderMetadata where
  vendor : String := ""
  protocol : String := ""
  chipset : String := ""
  msmId : UInt32 := 0
  pkhash : List UInt8 := []
  storageType : String := ""
  loaderSize : Nat := 0
  deriving DecidableEq, Repr

structure MatchCriteria where
  vendor : String := ""
  chipset : String := ""
  protocol : String := ""
  storageType : String := ""
  deviceId : DeviceId := {}
  deriving DecidableEq, Repr

structure MatchResult where
  name : String
  metadata : LoaderMetadata
  score : Nat
  deriving DecidableEq, Repr

namespace LoaderMatcher

def isPkHashEmpty (arr : Vector UInt8 32) : Bool := arr.toList.all (· == 0)

/-- At most 225, so that the 32 bits of the code do not matter. -/
def computeScore (metadata : LoaderMetadata) (criteria : MatchCriteria) : Nat :=
  (if criteria.vendor ≠ "" ∧ metadata.vendor = criteria.vendor then 40 else 0) +
  (if criteria.chipset ≠ "" ∧ metadata.chipset = criteria.chipset then 30 else 0) +
  (if criteria.protocol ≠ "" ∧ metadata.protocol = criteria.protocol then 15 else 0) +
  (if criteria.storageType ≠ "" ∧ metadata.storageType = criteria.storageType then 10 else 0) +
  (if metadata.pkhash ≠ [] ∧ isPkHashEmpty criteria.deviceId.pkhash = false ∧
      metadata.pkhash.length = 32 ∧ metadata.pkhash = criteria.deviceId.pkhash.toList then 80
    else 0) +
  (if criteria.deviceId.msmId > 0 ∧ metadata.msmId = criteria.deviceId.msmId then 50 else 0)

/-- A criterion that is a text: the empty text is none. -/
def matchText (wanted found : String) : Bool := wanted == "" || found == wanted

def matchVendor (criteria : MatchCriteria) (metadata : LoaderMetadata) : Bool :=
  matchText criteria.vendor metadata.vendor

def matchProtocol (criteria : MatchCriteria) (metadata : LoaderMetadata) : Bool :=
  matchText criteria.protocol metadata.protocol

def matchChipset (criteria : MatchCriteria) (metadata : LoaderMetadata) : Bool :=
  matchText criteria.chipset metadata.chipset

def matchStorageType (criteria : MatchCriteria) (metadata : LoaderMetadata) : Bool :=
  matchText criteria.storageType metadata.storageType

def matchMsmId (criteria : MatchCriteria) (metadata : LoaderMetadata) : Bool :=
  criteria.deviceId.msmId == 0 || metadata.msmId == criteria.deviceId.msmId

def matchPkHash (criteria : MatchCriteria) (metadata : LoaderMetadata) : Bool :=
  if isPkHashEmpty criteria.deviceId.pkhash then true
  else if metadata.pkhash = [] then true
  else if metadata.pkhash.length ≠ 32 then false
  else metadata.pkhash == criteria.deviceId.pkhash.toList

/-- The criteria that `find` asks of a candidate. -/
def passes (criteria : MatchCriteria) (metadata : LoaderMetadata) : Bool :=
  matchVendor criteria metadata && matchProtocol criteria metadata &&
    matchMsmId criteria metadata && matchStorageType criteria metadata

def matchResult (criteria : MatchCriteria) (candidate : String × LoaderMetadata) : MatchResult :=
  ⟨candidate.1, candidate.2, computeScore candidate.2 criteria⟩

def find (criteria : MatchCriteria) (candidates : List (String × LoaderMetadata)) :
    List MatchResult :=
  StableSort.sortBy MatchResult.score
    ((candidates.filter fun c => passes criteria c.2).map (matchResult criteria))

/-! ## What `find` is for -/

/-- All the criteria that are set. -/
def compatible (criteria : MatchCriteria) (metadata : LoaderMetadata) : Bool :=
  passes criteria metadata && matchChipset criteria metadata && matchPkHash criteria metadata

/-- The compatible candidates, each once, by descending score, and those of one score
in the order they came in. -/
def FindsExactly (criteria : MatchCriteria) (candidates : List (String × LoaderMetadata)) : Prop :=
  IsStableSort MatchResult.score
    ((candidates.filter fun c => compatible criteria c.2).map (matchResult criteria))
    (find criteria candidates)

theorem find_isStableSort (criteria : MatchCriteria) (candidates : List (String × LoaderMetadata)) :
    IsStableSort MatchResult.score
      ((candidates.filter fun c => passes criteria c.2).map (matchResult criteria))
      (find criteria candidates) :=
  StableSort.isStableSort_sortBy _ _

theorem compatible_iff {criteria : MatchCriteria} {metadata : LoaderMetadata} :
    compatible criteria metadata = true ↔ passes criteria metadata = true ∧
      matchChipset criteria metadata = true ∧ matchPkHash criteria metadata = true := by
  rw [compatible, Bool.and_eq_true, Bool.and_eq_true, and_assoc]

theorem mem_results {criteria : MatchCriteria} {candidates : List (String × LoaderMetadata)}
    {p : LoaderMetadata → Bool} {candidate : String × LoaderMetadata} :
    matchResult criteria candidate ∈
        (candidates.filter fun c => p c.2).map (matchResult criteria) ↔
      candidate ∈ candidates ∧ p candidate.2 = true := by
  rw [List.mem_map]
  constructor
  · rintro ⟨other, hother, heq⟩
    obtain ⟨hmem, hp⟩ := List.mem_filter.mp hother
    obtain ⟨hname, hmetadata, -⟩ := MatchResult.mk.inj heq
    obtain rfl : other = candidate := Prod.ext hname hmetadata
    exact ⟨hmem, hp⟩
  · intro h
    exact ⟨candidate, List.mem_filter.mpr h, rfl⟩

/-- `find` is exact when no candidate that it lets through is for another chipset or
signed for another key. -/
theorem findsExactly_iff (criteria : MatchCriteria) (candidates : List (String × LoaderMetadata)) :
    FindsExactly criteria candidates ↔
      ∀ candidate ∈ candidates, passes criteria candidate.2 = true →
        matchChipset criteria candidate.2 = true ∧ matchPkHash criteria candidate.2 = true := by
  have hfound := find_isStableSort criteria candidates
  constructor
  · intro hexact candidate hmem hpasses
    have hresult := hexact.mem_iff.mp (hfound.mem_iff.mpr (mem_results.mpr ⟨hmem, hpasses⟩))
    exact (compatible_iff.mp (mem_results.mp hresult).2).2
  · intro hall
    have hsame : (candidates.filter fun c => compatible criteria c.2)
        = candidates.filter fun c => passes criteria c.2 := by
      apply List.filter_congr
      intro candidate hmem
      rw [Bool.eq_iff_iff, compatible_iff]
      exact and_iff_left_of_imp (hall candidate hmem)
    rw [FindsExactly, hsame]
    exact hfound

end LoaderMatcher

/-! ## The framework -/

structure LoaderData where
  name : String
  data : ByteBuffer
  metadata : LoaderMetadata
  deriving DecidableEq, Repr

/-- A map by name, which is walked in the order of the names. -/
structure LoaderRepository where
  loaders : List LoaderData := []
  sorted : loaders.Pairwise (·.name < ·.name) := by exact List.Pairwise.nil

namespace LoaderRepository

def emplace (loader : LoaderData) : List LoaderData → List LoaderData
  | [] => [loader]
  | first :: rest =>
    if loader.name < first.name then loader :: first :: rest else first :: emplace loader rest

theorem mem_emplace {loader other : LoaderData} {loaders : List LoaderData} :
    other ∈ emplace loader loaders ↔ other = loader ∨ other ∈ loaders := by
  induction loaders with
  | nil => simp [emplace]
  | cons first rest ih =>
    rw [emplace]
    split
    · rw [List.mem_cons]
    · rw [List.mem_cons, ih, List.mem_cons, or_left_comm]

theorem sorted_emplace {loader : LoaderData} {loaders : List LoaderData}
    (h : loaders.Pairwise (·.name < ·.name)) (hnew : ∀ other ∈ loaders, other.name ≠ loader.name) :
    (emplace loader loaders).Pairwise (·.name < ·.name) := by
  induction loaders with
  | nil => exact List.pairwise_singleton _ _
  | cons first rest ih =>
    obtain ⟨hfirst, hrest⟩ := List.pairwise_cons.mp h
    obtain ⟨hne, hnew⟩ := List.forall_mem_cons.mp hnew
    rw [emplace]
    split
    · rename_i hlt
      refine List.pairwise_cons.mpr ⟨?_, h⟩
      intro other hother
      rcases List.mem_cons.mp hother with rfl | hother
      · exact hlt
      · exact lt_trans hlt (hfirst other hother)
    · rename_i hle
      refine List.pairwise_cons.mpr ⟨?_, ih hrest hnew⟩
      intro other hother
      rcases mem_emplace.mp hother with rfl | hother
      · exact lt_of_le_of_ne (not_lt.mp hle) hne
      · exact hfirst other hother

def find (repo : LoaderRepository) (name : String) : Option LoaderData :=
  repo.loaders.find? fun loader => loader.name = name

def add (loader : LoaderData) (repo : LoaderRepository) :
    Except ErrorCode Unit × LoaderRepository :=
  if h : ∀ other ∈ repo.loaders, other.name ≠ loader.name then
    (.ok (), ⟨emplace loader repo.loaders, sorted_emplace repo.sorted h⟩)
  else (.error .alreadyExists, repo)

def get (repo : LoaderRepository) (name : String) : Except ErrorCode LoaderData :=
  match repo.find name with
  | none => .error .loaderNotFound
  | some loader => .ok loader

def listWithMetadata (repo : LoaderRepository) : List (String × LoaderMetadata) :=
  repo.loaders.map fun loader => (loader.name, loader.metadata)

end LoaderRepository

structure SelectionCandidate where
  name : String
  metadata : LoaderMetadata
  priority : UInt8
  deriving DecidableEq, Repr

/-- `std::max_element`: the first of the greatest. -/
def maxElement {α : Type} (less : α → α → Bool) : α → List α → α
  | largest, [] => largest
  | largest, x :: xs => maxElement less (if less largest x then x else largest) xs

def PrioritySelection.select : List SelectionCandidate → String
  | [] => ""
  | first :: rest => (maxElement (fun a b => a.priority < b.priority) first rest).name

/-- The framework with its own matcher and selection policy. -/
structure LoaderFramework where
  repo : LoaderRepository := {}
  criteria : MatchCriteria := {}

namespace LoaderFramework

def addLoader (name : String) (data : ByteBuffer) (metadata : LoaderMetadata)
    (f : LoaderFramework) : Except ErrorCode Unit × LoaderFramework :=
  if name = "" then (.error .invalidArgument, f)
  else
    let added := f.repo.add ⟨name, data, { metadata with loaderSize := data.length }⟩
    (added.1, { f with repo := added.2 })

def findAll (deviceId : DeviceId) (f : LoaderFramework) :
    Except ErrorCode (List MatchResult) × LoaderFramework :=
  let candidates := f.repo.listWithMetadata
  if candidates = [] then (.error .loaderNotFound, f)
  else
    let f := { f with criteria := { f.criteria with deviceId } }
    let results := LoaderMatcher.find f.criteria candidates
    if results = [] then (.error .loaderNotFound, f) else (.ok results, f)

/-- `matches` -/
def isMatch (result : MatchResult) (vendor chipset protocol storageType : String) : Bool :=
  if vendor ≠ "" ∧ result.metadata.vendor ≠ vendor then false
  else if chipset ≠ "" ∧ result.metadata.chipset ≠ chipset then false
  else if protocol ≠ "" ∧ result.metadata.protocol ≠ protocol then false
  else if storageType ≠ "" ∧ result.metadata.storageType ≠ storageType then false
  else true

def findBestLoader (deviceId : DeviceId) (vendor chipset protocol storageType : String)
    (f : LoaderFramework) : Except ErrorCode LoaderData × LoaderFramework :=
  match f.findAll deviceId with
  | (.error e, f) => (.error e, f)
  | (.ok all, f) =>
    let results := all.filter fun r => isMatch r vendor chipset protocol storageType
    if results = [] then (.error .loaderNotFound, f)
    else
      let candidates := results.map fun r => ⟨r.name, r.metadata, r.score.toUInt8⟩
      let selected := PrioritySelection.select candidates
      if selected = "" then (.error .loaderNotFound, f)
      else (f.repo.get selected, f)

end LoaderFramework

end MBootCore
