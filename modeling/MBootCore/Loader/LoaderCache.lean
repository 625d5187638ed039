import MBootCore.Domain.Error
import MBootCore.Domain.Types
import MBootCore.Support.CallRun
import Mathlib.Data.List.AList
import Mathlib.Data.List.Induction

/-!
# Loader — LoaderCache

`LoaderCache.cpp`: a map of loader images, and beside it the keys in the order
they were put. A key that is put again is listed again, and its first listing
still counts as the oldest.
-/

namespace MBootCore

structure LoaderCache where
  maxEntries : Nat := 128
  cache : AList (fun _ : String => ByteBuffer) := ∅
  accessOrder : List String := []

namespace LoaderCache

def size (s : LoaderCache) : Nat := s.cache.keys.length

def contains (s : LoaderCache) (key : String) : Bool := (s.cache.lookup key).isSome

def get (s : LoaderCache) (key : String) : Except ErrorCode ByteBuffer :=
  match s.cache.lookup key with
  | none => .error .cacheMiss
  | some data => .ok data

/-- The loop of `evictIfNeeded` over the order of the keys. -/
def evictLoop (maxEntries : Nat) :
    List String → AList (fun _ : String => ByteBuffer) →
      AList (fun _ : String => ByteBuffer) × List String
  | [], cache => (cache, [])
  | oldest :: order, cache =>
    if cache.keys.length > maxEntries then evictLoop maxEntries order (cache.erase oldest)
    else (cache, oldest :: order)

def evictIfNeeded (s : LoaderCache) : LoaderCache :=
  let kept := evictLoop s.maxEntries s.accessOrder s.cache
  { s with cache := kept.1, accessOrder := kept.2 }

/-- `none` is the null pointer. -/
def put (key : String) (data : Option ByteBuffer) (s : LoaderCache) : LoaderCache :=
  match data with
  | none => s
  | some data => evictIfNeeded { s with
      cache := s.cache.insert key data
      accessOrder := s.accessOrder ++ [key] }

def remove (key : String) (s : LoaderCache) : LoaderCache :=
  { s with
    cache := s.cache.erase key
    accessOrder := s.accessOrder.filter (· ≠ key) }

def clear (s : LoaderCache) : LoaderCache := { s with cache := ∅, accessOrder := [] }

end LoaderCache

inductive LoaderCacheCall where
  | put (key : String) (data : ByteBuffer)
  | get (key : String)
  | remove (key : String)
  | clear
  deriving DecidableEq, Repr

/-- Only `get` has a result. -/
def LoaderCacheCall.run :
    LoaderCacheCall → LoaderCache → Option (Except ErrorCode ByteBuffer) × LoaderCache
  | .put key data, s => (none, s.put key (some data))
  | .get key, s => (some (s.get key), s)
  | .remove key, s => (none, s.remove key)
  | .clear, s => (none, s.clear)

namespace LoaderCache

/-! ## What the cache is for -/

/-- The order lists every cached key once, and nothing else. -/
structure Consistent (s : LoaderCache) : Prop where
  bounded : s.size ≤ s.maxEntries
  once : s.accessOrder.Nodup
  listed : ∀ key, key ∈ s.accessOrder ↔ s.contains key = true

/-- `key` was put, and `other` was put after the latest put of `key`. -/
def PutBefore (calls : List LoaderCacheCall) (key other : String) : Prop :=
  ∃ earlier data later, calls = earlier ++ .put other data :: later ∧
    (∃ data', .put key data' ∈ earlier) ∧ ∀ data', .put key data' ∉ later

/-- There when a put of `key` is about to evict. -/
def There (s : LoaderCache) (key other : String) : Prop := other = key ∨ s.contains other = true

/-- What a call after `earlier` is to do to the cache `s`. -/
structure RightlyDone (earlier : List LoaderCacheCall) (c : LoaderCacheCall) (s : LoaderCache) :
    Prop where
  consistent : (c.run s).2.Consistent
  stored : ∀ key data, c = .put key data → (c.run s).2.get key = .ok data
  evicted : ∀ key data, c = .put key data → ∀ oldest, s.There key oldest →
    (c.run s).2.contains oldest = false →
      ∀ other, s.There key other → other ≠ oldest → PutBefore (earlier ++ [c]) oldest other

/-- Every state of the run is consistent, and every call did what it is to do. -/
def Exact (maxEntries : Nat) (calls : List LoaderCacheCall) : Prop :=
  ∀ earlier c later, calls = earlier ++ c :: later →
    RightlyDone earlier c (CallRun.final LoaderCacheCall.run earlier { maxEntries })

/-- The key of a put is not in the cache. -/
def Fresh (s : LoaderCache) : LoaderCacheCall → Prop
  | .put key _ => s.contains key = false
  | _ => True

instance (s : LoaderCache) (c : LoaderCacheCall) : Decidable (s.Fresh c) := by
  cases c with
  | put key data => exact inferInstanceAs (Decidable (s.contains key = false))
  | get key | remove key | clear => exact .isTrue trivial

/-! ## The operations -/

variable {s : LoaderCache} {key other : String} {data : ByteBuffer}

theorem contains_iff : s.contains key = true ↔ key ∈ s.cache := AList.lookup_isSome

theorem contains_false : s.contains key = false ↔ key ∉ s.cache := by
  rw [← contains_iff, Bool.not_eq_true]

theorem length_insert (data : ByteBuffer)
    {cache : AList (fun _ : String => ByteBuffer)} (h : key ∉ cache) :
    (cache.insert key data).keys.length = cache.keys.length + 1 := by
  rw [AList.keys_insert, List.erase_of_not_mem h, List.length_cons]

theorem length_erase {cache : AList (fun _ : String => ByteBuffer)} (h : key ∈ cache) :
    (cache.erase key).keys.length + 1 = cache.keys.length := by
  rw [AList.keys_erase]
  exact List.length_erase_add_one h

theorem evictLoop_of_le {maxEntries : Nat} {order : List String}
    {cache : AList (fun _ : String => ByteBuffer)} (h : cache.keys.length ≤ maxEntries) :
    evictLoop maxEntries order cache = (cache, order) := by
  cases order with
  | nil => rfl
  | cons oldest order => rw [evictLoop, if_neg (Nat.not_lt.mpr h)]

/-- One entry too many costs the first key of the order. -/
theorem evictLoop_over {maxEntries : Nat} {oldest : String} {order : List String}
    {cache : AList (fun _ : String => ByteBuffer)} (hmem : oldest ∈ cache)
    (h : cache.keys.length = maxEntries + 1) :
    evictLoop maxEntries (oldest :: order) cache = (cache.erase oldest, order) := by
  have herased := length_erase hmem
  rw [evictLoop, if_pos (by omega), evictLoop_of_le (by omega)]

/-- A put with room left. -/
theorem put_room (h : (s.cache.insert key data).keys.length ≤ s.maxEntries) :
    s.put key (some data) = { s with
      cache := s.cache.insert key data
      accessOrder := s.accessOrder ++ [key] } := by
  rw [put, evictIfNeeded, evictLoop_of_le h]

/-- A put of a new key into a full cache. -/
theorem put_full {oldest : String} {order : List String} (h : s.Consistent)
    (hfresh : s.contains key = false) (hfull : s.size = s.maxEntries)
    (horder : s.accessOrder = oldest :: order) :
    s.put key (some data) = { s with
      cache := (s.cache.insert key data).erase oldest
      accessOrder := order ++ [key] } := by
  have hmem : oldest ∈ s.cache :=
    contains_iff.mp ((h.listed oldest).mp (by rw [horder]; exact List.mem_cons_self))
  have hlength : (s.cache.insert key data).keys.length = s.maxEntries + 1 := by
    rw [length_insert data (contains_false.mp hfresh), ← hfull, size]
  rw [put, evictIfNeeded, horder]
  simp only [List.cons_append]
  rw [evictLoop_over ((AList.mem_insert _).mpr (.inr hmem)) hlength]

/-- How the put of a key goes that is not cached. -/
inductive Puts (s : LoaderCache) (key : String) (data : ByteBuffer) : LoaderCache → Prop
  | room (h : s.size < s.maxEntries) : Puts s key data { s with
      cache := s.cache.insert key data
      accessOrder := s.accessOrder ++ [key] }
  | full (oldest : String) (order : List String) (h : s.size = s.maxEntries)
    (horder : s.accessOrder = oldest :: order) : Puts s key data { s with
      cache := (s.cache.insert key data).erase oldest
      accessOrder := order ++ [key] }

theorem put_puts (data : ByteBuffer) (h : s.Consistent) (hmax : 1 ≤ s.maxEntries)
    (hfresh : s.contains key = false) :
    Puts s key data (s.put key (some data)) := by
  have hlength := length_insert data (contains_false.mp hfresh)
  rcases Nat.lt_or_eq_of_le h.bounded with hroom | hfull
  · rw [put_room (by rw [hlength]; exact hroom)]
    exact .room hroom
  · cases horder : s.accessOrder with
    | nil =>
      -- a full cache has an entry, and it is listed
      have hnone : s.cache.keys = [] := by
        apply List.eq_nil_iff_forall_not_mem.mpr
        intro key' hkey'
        have hlisted := (h.listed key').mpr (contains_iff.mpr hkey')
        rw [horder] at hlisted
        cases hlisted
      rw [size, hnone, List.length_nil] at hfull
      omega
    | cons oldest order =>
      rw [put_full h hfresh hfull horder]
      exact .full oldest order hfull horder

/-! ## Fresh puts -/

@[simp] theorem run_put (s : LoaderCache) (key : String) (data : ByteBuffer) :
    (LoaderCacheCall.run (.put key data) s).2 = s.put key (some data) := rfl

theorem Puts.consistent {s' : LoaderCache} (hputs : Puts s key data s') (h : s.Consistent)
    (hfresh : s.contains key = false) : s'.Consistent := by
  have hcache := contains_false.mp hfresh
  have hnew : key ∉ s.accessOrder := by
    intro hmem
    exact hcache (contains_iff.mp ((h.listed key).mp hmem))
  cases hputs with
  | room hroom =>
    constructor
    · show (s.cache.insert key data).keys.length ≤ s.maxEntries
      rw [length_insert data hcache]
      exact hroom
    · exact List.nodup_append_comm.mp (List.nodup_cons.mpr ⟨hnew, h.once⟩)
    · intro other
      rw [contains_iff, AList.mem_insert, List.mem_append, List.mem_singleton, h.listed,
        contains_iff, or_comm]
  | full oldest order hfull horder =>
    have honce := h.once
    rw [horder] at honce hnew
    obtain ⟨holdest, honce⟩ := List.nodup_cons.mp honce
    obtain ⟨hne, hnew⟩ := not_or.mp (List.mem_cons.not.mp hnew)
    have hmem : oldest ∈ s.cache :=
      contains_iff.mp ((h.listed oldest).mp (by rw [horder]; exact List.mem_cons_self))
    constructor
    · show ((s.cache.insert key data).erase oldest).keys.length ≤ s.maxEntries
      have hinserted : oldest ∈ s.cache.insert key data := (AList.mem_insert _).mpr (.inr hmem)
      have herased := length_erase hinserted
      rw [length_insert data hcache] at herased
      rw [size] at hfull
      omega
    · exact List.nodup_append_comm.mp (List.nodup_cons.mpr ⟨hnew, honce⟩)
    · intro other
      have hlisted := h.listed other
      rw [horder, List.mem_cons, contains_iff] at hlisted
      rw [contains_iff, AList.mem_erase, AList.mem_insert, List.mem_append, List.mem_singleton,
        ← hlisted]
      by_cases hother : other = oldest
      · subst hother
        simp [holdest, Ne.symm hne]
      · simp [hother, or_comm]

/-- A put of a cached key lists it twice. -/
theorem not_consistent_put (h : s.Consistent) (hcached : s.contains key = true) :
    ¬ (s.put key (some data)).Consistent := by
  have hmem : key ∈ s.cache := contains_iff.mp hcached
  have hlength : (s.cache.insert key data).keys.length = s.cache.keys.length := by
    rw [AList.keys_insert, List.length_cons]
    exact List.length_erase_add_one hmem
  rw [put_room (by rw [hlength]; exact h.bounded)]
  intro hafter
  have hlisted := (h.listed key).mpr hcached
  exact (List.nodup_append.mp hafter.once).2.2 key hlisted key (List.mem_singleton_self _) rfl

theorem Consistent.remove (h : s.Consistent) (key : String) : (s.remove key).Consistent where
  bounded := by
    show (s.cache.erase key).keys.length ≤ s.maxEntries
    rw [AList.keys_erase]
    exact Nat.le_trans List.length_erase_le h.bounded
  once := h.once.filter _
  listed other := by
    rw [contains_iff]
    show other ∈ s.accessOrder.filter (· ≠ key) ↔ other ∈ s.cache.erase key
    rw [AList.mem_erase, List.mem_filter, h.listed, contains_iff, and_comm]
    simp

theorem Consistent.clear (s : LoaderCache) : s.clear.Consistent where
  bounded := Nat.zero_le _
  once := List.nodup_nil
  listed other := by
    rw [contains_iff]
    simp [LoaderCache.clear]

theorem start_consistent (maxEntries : Nat) : Consistent { maxEntries } where
  bounded := Nat.zero_le _
  once := List.nodup_nil
  listed other := by
    rw [contains_iff]
    simp

/-! ## The order of the puts -/

theorem PutBefore.append {calls : List LoaderCacheCall} {c : LoaderCacheCall}
    (h : PutBefore calls key other) (hc : ∀ data, c ≠ .put key data) :
    PutBefore (calls ++ [c]) key other := by
  obtain ⟨earlier, data, later, rfl, hput, hlater⟩ := h
  refine ⟨earlier, data, later ++ [c], by simp, hput, ?_⟩
  intro data' hmem
  rcases List.mem_append.mp hmem with hmem | hmem
  · exact hlater data' hmem
  · exact hc data' (List.mem_singleton.mp hmem).symm

theorem PutBefore.last {calls : List LoaderCacheCall} (h : ∃ data, .put key data ∈ calls)
    (other : String) (data : ByteBuffer) : PutBefore (calls ++ [.put other data]) key other :=
  ⟨calls, data, [], rfl, h, fun _ hmem => by cases hmem⟩

/-- The order of the keys is that of their latest puts. -/
structure Ordered (calls : List LoaderCacheCall) (s : LoaderCache) : Prop where
  wasPut : ∀ key ∈ s.accessOrder, ∃ data, .put key data ∈ calls
  sorted : s.accessOrder.Pairwise (PutBefore calls)

/-- What a run of fresh puts keeps. -/
structure Kept (maxEntries : Nat) (calls : List LoaderCacheCall) (s : LoaderCache) : Prop where
  limit : s.maxEntries = maxEntries
  consistent : s.Consistent
  ordered : Ordered calls s

theorem Ordered.sublist {calls : List LoaderCacheCall} {c : LoaderCacheCall} {s' : LoaderCache}
    (h : Ordered calls s) (hsub : s'.accessOrder.Sublist s.accessOrder)
    (hc : ∀ key data, c ≠ .put key data) : Ordered (calls ++ [c]) s' where
  wasPut key hkey := by
    obtain ⟨data, hput⟩ := h.wasPut key (hsub.subset hkey)
    exact ⟨data, List.mem_append_left _ hput⟩
  sorted := (h.sorted.sublist hsub).imp fun hbefore => hbefore.append (hc _)

/-- The new key comes last. -/
theorem Ordered.snoc {calls : List LoaderCacheCall} {order : List String} {s' : LoaderCache}
    (h : Ordered calls s) (hsub : order.Sublist s.accessOrder) (hnew : key ∉ s.accessOrder)
    (hafter : s'.accessOrder = order ++ [key]) : Ordered (calls ++ [.put key data]) s' where
  wasPut other hother := by
    rw [hafter] at hother
    rcases List.mem_append.mp hother with hold | hlast
    · obtain ⟨data', hput⟩ := h.wasPut other (hsub.subset hold)
      exact ⟨data', List.mem_append_left _ hput⟩
    · obtain rfl := List.mem_singleton.mp hlast
      exact ⟨data, List.mem_append_right _ (List.mem_singleton_self _)⟩
  sorted := by
    rw [hafter, List.pairwise_append]
    refine ⟨(h.sorted.sublist hsub).imp_of_mem ?_, List.pairwise_singleton _ _, ?_⟩
    · intro old other hold _ hbefore
      apply hbefore.append
      intro data' heq
      cases heq
      exact hnew (hsub.subset hold)
    · intro old hold last hlast
      obtain rfl := List.mem_singleton.mp hlast
      exact .last (h.wasPut old (hsub.subset hold)) _ data

theorem Kept.put {maxEntries : Nat} {calls : List LoaderCacheCall} (h : Kept maxEntries calls s)
    (hmax : 1 ≤ maxEntries) (hfresh : s.contains key = false) :
    Kept maxEntries (calls ++ [.put key data]) (s.put key (some data)) := by
  have hnew : key ∉ s.accessOrder := by
    intro hmem
    rw [(h.consistent.listed key).mp hmem] at hfresh
    cases hfresh
  have hputs := put_puts data h.consistent (h.limit ▸ hmax) hfresh
  have hconsistent := hputs.consistent h.consistent hfresh
  refine ⟨h.limit, hconsistent, ?_⟩
  generalize s.put key (some data) = s' at hputs
  cases hputs with
  | room => exact h.ordered.snoc (List.Sublist.refl _) hnew rfl
  | full oldest order hfull horder =>
    have hsub : order.Sublist s.accessOrder := horder ▸ List.sublist_cons_self oldest order
    exact h.ordered.snoc hsub hnew rfl

theorem Kept.run {maxEntries : Nat} {calls : List LoaderCacheCall} (h : Kept maxEntries calls s)
    (hmax : 1 ≤ maxEntries) {c : LoaderCacheCall} (hc : s.Fresh c) :
    Kept maxEntries (calls ++ [c]) (c.run s).2 := by
  cases c with
  | put key data => exact h.put hmax hc
  | get key =>
    exact ⟨h.limit, h.consistent, h.ordered.sublist (List.Sublist.refl _) (by simp)⟩
  | remove key =>
    exact ⟨h.limit, h.consistent.remove key,
      h.ordered.sublist List.filter_sublist (by simp)⟩
  | clear =>
    exact ⟨h.limit, Consistent.clear s, h.ordered.sublist (List.nil_sublist _) (by simp)⟩

/-! ## Runs -/

/-- What a fresh put does: its data is there, and the oldest entry makes room. -/
theorem Kept.rightlyDone {maxEntries : Nat} {calls : List LoaderCacheCall}
    (h : Kept maxEntries calls s) (hmax : 1 ≤ maxEntries) {c : LoaderCacheCall} (hc : s.Fresh c) :
    RightlyDone calls c s := by
  refine ⟨(h.run hmax hc).consistent, ?_, ?_⟩
  · rintro key data rfl
    have hcache := contains_false.mp hc
    have hputs := put_puts data h.consistent (h.limit ▸ hmax) hc
    rw [run_put]
    generalize s.put key (some data) = s' at hputs
    cases hputs with
    | room => rw [get, AList.lookup_insert]
    | full oldest order hfull horder =>
      have hne : key ≠ oldest := by
        rintro rfl
        have hlisted := (h.consistent.listed key).mp (by rw [horder]; exact List.mem_cons_self)
        exact hcache (contains_iff.mp hlisted)
      rw [get, AList.lookup_erase_ne hne, AList.lookup_insert]
  · rintro key data rfl oldest hthere hgone other hother hne
    have hputs := put_puts data h.consistent (h.limit ▸ hmax) hc
    rw [run_put, contains_false] at hgone
    rw [There, contains_iff] at hthere hother
    generalize s.put key (some data) = s' at hputs hgone
    cases hputs with
    | room => exact absurd ((AList.mem_insert _).mpr hthere) hgone
    | full first order hfull horder =>
      obtain rfl : oldest = first := by
        by_contra hfirst
        exact hgone (AList.mem_erase.mpr ⟨hfirst, (AList.mem_insert _).mpr hthere⟩)
      have hlisted : oldest ∈ s.accessOrder := by
        rw [horder]
        exact List.mem_cons_self
      rcases hother with rfl | hother
      · exact .last (h.ordered.wasPut oldest hlisted) _ data
      · have hmem := (h.consistent.listed other).mpr (contains_iff.mpr hother)
        have hsorted := h.ordered.sorted
        rw [horder] at hmem hsorted
        have hbefore := (List.pairwise_cons.mp hsorted).1 other
          ((List.mem_cons.mp hmem).resolve_left hne)
        apply hbefore.append
        intro data' heq
        cases heq
        rw [Fresh, (h.consistent.listed key).mp hlisted] at hc
        cases hc

theorem start_kept (maxEntries : Nat) : Kept maxEntries [] { maxEntries } :=
  ⟨rfl, start_consistent maxEntries, ⟨by simp, List.Pairwise.nil⟩⟩

theorem kept_of_fresh {maxEntries : Nat} (hmax : 1 ≤ maxEntries)
    {earlier later : List LoaderCacheCall}
    (hfresh : ∀ r ∈ CallRun.records LoaderCacheCall.run (earlier ++ later) { maxEntries },
      r.before.Fresh r.call) :
    Kept maxEntries earlier (CallRun.final LoaderCacheCall.run earlier { maxEntries }) := by
  induction earlier using List.reverseRecOn generalizing later with
  | nil => exact start_kept maxEntries
  | append_singleton earlier c ih =>
    rw [List.append_assoc, List.singleton_append] at hfresh
    have hc := hfresh _ (CallRun.mem_records.mpr ⟨earlier, c, later, rfl, rfl⟩)
    have hkept := (ih hfresh).run hmax hc
    rwa [CallRun.final_append]

/-- A consistent cache stays so only if the key that is put is not cached. -/
theorem fresh_of_consistent (h : s.Consistent) {c : LoaderCacheCall}
    (hafter : (c.run s).2.Consistent) : s.Fresh c := by
  cases c with
  | put key data =>
    cases hcached : s.contains key with
    | false => exact hcached
    | true => exact absurd hafter (not_consistent_put h hcached)
  | get key | remove key | clear => trivial

theorem Exact.consistent {maxEntries : Nat} {earlier later : List LoaderCacheCall}
    (h : Exact maxEntries (earlier ++ later)) :
    (CallRun.final LoaderCacheCall.run earlier { maxEntries }).Consistent := by
  induction earlier using List.reverseRecOn with
  | nil => exact start_consistent maxEntries
  | append_singleton earlier c _ =>
    rw [CallRun.final_append]
    exact (h earlier c later (by simp)).consistent

/-- A run of the cache goes right exactly when no key is put while it is cached. -/
theorem evicts_iff {maxEntries : Nat} (hmax : 1 ≤ maxEntries) (calls : List LoaderCacheCall) :
    Exact maxEntries calls ↔
      ∀ r ∈ CallRun.records LoaderCacheCall.run calls { maxEntries }, r.before.Fresh r.call := by
  constructor
  · intro hexact r hr
    obtain ⟨earlier, c, later, rfl, rfl⟩ := CallRun.mem_records.mp hr
    exact fresh_of_consistent hexact.consistent (hexact earlier c later rfl).consistent
  · rintro hfresh earlier c later rfl
    have hc := hfresh _ (CallRun.mem_records.mpr ⟨earlier, c, later, rfl, rfl⟩)
    exact (kept_of_fresh hmax hfresh).rightlyDone hmax hc

def twoPuts : List LoaderCacheCall :=
  [.put "a" [1], .put "b" [2], .put "c" [3], .remove "b", .put "a" [4], .get "a"]

/-- With room for two, `a` is put again after it was evicted. -/
theorem evicts_iff_last : Exact 2 twoPuts :=
  (evicts_iff (by decide) twoPuts).mpr (by decide)

def reput : List LoaderCacheCall :=
  [.put "a" [1], .put "a" [2], .put "b" [3], .put "c" [4], .put "a" [5]]

/-- The last put evicts the entry it has just made, at a listing that was left over. -/
theorem exact_fails : ¬ ∀ maxEntries, 1 ≤ maxEntries → ∀ calls, Exact maxEntries calls := by
  intro hall
  have hstored := (hall 2 (by decide) reput (reput.take 4) (.put "a" [5]) [] rfl).stored
    "a" [5] rfl
  have hmiss : ((LoaderCacheCall.put "a" [5]).run
      (CallRun.final LoaderCacheCall.run (reput.take 4) ⟨2, ∅, []⟩)).2.get "a"
        = .error .cacheMiss := by
    decide
  cases hmiss.symm.trans hstored

end LoaderCache

end MBootCore
