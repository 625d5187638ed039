import Mathlib.Data.List.AList
import Mathlib.Data.List.Dedup
import Mathlib.Data.List.Induction

/-!
# UnorderedMap — maps walked in no particular order

The walk over a map's keys is a parameter; it may depend on the order in which the
keys came into the map, which is the order of the list, the last one first.
`assignAll` assigns several entries, one after the other. What was in the map before
shows exactly if some key of it is not put again (`lookup_assignAll_eq_iff`); the
order of the keys is that of a new map if the old ones came first and in that order
(`union_eq_dedup`).
-/

namespace MBootCore

/-- A walk over the keys of an unordered map. -/
structure WalkOrder where
  arrange : List String → List String
  perm : ∀ keys, (arrange keys).Perm keys

/-- The walks of a topological sort: over the nodes and over their in-degrees. -/
structure WalkOrders where
  nodes : WalkOrder
  inDegree : WalkOrder

namespace UnorderedMap

variable {β : Type}

/-- `m[key] = value`: a key that is there keeps its place, a new one comes first. -/
def assign (m : AList fun _ : String => β) (key : String) (value : β) :
    AList fun _ : String => β :=
  if key ∈ m then m.replace key value else m.insert key value

def assignAll (xs : List (String × β)) (m : AList fun _ : String => β) :
    AList fun _ : String => β :=
  xs.foldl (fun m x => assign m x.1 x.2) m

theorem dlookup_kreplace (key : String) (value : β) (entries : List ((_ : String) × β))
    (other : String) :
    (entries.kreplace key value).dlookup other
      = if other = key then (entries.dlookup key).map fun _ => value
        else entries.dlookup other := by
  induction entries with
  | nil => simp [List.kreplace]
  | cons e entries ih =>
    obtain ⟨k, v⟩ := e
    rw [List.kreplace] at ih ⊢
    by_cases hkey : key = k
    · subst hkey
      have hfound : (if key = (⟨key, v⟩ : (_ : String) × β).1 then
          some (⟨key, value⟩ : (_ : String) × β) else none) = some ⟨key, value⟩ := if_pos rfl
      rw [List.lookmap_cons_some _ _ hfound]
      by_cases hother : other = key
      · subst hother
        simp
      · rw [if_neg hother, List.dlookup_cons_ne entries ⟨key, value⟩ hother,
          List.dlookup_cons_ne entries ⟨key, v⟩ hother]
    · rw [List.lookmap_cons_none _ _ (by simp [hkey])]
      by_cases hother : other = k
      · subst hother
        simp [Ne.symm hkey]
      · rw [List.dlookup_cons_ne _ _ hother, ih, List.dlookup_cons_ne _ _ hkey,
          List.dlookup_cons_ne _ _ hother]

theorem lookup_assign (m : AList fun _ : String => β) (key : String) (value : β)
    (other : String) :
    (assign m key value).lookup other = if other = key then some value else m.lookup other := by
  by_cases hkey : key ∈ m
  · obtain ⟨old, hold⟩ := Option.isSome_iff_exists.mp (AList.lookup_isSome.mpr hkey)
    rw [assign, if_pos hkey, AList.replace, AList.lookup, dlookup_kreplace]
    rw [AList.lookup] at hold
    rw [hold]
    rfl
  · rw [assign, if_neg hkey]
    by_cases hother : other = key
    · rw [if_pos hother, hother, AList.lookup_insert]
    · rw [if_neg hother, AList.lookup_insert_ne hother]

theorem keys_assign (m : AList fun _ : String => β) (key : String) (value : β) :
    (assign m key value).keys = m.keys.insert key := by
  by_cases hkey : key ∈ m
  · rw [assign, if_pos hkey, AList.keys_replace, List.insert_of_mem (AList.mem_keys.mp hkey)]
  · have hnew : key ∉ m.keys := mt AList.mem_keys.mpr hkey
    rw [assign, if_neg hkey, AList.keys_insert, List.insert_of_not_mem hnew,
      List.erase_of_not_mem hnew]

/-- The keys, the one that was new last before all others. -/
theorem keys_assignAll (xs : List (String × β)) (m : AList fun _ : String => β) :
    (assignAll xs m).keys = (xs.map Prod.fst).reverse ∪ m.keys := by
  induction xs using List.reverseRecOn with
  | nil => rfl
  | append_singleton xs x ih =>
    have hstep : assignAll (xs ++ [x]) m = assign (assignAll xs m) x.1 x.2 := List.foldl_concat ..
    rw [hstep, keys_assign, ih, List.map_append, List.reverse_append]
    rfl

theorem mem_assignAll {xs : List (String × β)} {m : AList fun _ : String => β} {key : String} :
    key ∈ assignAll xs m ↔ key ∈ xs.map Prod.fst ∨ key ∈ m := by
  rw [AList.mem_keys, keys_assignAll, List.mem_union_iff, List.mem_reverse, AList.mem_keys]

/-- What was in the map before is there unless it was put again. -/
theorem lookup_assignAll (xs : List (String × β)) (m : AList fun _ : String => β) (key : String) :
    (assignAll xs m).lookup key
      = if key ∈ xs.map Prod.fst then (assignAll xs ∅).lookup key else m.lookup key := by
  induction xs using List.reverseRecOn with
  | nil => rfl
  | append_singleton xs x ih =>
    have hstep (m : AList fun _ : String => β) :
        assignAll (xs ++ [x]) m = assign (assignAll xs m) x.1 x.2 := List.foldl_concat ..
    have hmem : key ∈ (xs ++ [x]).map Prod.fst ↔ key ∈ xs.map Prod.fst ∨ key = x.1 := by
      rw [List.map_append, List.mem_append, List.map_singleton, List.mem_singleton]
    rw [hstep, hstep, lookup_assign, lookup_assign, ih]
    by_cases hkey : key = x.1
    · rw [if_pos hkey, if_pos hkey, if_pos (hmem.mpr (.inr hkey))]
    · simp only [hmem, hkey, or_false, if_false]

/-- Maps with the same entries show it exactly if no old key is left over. -/
theorem lookup_assignAll_eq_iff (xs : List (String × β)) (m : AList fun _ : String => β) :
    (∀ key, (assignAll xs m).lookup key = (assignAll xs ∅).lookup key) ↔
      ∀ key ∈ m, key ∈ xs.map Prod.fst := by
  constructor
  · intro h key hkey
    by_contra hmissing
    have hnone : (assignAll xs ∅).lookup key = none := by
      rw [lookup_assignAll, if_neg hmissing]
      rfl
    have hlookup := h key
    rw [lookup_assignAll, if_neg hmissing, hnone, AList.lookup_eq_none] at hlookup
    exact hlookup hkey
  · intro h key
    by_cases hput : key ∈ xs.map Prod.fst
    · rw [lookup_assignAll, if_pos hput]
    · have hnone : m.lookup key = none := AList.lookup_eq_none.mpr (mt (h key) hput)
      rw [lookup_assignAll, lookup_assignAll xs ∅, if_neg hput, if_neg hput, hnone]
      rfl

/-- Keys that came in the order in which they are put again keep that order. -/
theorem union_eq_dedup {l keys : List String} (h : keys <:+ l.dedup) : l ∪ keys = l.dedup := by
  induction l with
  | nil => exact List.suffix_nil.mp h
  | cons a l ih =>
    rw [List.cons_union]
    by_cases ha : a ∈ l
    · rw [List.dedup_cons_of_mem ha] at h ⊢
      rw [ih h, List.insert_of_mem (List.mem_dedup.mpr ha)]
    · rw [List.dedup_cons_of_notMem ha] at h ⊢
      rcases List.suffix_cons_iff.mp h with rfl | hsuffix
      · have hsub : l ⊆ a :: l.dedup := fun b hb =>
          List.mem_cons_of_mem a (List.mem_dedup.mpr hb)
        rw [hsub.union_eq_right, List.insert_of_mem List.mem_cons_self]
      · rw [ih hsuffix, List.insert_of_not_mem (mt List.mem_dedup.mp ha)]

end UnorderedMap

end MBootCore
