import MBootCore.Dsp.VendorQuirk
import Mathlib.Tactic.Common

/-!
# Dsp — QuirkResolution

Which quirks `QuirkResolver::resolve` returns: each once, and those that are found through an
index of the query and pass the filter (`mem_resolve_iff`). A quirk that applies by its wildcards
alone may be in none of the indexes, and a protocol or a mode that the query leaves open is
compared all the same.
-/

namespace MBootCore

open Session (Vendor ProtocolType)

namespace QuirkDatabase

open Multimap

/-! ## The indexes -/

structure Indexed (db : QuirkDatabase) : Prop where
  ids : (db.quirks.map (·.quirkId)).Nodup
  vendor : Indexes (fun q => [q.vendor]) db.quirks db.byVendor
  chipset : Indexes chipsetKeys db.quirks db.byChipset
  protocol : Indexes (fun q => [q.protocol]) db.quirks db.byProtocol
  bootMode : Indexes (fun q => [q.bootMode]) db.quirks db.byBootMode
  scope : Indexes (fun q => [q.scope]) db.quirks db.byScope

/-- The same entries in another order. -/
structure Rearranged (db db' : QuirkDatabase) : Prop where
  quirks : db'.quirks.Perm db.quirks
  vendor : db'.byVendor.Perm db.byVendor
  chipset : db'.byChipset.Perm db.byChipset
  protocol : db'.byProtocol.Perm db.byProtocol
  bootMode : db'.byBootMode.Perm db.byBootMode
  scope : db'.byScope.Perm db.byScope
  built : db'.built = db.built

/-- The databases that there are: after scans, complete or stopped by an exception on the way, and
with the unordered containers walked in any order. -/
inductive Reached : QuirkDatabase → Prop
  | empty : Reached {}
  | scanned {db : QuirkDatabase} (h : Reached db) (loaded : List VendorQuirk) :
      Reached (db.scanQuirks loaded)
  | stopped {db : QuirkDatabase} (h : Reached db) (loaded : List VendorQuirk) :
      Reached (db.registerAll loaded)
  | rearranged {db db' : QuirkDatabase} (h : Reached db) (hdb : Rearranged db db') : Reached db'

theorem Indexed.empty (built : Bool) : Indexed { built } where
  ids := List.nodup_nil
  vendor := Indexes.empty _
  chipset := Indexes.empty _
  protocol := Indexes.empty _
  bootMode := Indexes.empty _
  scope := Indexes.empty _

theorem Indexed.registerQuirk {db : QuirkDatabase} (h : Indexed db) (quirk : VendorQuirk) :
    Indexed (db.registerQuirk quirk) := by
  have hstored : ∀ q, q ∈ (db.registerQuirk quirk).quirks ↔ q ∈ db.quirks ∨
      q = (db.quirks.find? (·.quirkId = quirk.quirkId)).getD quirk := by
    intro q
    unfold QuirkDatabase.registerQuirk
    cases hfind : db.quirks.find? (·.quirkId = quirk.quirkId) with
    | none => simp
    | some old =>
      have hold := List.mem_of_find?_eq_some hfind
      simp only [Option.isSome_some, if_true, Option.getD_some]
      exact ⟨.inl, fun hq => hq.elim id fun heq => heq ▸ hold⟩
  refine ⟨?_, h.vendor.append hstored, h.chipset.append hstored, h.protocol.append hstored,
    h.bootMode.append hstored, h.scope.append hstored⟩
  unfold QuirkDatabase.registerQuirk
  cases hfind : db.quirks.find? (·.quirkId = quirk.quirkId) with
  | some old => exact h.ids
  | none =>
    rw [List.find?_eq_none] at hfind
    simp only [Option.isSome_none, Bool.false_eq_true, if_false, List.map_append, List.map_cons,
      List.map_nil]
    rw [List.nodup_append]
    refine ⟨h.ids, List.nodup_singleton _, ?_⟩
    intro id hid id' hid' heq
    obtain ⟨q, hq, rfl⟩ := List.mem_map.mp hid
    rw [List.mem_singleton] at hid'
    exact hfind q hq (decide_eq_true (heq.trans hid'))

theorem Indexed.registerAll (db : QuirkDatabase) (loaded : List VendorQuirk) :
    Indexed (db.registerAll loaded) := by
  have hfold (db : QuirkDatabase) (h : Indexed db) :
      Indexed (loaded.foldl QuirkDatabase.registerQuirk db) := by
    induction loaded generalizing db with
    | nil => exact h
    | cons quirk rest ih => exact ih _ (h.registerQuirk quirk)
  exact hfold _ (Indexed.empty db.built)

theorem Indexed.rearranged {db db' : QuirkDatabase} (h : Indexed db) (hdb : Rearranged db db') :
    Indexed db' where
  ids := (hdb.quirks.map _).nodup_iff.mpr h.ids
  vendor := h.vendor.perm hdb.quirks hdb.vendor
  chipset := h.chipset.perm hdb.quirks hdb.chipset
  protocol := h.protocol.perm hdb.quirks hdb.protocol
  bootMode := h.bootMode.perm hdb.quirks hdb.bootMode
  scope := h.scope.perm hdb.quirks hdb.scope

theorem Reached.indexed {db : QuirkDatabase} (h : Reached db) : Indexed db := by
  induction h with
  | empty => exact Indexed.empty false
  | scanned h loaded ih =>
    obtain ⟨ids, vendor, chipset, protocol, bootMode, scope⟩ := Indexed.registerAll _ loaded
    exact ⟨ids, vendor, chipset, protocol, bootMode, scope⟩
  | stopped h loaded ih => exact Indexed.registerAll _ loaded
  | rearranged h hdb ih => exact ih.rearranged hdb

/-! ## The lookups -/

/-- The quirks that a lookup can see. -/
def registered (db : QuirkDatabase) : List VendorQuirk := if db.built then db.quirks else []

/-- The quirk is found by its chipset: under one of its keys, or as a partial match. -/
def ChipsetFound (id : ChipsetId) (q : VendorQuirk) : Prop :=
  id.toString ∈ chipsetKeys q ∨ partlyMatches id q = true

/-- The quirk is in one of the indexes that a query looks into. -/
def Found (query : QuirkQuery) (q : VendorQuirk) : Prop :=
  q.vendor = query.vendor ∨ ChipsetFound query.chipset q ∨ q.protocol = query.protocol ∨
    q.bootMode = query.mode ∨ q.scope = .global

theorem mem_lookup {κ : Type} [DecidableEq κ] {key : VendorQuirk → κ} {db : QuirkDatabase}
    {m : Multimap κ VendorQuirk} (h : Indexes (fun q => [key q]) db.quirks m) (k : κ)
    (q : VendorQuirk) : q ∈ (if !db.built then [] else m.equalRange k) ↔
      q ∈ db.registered ∧ key q = k := by
  unfold registered
  cases db.built with
  | false => simp
  | true =>
    rw [Bool.not_true, if_neg Bool.false_ne_true, if_pos rfl, h.mem_equalRange,
      List.mem_singleton, eq_comm]

theorem mem_foldl_addPartial (id : ChipsetId) (entries : Multimap String VendorQuirk)
    (result : List VendorQuirk) (q : VendorQuirk) : q ∈ entries.foldl (addPartial id) result ↔
      q ∈ result ∨ ∃ key, (key, q) ∈ entries ∧ key ≠ id.toString ∧ partlyMatches id q = true := by
  induction entries generalizing result with
  | nil => simp
  | cons entry rest ih =>
    obtain ⟨key, old⟩ := entry
    have hstep : q ∈ addPartial id result (key, old) ↔
        q ∈ result ∨ (q = old ∧ key ≠ id.toString ∧ partlyMatches id q = true) := by
      unfold addPartial
      dsimp only
      by_cases hkey : key = id.toString
      · simp [hkey]
      · by_cases hpartial : partlyMatches id old = true ∧ old ∉ result
        · rw [if_neg hkey, if_pos hpartial, List.mem_append, List.mem_singleton]
          exact or_congr_right ⟨fun hq => ⟨hq, hkey, hq ▸ hpartial.1⟩, fun hq => hq.1⟩
        · rw [if_neg hkey, if_neg hpartial]
          constructor
          · exact .inl
          · rintro (hq | ⟨rfl, -, hmatches⟩)
            · exact hq
            · exact not_not.mp fun hnot => hpartial ⟨hmatches, hnot⟩
    rw [List.foldl_cons, ih, hstep, or_assoc]
    refine or_congr_right ?_
    constructor
    · rintro (⟨rfl, hkey⟩ | ⟨key', hmem, hkey'⟩)
      · exact ⟨key, List.mem_cons_self, hkey⟩
      · exact ⟨key', List.mem_cons_of_mem _ hmem, hkey'⟩
    · rintro ⟨key', hmem, hkey'⟩
      rcases List.mem_cons.mp hmem with heq | hmem
      · cases heq
        exact .inl ⟨rfl, hkey'⟩
      · exact .inr ⟨key', hmem, hkey'⟩

theorem mem_findByChipset {db : QuirkDatabase} (h : Indexed db) (id : ChipsetId)
    (q : VendorQuirk) : q ∈ db.findByChipset id ↔ q ∈ db.registered ∧ ChipsetFound id q := by
  unfold findByChipset registered ChipsetFound
  cases db.built with
  | false => simp
  | true =>
    rw [Bool.not_true, if_neg Bool.false_ne_true, if_pos rfl, mem_foldl_addPartial,
      h.chipset.mem_equalRange]
    constructor
    · rintro (⟨hq, hkey⟩ | ⟨key, hmem, -, hpartial⟩)
      · exact ⟨hq, .inl hkey⟩
      · exact ⟨((h.chipset key q).mp hmem).1, .inr hpartial⟩
    · rintro ⟨hq, hfound⟩
      by_cases hkey : id.toString ∈ chipsetKeys q
      · exact .inl ⟨hq, hkey⟩
      · have hfirst : q.chipset.toString ∈ chipsetKeys q := List.mem_cons_self
        refine .inr ⟨_, (h.chipset _ q).mpr ⟨hq, hfirst⟩, ?_, hfound.resolve_left hkey⟩
        intro heq
        exact hkey (heq ▸ hfirst)

theorem mem_allQuirks {db : QuirkDatabase} (h : Indexed db) (query : QuirkQuery)
    (q : VendorQuirk) :
    q ∈ QuirkResolver.allQuirks db query ↔ q ∈ db.registered ∧ Found query q := by
  unfold QuirkResolver.allQuirks Found
  simp only [List.mem_append, mem_findByChipset h, findByVendor, findByProtocol, findByBootMode,
    findByScope, mem_lookup h.vendor, mem_lookup h.protocol, mem_lookup h.bootMode,
    mem_lookup h.scope, ← and_or_left, or_assoc]

theorem registered_inj {db : QuirkDatabase} (h : Indexed db) {p q : VendorQuirk}
    (hp : p ∈ db.registered) (hq : q ∈ db.registered) (hid : p.quirkId = q.quirkId) : p = q := by
  unfold registered at hp hq
  cases hbuilt : db.built with
  | false => rw [hbuilt] at hp; cases hp
  | true =>
    rw [hbuilt] at hp hq
    exact List.inj_on_of_nodup_map h.ids hp hq hid

end QuirkDatabase

/-! ## The filter -/

namespace QuirkResolver

open QuirkDatabase

/-- A quirk is kept when it may be and its id is new. -/
theorem unique_cons (policy : QuirkPolicy) (q : VendorQuirk) (rest : List VendorQuirk)
    (seen : List String) : unique policy (q :: rest) seen =
      if q.enabled = true ∧ allowedVendor policy q = true ∧ q.quirkId ∉ seen then
        q :: unique policy rest (q.quirkId :: seen)
      else unique policy rest seen := by
  rw [unique]
  cases q.enabled with
  | false => simp
  | true =>
    cases allowedVendor policy q with
    | false => simp
    | true => by_cases hseen : q.quirkId ∈ seen <;> simp [hseen]

theorem not_mem_seen (policy : QuirkPolicy) {qs : List VendorQuirk} {seen : List String}
    {q : VendorQuirk} (h : q ∈ unique policy qs seen) : q.quirkId ∉ seen := by
  induction qs generalizing seen with
  | nil => cases h
  | cons p rest ih =>
    rw [unique_cons] at h
    split at h
    · rename_i hkeep
      rcases List.mem_cons.mp h with rfl | hrest
      · exact hkeep.2.2
      · exact fun hseen => ih hrest (List.mem_cons_of_mem _ hseen)
    · exact ih h

theorem nodup_unique (policy : QuirkPolicy) (qs : List VendorQuirk) (seen : List String) :
    (unique policy qs seen).Nodup := by
  induction qs generalizing seen with
  | nil => exact List.nodup_nil
  | cons p rest ih =>
    rw [unique_cons]
    split
    · rw [List.nodup_cons]
      exact ⟨fun hp => not_mem_seen policy hp List.mem_cons_self, ih _⟩
    · exact ih seen

theorem mem_unique (policy : QuirkPolicy) {qs : List VendorQuirk}
    (hids : ∀ p ∈ qs, ∀ q ∈ qs, p.quirkId = q.quirkId → p = q) (seen : List String)
    (q : VendorQuirk) : q ∈ unique policy qs seen ↔
      q ∈ qs ∧ q.enabled = true ∧ allowedVendor policy q = true ∧ q.quirkId ∉ seen := by
  induction qs generalizing seen with
  | nil => simp [unique]
  | cons p rest ih =>
    have hrest : ∀ p ∈ rest, ∀ q ∈ rest, p.quirkId = q.quirkId → p = q := fun a ha b hb =>
      hids a (List.mem_cons_of_mem _ ha) b (List.mem_cons_of_mem _ hb)
    rw [unique_cons]
    by_cases hkeep : p.enabled = true ∧ allowedVendor policy p = true ∧ p.quirkId ∉ seen
    · rw [if_pos hkeep, List.mem_cons, List.mem_cons, ih hrest]
      constructor
      · rintro (rfl | ⟨hq, henabled, hallowed, hnew⟩)
        · exact ⟨.inl rfl, hkeep⟩
        · exact ⟨.inr hq, henabled, hallowed, fun hseen => hnew (List.mem_cons_of_mem _ hseen)⟩
      · rintro ⟨rfl | hq, henabled, hallowed, hnew⟩
        · exact .inl rfl
        · by_cases hid : q.quirkId = p.quirkId
          · exact .inl (hids q (List.mem_cons_of_mem _ hq) p List.mem_cons_self hid)
          · refine .inr ⟨hq, henabled, hallowed, ?_⟩
            exact fun hmem => (List.mem_cons.mp hmem).elim hid hnew
    · rw [if_neg hkeep, List.mem_cons, ih hrest]
      constructor
      · rintro ⟨hq, hpasses⟩
        exact ⟨.inr hq, hpasses⟩
      · rintro ⟨rfl | hq, hpasses⟩
        · exact absurd hpasses hkeep
        · exact ⟨hq, hpasses⟩

theorem bySeverity_applicableQuirks (result : ResolvedQuirks) (q : VendorQuirk) :
    (bySeverity result q).applicableQuirks = result.applicableQuirks := by
  unfold bySeverity
  split <;> rfl

theorem foldl_addQuirk (policy : QuirkPolicy) (query : QuirkQuery) {qs : List VendorQuirk}
    (hqs : qs.Nodup) (result : ResolvedQuirks) (hnew : ∀ q ∈ qs, q ∉ result.applicableQuirks) :
    (qs.foldl (addQuirk policy query) result).applicableQuirks
      = result.applicableQuirks ++ qs.filter (matchesQuery policy query) := by
  induction qs generalizing result with
  | nil => simp
  | cons q rest ih =>
    obtain ⟨hq, hrest⟩ := List.nodup_cons.mp hqs
    rw [List.foldl_cons, addQuirk, if_neg (hnew q List.mem_cons_self)]
    by_cases hmatches : matchesQuery policy query q = true
    · rw [if_pos hmatches, ih hrest, bySeverity_applicableQuirks, List.filter_cons_of_pos hmatches,
        List.append_assoc, List.singleton_append]
      intro p hp
      rw [bySeverity_applicableQuirks, List.mem_append, List.mem_singleton, not_or]
      exact ⟨hnew p (List.mem_cons_of_mem _ hp), fun heq => hq (heq ▸ hp)⟩
    · rw [if_neg hmatches, ih hrest, List.filter_cons_of_neg hmatches]
      exact fun p hp => hnew p (List.mem_cons_of_mem _ hp)

theorem resolve_applicableQuirks (db : QuirkDatabase) (policy : QuirkPolicy) (query : QuirkQuery) :
    (resolve db policy query).applicableQuirks
      = (unique policy (allQuirks db query) []).filter (matchesQuery policy query) := by
  rw [resolve, foldl_addQuirk policy query (nodup_unique policy _ _) {} fun q _ => List.not_mem_nil]
  rfl

/-! ## What applies -/

/-- Two values that agree, or one of which is left open. -/
def Agree {α : Type} (wildcard a b : α) : Prop := a = wildcard ∨ b = wildcard ∨ a = b

def ChipsetAgrees (a b : ChipsetId) : Prop :=
  a.vendor = "" ∨ b.vendor = "" ∨
    (a.vendor = b.vendor ∧ Agree "" a.family b.family ∧ Agree "" a.variant b.variant)

/-- The quirk is enabled, the policy lets it through, and it meets each criterion of the query. -/
structure Applies (policy : QuirkPolicy) (query : QuirkQuery) (q : VendorQuirk) : Prop where
  enabled : q.enabled = true
  allowed : policy.applicableVendors = [] ∨ q.vendor ∈ policy.applicableVendors ∨
    q.vendor = .unknown
  severe : policy.minSeverity.toNat ≤ q.severity.toNat
  vendor : Agree .unknown q.vendor query.vendor
  chipset : ChipsetAgrees q.chipset query.chipset
  protocol : Agree .unknown q.protocol query.protocol
  mode : Agree .unknown q.bootMode query.mode

theorem allowedVendor_iff (policy : QuirkPolicy) (q : VendorQuirk) :
    allowedVendor policy q = true ↔ policy.applicableVendors = [] ∨
      q.vendor ∈ policy.applicableVendors ∨ q.vendor = .unknown := by
  unfold allowedVendor
  cases policy.applicableVendors with
  | nil => simp
  | cons av rest =>
    rw [List.isEmpty_cons, Bool.false_or, List.any_eq_true]
    constructor
    · rintro ⟨av', hmem, hav⟩
      rw [Bool.or_eq_true, decide_eq_true_eq, decide_eq_true_eq] at hav
      rcases hav with rfl | hunknown
      · exact .inr (.inl hmem)
      · exact .inr (.inr hunknown)
    · rintro (hnil | hmem | hunknown)
      · cases hnil
      · exact ⟨q.vendor, hmem, by simp⟩
      · exact ⟨av, List.mem_cons_self, by simp [hunknown]⟩

theorem matchChipset_iff (a b : ChipsetId) : matchChipset a b = true ↔ ChipsetAgrees a b := by
  unfold matchChipset ChipsetAgrees Agree
  by_cases ha : a.vendor = ""
  · simp [ha]
  · by_cases hb : b.vendor = ""
    · simp [hb]
    · grind

theorem matchesQuery_iff (policy : QuirkPolicy) (query : QuirkQuery) (q : VendorQuirk) :
    matchesQuery policy query q = true ↔ Agree .unknown q.vendor query.vendor ∧
      ChipsetAgrees q.chipset query.chipset ∧
      (q.protocol = .unknown ∨ q.protocol = query.protocol) ∧
      (q.bootMode = .unknown ∨ q.bootMode = query.mode) ∧
      policy.minSeverity.toNat ≤ q.severity.toNat := by
  have hchipset : (q.chipset.vendor = "" ∨ matchChipset q.chipset query.chipset = true) ↔
      ChipsetAgrees q.chipset query.chipset := by
    rw [matchChipset_iff]
    exact or_iff_right_of_imp .inl
  have hvendor : (q.vendor = .unknown ∨
      (q.vendor = query.vendor ∨ q.vendor = .unknown) ∨ query.vendor = .unknown) ↔
      Agree .unknown q.vendor query.vendor := by
    constructor
    · rintro (hopen | (hsame | hopen) | hany)
      · exact .inl hopen
      · exact .inr (.inr hsame)
      · exact .inl hopen
      · exact .inr (.inl hany)
    · rintro (hopen | hany | hsame)
      · exact .inl hopen
      · exact .inr (.inr hany)
      · exact .inr (.inl (.inl hsame))
  rw [← hchipset, ← hvendor]
  unfold matchesQuery matchVendor
  simp [and_assoc]

/-- The names that the query leaves open are open in the quirk. -/
def OpenIn (query : QuirkQuery) (q : VendorQuirk) : Prop :=
  (query.protocol = .unknown → q.protocol = .unknown) ∧
    (query.mode = .unknown → q.bootMode = .unknown)

theorem mem_resolve_iff {db : QuirkDatabase} (h : Indexed db) (policy : QuirkPolicy)
    (query : QuirkQuery) (q : VendorQuirk) :
    q ∈ (resolve db policy query).applicableQuirks ↔
      q ∈ db.registered ∧ Applies policy query q ∧ Found query q ∧ OpenIn query q := by
  have hids : ∀ p ∈ allQuirks db query, ∀ q ∈ allQuirks db query, p.quirkId = q.quirkId → p = q :=
    fun p hp q hq => registered_inj h ((mem_allQuirks h query p).mp hp).1
      ((mem_allQuirks h query q).mp hq).1
  rw [resolve_applicableQuirks, List.mem_filter, mem_unique policy hids, mem_allQuirks h,
    matchesQuery_iff, allowedVendor_iff]
  unfold OpenIn
  constructor
  · rintro ⟨⟨⟨hq, hfound⟩, henabled, hallowed, -⟩, hvendor, hchipset, hprotocol, hmode, hsevere⟩
    refine ⟨hq, ⟨henabled, hallowed, hsevere, hvendor, hchipset, ?_, ?_⟩, hfound, ?_, ?_⟩
    · exact hprotocol.imp_right .inr
    · exact hmode.imp_right .inr
    · exact fun hopen => hprotocol.elim id fun heq => heq.trans hopen
    · exact fun hopen => hmode.elim id fun heq => heq.trans hopen
  · rintro ⟨hq, happlies, hfound, hprotocol, hmode⟩
    refine ⟨⟨⟨hq, hfound⟩, happlies.enabled, happlies.allowed, List.not_mem_nil⟩, happlies.vendor,
      happlies.chipset, ?_, ?_, happlies.severe⟩
    · rcases happlies.protocol with hopen | hopen | heq
      · exact .inl hopen
      · exact .inl (hprotocol hopen)
      · exact .inr heq
    · rcases happlies.mode with hopen | hopen | heq
      · exact .inl hopen
      · exact .inl (hmode hopen)
      · exact .inr heq

/-- What applies is returned, each quirk once, and nothing else. -/
structure Exact (db : QuirkDatabase) (policy : QuirkPolicy) (query : QuirkQuery) : Prop where
  once : (resolve db policy query).applicableQuirks.Nodup
  all : ∀ q, q ∈ (resolve db policy query).applicableQuirks ↔
    q ∈ db.registered ∧ Applies policy query q

theorem exact_iff {db : QuirkDatabase} (h : Reached db) (policy : QuirkPolicy)
    (query : QuirkQuery) : Exact db policy query ↔
      ∀ q ∈ db.registered, Applies policy query q → Found query q ∧ OpenIn query q := by
  constructor
  · rintro ⟨-, hall⟩ q hq happlies
    exact ((mem_resolve_iff h.indexed policy query q).mp ((hall q).mpr ⟨hq, happlies⟩)).2.2
  · intro hfound
    refine ⟨?_, ?_⟩
    · rw [resolve_applicableQuirks]
      exact (nodup_unique policy _ _).filter _
    · intro q
      rw [mem_resolve_iff h.indexed]
      exact ⟨fun hq => ⟨hq.1, hq.2.1⟩, fun hq => ⟨hq.1, hq.2, hfound q hq.1 hq.2⟩⟩

theorem exact_iff_global :
    Exact (scanQuirks {} [{ quirkId := "log", severity := .warning }]) {}
      { vendor := .qualcomm, chipset := {} } := by
  apply (exact_iff (Reached.empty.scanned [{ quirkId := "log", severity := .warning }]) _ _).mpr
  intro q hq _
  have hglobal : ∀ q ∈ (scanQuirks {} [{ quirkId := "log", severity := .warning }]).registered,
      q.scope = .global ∧ q.protocol = .unknown ∧ q.bootMode = .unknown := by
    decide
  obtain ⟨hscope, hprotocol, hmode⟩ := hglobal q hq
  exact ⟨.inr (.inr (.inr (.inr hscope))), fun _ => hprotocol, fun _ => hmode⟩

/-- A quirk of all vendors with the scope of a vendor, and a query for one that names its protocol
and mode: the quirk applies and is not returned. -/
theorem resolve_misses : ¬ ∀ db, Reached db → ∀ policy query, Exact db policy query := by
  intro h
  let quirk : VendorQuirk := { quirkId := "slow-reset", severity := .warning, scope := .vendor }
  let query : QuirkQuery :=
    { vendor := .qualcomm, chipset := { vendor := "QCOM", family := "SDM845" }
      protocol := .sahara, mode := .edl }
  have hexact := h _ (Reached.empty.scanned [quirk]) {} query
  have hreturned := (hexact.all quirk).mpr
    ⟨by decide, by decide, .inl rfl, by decide, .inl rfl, .inl rfl, .inl rfl, .inl rfl⟩
  have hempty : (resolve (scanQuirks {} [quirk]) {} query).applicableQuirks = [] := by
    decide
  rw [hempty] at hreturned
  cases hreturned

end QuirkResolver

end MBootCore
