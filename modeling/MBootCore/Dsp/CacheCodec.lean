import MBootCore.Dsp.Cache
import Mathlib.Tactic.Common

/-!
# Dsp — CacheCodec

What the metadata cache gives back: the record that was stored, as far as lengths and counts fit
in 32 bits (`loadMetadata_cacheMetadata`). A cut record is refused up to the count of the
chipsets; from there on it is taken for a record with fewer of them.
-/

namespace MBootCore.DSPCache

open LittleEndian Decoder

/-! ## What is read back -/

/-- The bytes of a string that are written. -/
def storedString (s : List UInt8) : List UInt8 := s.take (UInt32.ofNat s.length).toNat

def storedChipset (cs : CachedChipset) : CachedChipset where
  vendor := storedString cs.vendor
  family := storedString cs.family
  variant := storedString cs.variant
  displayName := storedString cs.displayName

def storedHeader (metadata : CachedMetadata) : CachedMetadata where
  packageId := storedString metadata.packageId
  name := storedString metadata.name
  vendor := storedString metadata.vendor
  description := storedString metadata.description
  version := metadata.version
  minCoreVersion := storedString metadata.minCoreVersion
  maxCoreVersion := storedString metadata.maxCoreVersion
  state := metadata.state
  origin := metadata.origin
  installPath := storedString metadata.installPath
  packageFileName := storedString metadata.packageFileName
  repository := storedString metadata.repository

/-- The record as it is read back: lengths and the count of chipsets modulo `2^32`. -/
def stored (metadata : CachedMetadata) : CachedMetadata :=
  { storedHeader metadata with
    chipsets := (metadata.chipsets.take (UInt32.ofNat metadata.chipsets.length).toNat).map
      storedChipset }

theorem reads_string (s : List UInt8) :
    Decoder.Reads deserializeString (serializeString s) (storedString s) := by
  have hlength : (storedString s).length = (UInt32.ofNat s.length).toNat := by
    rw [storedString, List.length_take, UInt32.toNat_ofNat']
    exact Nat.min_eq_left (Nat.mod_le _ _)
  have htake := reads_take (storedString s)
  rw [hlength] at htake
  exact (reads_word32 _).bind htake

theorem reads_version (v : DSPVersion) :
    Decoder.Reads deserializeVersion (serializeVersion v) v := by
  apply (reads_word32 v.major).bind
  apply (reads_word32 v.minor).bind
  exact (reads_word32 v.patch).bind_pure _

theorem reads_chipset (cs : CachedChipset) :
    Decoder.Reads deserializeChipset (serializeChipset cs) (storedChipset cs) := by
  apply (reads_string cs.vendor).bind
  apply (reads_string cs.family).bind
  apply (reads_string cs.variant).bind
  exact (reads_string cs.displayName).bind_pure _

theorem reads_header (metadata : CachedMetadata) :
    Decoder.Reads deserializeHeader (serializeHeader metadata)
      (storedHeader metadata, UInt32.ofNat metadata.chipsets.length) := by
  apply (reads_word32 kCacheFormatMagic).bind
  apply (reads_guard rfl).bind
  apply (reads_version cachedVersion).bind
  apply (reads_string metadata.packageId).bind
  apply (reads_string metadata.name).bind
  apply (reads_string metadata.vendor).bind
  apply (reads_string metadata.description).bind
  apply (reads_version metadata.version).bind
  apply (reads_string metadata.minCoreVersion).bind
  apply (reads_string metadata.maxCoreVersion).bind
  apply (reads_word32 metadata.state).bind
  apply (reads_word32 metadata.origin).bind
  apply (reads_string metadata.installPath).bind
  apply (reads_string metadata.packageFileName).bind
  apply (reads_string metadata.repository).bind
  exact (reads_word32 _).bind_pure _

theorem deserializeChipsets_serialized (chipsets : List CachedChipset) (n : Nat)
    (h : n ≤ chipsets.length) :
    deserializeChipsets n (chipsets.flatMap serializeChipset)
      = (chipsets.take n).map storedChipset := by
  induction chipsets generalizing n with
  | nil =>
    obtain rfl : n = 0 := Nat.le_zero.mp h
    rfl
  | cons cs rest ih =>
    cases n with
    | zero => rfl
    | succ n =>
      rw [deserializeChipsets, List.flatMap_cons, reads_chipset cs, List.take_succ_cons,
        List.map_cons]
      change storedChipset cs :: _ = _
      rw [ih n (Nat.le_of_succ_le_succ h)]

theorem deserializeMetadata_serialized (metadata : CachedMetadata) :
    deserializeMetadata (serializeMetadata metadata) = .ok (stored metadata) := by
  have hcount : (UInt32.ofNat metadata.chipsets.length).toNat ≤ metadata.chipsets.length := by
    rw [UInt32.toNat_ofNat']
    exact Nat.mod_le _ _
  have hnil : (serializeMetadata metadata).isEmpty = false := rfl
  rw [deserializeMetadata, hnil, serializeMetadata, reads_header, stored,
    ← deserializeChipsets_serialized _ _ hcount]
  rfl

/-! ## Records that fit -/

/-- The strings of a record. -/
def strings (metadata : CachedMetadata) : List (List UInt8) :=
  [metadata.packageId, metadata.name, metadata.vendor, metadata.description,
    metadata.minCoreVersion, metadata.maxCoreVersion, metadata.installPath,
    metadata.packageFileName, metadata.repository] ++
  metadata.chipsets.flatMap fun cs => [cs.vendor, cs.family, cs.variant, cs.displayName]

/-- No string, nor the list of the chipsets, has `2^32` elements or more. -/
def Fits (metadata : CachedMetadata) : Prop :=
  (∀ s ∈ strings metadata, s.length < 2 ^ 32) ∧ metadata.chipsets.length < 2 ^ 32

theorem take_ofNat_length {α : Type} (xs : List α) :
    xs.take (UInt32.ofNat xs.length).toNat = xs ↔ xs.length < 2 ^ 32 := by
  rw [List.take_eq_self_iff, UInt32.toNat_ofNat']
  constructor
  · intro h
    exact lt_of_le_of_lt h (Nat.mod_lt _ (by decide))
  · intro h
    rw [Nat.mod_eq_of_lt h]

theorem storedString_eq_iff (s : List UInt8) : storedString s = s ↔ s.length < 2 ^ 32 :=
  take_ofNat_length s

theorem storedChipset_eq_iff (cs : CachedChipset) : storedChipset cs = cs ↔
    ∀ s ∈ [cs.vendor, cs.family, cs.variant, cs.displayName], s.length < 2 ^ 32 := by
  obtain ⟨vendor, family, variant, displayName⟩ := cs
  simp only [storedChipset, CachedChipset.mk.injEq, storedString_eq_iff, List.forall_mem_cons,
    List.not_mem_nil, false_implies, implies_true, and_true]

theorem map_eq_self_iff {α : Type} (f : α → α) (xs : List α) :
    xs.map f = xs ↔ ∀ x ∈ xs, f x = x := by
  induction xs with
  | nil => simp
  | cons x xs ih => rw [List.map_cons, List.cons.injEq, ih, List.forall_mem_cons]

theorem storedChipsets_eq_iff (chipsets : List CachedChipset) :
    (chipsets.take (UInt32.ofNat chipsets.length).toNat).map storedChipset = chipsets ↔
      (∀ cs ∈ chipsets, storedChipset cs = cs) ∧ chipsets.length < 2 ^ 32 := by
  constructor
  · intro h
    have hlength := congrArg List.length h
    rw [List.length_map, List.length_take, min_eq_right_iff, ← List.take_eq_self_iff] at hlength
    rw [hlength, map_eq_self_iff] at h
    exact ⟨h, (take_ofNat_length chipsets).mp hlength⟩
  · rintro ⟨hall, hlength⟩
    rw [(take_ofNat_length chipsets).mpr hlength, map_eq_self_iff]
    exact hall

theorem stored_eq_iff (metadata : CachedMetadata) : stored metadata = metadata ↔ Fits metadata := by
  have hchipsets := storedChipsets_eq_iff metadata.chipsets
  simp only [storedChipset_eq_iff] at hchipsets
  obtain ⟨packageId, name, vendor, description, version, minCoreVersion, maxCoreVersion, state,
    origin, installPath, packageFileName, repository, chipsets⟩ := metadata
  simp only [stored, storedHeader, CachedMetadata.mk.injEq, storedString_eq_iff, true_and, Fits,
    strings, List.forall_mem_append, List.forall_mem_cons, List.not_mem_nil, false_implies,
    implies_true, List.forall_mem_flatMap, and_assoc] at hchipsets ⊢
  rw [hchipsets]

/-! ## Cut records -/

theorem steady_string : Steady deserializeString :=
  steady_word32.bind fun _ => steady_take _

theorem steady_version : Steady deserializeVersion := by
  apply steady_word32.bind
  intro major
  apply steady_word32.bind
  intro minor
  apply steady_word32.bind
  intro patch
  exact Steady.pure _

theorem steady_header : Steady deserializeHeader := by
  apply steady_word32.bind; intro magic
  apply (steady_guard _).bind; intro hmagic
  apply steady_version.bind; intro fmtVer
  apply steady_string.bind; intro packageId
  apply steady_string.bind; intro name
  apply steady_string.bind; intro vendor
  apply steady_string.bind; intro description
  apply steady_version.bind; intro version
  apply steady_string.bind; intro minCoreVersion
  apply steady_string.bind; intro maxCoreVersion
  apply steady_word32.bind; intro state
  apply steady_word32.bind; intro origin
  apply steady_string.bind; intro installPath
  apply steady_string.bind; intro packageFileName
  apply steady_string.bind; intro repository
  apply steady_word32.bind; intro chipsetCount
  exact Steady.pure _

/-- A record cut within its header is refused. -/
theorem deserializeMetadata_cut_header (metadata : CachedMetadata) {cut : List UInt8}
    (hcut : cut <+: serializeHeader metadata) (hne : cut ≠ serializeHeader metadata) :
    ∃ e, deserializeMetadata cut = .error e := by
  unfold deserializeMetadata
  split
  · exact ⟨_, rfl⟩
  · rw [(reads_header metadata).strict_extends steady_header hcut hne]
    exact ⟨_, rfl⟩

/-- A record cut after its header is read without an error. -/
theorem deserializeMetadata_cut_chipsets (metadata : CachedMetadata) (rest : List UInt8) :
    ∃ read, deserializeMetadata (serializeHeader metadata ++ rest) = .ok read := by
  have hnil : (serializeHeader metadata ++ rest).isEmpty = false := rfl
  rw [deserializeMetadata, hnil, reads_header]
  exact ⟨_, rfl⟩

/-- Every record cut short is refused. -/
def RefusesCuts (metadata : CachedMetadata) : Prop :=
  ∀ cut, cut <+: serializeMetadata metadata → cut ≠ serializeMetadata metadata →
    ∃ e, deserializeMetadata cut = .error e

theorem refusesCuts_iff (metadata : CachedMetadata) :
    RefusesCuts metadata ↔ metadata.chipsets = [] := by
  constructor
  · intro h
    by_contra hchipsets
    -- the cut right behind the count of the chipsets
    have hne : serializeHeader metadata ≠ serializeMetadata metadata := by
      intro heq
      rw [serializeMetadata, List.self_eq_append_right, List.flatMap_eq_nil_iff] at heq
      obtain ⟨cs, rest, hcons⟩ := List.exists_cons_of_ne_nil hchipsets
      have hnil := heq cs (by rw [hcons]; exact List.mem_cons_self)
      cases hnil
    obtain ⟨e, herror⟩ := h (serializeHeader metadata) (List.prefix_append _ _) hne
    obtain ⟨read, hread⟩ := deserializeMetadata_cut_chipsets metadata []
    rw [List.append_nil, herror] at hread
    cases hread
  · intro hchipsets cut hcut hne
    rw [serializeMetadata, hchipsets, List.flatMap_nil, List.append_nil] at hcut hne
    exact deserializeMetadata_cut_header metadata hcut hne

/-! ## The laws of the cache -/

theorem loadMetadata_cacheMetadata (cache : DSPCache) (packageId : List UInt8)
    (metadata : CachedMetadata) :
    (cache.cacheMetadata packageId metadata).loadMetadata packageId = .ok (stored metadata) := by
  unfold loadMetadata cacheMetadata
  simp only [Function.update_self, Option.getD_some]
  exact deserializeMetadata_serialized metadata

theorem metadataPath_inj {packageId packageId' : List UInt8} :
    metadataPath packageId' = metadataPath packageId ↔
      sanitizeId packageId' = sanitizeId packageId :=
  List.append_left_inj kMetaExt

theorem loadMetadata_other (cache : DSPCache) {packageId packageId' : List UInt8}
    (h : sanitizeId packageId' ≠ sanitizeId packageId) (metadata : CachedMetadata) :
    (cache.cacheMetadata packageId metadata).loadMetadata packageId'
      = cache.loadMetadata packageId' := by
  unfold loadMetadata cacheMetadata
  simp only [Function.update_of_ne (mt metadataPath_inj.mp h)]

/-- Storing under one id changes nothing of what another id gives. -/
def KeepsApart (packageId packageId' : List UInt8) (metadata : CachedMetadata) : Prop :=
  ∀ cache : DSPCache, (cache.cacheMetadata packageId metadata).loadMetadata packageId'
    = cache.loadMetadata packageId'

theorem keepsApart_iff (packageId packageId' : List UInt8) (metadata : CachedMetadata) :
    KeepsApart packageId packageId' metadata ↔
      sanitizeId packageId' ≠ sanitizeId packageId := by
  constructor
  · intro h hsame
    have hempty := h {}
    -- the file that is written is the one the other id is looked for in
    rw [loadMetadata, metadataPath_inj.mpr hsame, ← loadMetadata, loadMetadata_cacheMetadata]
      at hempty
    cases hempty
  · intro h cache
    exact loadMetadata_other cache h metadata

/-- A stored package is read back as it was, a cut file of it is refused, and no other id is
given it or loses its own. -/
structure CodecLaws (packageId packageId' : List UInt8) (metadata : CachedMetadata) : Prop where
  round_trip : ∀ cache : DSPCache,
    (cache.cacheMetadata packageId metadata).loadMetadata packageId = .ok metadata
  cuts : RefusesCuts metadata
  apart : packageId' ≠ packageId → KeepsApart packageId packageId' metadata

theorem codecLaws_iff (packageId packageId' : List UInt8) (metadata : CachedMetadata) :
    CodecLaws packageId packageId' metadata ↔
      Fits metadata ∧ metadata.chipsets = [] ∧
        (packageId' = packageId ∨ sanitizeId packageId' ≠ sanitizeId packageId) := by
  rw [← stored_eq_iff, ← refusesCuts_iff, ← keepsApart_iff packageId packageId' metadata]
  constructor
  · rintro ⟨hround, hcuts, hapart⟩
    have hstored := hround {}
    rw [loadMetadata_cacheMetadata] at hstored
    exact ⟨Except.ok.inj hstored, hcuts, or_iff_not_imp_left.mpr hapart⟩
  · rintro ⟨hstored, hcuts, hapart⟩
    refine ⟨fun cache => ?_, hcuts, or_iff_not_imp_left.mp hapart⟩
    rw [loadMetadata_cacheMetadata, hstored]

/-- A record with one chipset, cut right behind the count, is read as one with none. -/
theorem codecLaws_fail : ¬ (∀ packageId packageId' metadata,
    CodecLaws packageId packageId' metadata) := by
  intro h
  have hcut := (h [] [] { chipsets := [{}] }).cuts (serializeHeader { chipsets := [{}] })
    (by decide) (by decide)
  obtain ⟨e, herror⟩ := hcut
  have hread : deserializeMetadata (serializeHeader { chipsets := [{}] }) = .ok {} := by
    decide
  rw [hread] at herror
  cases herror

end MBootCore.DSPCache
