import MBootCore.Gpt.MockDisk
import MBootCore.Gpt.ParserSpec

/-!
# GPT — Fallback

When `parse` falls back to an intact backup. A primary copy that is unusable
is noticed at its header or only at its array; the backup is tried in the
first case alone. `parse_fallback_iff` says which devices that leaves, down
to the one oddity of the entry CRC: it is computed over the decoded entries,
so bytes past the 128th of a slot are not covered by it.
-/

namespace MBootCore

open GPTParser

namespace FlashContent

variable (env : GPTEnv) (c : FlashContent) (known : GPTLayout)

/-- The bytes of the array of `header` are there. -/
def Readable (header : GPTHeader) : Prop :=
  header.numberOfPartitionEntries.toNat * header.sizeOfPartitionEntry.toNat
    ≤ (c.arrayOf (c.layout known).sectorSize header).length

/-- The entries these bytes decode to. -/
def decoded (header : GPTHeader) : List PartitionEntry :=
  readEntries (c.arrayOf (c.layout known).sectorSize header)
    header.numberOfPartitionEntries.toNat header.sizeOfPartitionEntry.toNat

/-- A copy with a valid header, entry fields in range, and an array that is
readable and whose bytes match the entry CRC. -/
structure Intact (check : HeaderCheck) : Prop where
  header : check.valid = true
  fields : validateEntryFields check.header.numberOfPartitionEntries
    check.header.sizeOfPartitionEntry = true
  readable : c.Readable known check.header
  entryCRC : env.crc32 ((c.arrayOf (c.layout known).sectorSize check.header).take
    (check.header.numberOfPartitionEntries.toNat * check.header.sizeOfPartitionEntry.toNat))
      = check.header.partitionEntriesCRC32

/-- The entry CRC matches the decoded entries written out again. -/
def Reencodes (header : GPTHeader) : Prop :=
  env.crc32 (entryImage (c.decoded known header) header.numberOfPartitionEntries.toNat
    header.sizeOfPartitionEntry.toNat) = header.partitionEntriesCRC32

/-- Sector 0 can be read, and either the primary copy is rejected at its
header or it is taken with the same entries as the backup. -/
def FallsBack : Prop :=
  c.mbr known ≠ [] ∧
    (((c.primary env known).valid = false ∧ c.Reencodes env known (c.backup env known).header) ∨
      ((c.primary env known).valid = true ∧
        validateEntryFields (c.primary env known).header.numberOfPartitionEntries
          (c.primary env known).header.sizeOfPartitionEntry = true ∧
        c.Readable known (c.primary env known).header ∧
        c.Reencodes env known (c.primary env known).header ∧
        c.decoded known (c.primary env known).header
          = c.decoded known (c.backup env known).header))

instance (header : GPTHeader) : Decidable (c.Readable known header) :=
  inferInstanceAs (Decidable (_ ≤ _))

instance (header : GPTHeader) : Decidable (c.Reencodes env known header) :=
  inferInstanceAs (Decidable (_ = _))

instance : Decidable (c.FallsBack env known) := inferInstanceAs (Decidable (_ ∧ _))

instance (check : HeaderCheck) : Decidable (c.Intact env known check) :=
  decidable_of_iff
    (check.valid = true ∧ validateEntryFields check.header.numberOfPartitionEntries
      check.header.sizeOfPartitionEntry = true ∧ c.Readable known check.header ∧
      env.crc32 ((c.arrayOf (c.layout known).sectorSize check.header).take
        (check.header.numberOfPartitionEntries.toNat * check.header.sizeOfPartitionEntry.toNat))
          = check.header.partitionEntriesCRC32)
    ⟨fun h => ⟨h.1, h.2.1, h.2.2.1, h.2.2.2⟩, fun h => ⟨h.1, h.2, h.3, h.4⟩⟩

variable {env c known}

theorem computeEntryCRC32_eq (entries : List PartitionEntry) (count entrySize : UInt32) :
    computeEntryCRC32 env entries count.toUInt64 entrySize.toUInt64
      = env.crc32 (entryImage entries count.toNat entrySize.toNat) := by
  rw [computeEntryCRC32, (safeMul_toUInt64 count entrySize).1, UInt32.toNat_toUInt64,
    UInt32.toNat_toUInt64]

/-- What the parser finds of an array, in terms of its bytes. -/
theorem entriesOf_isValid_iff {header : GPTHeader} :
    (c.entriesOf env (c.layout known).sectorSize header).isValid = true ↔
      validateEntryFields header.numberOfPartitionEntries header.sizeOfPartitionEntry = true ∧
        c.Readable known header ∧ c.Reencodes env known header := by
  by_cases hfields : validateEntryFields header.numberOfPartitionEntries
      header.sizeOfPartitionEntry = true
  · rw [entriesOf_eq hfields, decodeEntries, (safeMul_toUInt64 _ _).2, and_iff_right hfields]
    unfold Readable
    split
    · rename_i hlength
      rw [and_iff_right hlength]
      simp only [EntryCheck.isValid, computeEntryCRC32_eq, decide_eq_true_iff]
      rfl
    · rename_i hlength
      exact iff_of_false Bool.false_ne_true fun h => hlength h.1
  · rw [entriesOf_badFields.mpr (by simpa using hfields)]
    simp [EntryCheck.isValid, hfields]

theorem entriesOf_entries {header : GPTHeader}
    (hfields : validateEntryFields header.numberOfPartitionEntries
      header.sizeOfPartitionEntry = true) (h : c.Readable known header) :
    (c.entriesOf env (c.layout known).sectorSize header).entries = c.decoded known header := by
  have hlength : (c.arrayOf (c.layout known).sectorSize header).length
      ≥ header.numberOfPartitionEntries.toNat * header.sizeOfPartitionEntry.toNat := h
  rw [entriesOf_eq hfields, decodeEntries, (safeMul_toUInt64 _ _).2, if_pos hlength]
  rfl

/-- With an intact backup, the table has the backup's entries as valid ones
exactly when the parse falls back. -/
theorem parsed_fallback_iff (hbackup : c.Intact env known (c.backup env known)) :
    ((c.parsed env known).table.entriesValid = true ∧
      (c.parsed env known).table.entries = c.decoded known (c.backup env known).header) ↔
      c.FallsBack env known := by
  by_cases hmbr : c.mbr known = []
  · rw [parsed_unreadable hmbr]
    simp [FallsBack, hmbr]
  rw [FallsBack, and_iff_right hmbr]
  rcases hprimary : (c.primary env known).valid with _ | _
  · have htable := parsed_backup hmbr hprimary hbackup.header
    rw [htable.entriesValid, htable.entries, entriesOf_entries hbackup.fields hbackup.readable,
      entriesOf_isValid_iff, and_iff_right hbackup.fields, and_iff_right hbackup.readable]
    simp
  · have htable := parsed_primary hmbr hprimary
    rw [htable.entriesValid, htable.entries, entriesOf_isValid_iff]
    constructor
    · rintro ⟨⟨hfields, hreadable, hcrc⟩, hentries⟩
      rw [entriesOf_entries hfields hreadable] at hentries
      exact .inr ⟨rfl, hfields, hreadable, hcrc, hentries⟩
    · rintro (⟨habsurd, -⟩ | ⟨-, hfields, hreadable, hcrc, hentries⟩)
      · cases habsurd
      · rw [entriesOf_entries hfields hreadable]
        exact ⟨⟨hfields, hreadable, hcrc⟩, hentries⟩

end FlashContent

/-- `parse` on a device with an intact backup, whatever its primary copy is. -/
theorem parse_fallback_iff {σ : Type} {env : GPTEnv} {dev : FlashDevice σ}
    {content : σ → FlashContent} (h : StableReads dev content) (s : σ) (p : GPTParser)
    (hbackup : (content s).Intact env p.layout ((content s).backup env p.layout)) :
    (∃ result s', parse env dev (s, p) = (.ok result, s') ∧ result.table.entriesValid = true ∧
      result.table.entries = (content s).decoded p.layout
        ((content s).backup env p.layout).header) ↔
      (content s).FallsBack env p.layout := by
  obtain ⟨s', p', hrun, -⟩ := parse_run env h s p
  rw [← FlashContent.parsed_fallback_iff hbackup, hrun]
  constructor
  · rintro ⟨result, t, heq, hvalid, hentries⟩
    obtain ⟨rfl, -⟩ : (content s).parsed env p.layout = result ∧ _ := by
      simpa only [Prod.mk.injEq, Except.ok.injEq] using heq
    exact ⟨hvalid, hentries⟩
  · rintro ⟨hvalid, hentries⟩
    exact ⟨_, _, rfl, hvalid, hentries⟩

theorem parse_fallback_lostPrimary :
    ∃ result s', parse zlibEnv (MockFlashDevice.device fiveSectors) (lostPrimaryDisk, {})
        = (.ok result, s') ∧ result.table.entriesValid = true ∧
      result.table.entries = (MockFlashDevice.content fiveSectors lostPrimaryDisk).decoded {}
        ((MockFlashDevice.content fiveSectors lostPrimaryDisk).backup zlibEnv {}).header := by
  let content := MockFlashDevice.content fiveSectors lostPrimaryDisk
  have hfacts : content.Intact zlibEnv {} (content.backup zlibEnv {}) ∧
      content.FallsBack zlibEnv {} := by
    decide +kernel
  exact (parse_fallback_iff (MockFlashDevice.stableReads fiveSectors) lostPrimaryDisk {}
    hfacts.1).mpr hfacts.2

/-- The backup is intact; the primary header is valid and its array is not. -/
def corruptArrayDisk : MockFlashDevice :=
  lostPrimaryDisk.putHeader (setupHeader zlibEnv [bootEntry] 1 2)

/-- The backup is not tried although the primary copy is unusable. -/
theorem parse_corruptArray :
    let content := MockFlashDevice.content fiveSectors corruptArrayDisk
    content.Intact zlibEnv {} (content.backup zlibEnv {}) ∧
      ¬ content.Intact zlibEnv {} (content.primary zlibEnv {}) ∧
      (parse zlibEnv (MockFlashDevice.device fiveSectors) (corruptArrayDisk, {})).1.toOption.map
        (fun result => result.table.entriesValid) = some false := by
  decide +kernel

end MBootCore
