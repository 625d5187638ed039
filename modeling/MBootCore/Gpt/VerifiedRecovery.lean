import MBootCore.Gpt.ManagerFrame
import MBootCore.Gpt.MockDisk
import MBootCore.Gpt.ParserSpec

/-!
# GPT — VerifiedRecovery

Which entry arrays `recoverFromBackup` writes. It parses, and with exactly
one validity flag set it writes the entries the parse left in the table. The
flags say nothing about these entries: they are verified exactly when the
content is safe to recover from (`verified_iff_safe`), and this is so for
every array any run of a manager writes (`recover_verified_iff`).
-/

namespace MBootCore

open PartitionManager

namespace FlashContent

variable (env : GPTEnv) (c : FlashContent) (known : GPTLayout)

/-- The entries of a header copy whose header CRC and entry CRC match. -/
def verified (sectorSize : UInt32) (check : GPTParser.HeaderCheck) :
    Option (List PartitionEntry) :=
  if check.valid then
    match c.entriesOf env sectorSize check.header with
    | .decoded entries true => some entries
    | _ => none
  else none

/-- The entries of one of the two copies, verified. -/
def Verified (entries : List PartitionEntry) : Prop :=
  c.verified env (c.layout known).sectorSize (c.primary env known) = some entries ∨
    c.verified env (c.layout known).sectorSize (c.backup env known) = some entries

instance (entries : List PartitionEntry) : Decidable (c.Verified env known entries) :=
  inferInstanceAs (Decidable (_ ∨ _))

/-- With both header CRCs matching, the primary's entry fields are in range;
with one of them matching, so does the entry CRC of that copy. -/
structure SafeToRecover : Prop where
  both : (c.primary env known).valid = true → (c.backup env known).valid = true →
    GPTParser.validateEntryFields (c.primary env known).header.numberOfPartitionEntries
      (c.primary env known).header.sizeOfPartitionEntry = true
  primaryOnly : (c.primary env known).valid = true → (c.backup env known).valid = false →
    (c.entriesOf env (c.layout known).sectorSize (c.primary env known).header).isValid = true
  backupOnly : (c.primary env known).valid = false → (c.backup env known).valid = true →
    (c.entriesOf env (c.layout known).sectorSize (c.backup env known).header).isValid = true

theorem safeToRecover_iff : c.SafeToRecover env known ↔
    ((c.primary env known).valid = true → (c.backup env known).valid = true →
      GPTParser.validateEntryFields (c.primary env known).header.numberOfPartitionEntries
        (c.primary env known).header.sizeOfPartitionEntry = true) ∧
    ((c.primary env known).valid = true → (c.backup env known).valid = false →
      (c.entriesOf env (c.layout known).sectorSize (c.primary env known).header).isValid = true) ∧
    ((c.primary env known).valid = false → (c.backup env known).valid = true →
      (c.entriesOf env (c.layout known).sectorSize (c.backup env known).header).isValid = true) :=
  ⟨fun h => ⟨h.both, h.primaryOnly, h.backupOnly⟩, fun h => ⟨h.1, h.2.1, h.2.2⟩⟩

instance : Decidable (c.SafeToRecover env known) :=
  decidable_of_iff _ (safeToRecover_iff env c known).symm

variable {env c known}

theorem verified_eq_some {sectorSize : UInt32} {check : GPTParser.HeaderCheck}
    {entries : List PartitionEntry} :
    c.verified env sectorSize check = some entries ↔
      check.valid = true ∧ c.entriesOf env sectorSize check.header = .decoded entries true := by
  unfold verified
  split
  · rename_i hvalid
    rw [and_iff_right hvalid]
    split
    · rename_i entries' heq
      simp [heq]
    · rename_i hother
      simp only [reduceCtorEq, false_iff]
      exact fun h => hother entries h
  · rename_i hinvalid
    simp [hinvalid]

/-- Entries that were taken from a copy are verified exactly when its CRC
matches. -/
theorem decoded_entries_iff {sectorSize : UInt32} {header : GPTHeader} :
    c.entriesOf env sectorSize header
        = .decoded (c.entriesOf env sectorSize header).entries true ↔
      (c.entriesOf env sectorSize header).isValid = true := by
  cases c.entriesOf env sectorSize header with
  | badFields => simp [GPTParser.EntryCheck.isValid]
  | unreadable => simp [GPTParser.EntryCheck.isValid]
  | decoded entries crcMatches =>
    simp [GPTParser.EntryCheck.isValid, GPTParser.EntryCheck.entries]

/-- The table a parse leaves with one flag set holds verified entries exactly
when the content is safe to recover from. -/
theorem verified_iff_safe
    (hflags : (c.parsed env known).table.primaryValid ≠ (c.parsed env known).table.backupValid) :
    c.Verified env known (c.parsed env known).table.entries ↔ c.SafeToRecover env known := by
  by_cases hmbr : c.mbr known = []
  · rw [parsed_unreadable hmbr] at hflags
    exact absurd rfl hflags
  rcases hprimary : (c.primary env known).valid with _ | _
  · rcases hbackup : (c.backup env known).valid with _ | _
    · -- no copy: no flag is set
      have htable := parsed_none hmbr hprimary hbackup
      rw [htable.primaryValid, htable.backupValid] at hflags
      exact absurd rfl hflags
    · have htable := parsed_backup hmbr hprimary hbackup
      rw [Verified, verified_eq_some, verified_eq_some, htable.entries, hprimary, hbackup,
        decoded_entries_iff]
      simp only [Bool.false_eq_true, false_and, true_and, false_or]
      constructor
      · exact fun h => ⟨fun h' => by simp [hprimary] at h', fun h' => by simp [hprimary] at h',
          fun _ _ => h⟩
      · exact fun h => h.backupOnly hprimary hbackup
  · have htable := parsed_primary hmbr hprimary
    rcases hbackup : (c.backup env known).valid with _ | _
    · rw [Verified, verified_eq_some, verified_eq_some, htable.entries, hprimary, hbackup,
        decoded_entries_iff]
      simp only [Bool.false_eq_true, false_and, true_and, or_false]
      constructor
      · exact fun h => ⟨fun _ h' => by simp [hbackup] at h', fun _ _ => h,
          fun h' => by simp [hprimary] at h'⟩
      · exact fun h => h.primaryOnly hprimary hbackup
    · -- both headers match, so the primary flag was cleared over its fields
      have hbad : c.entriesOf env (c.layout known).sectorSize (c.primary env known).header
          = .badFields := by
        rw [htable.primaryValid, htable.backupValid, hbackup] at hflags
        simpa using hflags
      have hempty : (c.parsed env known).table.entries = [] := by
        rw [htable.entries, hbad]
        rfl
      apply iff_of_false
      · rw [hempty, Verified, verified_eq_some, verified_eq_some, hbad]
        rintro (⟨-, h⟩ | ⟨-, h⟩)
        · cases h
        · exact (entriesOf_length h).2 rfl
      · intro h
        have hfields := h.both hprimary hbackup
        rw [entriesOf_badFields.mp hbad] at hfields
        cases hfields

end FlashContent

namespace PartitionManager

variable {σ : Type} {env : GPTEnv} {dev : FlashDevice σ} {content : σ → FlashContent}

/-- The entries of the arrays a call set out to write. -/
def Record.written (r : Record σ) : List (List PartitionEntry) :=
  r.after.writer.arrays.drop r.before.writer.arrays.length

/-- The parse at the beginning of a recovery. -/
theorem onParser_parse_run (env : GPTEnv) (h : StableReads dev content) (m : PartitionManager σ) :
    ∃ s p, onParser (GPTParser.parse env dev) m
        = (.ok ((content m.device).parsed env m.parser.layout),
            { m with device := s, parser := p }) ∧
      content s = content m.device := by
  obtain ⟨s, p, hrun, hcontent⟩ := parse_run env h m.device m.parser
  refine ⟨s, p, ?_, hcontent⟩
  rw [onParser, Program.run_zoom, hrun]

/-- The recovery that follows the parse. -/
theorem recover_run (env : GPTEnv) (h : StableReads dev content) (m : PartitionManager σ) :
    ∃ s p, let result := (content m.device).parsed env m.parser.layout
      content s = content m.device ∧
      recoverFromBackup env dev m = recoverWith env dev m.layout result.table
        { m with device := s, parser := p, table := result.table } := by
  obtain ⟨s, p, hparse, hcontent⟩ := onParser_parse_run env h m
  refine ⟨s, p, hcontent, ?_⟩
  rw [recoverFromBackup, Program.run_bind_ok hparse, Program.run_bind_ok (Program.run_modify _ _),
    Program.run_bind_ok (Program.run_gets _ _)]

/-- With both flags set or none, nothing is written. -/
theorem recoverWith_idle {layout : GPTLayout} {table : GPTTable}
    (h : table.primaryValid = table.backupValid) (m : PartitionManager σ) :
    (recoverWith env dev layout table m).2 = m := by
  unfold recoverWith
  rcases hflag : table.backupValid with _ | _ <;> simp [h, hflag]

/-- A recovery writes arrays of the parsed entries only, and none unless
exactly one flag is set. -/
theorem recover_written (h : StableReads dev content) {r : Record σ}
    (hcall : r.call = .recoverFromBackup)
    (hrun : run env dev r.call r.before = (r.result, r.after)) :
    let table := ((content r.before.device).parsed env r.before.parser.layout).table
    (∀ entries ∈ r.written, entries = table.entries) ∧
      (r.written ≠ [] → table.primaryValid ≠ table.backupValid) := by
  intro table
  obtain ⟨s, p, -, hrecover⟩ := recover_run env h r.before
  have hafter : r.after = (recoverWith env dev r.before.layout table
      { r.before with device := s, parser := p, table := table }).2 := by
    rw [hcall] at hrun
    rw [← hrecover]
    exact (congrArg Prod.snd hrun).symm
  obtain ⟨k, harrays⟩ := (recoverWith_recovers env dev r.before.layout table
    { r.before with device := s, parser := p, table := table }).writes.arrays
  have hwritten : r.written = List.replicate k table.entries := by
    rw [Record.written, hafter, harrays, List.drop_left]
  refine ⟨fun entries hmem => List.eq_of_mem_replicate (hwritten ▸ hmem), ?_⟩
  intro hne hflags
  rw [Record.written, hafter, recoverWith_idle hflags] at hne
  exact hne (List.drop_length)

/-- Over any run of a manager on a device with stable reads: every array the
recoveries write holds verified entries exactly when each recovery that
writes one starts from a content that is safe to recover from. -/
theorem recover_verified_iff (h : StableReads dev content) (device : σ)
    (events : List (Event σ)) :
    (∀ r ∈ records env dev events (create dev device), r.call = .recoverFromBackup →
      ∀ entries ∈ r.written,
        (content r.before.device).Verified env r.before.parser.layout entries) ↔
    (∀ r ∈ records env dev events (create dev device), r.call = .recoverFromBackup →
      r.written ≠ [] →
        (content r.before.device).SafeToRecover env r.before.parser.layout) := by
  constructor
  · intro hverified r hr hcall hne
    obtain ⟨hentries, hflags⟩ := recover_written h hcall (records_run hr)
    obtain ⟨entries, hmem⟩ := List.exists_mem_of_ne_nil _ hne
    have hsound := hverified r hr hcall entries hmem
    rw [hentries entries hmem] at hsound
    exact (FlashContent.verified_iff_safe (hflags hne)).mp hsound
  · intro hsafe r hr hcall entries hmem
    obtain ⟨hentries, hflags⟩ := recover_written h hcall (records_run hr)
    have hne := List.ne_nil_of_mem hmem
    rw [hentries entries hmem]
    exact (FlashContent.verified_iff_safe (hflags hne)).mpr (hsafe r hr hcall hne)

/-! ## Two small disks -/

/-- The backup is intact; the primary header has a matching CRC and no
entries. -/
def noEntriesDisk : MockFlashDevice :=
  lostPrimaryDisk.putHeader (setupHeader zlibEnv [] 1 2)

/-- The one recovery, evaluated once. -/
theorem records_lostPrimary :
    ∀ r ∈ records zlibEnv (MockFlashDevice.device fiveSectors) [.call .recoverFromBackup]
        (create (MockFlashDevice.device fiveSectors) lostPrimaryDisk),
      r.call = .recoverFromBackup ∧ r.result = .ok () ∧ [bootEntry] ∈ r.written ∧
        (MockFlashDevice.content fiveSectors r.before.device).SafeToRecover zlibEnv
          r.before.parser.layout := by
  decide +kernel

/-- The entries of the backup are written. -/
theorem recover_lostPrimary :
    (∃ r ∈ records zlibEnv (MockFlashDevice.device fiveSectors) [.call .recoverFromBackup]
        (create (MockFlashDevice.device fiveSectors) lostPrimaryDisk),
      [bootEntry] ∈ r.written) ∧
    ∀ r ∈ records zlibEnv (MockFlashDevice.device fiveSectors) [.call .recoverFromBackup]
        (create (MockFlashDevice.device fiveSectors) lostPrimaryDisk),
      r.call = .recoverFromBackup → ∀ entries ∈ r.written,
        (MockFlashDevice.content fiveSectors r.before.device).Verified zlibEnv
          r.before.parser.layout entries := by
  refine ⟨⟨_, List.mem_cons_self, (records_lostPrimary _ List.mem_cons_self).2.2.1⟩, ?_⟩
  refine (recover_verified_iff (MockFlashDevice.stableReads fiveSectors) _ _).mpr ?_
  exact fun r hr _ _ => (records_lostPrimary r hr).2.2.2

/-- The backup's array is verified, and an empty one is written. -/
theorem recover_noEntries :
    ∃ r ∈ records zlibEnv (MockFlashDevice.device fiveSectors) [.call .recoverFromBackup]
        (create (MockFlashDevice.device fiveSectors) noEntriesDisk),
      r.call = .recoverFromBackup ∧
        (MockFlashDevice.content fiveSectors r.before.device).Verified zlibEnv
          r.before.parser.layout [bootEntry] ∧
        ∃ entries ∈ r.written, entries = [] ∧
          ¬ (MockFlashDevice.content fiveSectors r.before.device).Verified zlibEnv
            r.before.parser.layout entries := by
  decide +kernel

end PartitionManager

end MBootCore
