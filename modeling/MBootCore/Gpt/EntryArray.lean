import MBootCore.Gpt.MockDisk
import MBootCore.Gpt.ParserSpec

/-!
# GPT — EntryArray

The decoders against the encoders, and the CRC of an entry array. The parser
computes that CRC from the entries it decoded, written out again; what it drops
are the bytes of a slot behind the 128 of an entry, the slack. The CRC is then
that of the array with its slack cleared, and the two agree exactly when the slack
leaves no remainder.
-/

namespace MBootCore

open LittleEndian GPTParser

/-! ## Decoders and encoders -/

theorem readEntries_serialize {count entrySize : UInt64} (entries : List PartitionEntry)
    (hsize : 128 ≤ entrySize.toNat) (htotal : count.toNat * entrySize.toNat < 2 ^ 64) :
    readEntries (serializeEntries entries count entrySize) count.toNat entrySize.toNat
      = padEntries entries count.toNat := by
  rw [serializeEntries, UInt64.toNat_mul, Nat.mod_eq_of_lt htotal]
  by_cases hcount : count.toNat = 0
  · rw [hcount, Nat.zero_mul]
    simp [readEntries, readEntriesFrom, padEntries]
  · have hne : count.toNat * entrySize.toNat ≠ 0 := Nat.mul_ne_zero hcount (by omega)
    have himage := readEntries_image hsize entries count.toNat []
    rw [List.append_nil] at himage
    simp only [if_neg hne]
    exact himage

/-! ### The array's size -/

/-- What ends `serializeEntries` without a result: an array larger than a vector
gets, or an entry written outside it. -/
inductive SerializeFault where
  | lengthError
  | outside
  deriving DecidableEq, Repr

/-- The entries written over `data`, the first one at the 64-bit offset of slot `i`. -/
def writeSlots (entrySize : UInt64) :
    List PartitionEntry → UInt64 → ByteBuffer → Except SerializeFault ByteBuffer
  | [], _, data => .ok data
  | entry :: entries, i, data =>
    let offset := (i * entrySize).toNat
    if offset + 128 ≤ data.length then
      writeSlots entrySize entries (i + 1) (patch data offset (entryFields entry))
    else .error .outside

/-- `serializeEntries` for every count and entry size: the product is not checked. -/
def serializeAnyEntries (entries : List PartitionEntry) (count entrySize : UInt64) :
    Except SerializeFault ByteBuffer :=
  let totalSize := (count * entrySize).toNat
  if totalSize = 0 then .ok []
  else if ByteBuffer.maxSize < totalSize then .error .lengthError
  else writeSlots entrySize (entries.take count.toNat) 0 (List.replicate totalSize 0)

theorem writeSlots_length {entrySize : UInt64} {entries : List PartitionEntry} {i : UInt64}
    {data written : ByteBuffer} (h : writeSlots entrySize entries i data = .ok written) :
    written.length = data.length := by
  induction entries generalizing i data with
  | nil =>
    cases h
    rfl
  | cons entry entries ih =>
    by_cases hinside : (i * entrySize).toNat + 128 ≤ data.length
    · simp only [writeSlots, if_pos hinside] at h
      rw [ih h, length_patch (by rwa [entryFields_length])]
    · simp only [writeSlots, if_neg hinside] at h
      cases h

/-- What it returns has the product's length, as far as 64 bits hold it. -/
theorem serializeAnyEntries_length {entries : List PartitionEntry} {count entrySize : UInt64}
    {data : ByteBuffer} (h : serializeAnyEntries entries count entrySize = .ok data) :
    data.length = (count * entrySize).toNat ∧ data.length ≤ ByteBuffer.maxSize := by
  by_cases hzero : (count * entrySize).toNat = 0
  · simp only [serializeAnyEntries, if_pos hzero] at h
    cases h
    exact ⟨hzero.symm, Nat.zero_le _⟩
  · by_cases hlarge : ByteBuffer.maxSize < (count * entrySize).toNat
    · simp only [serializeAnyEntries, if_neg hzero, if_pos hlarge] at h
      cases h
    · simp only [serializeAnyEntries, if_neg hzero, if_neg hlarge] at h
      have hlength := writeSlots_length h
      rw [List.length_replicate] at hlength
      exact ⟨hlength, by omega⟩

/-- Slots that lie inside the buffer are written where they belong. -/
theorem writeSlots_eq {entrySize : UInt64} (hsize : 128 ≤ entrySize.toNat)
    {entries : List PartitionEntry} {i : UInt64} {data : ByteBuffer}
    (hinside : (i.toNat + entries.length) * entrySize.toNat ≤ data.length)
    (hdata : data.length < 2 ^ 64) :
    writeSlots entrySize entries i data
      = .ok (patchEntries entrySize.toNat entries i.toNat data) := by
  induction entries generalizing i data with
  | nil => rfl
  | cons entry entries ih =>
    have hnext : i.toNat + 1 + entries.length = i.toNat + (entry :: entries).length := by
      rw [List.length_cons]
      omega
    have hslot : (i.toNat + 1) * entrySize.toNat ≤ data.length :=
      Nat.le_trans (Nat.mul_le_mul_right _ (by omega)) hinside
    have hwide : (i.toNat + 1) * 128 ≤ (i.toNat + 1) * entrySize.toNat :=
      Nat.mul_le_mul_left _ hsize
    have hsucc : (i + 1).toNat = i.toNat + 1 := by
      rw [UInt64.toNat_add, UInt64.toNat_one, Nat.mod_eq_of_lt (by omega)]
    rw [Nat.succ_mul] at hslot
    have hoffset : (i * entrySize).toNat = i.toNat * entrySize.toNat := by
      rw [UInt64.toNat_mul, Nat.mod_eq_of_lt (by omega)]
    have hentry : i.toNat * entrySize.toNat + (entryFields entry).length ≤ data.length := by
      rw [entryFields_length]
      omega
    simp only [writeSlots, hoffset]
    rw [if_pos (by omega), ih (by rwa [length_patch hentry, hsucc, hnext])
      (by rwa [length_patch hentry]), hsucc]
    rfl

/-- Within the size of a vector it is `serializeEntries`. -/
theorem serializeAnyEntries_eq {count entrySize : UInt64} (hsize : 128 ≤ entrySize.toNat)
    (htotal : count.toNat * entrySize.toNat ≤ ByteBuffer.maxSize) (entries : List PartitionEntry) :
    serializeAnyEntries entries count entrySize
      = .ok (serializeEntries entries count entrySize) := by
  have hmax : ByteBuffer.maxSize < 2 ^ 64 := by decide
  have hproduct : (count * entrySize).toNat = count.toNat * entrySize.toNat := by
    rw [UInt64.toNat_mul, Nat.mod_eq_of_lt (by omega)]
  by_cases hzero : (count * entrySize).toNat = 0
  · simp only [serializeAnyEntries, serializeEntries, if_pos hzero]
  · have htaken : (entries.take count.toNat).length ≤ count.toNat := by
      rw [List.length_take]
      omega
    have hslots : writeSlots entrySize (entries.take count.toNat) 0
        (List.replicate (count.toNat * entrySize.toNat) 0)
          = .ok (entryImage entries count.toNat entrySize.toNat) := by
      apply writeSlots_eq hsize
      · rw [UInt64.toNat_zero, List.length_replicate, Nat.zero_add]
        exact Nat.mul_le_mul_right _ htaken
      · rw [List.length_replicate]
        omega
    simp only [serializeAnyEntries, serializeEntries, if_neg hzero]
    rw [hproduct, if_neg (by omega), hslots]

/-- The bytes there are hold every entry that is decoded. -/
theorem readEntriesFrom_held {data : ByteBuffer} {entrySize : Nat} (i remaining : Nat)
    (h : i * entrySize ≤ data.length) :
    (i + (readEntriesFrom data entrySize i remaining).length) * entrySize ≤ data.length := by
  induction remaining generalizing i with
  | zero => exact h
  | succ remaining ih =>
    by_cases hend : i * entrySize + entrySize > data.length
    · rw [readEntriesFrom, if_pos hend]
      exact h
    · rw [readEntriesFrom, if_neg hend, List.length_cons, Nat.add_comm _ 1, ← Nat.add_assoc]
      exact ih (i + 1) (by rw [Nat.succ_mul]; omega)

/-- The parser's decoders undo the writer's encoders, of a header and of an array:
the array is made, and what it decodes to are the entries with null entries behind. -/
structure ReadersInvertWriters (header : GPTHeader) (entries : List PartitionEntry)
    (count entrySize : UInt64) : Prop where
  header : readHeader (serializeHeader header) = header
  entries : ∃ data, serializeAnyEntries entries count entrySize = .ok data ∧
    readEntries data count.toNat entrySize.toNat
      = entries ++ List.replicate (count.toNat - entries.length) ({} : PartitionEntry)

/-- The array is read back exactly as long as a vector holds it. -/
theorem readers_invert_writers_iff (header : GPTHeader) (entries : List PartitionEntry)
    (count entrySize : UInt64) (hcount : entries.length ≤ count.toNat)
    (hsize : 128 ≤ entrySize.toNat) :
    ReadersInvertWriters header entries count entrySize ↔
      count.toNat * entrySize.toNat ≤ ByteBuffer.maxSize := by
  constructor
  · intro h
    obtain ⟨data, hdata, hread⟩ := h.entries
    have hheld : (0 + (readEntries data count.toNat entrySize.toNat).length) * entrySize.toNat
        ≤ data.length := readEntriesFrom_held 0 count.toNat (by omega)
    have hlength : (readEntries data count.toNat entrySize.toNat).length = count.toNat := by
      rw [hread, List.length_append, List.length_replicate]
      omega
    rw [hlength, Nat.zero_add] at hheld
    exact Nat.le_trans hheld (serializeAnyEntries_length hdata).2
  · intro htotal
    have hmax : ByteBuffer.maxSize < 2 ^ 64 := by decide
    have hread := readHeader_serialize header []
    rw [List.append_nil] at hread
    refine ⟨hread, _, serializeAnyEntries_eq hsize htotal entries, ?_⟩
    rw [readEntries_serialize entries hsize (by omega), padEntries, List.take_of_length_le hcount]

theorem readers_invert_writers_wideSlots :
    ReadersInvertWriters { signature := GPTHeader.Signature } [{ firstLBA := 34, lastLBA := 40 }]
      3 200 :=
  (readers_invert_writers_iff { signature := GPTHeader.Signature }
    [{ firstLBA := 34, lastLBA := 40 }] 3 200 (by decide) (by decide)).mpr (by decide)

/-- 2^57 slots of 128 bytes are 2^64 bytes, and the array that is made is empty. -/
theorem serializeAnyEntries_empties :
    ¬ ∀ (header : GPTHeader) (entries : List PartitionEntry) (count entrySize : UInt64),
      entries.length ≤ count.toNat → 128 ≤ entrySize.toNat →
        ReadersInvertWriters header entries count entrySize := by
  intro h
  obtain ⟨data, hdata, hread⟩ := (h {} [{}] (2 ^ 57) 128 (by decide) (by decide)).entries
  obtain rfl : [] = data := Except.ok.inj hdata
  have hheld : (0 + (readEntries [] (2 ^ 57 : UInt64).toNat 128).length) * 128 ≤ 0 :=
    readEntriesFrom_held 0 _ (Nat.le_refl 0)
  have hlength := congrArg List.length hread
  rw [List.length_append, List.length_singleton] at hlength
  change (readEntries [] (2 ^ 57 : UInt64).toNat 128).length = _ at hlength
  omega

/-- An entry that was decoded is encoded as the bytes it came from. -/
theorem entryFields_readEntry {data : ByteBuffer} {off : Nat} (h : off + 128 ≤ data.length) :
    entryFields (readEntry data off) = (data.drop off).take 128 := by
  have hsplit : (data.drop off).take 128
      = (data.drop off).take
        (4 + (2 + (2 + (8 + (4 + (2 + (2 + (8 + (8 + (8 + (8 + 36 * 2)))))))))))
    := rfl
  rw [hsplit]
  simp only [take_drop_add, entryFields, readEntry, readGuid, Nat.add_assoc, Nat.reduceAdd]
  rw [encode32_readLE32 (by omega), encode16_readLE16 (by omega), encode16_readLE16 (by omega),
    toList_readArray (by omega), encode32_readLE32 (by omega), encode16_readLE16 (by omega),
    encode16_readLE16 (by omega), toList_readArray (by omega), encode64_readLE64 (by omega),
    encode64_readLE64 (by omega), encode64_readLE64 (by omega), encode16_readWords (by omega)]

/-! ## Slack -/

/-- The array with the bytes behind the entries set to zero. -/
def clearSlack (entrySize : Nat) (raw : ByteBuffer) : ByteBuffer :=
  raw.mapIdx fun i byte => if i % entrySize < 128 then byte else 0

/-- The array with the entries set to zero. -/
def slackBytes (entrySize : Nat) (raw : ByteBuffer) : ByteBuffer :=
  raw.mapIdx fun i byte => if i % entrySize < 128 then 0 else byte

@[simp] theorem clearSlack_length (entrySize : Nat) (raw : ByteBuffer) :
    (clearSlack entrySize raw).length = raw.length := by
  simp [clearSlack]

theorem slackBytes_eq (entrySize : Nat) (raw : ByteBuffer) :
    List.zipWith (· ^^^ ·) (clearSlack entrySize raw) raw = slackBytes entrySize raw := by
  apply List.ext_getElem
  · simp [slackBytes]
  · intro i _ _
    by_cases h : i % entrySize < 128 <;> simp [clearSlack, slackBytes, h]

theorem slot_readEntry {raw : ByteBuffer} {entrySize i : Nat} (hsize : 128 ≤ entrySize)
    (h : (i + 1) * entrySize ≤ raw.length) :
    slot entrySize (readEntry raw (i * entrySize))
      = ((clearSlack entrySize raw).drop (i * entrySize)).take entrySize := by
  rw [Nat.succ_mul] at h
  rw [slot, entryFields_readEntry (by omega)]
  apply List.ext_getElem
  · simp only [List.length_append, List.length_take, List.length_drop, List.length_replicate,
      clearSlack_length]
    omega
  · intro k hk _
    have hk : k < entrySize := by
      simp only [List.length_append, List.length_take, List.length_drop,
        List.length_replicate] at hk
      omega
    have hmod : (i * entrySize + k) % entrySize = k := by
      rw [Nat.mul_add_mod_of_lt hk]
    by_cases hentry : k < 128
    · rw [List.getElem_append_left (by simp only [List.length_take, List.length_drop]; omega)]
      simp [clearSlack, hmod, hentry]
    · rw [List.getElem_append_right (by simp only [List.length_take, List.length_drop]; omega)]
      simp [clearSlack, hmod, hentry]

/-- By induction on the slots left: what is encoded again is the rest of the array
with its slack cleared. -/
theorem flatMap_slot_readEntriesFrom {raw : ByteBuffer} {entrySize : Nat} (hsize : 128 ≤ entrySize)
    (i remaining : Nat) (h : raw.length = (i + remaining) * entrySize) :
    (readEntriesFrom raw entrySize i remaining).flatMap (slot entrySize)
      = (clearSlack entrySize raw).drop (i * entrySize) := by
  induction remaining generalizing i with
  | zero =>
    rw [Nat.add_zero] at h
    rw [List.drop_of_length_le (by rw [clearSlack_length, h])]
    rfl
  | succ remaining ih =>
    have hnext : raw.length = (i + 1 + remaining) * entrySize := by
      rw [h]
      congr 1
      omega
    have hle : (i + 1) * entrySize ≤ raw.length := by
      rw [hnext]
      exact Nat.mul_le_mul_right _ (by omega)
    have hin : ¬ i * entrySize + entrySize > raw.length := by
      rw [Nat.succ_mul] at hle
      omega
    rw [readEntriesFrom, if_neg hin, List.flatMap_cons, slot_readEntry hsize hle, ih (i + 1) hnext,
      Nat.succ_mul, ← List.drop_drop, List.take_append_drop]

theorem entryImage_readEntries {raw : ByteBuffer} {count entrySize : Nat} (hsize : 128 ≤ entrySize)
    (h : raw.length = count * entrySize) :
    entryImage (readEntries raw count entrySize) count entrySize = clearSlack entrySize raw := by
  rw [entryImage_eq hsize, padEntries_of_length (readEntries_length (Nat.le_of_eq h.symm)),
    readEntries, flatMap_slot_readEntriesFrom hsize 0 count (by rw [Nat.zero_add, h]),
    Nat.zero_mul, List.drop_zero]

/-! ## The CRC of the array -/

theorem computeEntryCRC32_readEntries (env : GPTEnv) {raw : ByteBuffer} {count entrySize : UInt32}
    (hsize : 128 ≤ entrySize.toNat) (hraw : raw.length = count.toNat * entrySize.toNat) :
    computeEntryCRC32 env (readEntries raw count.toNat entrySize.toNat) count.toUInt64
      entrySize.toUInt64 = env.crc32 (clearSlack entrySize.toNat raw) := by
  rw [computeEntryCRC32, (safeMul_toUInt64 count entrySize).1]
  dsimp only
  rw [UInt32.toNat_toUInt64, UInt32.toNat_toUInt64, entryImage_readEntries hsize hraw]

/-- `parse` goes by this header, and `raw` is the entry array it has read for it. -/
structure ArrayRead (env : GPTEnv) (c : FlashContent) (known : GPTLayout) (header : GPTHeader)
    (raw : ByteBuffer) : Prop where
  mbr : c.mbr known ≠ []
  copy : ((c.primary env known).valid = true ∧ header = (c.primary env known).header) ∨
    ((c.primary env known).valid = false ∧ (c.backup env known).valid = true ∧
      header = (c.backup env known).header)
  fields : validateEntryFields header.numberOfPartitionEntries header.sizeOfPartitionEntry = true
  length : raw.length = header.numberOfPartitionEntries.toNat * header.sizeOfPartitionEntry.toNat
  array : raw <+: c.arrayOf (c.layout known).sectorSize header

theorem ArrayRead.entriesValid {env : GPTEnv} {c : FlashContent} {known : GPTLayout}
    {header : GPTHeader} {raw : ByteBuffer} (h : ArrayRead env c known header raw) :
    (c.parsed env known).table.entriesValid = true ↔
      env.crc32 (clearSlack header.sizeOfPartitionEntry.toNat raw)
        = header.partitionEntriesCRC32 := by
  have hsize := ((validateEntryFields_iff _ _).mp h.fields).2.1
  have htable : (c.parsed env known).table.entriesValid
      = (c.entriesOf env (c.layout known).sectorSize header).isValid := by
    rcases h.copy with ⟨hprimary, rfl⟩ | ⟨hprimary, hbackup, rfl⟩
    · exact (parsed_primary h.mbr hprimary).entriesValid
    · exact (parsed_backup h.mbr hprimary hbackup).entriesValid
  obtain ⟨rest, hrest⟩ := h.array
  have hlength : header.numberOfPartitionEntries.toNat * header.sizeOfPartitionEntry.toNat
      ≤ (c.arrayOf (c.layout known).sectorSize header).length := by
    rw [← hrest, List.length_append, h.length]
    omega
  have hentries : readEntries (c.arrayOf (c.layout known).sectorSize header)
      header.numberOfPartitionEntries.toNat header.sizeOfPartitionEntry.toNat
        = readEntries raw header.numberOfPartitionEntries.toNat
            header.sizeOfPartitionEntry.toNat := by
    rw [← hrest, readEntries_append hsize (Nat.le_of_eq h.length.symm)]
  rw [htable, FlashContent.entriesOf_eq h.fields, decodeEntries, (safeMul_toUInt64 _ _).2,
    if_pos hlength]
  simp only [EntryCheck.isValid, hentries, computeEntryCRC32_readEntries env hsize h.length,
    decide_eq_true_eq]

/-- The CRC the parser computes is that of the array, and its verdict on every
device that holds the array the right one. -/
structure CRCOfArray (env : GPTEnv) (count entrySize : UInt32) (raw : ByteBuffer) : Prop where
  computed : computeEntryCRC32 env (readEntries raw count.toNat entrySize.toNat) count.toUInt64
    entrySize.toUInt64 = env.crc32 raw
  parsed : ∀ {σ : Type} (dev : FlashDevice σ) (content : σ → FlashContent) (s s' : σ)
    (p p' : GPTParser) (header : GPTHeader) (result : ParserResult), StableReads dev content →
    ArrayRead env (content s) p.layout header raw → header.numberOfPartitionEntries = count →
    header.sizeOfPartitionEntry = entrySize → parse env dev (s, p) = (.ok result, (s', p')) →
      (result.table.entriesValid = true ↔ env.crc32 raw = header.partitionEntriesCRC32)

/-- With zlib's CRC, `pastEnd` being what lies behind a buffer. -/
theorem crcOfArray_iff (pastEnd : ByteBuffer → ByteBuffer) {raw : ByteBuffer}
    {count entrySize : UInt32} (hsize : 128 ≤ entrySize)
    (hraw : raw.length = count.toNat * entrySize.toNat) :
    CRCOfArray ⟨crc32, pastEnd⟩ count entrySize raw ↔
      crc32From (slackBytes entrySize.toNat raw) 0 = 0 := by
  have h128 : 128 ≤ entrySize.toNat := UInt32.le_iff_toNat_le.mp hsize
  have hcrc : crc32 (clearSlack entrySize.toNat raw) = crc32 raw ↔
      crc32From (slackBytes entrySize.toNat raw) 0 = 0 := by
    rw [crc32_eq_iff (clearSlack_length _ _), slackBytes_eq]
  rw [← hcrc]
  constructor
  · intro h
    have hcomputed := h.computed
    rw [computeEntryCRC32_readEntries _ h128 hraw] at hcomputed
    exact hcomputed
  · intro h
    refine ⟨by rw [computeEntryCRC32_readEntries _ h128 hraw]; exact h, ?_⟩
    intro σ dev content s s' p p' header result hstable harray _ hentrySize hparse
    obtain ⟨s'', p'', hrun, -⟩ := parse_run ⟨crc32, pastEnd⟩ hstable s p
    rw [hrun] at hparse
    obtain rfl : (content s).parsed ⟨crc32, pastEnd⟩ p.layout = result :=
      Except.ok.inj (Prod.mk.inj hparse).1
    rw [harray.entriesValid, hentrySize]
    dsimp only
    rw [h]

/-- A slot whose slack leaves no remainder, though it is not zero: the CRC of its
first byte follows that byte. -/
theorem crcOfArray_multiple :
    CRCOfArray ⟨crc32, fun _ => []⟩ 1 133 (List.replicate 128 0 ++ [1, 0x96, 0x30, 0x07, 0x77]) :=
  (crcOfArray_iff (fun _ => []) (by decide) (by decide +kernel)).mpr (by decide +kernel)

/-- One byte of slack that is not zero. -/
def slackArray : ByteBuffer := List.replicate 128 0 ++ [1]

theorem slackArray_crc :
    ¬ ∀ raw (count entrySize : UInt32), 1 ≤ count ∧ count ≤ 4096 →
      128 ≤ entrySize ∧ entrySize ≤ 512 → raw.length = count.toNat * entrySize.toNat →
        CRCOfArray zlibEnv count entrySize raw := by
  intro hall
  have hlength : slackArray.length = (1 : UInt32).toNat * (129 : UInt32).toNat := by
    decide +kernel
  have hcomputed := (hall slackArray 1 129 (by decide) (by decide) hlength).computed
  rw [computeEntryCRC32_readEntries zlibEnv (by decide) hlength] at hcomputed
  have hne : crc32 (clearSlack (129 : UInt32).toNat slackArray) ≠ crc32 slackArray := by
    decide +kernel
  exact hne hcomputed

end MBootCore
