import MBootCore.Domain.Types
import MBootCore.Gpt.Models
import MBootCore.Support.ByteStore

/-!
# GPT — Codec

The on-disk forms: the 92-byte header padded to 512 bytes, and the array of
entries in slots of `sizeOfPartitionEntry` bytes. `GPTParser` reads them,
`GPTWriter` writes them, and `GPTParser::computeEntryCRC32` encodes the
entries a second time.

`readHeader` and `readEntries` invert the encoders (`readHeader_fields`,
`readEntries_image`) while a slot has room for an entry.
-/

namespace MBootCore

open LittleEndian

/-! ## Header -/

/-- The bytes 20 to 91, after the header's own CRC. -/
def headerTail (header : GPTHeader) : ByteBuffer :=
  encode32 header.reserved ++ (encode64 header.myLBA ++ (encode64 header.alternateLBA ++
  (encode64 header.firstUsableLBA ++ (encode64 header.lastUsableLBA ++
  (encode32 header.diskGUID.data1 ++ (encode16 header.diskGUID.data2 ++
  (encode16 header.diskGUID.data3 ++ (header.diskGUID.data4.toList ++
  (encode64 header.partitionEntryLBA ++ (encode32 header.numberOfPartitionEntries ++
  (encode32 header.sizeOfPartitionEntry ++ encode32 header.partitionEntriesCRC32)))))))))))

/-- The bytes 0 to 91; the fields have no gap between them. -/
def headerFields (header : GPTHeader) : ByteBuffer :=
  encode64 header.signature ++ (encode32 header.revision ++ (encode32 header.headerSize ++
  (encode32 header.headerCrc32 ++ headerTail header)))

def serializeHeader (header : GPTHeader) : ByteBuffer :=
  ByteBuffer.resize (headerFields header) 512

def readGuid (data : ByteBuffer) (off : Nat) : Guid where
  data1 := readLE32 data off
  data2 := readLE16 data (off + 4)
  data3 := readLE16 data (off + 6)
  data4 := readArray 8 data (off + 8)

def readHeader (data : ByteBuffer) : GPTHeader :=
  if data.length < 92 then {}
  else
    { signature := readLE64 data 0
      revision := readLE32 data 8
      headerSize := readLE32 data 12
      headerCrc32 := readLE32 data 16
      reserved := readLE32 data 20
      myLBA := readLE64 data 24
      alternateLBA := readLE64 data 32
      firstUsableLBA := readLE64 data 40
      lastUsableLBA := readLE64 data 48
      diskGUID := readGuid data 56
      partitionEntryLBA := readLE64 data 72
      numberOfPartitionEntries := readLE32 data 80
      sizeOfPartitionEntry := readLE32 data 84
      partitionEntriesCRC32 := readLE32 data 88 }

@[simp] theorem headerFields_length (header : GPTHeader) : (headerFields header).length = 92 := by
  simp [headerFields, headerTail]

theorem serializeHeader_eq (header : GPTHeader) :
    serializeHeader header = headerFields header ++ List.replicate 420 0 := by
  rw [serializeHeader, ByteBuffer.resize, headerFields_length,
    List.take_of_length_le (by rw [headerFields_length]; decide)]

@[simp] theorem serializeHeader_length (header : GPTHeader) :
    (serializeHeader header).length = 512 := by
  simp [serializeHeader]

theorem readGuid_skip {xs ys : ByteBuffer} {off : Nat} (h : xs.length ≤ off) :
    readGuid (xs ++ ys) off = readGuid ys (off - xs.length) := by
  rw [readGuid, readGuid, readLE32_skip h, readLE16_skip (by omega), readLE16_skip (by omega),
    readArray_skip (by omega), ← Nat.sub_add_comm h, ← Nat.sub_add_comm h, ← Nat.sub_add_comm h]

theorem readGuid_encode (guid : Guid) (rest : ByteBuffer) :
    readGuid (encode32 guid.data1 ++ (encode16 guid.data2 ++ (encode16 guid.data3 ++
      (guid.data4.toList ++ rest)))) 0 = guid := by
  rw [readGuid]
  simp [readLE16_skip, readArray_skip]

/-- A header is read back from its bytes, whatever follows them. -/
theorem readHeader_fields (header : GPTHeader) (rest : ByteBuffer) :
    readHeader (headerFields header ++ rest) = header := by
  have hlength : ¬ (headerFields header ++ rest).length < 92 := by
    rw [List.length_append, headerFields_length]
    omega
  rw [readHeader, if_neg hlength]
  simp [headerFields, headerTail, readLE32_skip, readLE64_skip, readGuid_skip, readGuid_encode]

theorem readHeader_serialize (header : GPTHeader) (rest : ByteBuffer) :
    readHeader (serializeHeader header ++ rest) = header := by
  rw [serializeHeader_eq, List.append_assoc, readHeader_fields]

/-- Clearing the CRC field makes the field's value irrelevant. -/
theorem patch_serializeHeader (header : GPTHeader) (crc : UInt32) :
    patch (serializeHeader { header with headerCrc32 := crc }) 16 [0, 0, 0, 0]
      = patch (serializeHeader header) 16 [0, 0, 0, 0] := by
  have hclear (header : GPTHeader) : patch (serializeHeader header) 16 [0, 0, 0, 0]
      = (encode64 header.signature ++ (encode32 header.revision ++ encode32 header.headerSize)) ++
        ([0, 0, 0, 0] ++ (headerTail header ++ List.replicate 420 0)) := by
    have hsplit : serializeHeader header
        = (encode64 header.signature ++ (encode32 header.revision ++ encode32 header.headerSize)) ++
          (encode32 header.headerCrc32 ++ (headerTail header ++ List.replicate 420 0)) := by
      simp only [serializeHeader_eq, headerFields, List.append_assoc]
    have hlength : (encode64 header.signature ++
        (encode32 header.revision ++ encode32 header.headerSize)).length = 16 := by
      simp only [List.length_append, encode64_length, encode32_length]
    rw [hsplit, ← hlength, patch_append]
    exact congrArg _ (congrArg _ (List.drop_left' (encode32_length _)))
  rw [hclear, hclear]
  rfl

/-! ## Entries -/

/-- The 128 bytes of an entry, without gaps as well. -/
def entryFields (entry : PartitionEntry) : ByteBuffer :=
  encode32 entry.partitionTypeGUID.data1 ++ (encode16 entry.partitionTypeGUID.data2 ++
  (encode16 entry.partitionTypeGUID.data3 ++ (entry.partitionTypeGUID.data4.toList ++
  (encode32 entry.uniquePartitionGUID.data1 ++ (encode16 entry.uniquePartitionGUID.data2 ++
  (encode16 entry.uniquePartitionGUID.data3 ++ (entry.uniquePartitionGUID.data4.toList ++
  (encode64 entry.firstLBA ++ (encode64 entry.lastLBA ++ (encode64 entry.attributes ++
  entry.name.toList.flatMap encode16))))))))))

/-- The entries written over `data`, the first one into slot `i`. -/
def patchEntries (entrySize : Nat) : List PartitionEntry → Nat → ByteBuffer → ByteBuffer
  | [], _, data => data
  | entry :: entries, i, data =>
    patchEntries entrySize entries (i + 1) (patch data (i * entrySize) (entryFields entry))

/-- `count` slots of zeros with the entries written over them. -/
def entryImage (entries : List PartitionEntry) (count entrySize : Nat) : ByteBuffer :=
  patchEntries entrySize (entries.take count) 0 (List.replicate (count * entrySize) 0)

def serializeEntries (entries : List PartitionEntry) (count entrySize : UInt64) : ByteBuffer :=
  let totalSize := (count * entrySize).toNat
  if totalSize = 0 then [] else entryImage entries count.toNat entrySize.toNat

def readEntry (data : ByteBuffer) (offset : Nat) : PartitionEntry where
  partitionTypeGUID := readGuid data offset
  uniquePartitionGUID := readGuid data (offset + 16)
  firstLBA := readLE64 data (offset + 32)
  lastLBA := readLE64 data (offset + 40)
  attributes := readLE64 data (offset + 48)
  name := readWords 36 data (offset + 56)

/-- The entries from slot `i` on, up to the first slot that `data` does not
hold in full. -/
def readEntriesFrom (data : ByteBuffer) (entrySize : Nat) : Nat → Nat → List PartitionEntry
  | _, 0 => []
  | i, remaining + 1 =>
    if i * entrySize + entrySize > data.length then []
    else readEntry data (i * entrySize) :: readEntriesFrom data entrySize (i + 1) remaining

def readEntries (data : ByteBuffer) (count entrySize : Nat) : List PartitionEntry :=
  readEntriesFrom data entrySize 0 count

@[simp] theorem entryFields_length (entry : PartitionEntry) : (entryFields entry).length = 128 := by
  simp only [entryFields, List.length_append, encode16_length, encode32_length, encode64_length,
    Vector.length_toList, flatMap_encode16_length]

theorem readEntry_skip {xs ys : ByteBuffer} {off : Nat} (h : xs.length ≤ off) :
    readEntry (xs ++ ys) off = readEntry ys (off - xs.length) := by
  rw [readEntry, readEntry, readGuid_skip h, readGuid_skip (by omega), readLE64_skip (by omega),
    readLE64_skip (by omega), readLE64_skip (by omega), readWords_skip (by omega),
    ← Nat.sub_add_comm h, ← Nat.sub_add_comm h, ← Nat.sub_add_comm h, ← Nat.sub_add_comm h,
    ← Nat.sub_add_comm h]

theorem readEntry_fields (entry : PartitionEntry) (rest : ByteBuffer) :
    readEntry (entryFields entry ++ rest) 0 = entry := by
  rw [readEntry]
  simp [entryFields, readGuid_skip, readGuid_encode, readLE64_skip, readWords_skip]

/-! ## Slots -/

/-- An entry in its slot. -/
def slot (entrySize : Nat) (entry : PartitionEntry) : ByteBuffer :=
  entryFields entry ++ List.replicate (entrySize - 128) 0

/-- The entries a table of `count` slots holds after `entries` is written. -/
def padEntries (entries : List PartitionEntry) (count : Nat) : List PartitionEntry :=
  entries.take count ++ List.replicate (count - entries.length) ({} : PartitionEntry)

theorem slot_length {entrySize : Nat} (h : 128 ≤ entrySize) (entry : PartitionEntry) :
    (slot entrySize entry).length = entrySize := by
  rw [slot, List.length_append, entryFields_length, List.length_replicate]
  omega

theorem entryFields_null : entryFields {} = List.replicate 128 0 := by decide

theorem slot_null {entrySize : Nat} (h : 128 ≤ entrySize) :
    slot entrySize {} = List.replicate entrySize 0 := by
  rw [slot, entryFields_null, List.replicate_append_replicate, Nat.add_sub_cancel' h]

@[simp] theorem padEntries_length (entries : List PartitionEntry) (count : Nat) :
    (padEntries entries count).length = count := by
  simp only [padEntries, List.length_append, List.length_take, List.length_replicate]
  omega

/-- A list of the right length needs no padding. -/
theorem padEntries_of_length {entries : List PartitionEntry} {count : Nat}
    (h : entries.length = count) : padEntries entries count = entries := by
  rw [padEntries, h, Nat.sub_self, List.take_of_length_le (by omega)]
  simp

/-- The entries land in their slots one after the other. -/
theorem patchEntries_eq {entrySize : Nat} (h : 128 ≤ entrySize) (entries : List PartitionEntry)
    {i : Nat} (free : Nat) (before : ByteBuffer) (hbefore : before.length = i * entrySize)
    (hfree : entries.length ≤ free) :
    patchEntries entrySize entries i (before ++ List.replicate (free * entrySize) 0)
      = before ++ (entries.flatMap (slot entrySize) ++
          List.replicate ((free - entries.length) * entrySize) 0) := by
  induction entries generalizing i free before with
  | nil => simp [patchEntries]
  | cons entry entries ih =>
    obtain ⟨free, rfl⟩ : ∃ k, free = k + 1 := ⟨free - 1, by simp at hfree; omega⟩
    have hsplit : (free + 1) * entrySize - 128 = (entrySize - 128) + free * entrySize := by
      rw [Nat.succ_mul]
      omega
    -- the patched buffer is the buffer of the next round
    have hpatch : patch (before ++ List.replicate ((free + 1) * entrySize) 0) (i * entrySize)
        (entryFields entry)
        = (before ++ slot entrySize entry) ++ List.replicate (free * entrySize) 0 := by
      rw [← hbefore, patch_append, entryFields_length, List.drop_replicate, hsplit, slot,
        ← List.replicate_append_replicate]
      simp only [List.append_assoc]
    have hnext : (before ++ slot entrySize entry).length = (i + 1) * entrySize := by
      rw [List.length_append, hbefore, slot_length h, Nat.succ_mul]
    rw [patchEntries, hpatch, ih free _ hnext (by simpa using hfree), List.flatMap_cons,
      List.length_cons, Nat.add_sub_add_right]
    simp only [List.append_assoc]

theorem flatMap_slot_null {entrySize : Nat} (h : 128 ≤ entrySize) (k : Nat) :
    (List.replicate k ({} : PartitionEntry)).flatMap (slot entrySize)
      = List.replicate (k * entrySize) 0 := by
  induction k with
  | zero => simp
  | succ k ih =>
    rw [List.replicate_succ, List.flatMap_cons, ih, slot_null h, List.replicate_append_replicate,
      Nat.succ_mul, Nat.add_comm]

/-- The image is the slots of the padded list in a row. -/
theorem entryImage_eq {entrySize : Nat} (h : 128 ≤ entrySize) (entries : List PartitionEntry)
    (count : Nat) :
    entryImage entries count entrySize = (padEntries entries count).flatMap (slot entrySize) := by
  have hpatch := patchEntries_eq h (entries.take count) (i := 0) count []
    (by simp) (by rw [List.length_take]; exact Nat.min_le_left _ _)
  rw [List.nil_append, List.nil_append, List.length_take] at hpatch
  rw [entryImage, hpatch, padEntries, List.flatMap_append, flatMap_slot_null h,
    show count - min count entries.length = count - entries.length by omega]

/-- The slots before the first used one are zeros. -/
theorem entryImage_unused {entrySize : Nat} (h : 128 ≤ entrySize) {k count : Nat} (hk : k ≤ count)
    (entries : List PartitionEntry) {i : Nat} (hi : i < k * entrySize) :
    (entryImage (List.replicate k ({} : PartitionEntry) ++ entries) count entrySize).getD i 0
      = 0 := by
  rw [entryImage_eq h, padEntries, List.take_append, List.take_of_length_le (by simpa using hk),
    List.append_assoc, List.flatMap_append, flatMap_slot_null h,
    List.getD_append _ _ _ _ (by simpa using hi), List.getD_replicate _ hi]

theorem flatMap_slot_length {entrySize : Nat} (h : 128 ≤ entrySize)
    (entries : List PartitionEntry) :
    (entries.flatMap (slot entrySize)).length = entries.length * entrySize := by
  induction entries with
  | nil => simp
  | cons entry entries ih =>
    rw [List.flatMap_cons, List.length_append, slot_length h, ih, List.length_cons, Nat.succ_mul,
      Nat.add_comm]

theorem entryImage_length {entrySize : Nat} (h : 128 ≤ entrySize)
    (entries : List PartitionEntry) (count : Nat) :
    (entryImage entries count entrySize).length = count * entrySize := by
  rw [entryImage_eq h, flatMap_slot_length h, padEntries_length]

/-- Encoding the padded list gives the same image. -/
theorem entryImage_pad {entrySize : Nat} (h : 128 ≤ entrySize) (entries : List PartitionEntry)
    (count : Nat) :
    entryImage (padEntries entries count) count entrySize = entryImage entries count entrySize := by
  rw [entryImage_eq h, entryImage_eq h, padEntries_of_length (padEntries_length entries count)]

theorem readEntriesFrom_slots {entrySize : Nat} (h : 128 ≤ entrySize)
    (entries : List PartitionEntry) {i : Nat} (before : ByteBuffer)
    (hbefore : before.length = i * entrySize) (rest : ByteBuffer) :
    readEntriesFrom (before ++ (entries.flatMap (slot entrySize) ++ rest)) entrySize i
      entries.length = entries := by
  induction entries generalizing i before with
  | nil => rfl
  | cons entry entries ih =>
    have hslot := slot_length h entry
    have hlength : ¬ i * entrySize + entrySize >
        (before ++ ((entry :: entries).flatMap (slot entrySize) ++ rest)).length := by
      simp only [List.length_append, List.flatMap_cons, hbefore, hslot]
      omega
    have hread : readEntry (before ++ ((entry :: entries).flatMap (slot entrySize) ++ rest))
        (i * entrySize) = entry := by
      rw [readEntry_skip (by omega), ← hbefore, Nat.sub_self, List.flatMap_cons, slot]
      simp only [List.append_assoc]
      exact readEntry_fields entry _
    have hnext : (before ++ slot entrySize entry).length = (i + 1) * entrySize := by
      rw [List.length_append, hbefore, hslot, Nat.succ_mul]
    have hih := ih _ hnext
    rw [List.length_cons, readEntriesFrom, if_neg hlength, hread]
    simp only [List.flatMap_cons, List.append_assoc] at hih ⊢
    rw [hih]

/-- Written entries are read back, padded with null entries. -/
theorem readEntries_image {entrySize : Nat} (h : 128 ≤ entrySize)
    (entries : List PartitionEntry) (count : Nat) (rest : ByteBuffer) :
    readEntries (entryImage entries count entrySize ++ rest) count entrySize
      = padEntries entries count := by
  have hread := readEntriesFrom_slots h (padEntries entries count) (i := 0) []
    (by simp) rest
  rw [padEntries_length, List.nil_append] at hread
  rw [readEntries, entryImage_eq h, hread]

theorem readEntriesFrom_length {data : ByteBuffer} {entrySize : Nat} (i remaining : Nat)
    (h : (i + remaining) * entrySize ≤ data.length) :
    (readEntriesFrom data entrySize i remaining).length = remaining := by
  induction remaining generalizing i with
  | zero => rfl
  | succ remaining ih =>
    have hle : (i + 1) * entrySize ≤ (i + (remaining + 1)) * entrySize :=
      Nat.mul_le_mul_right entrySize (by omega)
    rw [Nat.succ_mul] at hle
    rw [readEntriesFrom, if_neg (by omega), List.length_cons, ih (i + 1) (by
      rw [show i + 1 + remaining = i + (remaining + 1) by omega]
      exact h)]

/-- An array that is there in full decodes to as many entries as it has slots. -/
theorem readEntries_length {data : ByteBuffer} {count entrySize : Nat}
    (h : count * entrySize ≤ data.length) : (readEntries data count entrySize).length = count :=
  readEntriesFrom_length 0 count (by rwa [Nat.zero_add])

theorem readEntriesFrom_getElem? {data : ByteBuffer} {entrySize : Nat} (i remaining : Nat)
    (h : (i + remaining) * entrySize ≤ data.length) {j : Nat} (hj : j < remaining) :
    (readEntriesFrom data entrySize i remaining)[j]?
      = some (readEntry data ((i + j) * entrySize)) := by
  induction remaining generalizing i j with
  | zero => cases hj
  | succ remaining ih =>
    have hnext : i + 1 + remaining = i + (remaining + 1) := by omega
    have hle : (i + 1) * entrySize ≤ (i + (remaining + 1)) * entrySize :=
      Nat.mul_le_mul_right entrySize (by omega)
    rw [Nat.succ_mul] at hle
    rw [readEntriesFrom, if_neg (by omega)]
    cases j with
    | zero => rfl
    | succ j =>
      rw [List.getElem?_cons_succ, ih (i + 1) (by rwa [hnext]) (Nat.lt_of_succ_lt_succ hj),
        show i + 1 + j = i + (j + 1) by omega]

/-- An entry is decoded from its slot. -/
theorem readEntries_getElem? {data : ByteBuffer} {count entrySize : Nat}
    (h : count * entrySize ≤ data.length) {j : Nat} (hj : j < count) :
    (readEntries data count entrySize)[j]? = some (readEntry data (j * entrySize)) := by
  have hread := readEntriesFrom_getElem? 0 count (by rwa [Nat.zero_add]) hj
  rwa [Nat.zero_add] at hread

/-- Only the 128 bytes of an entry are read. -/
theorem readEntry_congr {data other : ByteBuffer} {off : Nat} (hdata : off + 128 ≤ data.length)
    (hother : off + 128 ≤ other.length)
    (h : ∀ k < 128, data.getD (off + k) 0 = other.getD (off + k) 0) :
    readEntry data off = readEntry other off := by
  have h16 {k : Nat} (hk : k + 2 ≤ 128) : readLE16 data (off + k) = readLE16 other (off + k) :=
    readLE16_congr (by omega) (by omega) fun i hi => by
      rw [Nat.add_assoc]
      exact h (k + i) (by omega)
  have h32 {k : Nat} (hk : k + 4 ≤ 128) : readLE32 data (off + k) = readLE32 other (off + k) :=
    readLE32_congr (by omega) (by omega) fun i hi => by
      rw [Nat.add_assoc]
      exact h (k + i) (by omega)
  have h64 {k : Nat} (hk : k + 8 ≤ 128) : readLE64 data (off + k) = readLE64 other (off + k) :=
    readLE64_congr (by omega) (by omega) fun i hi => by
      rw [Nat.add_assoc]
      exact h (k + i) (by omega)
  have hguid {k : Nat} (hk : k + 16 ≤ 128) :
      readGuid data (off + k) = readGuid other (off + k) := by
    have harray : readArray 8 data (off + (k + 8)) = readArray 8 other (off + (k + 8)) :=
      readArray_congr fun i hi => by
        rw [Nat.add_assoc, Nat.add_assoc]
        exact h (k + (8 + i)) (by omega)
    simp only [readGuid, Nat.add_assoc, harray, h32 (k := k) (by omega),
      h16 (k := k + 4) (by omega), h16 (k := k + 6) (by omega)]
  have hwords : readWords 36 data (off + 56) = readWords 36 other (off + 56) := by
    apply Vector.ext
    intro i hi
    simp only [readWords, Vector.getElem_ofFn, Nat.add_assoc]
    exact h16 (by omega)
  have hfirst := hguid (k := 0) (by omega)
  rw [Nat.add_zero] at hfirst
  rw [readEntry, readEntry, hfirst, hguid (by omega), h64 (k := 32) (by omega),
    h64 (k := 40) (by omega), h64 (k := 48) (by omega), hwords]

theorem readEntriesFrom_congr {data other : ByteBuffer} {entrySize : Nat} (hsize : 128 ≤ entrySize)
    (i remaining : Nat) (hdata : (i + remaining) * entrySize ≤ data.length)
    (hother : (i + remaining) * entrySize ≤ other.length)
    (h : ∀ j < i + remaining, ∀ k < 128,
      data.getD (j * entrySize + k) 0 = other.getD (j * entrySize + k) 0) :
    readEntriesFrom data entrySize i remaining = readEntriesFrom other entrySize i remaining := by
  induction remaining generalizing i with
  | zero => rfl
  | succ remaining ih =>
    have hnext : i + 1 + remaining = i + (remaining + 1) := by omega
    have hle : (i + 1) * entrySize ≤ (i + (remaining + 1)) * entrySize :=
      Nat.mul_le_mul_right entrySize (by omega)
    rw [Nat.succ_mul] at hle
    rw [readEntriesFrom, readEntriesFrom, if_neg (by omega), if_neg (by omega),
      readEntry_congr (by omega) (by omega) (h i (by omega)),
      ih (i + 1) (by rwa [hnext]) (by rwa [hnext]) (by rwa [hnext])]

/-- Two buffers with the same bytes in every entry decode to the same entries. -/
theorem readEntries_congr {data other : ByteBuffer} {count entrySize : Nat}
    (hsize : 128 ≤ entrySize) (hdata : count * entrySize ≤ data.length)
    (hother : count * entrySize ≤ other.length)
    (h : ∀ j < count, ∀ k < 128,
      data.getD (j * entrySize + k) 0 = other.getD (j * entrySize + k) 0) :
    readEntries data count entrySize = readEntries other count entrySize :=
  readEntriesFrom_congr hsize 0 count (by rwa [Nat.zero_add]) (by rwa [Nat.zero_add])
    (by rwa [Nat.zero_add])

/-- Bytes past the array are not read. -/
theorem readEntries_append {data : ByteBuffer} {count entrySize : Nat} (hsize : 128 ≤ entrySize)
    (hdata : count * entrySize ≤ data.length) (rest : ByteBuffer) :
    readEntries (data ++ rest) count entrySize = readEntries data count entrySize := by
  refine readEntries_congr hsize (by rw [List.length_append]; omega) hdata fun j hj k hk => ?_
  have hle : (j + 1) * entrySize ≤ count * entrySize := Nat.mul_le_mul_right entrySize (by omega)
  rw [Nat.succ_mul] at hle
  exact List.getD_append data rest 0 _ (by omega)

end MBootCore
