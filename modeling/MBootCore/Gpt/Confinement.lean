import MBootCore.Gpt.ManagerFrame
import MBootCore.Gpt.MockDisk

/-!
# GPT — Confinement

Where the data methods of the manager reach. The offset of a partition comes
from the manager's layout and its length from the entry alone, in sectors of
512 bytes; an offset that overflows becomes 0, and the access is made all the
same. `confined_iff` compares that with the bytes the entry covers on the
disk the table was parsed from.
-/

namespace MBootCore

namespace FlashAccess

def address : FlashAccess → Nat
  | read address _ => address.toNat
  | write address _ => address.toNat
  | erase address _ => address.toNat

def size : FlashAccess → Nat
  | read _ size => size.toNat
  | write _ data => data.length
  | erase _ size => size.toNat

end FlashAccess

namespace PartitionEntry

/-- The entry's first and last byte have 64-bit addresses. -/
def Representable (entry : PartitionEntry) (sectorSize : Nat) : Prop :=
  entry.firstLBA.toNat * sectorSize < 2 ^ 64 ∧ (entry.lastLBA.toNat + 1) * sectorSize ≤ 2 ^ 64

instance (entry : PartitionEntry) (sectorSize : Nat) :
    Decidable (entry.Representable sectorSize) :=
  inferInstanceAs (Decidable (_ ∧ _))

/-- Every byte of the access is one of the entry's, over the naturals. -/
def Covers (entry : PartitionEntry) (sectorSize : Nat) (a : FlashAccess) : Prop :=
  ∀ b, a.address ≤ b → b < a.address + a.size →
    entry.firstLBA.toNat * sectorSize ≤ b ∧ b < (entry.lastLBA.toNat + 1) * sectorSize

end PartitionEntry

namespace PartitionManager

variable {σ : Type} {env : GPTEnv} {dev : FlashDevice σ}

/-- The partition a data method works on. -/
def Call.partition : Call → Option ByteBuffer
  | .readPartition name => some name
  | .writePartition name _ => some name
  | .erasePartition name => some name
  | .trimPartition name => some name
  | _ => none

/-- What a data method asks of the device, if anything. -/
def Call.request (info : PartitionInfo) : Call → Option FlashAccess
  | .readPartition _ => some (.read info.byteOffset info.byteLength)
  | .writePartition _ data =>
    if data.length > info.byteLength.toNat then none else some (.write info.byteOffset data)
  | .erasePartition _ => some (.erase info.byteOffset info.byteLength)
  | .trimPartition _ => some (.erase info.byteOffset info.byteLength)
  | _ => none

/-- The number of bytes a data method wants to reach. -/
def Call.length (entry : PartitionEntry) : Call → Nat
  | .writePartition _ data => data.length
  | _ => entry.sizeInBytes.toNat

/-- The accesses of a call, apart from those of the parser. -/
def Record.accessed (r : Record σ) : List FlashAccess :=
  r.after.accesses.drop r.before.accesses.length

/-- The lookup of `name` succeeds with `entry`. -/
def Matches (env : GPTEnv) (dev : FlashDevice σ) (name : ByteBuffer) (m : PartitionManager σ)
    (entry : PartitionEntry) : Prop :=
  (findByName env dev name m).1.isOk = true ∧
    (findByName env dev name m).2.table.entries.find? (hasName name) = some entry

instance (name : ByteBuffer) (m : PartitionManager σ) (entry : PartitionEntry) :
    Decidable (Matches env dev name m entry) :=
  inferInstanceAs (Decidable (_ ∧ _))

/-- The sector size of the table. -/
def Record.sectorSize (r : Record σ) : Nat := r.after.table.sectorSize.toNat

/-- Every access is within the entry; a range without 64-bit addresses is an
error and no access. -/
structure Record.Confined (r : Record σ) (entry : PartitionEntry) : Prop where
  within : ∀ a ∈ r.accessed, entry.Covers r.sectorSize a
  refused : ¬ entry.Representable r.sectorSize → r.accessed = [] ∧ ∃ e, r.result = .error e

/-- The data is refused as too large, or the range is representable and the
length asked for is at most the length of the range. -/
def Record.Fits (r : Record σ) (entry : PartitionEntry) : Prop :=
  (∃ name data, r.call = .writePartition name data ∧
      data.length > entry.sizeInBytes.toNat) ∨
    (entry.Representable r.sectorSize ∧
      r.call.length entry ≤ (entry.lastLBA.toNat + 1 - entry.firstLBA.toNat) * r.sectorSize)

/-! ## Lookups -/

theorem findEntry_ok {accept : PartitionEntry → Bool} {m m' : PartitionManager σ}
    {info : PartitionInfo} (h : findEntry env dev accept m = (.ok info, m')) :
    ∃ entry, m'.table.entries.find? accept = some entry ∧ info = entryToInfo m'.layout entry ∧
      loadIfEmpty env dev m = (.ok (), m') := by
  obtain ⟨⟨⟩, m₁, hload, hgets⟩ := Program.bind_eq_ok.mp h
  obtain ⟨found, m₂, hfound, hmatch⟩ := Program.bind_eq_ok.mp hgets
  obtain ⟨rfl, rfl⟩ : (m₁.table.entries.find? accept).map (entryToInfo m₁.layout) = found ∧
      m₁ = m₂ := by
    simpa using hfound
  rcases hentry : m₁.table.entries.find? accept with _ | entry
  · rw [hentry] at hmatch
    cases hmatch
  · rw [hentry] at hmatch
    obtain ⟨rfl, rfl⟩ : entryToInfo m₁.layout entry = info ∧ m₁ = m' := by
      simpa using hmatch
    exact ⟨entry, hentry, rfl, hload⟩

theorem findByName_accesses (env : GPTEnv) (dev : FlashDevice σ) (name : ByteBuffer)
    (m : PartitionManager σ) :
    (findByName env dev name m).2.accesses = m.accesses := by
  have h := findEntry_beyondTable env dev (hasName name) m
  simp only [beyondTable, Prod.mk.injEq] at h
  exact h.2.1

/-- A table that was just loaded has the sector size of the manager's layout. -/
theorem refreshTable_sectorSize {m m' : PartitionManager σ} {table : GPTTable}
    (h : refreshTable env dev m = (.ok table, m')) (hentries : m'.table.entries ≠ []) :
    m'.layout.sectorSize = m'.table.sectorSize := by
  obtain ⟨⟨⟩, m₁, -, hparse⟩ := Program.bind_eq_ok.mp h
  obtain ⟨result, m₂, hresult, hstore⟩ := Program.bind_eq_ok.mp hparse
  obtain ⟨⟨⟩, m₃, hmodify, hreturn⟩ := Program.bind_eq_ok.mp hstore
  obtain rfl : { m₂ with table := result.table, layout := m₂.parser.layout } = m₃ :=
    congrArg Prod.snd hmodify
  have hm' : { m₂ with table := result.table, layout := m₂.parser.layout } = m' := by
    rcases herrors : result.errors with _ | ⟨error, errors⟩
    · rw [herrors] at hreturn
      exact congrArg Prod.snd hreturn
    · rw [herrors] at hreturn
      cases hreturn
  subst hm'
  rcases hrun : GPTParser.parse env dev (m₁.device, m₁.parser) with ⟨outcome, s'⟩
  rw [onParser, Program.run_zoom, hrun, Prod.mk.injEq] at hresult
  obtain ⟨rfl, rfl⟩ := hresult
  exact (GPTParser.parse_sectorSize hrun hentries).symm

theorem loadIfEmpty_sectorSize {m m' : PartitionManager σ}
    (h : loadIfEmpty env dev m = (.ok (), m'))
    (hbefore : m.table.entries ≠ [] → m.layout.sectorSize = m.table.sectorSize)
    (hentries : m'.table.entries ≠ []) : m'.layout.sectorSize = m'.table.sectorSize := by
  obtain ⟨entries, m₁, hgets, hload⟩ := Program.bind_eq_ok.mp h
  cases hgets
  split at hload
  · obtain ⟨table, m₂, hrefresh, hreturn⟩ := Program.bind_eq_ok.mp hload
    cases hreturn
    exact refreshTable_sectorSize hrefresh hentries
  · rename_i hne
    cases hload
    exact hbefore hne

/-! ## Data methods -/

theorem access_run (a : FlashAccess) {α : Type} (p : Program σ ErrorCode α)
    (m : PartitionManager σ) :
    access a p m = ((p m.device).1,
      { m with accesses := m.accesses ++ [a], device := (p m.device).2 }) := rfl

/-- A data method makes its one request after the lookup, or none and fails. -/
theorem data_run {call : Call} {name : ByteBuffer} {m m₁ : PartitionManager σ}
    {info : PartitionInfo} (hcall : call.partition = some name)
    (hfind : findByName env dev name m = (.ok info, m₁)) :
    (run env dev call m).2.accesses = m₁.accesses ++ (call.request info).toList ∧
      (run env dev call m).2.table = m₁.table ∧ (run env dev call m).2.layout = m₁.layout ∧
      (call.request info = none → (run env dev call m).1 = .error .imageTooLarge) := by
  cases call with
  | readPartition name' =>
    obtain rfl : name' = name := by simpa [Call.partition] using hcall
    have hrun := Program.run_void_state (readPartition env dev name') m
    rw [readPartition, Program.run_bind_ok hfind, access_run] at hrun
    simp only [run, readPartition]
    rw [hrun]
    exact ⟨rfl, rfl, rfl, fun h => by cases h⟩
  | writePartition name' data =>
    obtain rfl : name' = name := by simpa [Call.partition] using hcall
    simp only [run, writePartition, Call.request]
    rw [Program.run_bind_ok hfind]
    split
    · exact ⟨by simp, rfl, rfl, fun _ => rfl⟩
    · rw [access_run]
      exact ⟨rfl, rfl, rfl, fun h => by cases h⟩
  | erasePartition name' =>
    obtain rfl : name' = name := by simpa [Call.partition] using hcall
    simp only [run, erasePartition, Call.request]
    rw [Program.run_bind_ok hfind, access_run]
    exact ⟨rfl, rfl, rfl, fun h => by cases h⟩
  | trimPartition name' =>
    obtain rfl : name' = name := by simpa [Call.partition] using hcall
    simp only [run, trimPartition, Call.request]
    rw [Program.run_bind_ok hfind, access_run]
    exact ⟨rfl, rfl, rfl, fun h => by cases h⟩
  | _ => cases hcall

/-- A lookup that fails ends the call. -/
theorem data_run_failed {call : Call} {name : ByteBuffer} {m m₁ : PartitionManager σ}
    {e : ErrorCode} (hcall : call.partition = some name)
    (hfind : findByName env dev name m = (.error e, m₁)) : run env dev call m = (.error e, m₁) := by
  cases call with
  | readPartition name' =>
    obtain rfl : name' = name := by simpa [Call.partition] using hcall
    exact Program.run_bind_error (Program.run_bind_error hfind)
  | writePartition name' data | erasePartition name' | trimPartition name' =>
    obtain rfl : name' = name := by simpa [Call.partition] using hcall
    exact Program.run_bind_error hfind
  | _ => cases hcall

/-! ## Requests -/

/-- The request has the length the call wants. -/
theorem request_some {call : Call} {layout : GPTLayout} {entry : PartitionEntry}
    {a : FlashAccess} (h : call.request (entryToInfo layout entry) = some a) :
    a.address = (entryToInfo layout entry).byteOffset.toNat ∧ a.size = call.length entry := by
  cases call with
  | readPartition name | erasePartition name | trimPartition name =>
    obtain rfl := Option.some.inj h
    exact ⟨rfl, rfl⟩
  | writePartition name data =>
    simp only [Call.request] at h
    split at h
    · cases h
    · obtain rfl := Option.some.inj h
      exact ⟨rfl, rfl⟩
  | _ => cases h

theorem request_none_iff {call : Call} {name : ByteBuffer} (hcall : call.partition = some name)
    (layout : GPTLayout) {entry : PartitionEntry} :
    call.request (entryToInfo layout entry) = none ↔
      ∃ name data, call = .writePartition name data ∧
        data.length > entry.sizeInBytes.toNat := by
  cases call with
  | readPartition name' | erasePartition name' | trimPartition name' =>
    exact iff_of_false (fun h => by cases h) fun ⟨_, _, h, _⟩ => by cases h
  | writePartition name' data =>
    have hlength : (entryToInfo layout entry).byteLength = entry.sizeInBytes := rfl
    simp only [Call.request, hlength]
    split
    · rename_i hlarge
      exact iff_of_true rfl ⟨name', data, rfl, hlarge⟩
    · rename_i hfits
      refine iff_of_false (fun h => by cases h) ?_
      rintro ⟨_, _, heq, hlarge⟩
      obtain ⟨-, rfl⟩ := Call.writePartition.inj heq
      exact hfits hlarge
  | _ => cases hcall

theorem byteOffset_eq {layout : GPTLayout} {entry : PartitionEntry}
    (h : entry.firstLBA.toNat * layout.sectorSize.toNat < 2 ^ 64) :
    (entryToInfo layout entry).byteOffset.toNat
      = entry.firstLBA.toNat * layout.sectorSize.toNat := by
  simp only [entryToInfo]
  rcases hmul : safeMul entry.firstLBA layout.sectorSize.toUInt64 with _ | offset
  · rw [safeMul_eq_none, UInt32.toNat_toUInt64] at hmul
    omega
  · rw [safeMul_eq_some, UInt32.toNat_toUInt64] at hmul
    exact hmul

/-- An access from the entry's first byte on is covered while it is no longer
than the entry. -/
theorem covers_iff {entry : PartitionEntry} {sectorSize : Nat} {a : FlashAccess}
    (h : a.address = entry.firstLBA.toNat * sectorSize) :
    entry.Covers sectorSize a ↔
      a.size ≤ (entry.lastLBA.toNat + 1 - entry.firstLBA.toNat) * sectorSize := by
  rw [Nat.sub_mul, PartitionEntry.Covers, h]
  constructor
  · intro hcovers
    by_cases hsize : a.size = 0
    · omega
    · have hlast := hcovers (entry.firstLBA.toNat * sectorSize + a.size - 1) (by omega) (by omega)
      omega
  · intro hsize b hlo hhi
    omega

/-! ## Confinement -/

/-- In any run, on any device: where the sector size of the manager's layout
is that of the table it holds, a data method is confined to the entry it
looks up exactly when its request fits it. -/
theorem confined_iff (device : σ) (events : List (Event σ)) {r : Record σ}
    (hr : r ∈ records env dev events (create dev device)) {name : ByteBuffer}
    (hcall : r.call.partition = some name) {entry : PartitionEntry}
    (hmatch : Matches env dev name r.before entry)
    (hlayout : r.before.table.entries ≠ [] →
      r.before.layout.sectorSize = r.before.table.sectorSize) :
    r.Confined entry ↔ r.Fits entry := by
  rcases hfind : findByName env dev name r.before with ⟨e | info, m₁⟩
  · rw [Matches, hfind] at hmatch
    cases hmatch.1
  -- the matched entry is the one the lookup's info is of
  obtain ⟨entry', hentry', hinfo, hload⟩ := findEntry_ok hfind
  obtain rfl : entry' = entry := by
    rw [Matches, hfind, hentry'] at hmatch
    exact Option.some.inj hmatch.2
  have hagree : m₁.layout.sectorSize = m₁.table.sectorSize := by
    refine loadIfEmpty_sectorSize hload hlayout fun hempty => ?_
    rw [hempty] at hentry'
    cases hentry'
  have haccesses : m₁.accesses = r.before.accesses := by
    rw [← findByName_accesses env dev name r.before, hfind]
  have hrun := records_run hr
  obtain ⟨hafter, htable, -, hfailed⟩ := data_run hcall hfind
  rw [hrun] at hafter htable hfailed
  have haccessed : r.accessed = (r.call.request info).toList := by
    rw [Record.accessed, hafter, haccesses, List.drop_left]
  subst hinfo
  rcases hrequest : r.call.request (entryToInfo m₁.layout entry') with _ | a
  · -- refused as too large
    rw [hrequest, Option.toList_none] at haccessed
    refine iff_of_true ⟨?_, fun _ => ⟨haccessed, _, hfailed hrequest⟩⟩
      (.inl ((request_none_iff hcall _).mp hrequest))
    rw [haccessed]
    simp
  · rw [hrequest, Option.toList_some] at haccessed
    have hnotLarge : ¬ ∃ name data, r.call = .writePartition name data ∧
        data.length > entry'.sizeInBytes.toNat := by
      rw [← request_none_iff hcall m₁.layout, hrequest]
      exact Option.some_ne_none a
    obtain ⟨haddress, hsize⟩ := request_some hrequest
    have hsector : m₁.layout.sectorSize.toNat = r.sectorSize := by
      rw [hagree, ← htable]
      rfl
    rw [Record.Fits, or_iff_right hnotLarge, ← hsize]
    by_cases hrep : entry'.Representable r.sectorSize
    · rw [byteOffset_eq (by rw [hsector]; exact hrep.1), hsector] at haddress
      rw [and_iff_right hrep, ← covers_iff haddress]
      constructor
      · exact fun h => h.within a (by simp [haccessed])
      · intro h
        refine ⟨fun a' ha' => ?_, fun hnot => absurd hrep hnot⟩
        rw [haccessed, List.mem_singleton] at ha'
        exact ha' ▸ h
    · -- the access is made although the range has no addresses
      refine iff_of_false (fun h => ?_) fun h => hrep h.1
      have hnone := (h.refused hrep).1
      rw [haccessed] at hnone
      cases hnone

/-- A data method whose lookup fails makes no access and fails. -/
theorem unmatched_accesses {r : Record σ} (hrun : run env dev r.call r.before = (r.result, r.after))
    {name : ByteBuffer} (hcall : r.call.partition = some name)
    (hfind : (findByName env dev name r.before).1.isOk = false) :
    r.accessed = [] ∧ ∃ e, r.result = .error e := by
  rcases hfound : findByName env dev name r.before with ⟨e | info, m₁⟩
  · rw [data_run_failed hcall hfound, Prod.mk.injEq] at hrun
    have haccesses := findByName_accesses env dev name r.before
    rw [hfound, hrun.2] at haccesses
    exact ⟨by rw [Record.accessed, haccesses, List.drop_length], e, hrun.1.symm⟩
  · rw [hfound] at hfind
    cases hfind

theorem readPartition_boot :
    ∃ r ∈ records zlibEnv (MockFlashDevice.device fiveSectors)
        [.call (.readPartition bootName)]
        (create (MockFlashDevice.device fiveSectors) lostPrimaryDisk),
      r.accessed ≠ [] ∧ r.Confined bootEntry := by
  have hfacts : ∀ r ∈ records zlibEnv (MockFlashDevice.device fiveSectors)
      [.call (.readPartition bootName)]
      (create (MockFlashDevice.device fiveSectors) lostPrimaryDisk),
      r.accessed ≠ [] ∧ r.call.partition = some bootName ∧
        Matches zlibEnv (MockFlashDevice.device fiveSectors) bootName r.before bootEntry ∧
        r.before.layout.sectorSize = r.before.table.sectorSize ∧
        bootEntry.Representable r.sectorSize ∧
        r.call.length bootEntry
          ≤ (bootEntry.lastLBA.toNat + 1 - bootEntry.firstLBA.toNat) * r.sectorSize := by
    decide +kernel
  obtain ⟨r, hr⟩ := List.exists_mem_of_ne_nil (records zlibEnv (MockFlashDevice.device fiveSectors)
      [.call (.readPartition bootName)]
      (create (MockFlashDevice.device fiveSectors) lostPrimaryDisk)) (List.cons_ne_nil _ _)
  obtain ⟨haccessed, hcall, hmatch, hlayout, hrep, hlength⟩ := hfacts r hr
  exact ⟨r, hr, haccessed,
    (confined_iff _ _ hr hcall hmatch fun _ => hlayout).mpr (.inr ⟨hrep, hlength⟩)⟩

/-- An entry whose byte range has no 64-bit addresses. -/
def farEntry : PartitionEntry :=
  { bootEntry with firstLBA := 0x8000000000000000, lastLBA := 0x8000000000000064 }

/-- Writing to it writes to the first sector of the disk. -/
theorem writePartition_farEntry :
    ∃ r ∈ records zlibEnv (MockFlashDevice.device fiveSectors)
        [.call (.writePartition bootName [1])]
        (create (MockFlashDevice.device fiveSectors)
          (MockFlashDevice.putCopy zlibEnv [farEntry] 4 3 {})),
      Matches zlibEnv (MockFlashDevice.device fiveSectors) bootName r.before farEntry ∧
        ¬ farEntry.Representable r.sectorSize ∧ r.accessed = [.write 0 [1]] ∧
        r.result.isOk = true ∧ ¬ r.Confined farEntry := by
  have hfacts : ∃ r ∈ records zlibEnv (MockFlashDevice.device fiveSectors)
      [.call (.writePartition bootName [1])]
      (create (MockFlashDevice.device fiveSectors)
        (MockFlashDevice.putCopy zlibEnv [farEntry] 4 3 {})),
      Matches zlibEnv (MockFlashDevice.device fiveSectors) bootName r.before farEntry ∧
        ¬ farEntry.Representable r.sectorSize ∧ r.accessed = [.write 0 [1]] ∧
        r.result.isOk = true := by
    decide +kernel
  obtain ⟨r, hr, hmatch, hrep, haccessed, hok⟩ := hfacts
  refine ⟨r, hr, hmatch, hrep, haccessed, hok, fun h => ?_⟩
  have hnone := (h.refused hrep).1
  rw [haccessed] at hnone
  cases hnone

end PartitionManager

end MBootCore
