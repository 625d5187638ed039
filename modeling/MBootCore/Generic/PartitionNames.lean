import MBootCore.Generic.AdapterSpec

/-!
# Generic — PartitionNames

The partition operations of `FirehoseAdapter` on a device that carries out the
commands they send. Whatever the name, the command starts at sector 0 of
physical partition 0, so all partitions are one and the same run of bytes: a
change of one is a change of every other, from the first byte on.
-/

namespace MBootCore

open FirehoseAdapter

/-- The bytes that a read or an erase of a partition is about: 16 MiB. -/
def partitionSize : Nat := 4096 * 0x1000

theorem partition_range : SectorRange.ofSectors 0 4096 0 0x1000 = ⟨0, 0, partitionSize⟩ := by
  decide

theorem readPartitionCommand_range (name : String) :
    (readPartitionCommand name).range = ⟨0, 0, partitionSize⟩ := partition_range

theorem erasePartitionCommand_range (name : String) :
    (erasePartitionCommand name).range = ⟨0, 0, partitionSize⟩ := partition_range

theorem writePartitionCommand_range (name : String) (data : ByteBuffer) :
    (writePartitionCommand name data).range
      = ⟨0, 0, 4096 * (data.length / 4096 + 1).toUInt32.toNat⟩ := by
  have hsector : UInt32.toNat 4096 = 4096 := rfl
  have hstart : UInt32.toNat 0 * 4096 = 0 := rfl
  rw [ProgramCommand.range, writePartitionCommand, SectorRange.ofSectors]
  simp only [hsector, hstart]

/-- What is done to the second partition. -/
inductive PartitionChange where
  | write (data : ByteBuffer)
  | erase
  deriving DecidableEq, Repr

namespace PartitionChange

variable {τ : Type} (io : ITransport τ) (content : τ → SectorStore) (fill : UInt8)

def run (fuel : Nat) (name : String) : PartitionChange → FirehoseAdapter.Method τ Unit
  | write data => writePartition io fuel name data
  | erase => erasePartition io name

/-- The device carries out the command of the change. -/
def CarriedOut (name : String) (l : Link τ) : PartitionChange → Prop
  | write data => Programs io content (writePartitionCommand name data) data l
  | erase => Erases io content fill (erasePartitionCommand name) l

/-- What the change puts at the start of the device. Of data too long for the
count in a command only a part has room in the sectors named. -/
def bytes : PartitionChange → ByteBuffer
  | write data => data.take (4096 * (data.length / 4096 + 1).toUInt32.toNat)
  | erase => List.replicate partitionSize fill

def order (name : String) : PartitionChange → SectorOrder
  | write data => .program (writePartitionCommand name data).range data.length
  | erase => .erase (erasePartitionCommand name).range

variable {io content fill} {fuel : Nat} {name : String} {s t : FirehoseAdapter τ}

theorem run_content {change : PartitionChange}
    (hdevice : change.CarriedOut io content fill name s.protocol.link)
    (h : change.run io fuel name s = (.ok (), t)) :
    content t.protocol.link.transport
      = (content s.protocol.link.transport).write 0 0 (change.bytes fill) := by
  cases change with
  | write data =>
    obtain ⟨resp, q, hprogram, rfl⟩ := writePartition_ok h
    have hcontent := program_content hdevice hprogram
    rwa [writePartitionCommand_range] at hcontent
  | erase =>
    obtain ⟨q, herase, rfl⟩ := erasePartition_ok h
    have hcontent := erase_content hdevice herase
    rwa [erasePartitionCommand_range] at hcontent

end PartitionChange

theorem readPartition_content {τ : Type} {io : ITransport τ} {content : τ → SectorStore}
    {fuel : Nat} {name : String} {s t : FirehoseAdapter τ} {data : ByteBuffer}
    (hdevice : Reads io content (readPartitionCommand name) s.protocol.link)
    (h : readPartition io fuel name s = (.ok data, t)) :
    data = (content s.protocol.link.transport 0).slice 0 partitionSize := by
  obtain ⟨q, hread, rfl⟩ := readPartition_ok h
  have hdata := (read_content hdevice hread).1
  rwa [readPartitionCommand_range] at hdata

/-! ## Isolation -/

/-- Data written to the partition `a` are still there after the partition `b`
is changed: on every device, in every run of the three operations in which each
returns and has its command carried out. -/
def Isolated (fill : UInt8) (a b : String) (x : ByteBuffer) (change : PartitionChange) : Prop :=
  ∀ (τ : Type) (io : ITransport τ) (content : τ → SectorStore) (fuel : Nat)
    (s s₁ s₂ s₃ : FirehoseAdapter τ) (data : ByteBuffer),
    Programs io content (writePartitionCommand a x) x s.protocol.link →
    change.CarriedOut io content fill b s₁.protocol.link →
    Reads io content (readPartitionCommand a) s₂.protocol.link →
    writePartition io fuel a x s = (.ok (), s₁) →
    change.run io fuel b s₁ = (.ok (), s₂) →
    readPartition io fuel a s₂ = (.ok data, s₃) →
    x <+: data

/-- The data fit in a read, and agree with what the change puts over them. -/
def Spared (fill : UInt8) (x : ByteBuffer) (change : PartitionChange) : Prop :=
  x.length ≤ partitionSize ∧
    ∀ i < x.length, i < (change.bytes fill).length → (change.bytes fill).getD i 0 = x.getD i 0

/-- Data that fit in a read fit in the sectors a write names. -/
theorem bytes_write {x : ByteBuffer} (fill : UInt8) (h : x.length ≤ partitionSize) :
    (PartitionChange.write x).bytes fill = x := by
  rw [partitionSize] at h
  have hcount : (x.length / 4096 + 1).toUInt32.toNat = x.length / 4096 + 1 := by
    rw [Nat.toUInt32_eq, UInt32.toNat_ofNat', Nat.mod_eq_of_lt (by omega)]
  rw [PartitionChange.bytes, hcount, List.take_of_length_le (by omega)]

/-- The store after both operations starts with the data of the first exactly
if the second spares them. -/
theorem prefix_iff_spared (store : ByteStore) (fill : UInt8) (x : ByteBuffer)
    (change : PartitionChange) :
    x <+: ((store.overlay 0 ((PartitionChange.write x).bytes fill)).overlay 0
        (change.bytes fill)).slice 0 partitionSize ↔ Spared fill x change := by
  rw [ByteStore.prefix_slice, Spared]
  refine and_congr_right fun hlength => ?_
  rw [bytes_write fill hlength]
  refine forall_congr' fun i => forall_congr' fun hi => ?_
  by_cases hover : i < (change.bytes fill).length
  · rw [Nat.zero_add, ByteStore.overlay_inside (Nat.zero_le i) (by omega), Nat.sub_zero]
    exact ⟨fun h _ => h, fun h => h hover⟩
  · rw [Nat.zero_add, ByteStore.overlay_apart (.inr (by omega)),
      ByteStore.overlay_inside (Nat.zero_le i) (by omega), Nat.sub_zero]
    exact ⟨fun _ h => absurd h hover, fun _ => rfl⟩

/-! ## A run on the virtual device -/

section Run

variable (fill : UInt8) {fuel : Nat} {s : FirehoseAdapter VirtualFlash}

/-- Ready for the commands of a plan. -/
structure Poised (s : FirehoseAdapter VirtualFlash) (plan : List SectorOrder) : Prop where
  isOpen : s.isOpen = true
  ready : s.protocol.Ready
  idle : s.protocol.link.transport.remaining = 0
  plan_eq : s.protocol.link.transport.plan = plan

/-- The bytes a change streams. -/
def PartitionChange.length : PartitionChange → Nat
  | write data => data.length
  | erase => 0

/-- A change that is next in the plan succeeds and is carried out. -/
theorem Poised.change {change : PartitionChange} {name : String} {plan : List SectorOrder}
    (h : Poised s (change.order name :: plan)) (hfuel : change.length < fuel) :
    change.CarriedOut (VirtualFlash.io VirtualFlash.follow fill) VirtualFlash.content fill name
        s.protocol.link ∧
      ∃ t, change.run (VirtualFlash.io VirtualFlash.follow fill) fuel name s = (.ok (), t) ∧
        Poised t plan := by
  have hnext : ∀ data, VirtualFlash.follow s.protocol.link.transport.plan data
      = some (change.order name) := by
    intro data
    rw [h.plan_eq]
    rfl
  have htail : s.protocol.link.transport.plan.tail = plan := by
    rw [h.plan_eq]
    rfl
  cases change with
  | write data =>
    refine ⟨VirtualFlash.programs h.idle (hnext _), ?_⟩
    obtain ⟨l, hprogram⟩ : ∃ l, FirehoseProtocol.program
        (VirtualFlash.io VirtualFlash.follow fill) fuel (writePartitionCommand name data) data
        s.protocol = _ :=
      FirehoseProtocol.program_acknowledged VirtualFlash.acknowledges _ h.ready.configured
        h.ready.engineLive (.inl h.ready.toTarget) hfuel
    obtain ⟨hidle, hplan⟩ := VirtualFlash.program_leaves h.idle (hnext _) hprogram
    exact ⟨_, writePartition_run h.isOpen hprogram, h.isOpen, h.ready.streamed l _, hidle,
      hplan.trans htail⟩
  | erase =>
    refine ⟨VirtualFlash.erases h.idle (hnext _), ?_⟩
    obtain ⟨l, hsend⟩ : ∃ l, FirehoseProtocol.sendCommandUnlessNak
        (VirtualFlash.io VirtualFlash.follow fill) (.erase (erasePartitionCommand name))
        s.protocol = _ :=
      FirehoseProtocol.sendCommandUnlessNak_acknowledged VirtualFlash.acknowledges _ h.ready.live
    have herase : FirehoseProtocol.erase (VirtualFlash.io VirtualFlash.follow fill)
        (erasePartitionCommand name) s.protocol = (.ok (), s.protocol.withLink l) :=
      Program.void_eq_ok.mpr ⟨_, hsend⟩
    obtain ⟨hidle, hplan⟩ := VirtualFlash.erase_leaves h.idle (hnext _) herase
    exact ⟨_, (erasePartition_run h.isOpen).trans (onProtocol_run herase), h.isOpen,
      h.ready.withLink l, hidle, hplan.trans htail⟩

/-- So does a read. -/
theorem Poised.read {name : String}
    (h : Poised s [.read (readPartitionCommand name).range]) (hfuel : partitionSize < fuel) :
    Reads (VirtualFlash.io VirtualFlash.follow fill) VirtualFlash.content
        (readPartitionCommand name) s.protocol.link ∧
      ∃ data t, readPartition (VirtualFlash.io VirtualFlash.follow fill) fuel name s
        = (.ok data, t) := by
  have hnext : ∀ data, VirtualFlash.follow s.protocol.link.transport.plan data
      = some (.read (readPartitionCommand name).range) := by
    intro data
    rw [h.plan_eq]
    rfl
  refine ⟨VirtualFlash.reads h.idle (hnext _), ?_⟩
  have hsize : (readPartitionCommand name).sectorSize.toNat
      * (readPartitionCommand name).numSectorSize.toNat = partitionSize :=
    congrArg SectorRange.size (readPartitionCommand_range name)
  obtain ⟨data, l, hread⟩ : ∃ data l, FirehoseProtocol.read
      (VirtualFlash.io VirtualFlash.follow fill) fuel (readPartitionCommand name) s.protocol
      = (.ok data, _) :=
    FirehoseProtocol.read_acknowledged VirtualFlash.acknowledges VirtualFlash.delivers _
      h.ready.configured h.ready.engineLive h.ready.fromTarget (by rw [hsize]; exact hfuel)
  exact ⟨data, _, (readPartition_run h.isOpen).trans (onProtocol_run hread)⟩

end Run

/-- What is read back at the end of the three operations. -/
theorem run_data {τ : Type} {io : ITransport τ} {content : τ → SectorStore} {fill : UInt8}
    {fuel : Nat} {a b : String} {x data : ByteBuffer} {change : PartitionChange}
    {s s₁ s₂ s₃ : FirehoseAdapter τ}
    (hprograms : Programs io content (writePartitionCommand a x) x s.protocol.link)
    (hchange : change.CarriedOut io content fill b s₁.protocol.link)
    (hreads : Reads io content (readPartitionCommand a) s₂.protocol.link)
    (hwrite : writePartition io fuel a x s = (.ok (), s₁))
    (hrun : change.run io fuel b s₁ = (.ok (), s₂))
    (hread : readPartition io fuel a s₂ = (.ok data, s₃)) :
    data = (((content s.protocol.link.transport 0).overlay 0
      ((PartitionChange.write x).bytes fill)).overlay 0 (change.bytes fill)).slice 0
        partitionSize := by
  have hfirst : (PartitionChange.write x).CarriedOut io content fill a s.protocol.link := hprograms
  have hcontent := PartitionChange.run_content hfirst hwrite
  rw [readPartition_content hreads hread, PartitionChange.run_content hchange hrun, hcontent,
    SectorStore.write_self, SectorStore.write_self]

/-- Data that survive on every device survive on the virtual one. -/
theorem spared_of_isolated {fill : UInt8} {a b : String} {x : ByteBuffer}
    {change : PartitionChange} : Isolated fill a b x change → Spared fill x change := by
  intro hisolated
  obtain ⟨fuel, hfuel⟩ : ∃ fuel, x.length < fuel ∧ change.length < fuel ∧ partitionSize < fuel :=
    ⟨x.length + change.length + partitionSize + 1, by omega, by omega, by omega⟩
  have hpoised : Poised (virtual (fun _ _ => 0) [(PartitionChange.write x).order a,
      change.order b, .read (readPartitionCommand a).range]) _ :=
    ⟨rfl, virtual_ready _ _, rfl, rfl⟩
  obtain ⟨hfirst, s₁, hwrite, hpoised⟩ := hpoised.change fill hfuel.1
  obtain ⟨hsecond, s₂, hrun, hpoised⟩ := hpoised.change fill hfuel.2.1
  obtain ⟨hreads, data, s₃, hread⟩ := hpoised.read fill hfuel.2.2
  have hprefix := hisolated _ _ _ _ _ _ _ _ _ hfirst hsecond hreads hwrite hrun hread
  rw [run_data hfirst hsecond hreads hwrite hrun hread] at hprefix
  exact (prefix_iff_spared _ fill x change).mp hprefix

/-- Names keep nothing apart: whatever they are, data survive a change of the
other partition exactly if the change puts the same bytes over them. -/
theorem isolated_iff (fill : UInt8) (a b : String) (x : ByteBuffer) (change : PartitionChange) :
    Isolated fill a b x change ↔ Spared fill x change := by
  constructor
  · exact spared_of_isolated
  · intro hspared τ io content fuel s s₁ s₂ s₃ data hprograms hchange hreads hwrite hrun hread
    rw [run_data hprograms hchange hreads hwrite hrun hread]
    exact (prefix_iff_spared _ fill x change).mpr hspared

/-- One byte in one partition and another byte in another. -/
theorem isolated_fails :
    ¬ ∀ (fill : UInt8) (a b : String) (x : ByteBuffer) (change : PartitionChange), a ≠ b →
        x ≠ [] → change ≠ .write [] → Isolated fill a b x change := by
  intro hall
  have hspared := spared_of_isolated
    (hall 0xFF "boot" "system" [1] (.write [2]) (by decide) (by decide) (by decide))
  exact absurd (hspared.2 0 (by decide) (by decide)) (by decide)

end MBootCore
