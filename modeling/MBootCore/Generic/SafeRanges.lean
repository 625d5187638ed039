import MBootCore.Generic.AnnouncedLength

/-!
# Generic — SafeRanges

The arithmetic of the byte operations of `FirehoseAdapter`: the copies they
make between buffers, and what becomes of a range whose end does not fit. Such
a range is mapped to no sectors, which is no error by itself: it is refused
where its start is too large for a command, and sent as a command for no
sectors elsewhere.
-/

namespace MBootCore

open SectorMapping (ofBytes ofBytes_start ofBytes_room ofBytes_overflows tooLarge_eq_false)

/-- `count` bytes copied from one buffer to another. -/
structure BufferCopy where
  sourceLength : Nat
  sourceStart : Nat
  targetLength : Nat
  targetStart : Nat
  count : Nat
  deriving DecidableEq, Repr

def BufferCopy.Inside (c : BufferCopy) : Prop :=
  c.sourceStart + c.count ≤ c.sourceLength ∧ c.targetStart + c.count ≤ c.targetLength

inductive RangeOp where
  | read (address size : UInt64)
  | write (address : UInt64) (data : BoundedBuffer)
  | erase (address size : UInt64)

namespace RangeOp

def address : RangeOp → UInt64
  | read address _ => address
  | write address _ => address
  | erase address _ => address

def size : RangeOp → Nat
  | read _ size => size.toNat
  | write _ data => data.val.length
  | erase _ size => size.toNat

/-- The sectors the operation maps its range to. -/
def mapped (op : RangeOp) : SectorMapping := ofBytes op.address.toNat op.size

def run {τ : Type} (io : ITransport τ) (u : CopyPastEnd) (fuel : Nat) :
    RangeOp → FirehoseAdapter.Method τ Unit
  | read address size => Program.void (FirehoseAdapter.readMemory io u fuel address size)
  | write address data => FirehoseAdapter.writeMemory io fuel address data
  | erase address size => FirehoseAdapter.eraseMemory io address size

/-- The copies of the runs of an operation: the trim of what a device sent, and
the data copied into whole sectors. -/
inductive Copies : RangeOp → BufferCopy → Prop
  | trim {τ : Type} {io : ITransport τ} {fuel : Nat} {p q : FirehoseProtocol τ}
      {address size : UInt64} {raw : ByteBuffer}
      (accepted : (read address size).mapped.tooLarge = false)
      (received : FirehoseProtocol.read io fuel (read address size).mapped.readCommand p
        = (.ok raw, q))
      (trimmed : (read address size).mapped.offset > 0 ∨ raw.length > size.toNat) :
      Copies (read address size)
        ⟨raw.length, (read address size).mapped.offset, size.toNat, 0, size.toNat⟩
  | pad {address : UInt64} {data : BoundedBuffer} {totalAlloc : Nat}
      (accepted : (write address data).mapped.tooLarge = false)
      (allocated : SectorMapping.safeMul (write address data).mapped.numSectors
        (write address data).mapped.sectorSize.toNat = some totalAlloc) :
      Copies (write address data)
        ⟨data.val.length, 0, totalAlloc, (write address data).mapped.offset, data.val.length⟩

/-- The end of the last sector that a range up to `endByte` touches. -/
def roundedUp (endByte : Nat) : Nat := (endByte + 4095) / 4096 * 4096

def Unrepresentable (op : RangeOp) : Prop :=
  2 ^ 64 ≤ op.address.toNat + op.size ∨ 2 ^ 64 ≤ roundedUp (op.address.toNat + op.size)

/-- The copies lie inside of their buffers, and a range whose end does not fit
is refused before anything is sent. -/
structure Safe (op : RangeOp) : Prop where
  inside : ∀ c, op.Copies c → c.Inside
  refused : op.Unrepresentable → ∀ (τ : Type) (io : ITransport τ) (u : CopyPastEnd) (fuel : Nat)
    (s : FirehoseAdapter τ), ∃ e, op.run io u fuel s = (.error e, s)

/-- The end fits, or the start alone is too large for a command. -/
def Guarded : RangeOp → Prop
  | write _ _ => True
  | read address size => address.toNat + size.toNat + 4095 < 2 ^ 64 ∨ 2 ^ 44 ≤ address.toNat
  | erase address size => address.toNat + size.toNat + 4095 < 2 ^ 64 ∨ 2 ^ 44 ≤ address.toNat

theorem unrepresentable_iff {op : RangeOp} :
    op.Unrepresentable ↔ 2 ^ 64 ≤ op.address.toNat + op.size + 4095 := by
  rw [Unrepresentable, roundedUp]
  omega

theorem mapped_overflows {op : RangeOp} (h : op.Unrepresentable) :
    op.mapped = ⟨op.address.toNat / 4096, 4096, 0, op.address.toNat % 4096⟩ :=
  ofBytes_overflows op.address.toNat_lt (unrepresentable_iff.mp h)

/-- Such a range counts no sectors, so only its start can be too large. -/
theorem tooLarge_of_unrepresentable {op : RangeOp} (h : op.Unrepresentable) :
    op.mapped.tooLarge = true ↔ 2 ^ 44 ≤ op.address.toNat := by
  have hfits : op.mapped.tooLarge = false ↔ op.address.toNat < 2 ^ 44 := by
    rw [tooLarge_eq_false, mapped_overflows h]
    show op.address.toNat / 4096 ≤ 0xFFFFFFFF ∧ 0 ≤ 0xFFFFFFFF ↔ _
    omega
  rw [← Nat.not_lt, ← hfits, Bool.not_eq_false]

/-- No buffer is long enough for a write to be such a range and begin at a
sector that a command can name. -/
theorem write_tooLarge {address : UInt64} {data : BoundedBuffer}
    (h : (write address data).Unrepresentable) : (write address data).mapped.tooLarge = true := by
  have hend := unrepresentable_iff.mp h
  have hdata := data.property
  simp only [RangeOp.address, size] at hend
  refine (tooLarge_of_unrepresentable h).mpr ?_
  show 2 ^ 44 ≤ address.toNat
  omega

theorem guarded_iff {op : RangeOp} :
    op.Guarded ↔ (op.Unrepresentable → op.mapped.tooLarge = true) := by
  constructor
  · intro h hend
    cases op with
    | write address data => exact write_tooLarge hend
    | read address size =>
      refine (tooLarge_of_unrepresentable hend).mpr (h.resolve_left ?_)
      exact Nat.not_lt.mpr (unrepresentable_iff.mp hend)
    | erase address size =>
      refine (tooLarge_of_unrepresentable hend).mpr (h.resolve_left ?_)
      exact Nat.not_lt.mpr (unrepresentable_iff.mp hend)
  · intro h
    have hguarded : op.address.toNat + op.size + 4095 < 2 ^ 64 ∨ 2 ^ 44 ≤ op.address.toNat := by
      by_cases hend : op.Unrepresentable
      · exact .inr ((tooLarge_of_unrepresentable hend).mp (h hend))
      · exact .inl (Nat.not_le.mp (mt unrepresentable_iff.mpr hend))
    cases op with
    | write address data => trivial
    | read address size => exact hguarded
    | erase address size => exact hguarded

end RangeOp

/-! ## What is refused -/

namespace FirehoseAdapter

variable {τ : Type} {io : ITransport τ} {s : FirehoseAdapter τ}

/-- A range that is too large, or a closed adapter: nothing is sent. -/
theorem mapRange_refuses {address size : Nat} (h : (ofBytes address size).tooLarge = true)
    (s : FirehoseAdapter τ) : ∃ e, mapRange address size s = (.error e, s) := by
  rw [mapRange, Program.run_bind]
  rcases hcheck : checkOpen s with ⟨e | ⟨⟩, t⟩
  · have hkept : t = s := (congrArg Prod.snd hcheck).symm
    exact ⟨e, by rw [hkept]⟩
  · obtain ⟨-, rfl⟩ := checkOpen_ok hcheck
    have hlarge : (SectorMapping.byteAddressToSectors address size 4096).tooLarge = true := h
    exact ⟨.invalidArgument, by simp only [if_pos hlarge]; rfl⟩

end FirehoseAdapter

namespace RangeOp

theorem run_refuses {op : RangeOp} (h : op.mapped.tooLarge = true) {τ : Type} (io : ITransport τ)
    (u : CopyPastEnd) (fuel : Nat) (s : FirehoseAdapter τ) :
    ∃ e, op.run io u fuel s = (.error e, s) := by
  obtain ⟨e, hmap⟩ := FirehoseAdapter.mapRange_refuses h s
  refine ⟨e, ?_⟩
  cases op with
  | read address size =>
    have hread : FirehoseAdapter.readMemory io u fuel address size s = (.error e, s) :=
      Program.run_bind_error hmap
    exact Program.run_bind_error hread
  | write address data => exact Program.run_bind_error hmap
  | erase address size => exact Program.run_bind_error hmap

end RangeOp

/-! ## How much a device sends -/

/-- What was collected is what was asked for, up to the width of `size_t`. -/
theorem Link.Collected.length {τ : Type} {io : ITransport τ} {chunkSize remaining : Nat}
    {data all : ByteBuffer} {l l' : Link τ}
    (h : Link.Collected io chunkSize remaining data l l' all) (hremaining : remaining < 2 ^ 64) :
    all.length % 2 ^ 64 = (data.length + remaining) % 2 ^ 64 := by
  induction h with
  | done data l => rfl
  | chunk positive read later ih =>
    have hless : ∀ a b : Nat, sizeSub a b < 2 ^ 64 := fun a b => Nat.mod_lt _ (by decide)
    rw [ih (hless _ _), List.length_append, sizeSub]
    omega

/-- A read that returns brings at least the sectors asked for, in whatever
pieces the device sends them. -/
theorem FirehoseProtocol.read_length {τ : Type} {io : ITransport τ} {fuel : Nat}
    {cmd : ReadCommand} {p q : FirehoseProtocol τ} {raw : ByteBuffer}
    (h : FirehoseProtocol.read io fuel cmd p = (.ok raw, q)) :
    cmd.sectorSize.toNat * cmd.numSectorSize.toNat ≤ raw.length := by
  obtain ⟨-, e, hengine, -⟩ := FirehoseProtocol.read_ok h
  obtain ⟨-, resp, l₁, l, -, -, hcollected, -⟩ := FirehoseStreamEngine.streamFromDevice_ok hengine
  have htotal : cmd.sectorSize.toNat * cmd.numSectorSize.toNat < 2 ^ 64 :=
    calc cmd.sectorSize.toNat * cmd.numSectorSize.toNat
        < 2 ^ 32 * 2 ^ 32 := Nat.mul_lt_mul'' cmd.sectorSize.toNat_lt cmd.numSectorSize.toNat_lt
      _ = 2 ^ 64 := rfl
  have hlength := hcollected.length htotal
  rw [List.length_nil, Nat.zero_add, Nat.mod_eq_of_lt htotal] at hlength
  exact hlength ▸ Nat.mod_le _ _

namespace RangeOp

theorem trim_inside {τ : Type} {io : ITransport τ} {fuel : Nat} {p q : FirehoseProtocol τ}
    {address size : UInt64} {raw : ByteBuffer}
    (haccepted : (ofBytes address.toNat size.toNat).tooLarge = false)
    (hfits : address.toNat + size.toNat + 4095 < 2 ^ 64)
    (hreceived : FirehoseProtocol.read io fuel (ofBytes address.toNat size.toNat).readCommand p
      = (.ok raw, q)) :
    (ofBytes address.toNat size.toNat).offset + size.toNat ≤ raw.length := by
  have hlength := FirehoseProtocol.read_length hreceived
  rw [SectorMapping.readCommand_eq address.toNat_lt] at hlength
  have hsectors : 4096 * (ofBytes address.toNat size.toNat).numSectors ≤ raw.length := by
    rw [← SectorMapping.numSectors_toNat haccepted]
    exact hlength
  rw [(ofBytes_start address.toNat_lt).2.2]
  exact (ofBytes_room hfits).trans hsectors

theorem copies_inside {op : RangeOp} (hguarded : op.Guarded) {c : BufferCopy} (h : op.Copies c) :
    c.Inside := by
  cases h with
  | trim accepted received trimmed =>
    have hfits := hguarded.resolve_right fun hlarge => ?_
    · exact ⟨trim_inside accepted hfits received, Nat.le_of_eq (Nat.zero_add _)⟩
    · have hstart := (tooLarge_eq_false.mp accepted).1
      rw [mapped, (ofBytes_start (UInt64.toNat_lt _)).1] at hstart
      simp only [RangeOp.address] at hstart
      omega
  | @pad address data totalAlloc accepted allocated =>
    rw [mapped, FirehoseAdapter.safeMul_numSectors (UInt64.toNat_lt _) accepted] at allocated
    obtain rfl := Option.some.inj allocated
    have hroom := FirehoseAdapter.alignedData_sectors data.property accepted
    exact ⟨Nat.le_of_eq (Nat.zero_add _), hroom⟩

/-- Where the copies lie inside of their buffers, a read does not depend on
what the language leaves undefined. -/
theorem readMemory_defined {address size : UInt64}
    (h : ∀ c, (read address size).Copies c → c.Inside) {τ : Type} (io : ITransport τ)
    (u v : CopyPastEnd) (fuel : Nat) :
    FirehoseAdapter.readMemory io u fuel address size
      = FirehoseAdapter.readMemory io v fuel address size := by
  funext s
  rw [FirehoseAdapter.readMemory, FirehoseAdapter.readMemory, Program.run_bind, Program.run_bind]
  rcases hmap : FirehoseAdapter.mapRange address.toNat size.toNat s with ⟨e | sm, s₁⟩
  · rfl
  · obtain ⟨rfl, haccepted, rfl⟩ := FirehoseAdapter.mapRange_ok hmap
    simp only [Program.run_bind]
    rcases hread : FirehoseAdapter.onProtocol (FirehoseProtocol.read io fuel
        (ofBytes address.toNat size.toNat).readCommand) s with ⟨e | raw, s₂⟩
    · rfl
    · by_cases htrim : (ofBytes address.toNat size.toNat).offset > 0 ∨ raw.length > size.toNat
      · obtain ⟨q, hreceived, -⟩ := FirehoseAdapter.onProtocol_ok hread
        have hinside : (ofBytes address.toNat size.toNat).offset + size.toNat ≤ raw.length :=
          (h _ (.trim haccepted hreceived htrim)).1
        simp only [if_pos htrim]
        rw [copyRange, copyRange, if_pos hinside, if_pos hinside]
      · simp only [if_neg htrim]

/-! ## What is sent for no sectors -/

/-- An acknowledging device takes a read or an erase that is not refused. -/
theorem run_accepted {op : RangeOp} (h : op.mapped.tooLarge = false) :
    ∃ (u : CopyPastEnd) (fuel : Nat) (t : FirehoseAdapter VirtualFlash),
      op.run (VirtualFlash.io VirtualFlash.hear 0xFF) u fuel
        (FirehoseAdapter.virtual (fun _ _ => 0xFF) []) = (.ok (), t) := by
  have hready := FirehoseAdapter.virtual_ready (fun _ _ => 0xFF) []
  cases op with
  | read address size =>
    obtain ⟨all, l, hread⟩ : ∃ all l, FirehoseProtocol.read
        (VirtualFlash.io VirtualFlash.hear 0xFF) _ (ofBytes address.toNat size.toNat).readCommand
        (FirehoseAdapter.virtual (fun _ _ => 0xFF) []).protocol = (.ok all, _) :=
      FirehoseProtocol.read_acknowledged VirtualFlash.acknowledges VirtualFlash.delivers _ rfl rfl
        hready.fromTarget (Nat.lt_succ_self _)
    obtain ⟨data, hrun⟩ := FirehoseAdapter.readMemory_run (u := fun _ _ _ => []) rfl h hread
    exact ⟨_, _, _, Program.void_eq_ok.mpr ⟨data, hrun⟩⟩
  | write address data =>
    obtain ⟨l, hprogram⟩ : ∃ l, FirehoseProtocol.program
        (VirtualFlash.io VirtualFlash.hear 0xFF) _
        (ofBytes address.toNat data.val.length).programCommand
        (FirehoseAdapter.alignedData (4096 * (ofBytes address.toNat data.val.length).numSectors)
          (ofBytes address.toNat data.val.length).offset data.val)
        (FirehoseAdapter.virtual (fun _ _ => 0xFF) []).protocol = _ :=
      FirehoseProtocol.program_acknowledged VirtualFlash.acknowledges _ rfl rfl
        (.inl hready.toTarget) (Nat.lt_succ_self _)
    exact ⟨fun _ _ _ => [], _, _, FirehoseAdapter.writeMemory_run rfl h hprogram⟩
  | erase address size =>
    obtain ⟨l, hsend⟩ : ∃ l, FirehoseProtocol.sendCommandUnlessNak
        (VirtualFlash.io VirtualFlash.hear 0xFF)
        (.erase (ofBytes address.toNat size.toNat).eraseCommand)
        (FirehoseAdapter.virtual (fun _ _ => 0xFF) []).protocol = _ :=
      FirehoseProtocol.sendCommandUnlessNak_acknowledged VirtualFlash.acknowledges _ rfl
    have herase : FirehoseProtocol.erase (VirtualFlash.io VirtualFlash.hear 0xFF)
        (ofBytes address.toNat size.toNat).eraseCommand _ = (.ok (), _) :=
      Program.void_eq_ok.mpr ⟨_, hsend⟩
    exact ⟨fun _ _ _ => [], 0, _, FirehoseAdapter.eraseMemory_run rfl h herase⟩

/-- The arithmetic of an operation is safe exactly where a range that does not
fit also starts too far for a command. -/
theorem safe_iff (op : RangeOp) : op.Safe ↔ op.Guarded := by
  constructor
  · intro hsafe
    refine guarded_iff.mpr fun hend => ?_
    by_contra hlarge
    obtain ⟨u, fuel, t, hrun⟩ := run_accepted ((Bool.not_eq_true _).mp hlarge)
    obtain ⟨e, hrefused⟩ := hsafe.refused hend _ _ u fuel _
    rw [hrun] at hrefused
    cases hrefused
  · intro hguarded
    refine ⟨fun c hcopy => copies_inside hguarded hcopy, ?_⟩
    intro hend τ io u fuel s
    exact run_refuses (guarded_iff.mp hguarded hend) io u fuel s

/-- An erase of 2^64 - 1 bytes from address 1 on is sent as one of no sectors. -/
theorem safe_fails : ¬ ∀ op : RangeOp, op.Safe := by
  intro h
  have hend : (erase 1 0xFFFFFFFFFFFFFFFF).Unrepresentable := .inl (by decide)
  have haccepted : (erase 1 0xFFFFFFFFFFFFFFFF).mapped.tooLarge = false := by decide
  obtain ⟨u, fuel, t, hrun⟩ := run_accepted haccepted
  obtain ⟨e, hrefused⟩ := (h (erase 1 0xFFFFFFFFFFFFFFFF)).refused hend _ _ u fuel _
  rw [hrun] at hrefused
  cases hrefused

end RangeOp

end MBootCore
