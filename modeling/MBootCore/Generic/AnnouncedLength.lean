import MBootCore.Generic.ByteRanges
import Mathlib

/-!
# Generic — AnnouncedLength

The writes of `FirehoseAdapter` as what they hand to the protocol: a program
command and the bytes streamed after it. The command announces whole sectors;
`writeMemory` pads its data to them, `writePartition` does not, and announces
one sector more than the data fill.
-/

namespace MBootCore

open SectorMapping (ofBytes programCommand_eq ofBytes_start)

/-- A buffer has at most `max_size()` bytes. -/
abbrev BoundedBuffer : Type := { data : ByteBuffer // data.length < 2 ^ 63 }

inductive FlashWrite where
  | memory (address : UInt64) (data : BoundedBuffer)
  | partition (name : String) (data : BoundedBuffer)

/-- `sectorSize * numSectorSize`, over the integers. -/
def ProgramCommand.announced (cmd : ProgramCommand) : Nat :=
  cmd.sectorSize.toNat * cmd.numSectorSize.toNat

namespace FlashWrite

variable {τ : Type} (io : ITransport τ) (fuel : Nat)

def run : FlashWrite → FirehoseAdapter.Method τ Unit
  | memory address data => FirehoseAdapter.writeMemory io fuel address data
  | partition name data => FirehoseAdapter.writePartition io fuel name data

/-- The program command of a write, and what is streamed after it. -/
def issued : FlashWrite → Option (ProgramCommand × ByteBuffer)
  | memory address data =>
    let sm := ofBytes address.toNat data.val.length
    if sm.tooLarge then none
    else
      (SectorMapping.safeMul sm.numSectors sm.sectorSize.toNat).map fun totalAlloc =>
        (sm.programCommand, FirehoseAdapter.alignedData totalAlloc sm.offset data)
  | partition name data => some (FirehoseAdapter.writePartitionCommand name data, data)

/-- What the command announces is what is streamed after it. -/
def Announces (w : FlashWrite) : Prop :=
  ∀ cmd payload, w.issued = some (cmd, payload) → cmd.announced = payload.length

/-- The one call of the protocol that a write makes. -/
def callIssued (w : FlashWrite) : FirehoseAdapter.Method τ Unit :=
  match w.issued with
  | none => Program.fail .invalidArgument
  | some (cmd, payload) => do
    let _ ← FirehoseAdapter.onProtocol (FirehoseProtocol.program io fuel cmd payload)
    pure ()

theorem run_eq (w : FlashWrite) :
    w.run io fuel = FirehoseAdapter.checkOpen >>= fun _ => w.callIssued io fuel := by
  cases w with
  | memory address data =>
    rw [run, FirehoseAdapter.writeMemory, FirehoseAdapter.mapRange, Program.bind_assoc]
    refine congrArg _ (funext fun _ => ?_)
    have hmap : SectorMapping.byteAddressToSectors address.toNat data.val.length 4096
        = ofBytes address.toNat data.val.length := rfl
    rw [callIssued, issued]
    by_cases hlarge : (ofBytes address.toNat data.val.length).tooLarge = true
    · simp only [hmap, if_pos hlarge]
      rfl
    · simp only [hmap, if_neg hlarge]
      have htotal := FirehoseAdapter.safeMul_numSectors address.toNat_lt
        ((Bool.not_eq_true _).mp hlarge)
      rw [htotal, Option.map_some]
      rw [Program.pure_bind, htotal]
  | partition name data => rfl

theorem announces_memory (address : UInt64) (data : BoundedBuffer) :
    (memory address data).Announces := by
  intro cmd payload hissued
  let sm := ofBytes address.toNat data.val.length
  rw [issued] at hissued
  by_cases hlarge : sm.tooLarge = true
  · rw [if_pos hlarge] at hissued
    cases hissued
  · have hsize : sm.tooLarge = false := (Bool.not_eq_true _).mp hlarge
    rw [if_neg hlarge, FirehoseAdapter.safeMul_numSectors address.toNat_lt hsize,
      Option.map_some, Option.some.injEq, Prod.mk.injEq] at hissued
    obtain ⟨rfl, rfl⟩ := hissued
    have hlength := alignedData_length (FirehoseAdapter.alignedData_sectors data.property hsize)
    rw [hlength, programCommand_eq address.toNat_lt, ProgramCommand.announced,
      SectorMapping.numSectors_toNat hsize]
    rfl

theorem not_announces_partition (name : String) (data : BoundedBuffer) :
    ¬ (partition name data).Announces := by
  intro h
  have hlength := h _ _ rfl
  have hcount : (data.val.length / 4096 + 1).toUInt32.toNat
      = (data.val.length / 4096 + 1) % 2 ^ 32 := by
    rw [Nat.toUInt32_eq, UInt32.toNat_ofNat']
  have hannounced : (FirehoseAdapter.writePartitionCommand name data).announced
      = 4096 * ((data.val.length / 4096 + 1) % 2 ^ 32) := by
    rw [ProgramCommand.announced, ← hcount]
    rfl
  omega

/-- The writes that announce what they stream are those by address. -/
theorem announces_iff (w : FlashWrite) :
    w.Announces ↔ ∃ address data, w = .memory address data := by
  constructor
  · intro h
    cases w with
    | memory address data => exact ⟨address, data, rfl⟩
    | partition name data => exact absurd h (not_announces_partition name data)
  · rintro ⟨address, data, rfl⟩
    exact announces_memory address data

/-- One byte is announced as a sector. -/
theorem announces_fails : ¬ ∀ w : FlashWrite, w.Announces := by
  intro h
  have hlength := h (partition "boot" ⟨[0xAB], by decide⟩) _ _ rfl
  exact absurd hlength (by decide)

end FlashWrite

end MBootCore
