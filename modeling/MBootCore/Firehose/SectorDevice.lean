import MBootCore.Firehose.ProtocolSpec
import MBootCore.Support.ByteStore

/-!
# Firehose — SectorDevice

What it means that a device carries out a program, read or erase command on
the sectors the command names. The content of a device is a byte store for
every physical partition; nothing else of its state is looked at. A device is
only asked to carry out a command where it is between commands, so the
statements are about one command at one link.
-/

namespace MBootCore

abbrev SectorStore : Type := UInt32 → ByteStore

namespace SectorStore

def write (store : SectorStore) (physicalPartition : UInt32) (address : Nat) (data : ByteBuffer) :
    SectorStore := fun p =>
  if p = physicalPartition then (store p).overlay address data else store p

@[simp] theorem write_self (store : SectorStore) (p : UInt32) (address : Nat) (data : ByteBuffer) :
    store.write p address data p = (store p).overlay address data :=
  if_pos rfl

theorem write_other (store : SectorStore) {p q : UInt32} (h : q ≠ p) (address : Nat)
    (data : ByteBuffer) : store.write p address data q = store q :=
  if_neg h

@[simp] theorem write_nil (store : SectorStore) (p : UInt32) (address : Nat) :
    store.write p address [] = store := by
  funext q
  by_cases hq : q = p
  · subst hq
    rw [write_self, ByteStore.overlay_nil]
  · rw [write_other _ hq]

theorem write_append (store : SectorStore) (p : UInt32) (address : Nat) (xs ys : ByteBuffer) :
    (store.write p address xs).write p (address + xs.length) ys
      = store.write p address (xs ++ ys) := by
  funext q
  by_cases hq : q = p
  · subst hq
    rw [write_self, write_self, write_self, ByteStore.overlay_append]
  · rw [write_other _ hq, write_other _ hq, write_other _ hq]

/-- Two writes in a row of which only the first `room` bytes are kept. -/
theorem write_take_append (store : SectorStore) (p : UInt32) (address room : Nat)
    (xs ys : ByteBuffer) :
    (store.write p address (xs.take room)).write p (address + xs.length)
        (ys.take (room - xs.length)) = store.write p address ((xs ++ ys).take room) := by
  rw [List.take_append]
  by_cases hroom : room ≤ xs.length
  · rw [Nat.sub_eq_zero_of_le hroom, List.take_zero, write_nil, List.append_nil]
  · rw [List.take_of_length_le (by omega), write_append]

end SectorStore

/-! ## Ranges of sectors -/

/-- The bytes of a range of sectors. -/
structure SectorRange where
  physicalPartition : UInt32
  start : Nat
  size : Nat
  deriving DecidableEq, Repr

def SectorRange.ofSectors (physicalPartition sectorSize startSector numSectors : UInt32) :
    SectorRange where
  physicalPartition := physicalPartition
  start := startSector.toNat * sectorSize.toNat
  size := sectorSize.toNat * numSectors.toNat

def ProgramCommand.range (cmd : ProgramCommand) : SectorRange :=
  .ofSectors cmd.physicalPartition cmd.sectorSize cmd.startSector cmd.numSectorSize

def ReadCommand.range (cmd : ReadCommand) : SectorRange :=
  .ofSectors cmd.physicalPartition cmd.sectorSize cmd.startSector cmd.numSectorSize

def EraseCommand.range (cmd : EraseCommand) : SectorRange :=
  .ofSectors cmd.physicalPartition cmd.sectorSize cmd.startSector cmd.numSectorSize

namespace SectorStore

/-- The stored bytes of a range. -/
def sectors (store : SectorStore) (range : SectorRange) : ByteBuffer :=
  (store range.physicalPartition).slice range.start range.size

/-- A range with every byte set to `fill`. -/
def erase (store : SectorStore) (fill : UInt8) (range : SectorRange) : SectorStore :=
  store.write range.physicalPartition range.start (List.replicate range.size fill)

/-- Every byte is as it was or as it is meant to be. -/
def Between (before after store : SectorStore) : Prop :=
  ∀ p i, store p i = before p i ∨ store p i = after p i

theorem Between.before (before after : SectorStore) : Between before after before :=
  fun _ _ => .inl rfl

theorem Between.after (before after : SectorStore) : Between before after after :=
  fun _ _ => .inr rfl

end SectorStore

/-! ## Commands carried out -/

section Device

variable {τ : Type} (io : ITransport τ) (content : τ → SectorStore)

/-- The data streamed after the command is stored from the start sector on, as
far as the sectors go that the command names. -/
def Programs (cmd : ProgramCommand) (data : ByteBuffer) (l : Link τ) : Prop :=
  ∀ chunkSize n l₁ l',
    Link.write io (wireText (FirehoseCommand.program cmd).serialize) l = (.ok n, l₁) →
    Link.Streamed io chunkSize data l₁ l' →
    content l'.transport = (content l.transport).write cmd.physicalPartition cmd.range.start
      (data.take cmd.range.size)

/-- The data streamed after a command that was not refused is what the sectors
hold. -/
def Reads (cmd : ReadCommand) (l : Link τ) : Prop :=
  ∀ chunkSize resp l₁ l' data,
    Link.Asked io (wireText (FirehoseCommand.read cmd).serialize) l l₁ resp →
    resp.isNak = false →
    Link.Collected io chunkSize cmd.range.size [] l₁ l' data →
    data = (content l.transport).sectors cmd.range ∧ content l'.transport = content l.transport

/-- A command that was not refused has erased the sectors it names; one that
failed may have erased some of their bytes. -/
structure Erases (fill : UInt8) (cmd : EraseCommand) (l : Link τ) : Prop where
  sent : SectorStore.Between (content l.transport)
    ((content l.transport).erase fill cmd.range)
    (content (Link.write io (wireText (FirehoseCommand.erase cmd).serialize) l).2.transport)
  asked {n : Nat} {l₁ : Link τ}
    (h : Link.write io (wireText (FirehoseCommand.erase cmd).serialize) l = (.ok n, l₁)) :
    SectorStore.Between (content l.transport) ((content l.transport).erase fill cmd.range)
      (content (Link.read io 1 8192 l₁).2.transport)
  done {resp : FirehoseResponse} {l' : Link τ}
    (h : Link.Asked io (wireText (FirehoseCommand.erase cmd).serialize) l l' resp)
    (hkept : resp.isNak = false) :
    content l'.transport = (content l.transport).erase fill cmd.range

/-- Between commands: the device will carry out whatever command on sectors of
4096 bytes comes next, a program command if all its data follow. -/
structure SpeaksSectors (fill : UInt8) (l : Link τ) : Prop where
  programs (startSector numSectors : UInt32) {data : ByteBuffer}
    (h : data.length = 4096 * numSectors.toNat) :
    Programs io content { startSector := startSector, numSectorSize := numSectors } data l
  reads (startSector numSectors : UInt32) :
    Reads io content { startSector := startSector, numSectorSize := numSectors } l
  erases (startSector numSectors : UInt32) :
    Erases io content fill { startSector := startSector, numSectorSize := numSectors } l

end Device

/-! ## The operations of the protocol on such a device -/

section Operations

variable {τ : Type} {io : ITransport τ} {content : τ → SectorStore} {fill : UInt8} {fuel : Nat}
  {s t : FirehoseProtocol τ}

open FirehoseProtocol

theorem program_content {cmd : ProgramCommand} {data : ByteBuffer} {resp : FirehoseResponse}
    (hdevice : Programs io content cmd data s.link)
    (h : program io fuel cmd data s = (.ok resp, t)) :
    content t.link.transport = (content s.link.transport).write cmd.physicalPartition
      cmd.range.start (data.take cmd.range.size) := by
  obtain ⟨-, e, hengine, rfl⟩ := program_ok h
  obtain ⟨-, n, l₁, l, hwrite, hstreamed, rfl⟩ := FirehoseStreamEngine.streamToDevice_ok hengine
  exact hdevice _ n l₁ l hwrite hstreamed

theorem read_content {cmd : ReadCommand} {data : ByteBuffer}
    (hdevice : Reads io content cmd s.link) (h : read io fuel cmd s = (.ok data, t)) :
    data = (content s.link.transport).sectors cmd.range ∧
      content t.link.transport = content s.link.transport := by
  obtain ⟨-, e, hengine, rfl⟩ := read_ok h
  obtain ⟨-, resp, l₁, l, hasked, hkept, hcollected, rfl⟩ :=
    FirehoseStreamEngine.streamFromDevice_ok hengine
  exact hdevice _ resp l₁ l data hasked hkept hcollected

theorem erase_content {cmd : EraseCommand} (hdevice : Erases io content fill cmd s.link)
    (h : erase io cmd s = (.ok (), t)) :
    content t.link.transport = (content s.link.transport).erase fill cmd.range := by
  obtain ⟨resp, s₁, hsend, hdone⟩ := Program.bind_eq_ok.mp h
  obtain ⟨-, hkept, l, hasked, rfl⟩ := sendCommandUnlessNak_ok hsend
  obtain ⟨-, rfl⟩ := Prod.mk.inj hdone
  exact hdevice.done hasked hkept

/-- However it ends, an erase changes no byte to anything but the fill. -/
theorem erase_between {cmd : EraseCommand} (hdevice : Erases io content fill cmd s.link) :
    SectorStore.Between (content s.link.transport)
      ((content s.link.transport).erase fill cmd.range)
      (content (erase io cmd s).2.link.transport) := by
  have hstate : (erase io cmd s).2 = (sendCommandUnlessNak io (.erase cmd) s).2 :=
    Program.run_void_state _ s
  have hleftBy : LeftBy io (.erase cmd) s.link _ := sendCommandUnlessNak_leftBy (.erase cmd) s
  rw [hstate]
  rcases hleftBy with hleft | hleft | ⟨n, l₁, hwrite, hleft⟩
  · rw [hleft]
    exact .before _ _
  · rw [hleft]
    exact hdevice.sent
  · rw [hleft]
    exact hdevice.asked hwrite

end Operations

end MBootCore
