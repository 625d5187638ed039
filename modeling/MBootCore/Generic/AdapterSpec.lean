import MBootCore.Firehose.VirtualFlash
import MBootCore.Generic.FirehoseAdapter

/-!
# Generic — AdapterSpec

What the operations of `FirehoseAdapter` ask of the protocol: the sectors a
byte range is mapped to, and the one call each operation makes.
-/

namespace MBootCore

namespace SectorMapping

variable {address size : Nat}

/-- The mapping the adapter uses. -/
def ofBytes (address size : Nat) : SectorMapping := byteAddressToSectors address size 4096

theorem safeAdd_some {a b : Nat} (h : a + b < 2 ^ 64) : safeAdd a b = some (a + b) := by
  rw [safeAdd, maxUint64, if_neg (by omega)]

theorem safeAdd_none {a b : Nat} (ha : a < 2 ^ 64) (h : 2 ^ 64 ≤ a + b) : safeAdd a b = none := by
  rw [safeAdd, maxUint64, if_pos (by omega)]

theorem ofBytes_fits (h : address + size + 4095 < 2 ^ 64) :
    ofBytes address size
      = ⟨address / 4096, 4096, (address + size + 4095) / 4096 - address / 4096,
        address % 4096⟩ := by
  have hend : safeAdd address size = some (address + size) := safeAdd_some (by omega)
  have hround : safeAdd (address + size) (UInt32.toNat 4096 - 1) = some (address + size + 4095) :=
    safeAdd_some h
  rw [ofBytes, byteAddressToSectors, if_neg (by decide)]
  simp only [hend, hround]
  rfl

theorem ofBytes_overflows (haddress : address < 2 ^ 64) (h : 2 ^ 64 ≤ address + size + 4095) :
    ofBytes address size = ⟨address / 4096, 4096, 0, address % 4096⟩ := by
  rw [ofBytes, byteAddressToSectors, if_neg (by decide)]
  by_cases hend : address + size < 2 ^ 64
  · have hround : safeAdd (address + size) (UInt32.toNat 4096 - 1) = none := safeAdd_none hend h
    simp only [safeAdd_some hend, hround]
    rfl
  · simp only [safeAdd_none haddress (Nat.le_of_not_lt hend)]
    rfl

/-- Whatever the size, the mapping starts at the sector of the address. -/
theorem ofBytes_start (haddress : address < 2 ^ 64) :
    (ofBytes address size).startSector = address / 4096 ∧
      (ofBytes address size).sectorSize = 4096 ∧
      (ofBytes address size).offset = address % 4096 := by
  by_cases h : address + size + 4095 < 2 ^ 64
  · rw [ofBytes_fits h]
    exact ⟨rfl, rfl, rfl⟩
  · rw [ofBytes_overflows haddress (Nat.le_of_not_lt h)]
    exact ⟨rfl, rfl, rfl⟩

/-- The bytes fit in the sectors they are mapped to. -/
theorem ofBytes_room (h : address + size + 4095 < 2 ^ 64) :
    address % 4096 + size ≤ 4096 * (ofBytes address size).numSectors := by
  rw [ofBytes_fits h]
  simp only
  omega

theorem tooLarge_eq_false {sm : SectorMapping} :
    sm.tooLarge = false ↔ sm.startSector ≤ 0xFFFFFFFF ∧ sm.numSectors ≤ 0xFFFFFFFF := by
  simp [tooLarge]

section Commands

variable (haddress : address < 2 ^ 64) (h : (ofBytes address size).tooLarge = false)

include haddress h

theorem startSector_toNat :
    (ofBytes address size).startSector.toUInt32.toNat * 4096 = address / 4096 * 4096 := by
  have hstart := (tooLarge_eq_false.mp h).1
  rw [(ofBytes_start haddress).1] at hstart ⊢
  rw [Nat.toUInt32_eq, UInt32.toNat_ofNat', Nat.mod_eq_of_lt (by omega)]

omit haddress in
theorem numSectors_toNat :
    (ofBytes address size).numSectors.toUInt32.toNat = (ofBytes address size).numSectors := by
  have hnum := (tooLarge_eq_false.mp h).2
  rw [Nat.toUInt32_eq, UInt32.toNat_ofNat', Nat.mod_eq_of_lt (by omega)]

/-- The commands of the adapter name the sectors mapped to. -/
theorem command_range (p : UInt32) :
    SectorRange.ofSectors p (ofBytes address size).sectorSize
        (ofBytes address size).startSector.toUInt32 (ofBytes address size).numSectors.toUInt32
      = ⟨p, address / 4096 * 4096, 4096 * (ofBytes address size).numSectors⟩ := by
  rw [SectorRange.ofSectors, (ofBytes_start haddress).2.1, numSectors_toNat h,
    show UInt32.toNat 4096 = 4096 from rfl, startSector_toNat haddress h]

omit h

theorem readCommand_eq : (ofBytes address size).readCommand
    = { startSector := (ofBytes address size).startSector.toUInt32
        numSectorSize := (ofBytes address size).numSectors.toUInt32 } := by
  rw [readCommand, (ofBytes_start haddress).2.1]

theorem programCommand_eq : (ofBytes address size).programCommand
    = { startSector := (ofBytes address size).startSector.toUInt32
        numSectorSize := (ofBytes address size).numSectors.toUInt32 } := by
  rw [programCommand, (ofBytes_start haddress).2.1]

theorem eraseCommand_eq : (ofBytes address size).eraseCommand
    = { startSector := (ofBytes address size).startSector.toUInt32
        numSectorSize := (ofBytes address size).numSectors.toUInt32 } := by
  rw [eraseCommand, (ofBytes_start haddress).2.1]

end Commands

end SectorMapping

namespace FirehoseAdapter

variable {τ : Type} {io : ITransport τ} {fuel : Nat} {s t : FirehoseAdapter τ}

/-- The adapter after a call of its protocol. -/
def withProtocol (s : FirehoseAdapter τ) (p : FirehoseProtocol τ) : FirehoseAdapter τ :=
  { s with protocol := p }

theorem checkOpen_ok (h : checkOpen s = (.ok (), t)) : s.isOpen = true ∧ s = t := by
  obtain ⟨hopen, rfl⟩ := Program.failIf_eq_ok.mp h
  exact ⟨by simpa using hopen, rfl⟩

theorem checkOpen_passes (h : s.isOpen = true) : checkOpen s = (.ok (), s) :=
  Program.failIf_eq_ok.mpr ⟨by simp [h], rfl⟩

theorem onProtocol_ok {α : Type} {p : FirehoseProtocol.Method τ α} {a : α}
    (h : onProtocol p s = (.ok a, t)) :
    ∃ q, p s.protocol = (.ok a, q) ∧ t = s.withProtocol q :=
  Program.zoom_eq_ok.mp h

theorem onProtocol_run {α : Type} {p : FirehoseProtocol.Method τ α} {a : α}
    {q : FirehoseProtocol τ} (h : p s.protocol = (.ok a, q)) :
    onProtocol p s = (.ok a, s.withProtocol q) :=
  Program.zoom_eq_ok.mpr ⟨q, h, rfl⟩

/-! ## Bytes -/

section Bytes

open SectorMapping

variable {address size : Nat}

theorem mapRange_ok {sm : SectorMapping} (h : mapRange address size s = (.ok sm, t)) :
    sm = ofBytes address size ∧ (ofBytes address size).tooLarge = false ∧ s = t := by
  obtain ⟨⟨⟩, s₁, hcheck, h⟩ := Program.bind_eq_ok.mp h
  obtain ⟨-, rfl⟩ := checkOpen_ok hcheck
  by_cases hlarge : (byteAddressToSectors address size 4096).tooLarge = true
  · rw [if_pos hlarge] at h
    cases h
  · rw [if_neg hlarge] at h
    obtain ⟨hsm, rfl⟩ := Prod.mk.inj h
    exact ⟨(Except.ok.inj hsm).symm, Bool.eq_false_iff.mpr hlarge, rfl⟩

theorem mapRange_error {e : ErrorCode} (h : mapRange address size s = (.error e, t)) : t = s := by
  rw [mapRange, Program.run_bind] at h
  rcases hcheck : checkOpen s with ⟨e' | ⟨⟩, s₁⟩
  · rw [hcheck] at h
    exact (congrArg Prod.snd h).symm.trans (congrArg Prod.snd hcheck).symm
  · obtain ⟨-, rfl⟩ := checkOpen_ok hcheck
    rw [hcheck] at h
    by_cases hlarge : (byteAddressToSectors address size 4096).tooLarge = true
    · simp only [if_pos hlarge] at h
      exact (congrArg Prod.snd h).symm
    · simp only [if_neg hlarge] at h
      cases h

theorem mapRange_run (hopen : s.isOpen = true) (h : (ofBytes address size).tooLarge = false) :
    mapRange address size s = (.ok (ofBytes address size), s) := by
  have hlarge : ¬ (byteAddressToSectors address size 4096).tooLarge = true := by
    rw [show byteAddressToSectors address size 4096 = ofBytes address size from rfl, h]
    decide
  rw [mapRange, Program.run_bind_ok (checkOpen_passes hopen), if_neg hlarge]
  rfl

/-- A count that a command has room for is never too large to allocate. -/
theorem safeMul_numSectors (haddress : address < 2 ^ 64)
    (h : (ofBytes address size).tooLarge = false) :
    SectorMapping.safeMul (ofBytes address size).numSectors (ofBytes address size).sectorSize.toNat
      = some (4096 * (ofBytes address size).numSectors) := by
  have hnum := (tooLarge_eq_false.mp h).2
  have hfits : ¬ ((ofBytes address size).numSectors ≠ 0 ∧
      4096 > maxUint64 / (ofBytes address size).numSectors) := by
    rintro ⟨hpos, hlarge⟩
    rw [maxUint64, gt_iff_lt, Nat.div_lt_iff_lt_mul (by omega)] at hlarge
    omega
  rw [(ofBytes_start haddress).2.1, show UInt32.toNat 4096 = 4096 from rfl, SectorMapping.safeMul,
    if_neg hfits, Nat.mul_comm]

end Bytes

section Operations

open SectorMapping

variable {address size : UInt64}

theorem readMemory_ok {u : CopyPastEnd} {data : ByteBuffer}
    (h : readMemory io u fuel address size s = (.ok data, t)) :
    (ofBytes address.toNat size.toNat).tooLarge = false ∧ ∃ raw q,
      FirehoseProtocol.read io fuel (ofBytes address.toNat size.toNat).readCommand s.protocol
        = (.ok raw, q) ∧
      data = (if (ofBytes address.toNat size.toNat).offset > 0 ∨ raw.length > size.toNat then
        copyRange u raw (ofBytes address.toNat size.toNat).offset size.toNat else raw) ∧
      t = s.withProtocol q := by
  obtain ⟨sm, s₁, hmap, h⟩ := Program.bind_eq_ok.mp h
  obtain ⟨rfl, hsize, rfl⟩ := mapRange_ok hmap
  obtain ⟨raw, s₂, hread, h⟩ := Program.bind_eq_ok.mp h
  obtain ⟨q, hprotocol, rfl⟩ := onProtocol_ok hread
  refine ⟨hsize, raw, q, hprotocol, ?_⟩
  by_cases htrim : (ofBytes address.toNat size.toNat).offset > 0 ∨ raw.length > size.toNat
  · rw [if_pos htrim] at h ⊢
    obtain ⟨hdata, rfl⟩ := Prod.mk.inj h
    exact ⟨(Except.ok.inj hdata).symm, rfl⟩
  · rw [if_neg htrim] at h ⊢
    obtain ⟨hdata, rfl⟩ := Prod.mk.inj h
    exact ⟨(Except.ok.inj hdata).symm, rfl⟩

theorem writeMemory_ok {data : ByteBuffer} (h : writeMemory io fuel address data s = (.ok (), t)) :
    (ofBytes address.toNat data.length).tooLarge = false ∧ ∃ resp q,
      FirehoseProtocol.program io fuel (ofBytes address.toNat data.length).programCommand
        (alignedData (4096 * (ofBytes address.toNat data.length).numSectors)
          (ofBytes address.toNat data.length).offset data) s.protocol = (.ok resp, q) ∧
      t = s.withProtocol q := by
  obtain ⟨sm, s₁, hmap, h⟩ := Program.bind_eq_ok.mp h
  obtain ⟨rfl, hsize, rfl⟩ := mapRange_ok hmap
  rw [safeMul_numSectors address.toNat_lt hsize] at h
  obtain ⟨resp, s₂, hprogram, hdone⟩ := Program.bind_eq_ok.mp h
  obtain ⟨q, hprotocol, rfl⟩ := onProtocol_ok hprogram
  obtain ⟨-, rfl⟩ := Prod.mk.inj hdone
  exact ⟨hsize, resp, q, hprotocol, rfl⟩

/-- An erase makes its call of the protocol or none. -/
theorem eraseMemory_protocol :
    (eraseMemory io address size s).2.protocol = s.protocol ∨
      (ofBytes address.toNat size.toNat).tooLarge = false ∧
        (eraseMemory io address size s).2.protocol
          = (FirehoseProtocol.erase io (ofBytes address.toNat size.toNat).eraseCommand
              s.protocol).2 := by
  rw [eraseMemory, Program.run_bind]
  rcases hmap : mapRange address.toNat size.toNat s with ⟨e | sm, s₁⟩
  · rw [mapRange_error hmap]
    exact .inl rfl
  · obtain ⟨rfl, hsize, rfl⟩ := mapRange_ok hmap
    exact .inr ⟨hsize, rfl⟩

theorem readMemory_run {u : CopyPastEnd} (hopen : s.isOpen = true)
    (h : (ofBytes address.toNat size.toNat).tooLarge = false) {raw : ByteBuffer}
    {q : FirehoseProtocol τ}
    (hread : FirehoseProtocol.read io fuel (ofBytes address.toNat size.toNat).readCommand
      s.protocol = (.ok raw, q)) :
    ∃ data, readMemory io u fuel address size s = (.ok data, s.withProtocol q) := by
  rw [readMemory, Program.run_bind_ok (mapRange_run hopen h),
    Program.run_bind_ok (onProtocol_run hread)]
  by_cases htrim : (ofBytes address.toNat size.toNat).offset > 0 ∨ raw.length > size.toNat
  · rw [if_pos htrim]
    exact ⟨_, rfl⟩
  · rw [if_neg htrim]
    exact ⟨_, rfl⟩

theorem writeMemory_run {data : ByteBuffer} (hopen : s.isOpen = true)
    (h : (ofBytes address.toNat data.length).tooLarge = false) {resp : FirehoseResponse}
    {q : FirehoseProtocol τ}
    (hprogram : FirehoseProtocol.program io fuel
      (ofBytes address.toNat data.length).programCommand
      (alignedData (4096 * (ofBytes address.toNat data.length).numSectors)
        (ofBytes address.toNat data.length).offset data) s.protocol = (.ok resp, q)) :
    writeMemory io fuel address data s = (.ok (), s.withProtocol q) := by
  rw [writeMemory, Program.run_bind_ok (mapRange_run hopen h),
    safeMul_numSectors address.toNat_lt h]
  exact Program.run_bind_ok (onProtocol_run hprogram)

theorem eraseMemory_run (hopen : s.isOpen = true)
    (h : (ofBytes address.toNat size.toNat).tooLarge = false) {q : FirehoseProtocol τ}
    (herase : FirehoseProtocol.erase io (ofBytes address.toNat size.toNat).eraseCommand
      s.protocol = (.ok (), q)) :
    eraseMemory io address size s = (.ok (), s.withProtocol q) := by
  rw [eraseMemory, Program.run_bind_ok (mapRange_run hopen h)]
  exact onProtocol_run herase

end Operations

/-! ## Partitions -/

variable {name : String}

theorem readPartition_ok {data : ByteBuffer} (h : readPartition io fuel name s = (.ok data, t)) :
    ∃ q, FirehoseProtocol.read io fuel (readPartitionCommand name) s.protocol = (.ok data, q) ∧
      t = s.withProtocol q := by
  obtain ⟨⟨⟩, s₁, hcheck, h⟩ := Program.bind_eq_ok.mp h
  obtain ⟨-, rfl⟩ := checkOpen_ok hcheck
  exact onProtocol_ok h

theorem writePartition_ok {data : ByteBuffer}
    (h : writePartition io fuel name data s = (.ok (), t)) :
    ∃ resp q, FirehoseProtocol.program io fuel (writePartitionCommand name data) data s.protocol
        = (.ok resp, q) ∧ t = s.withProtocol q := by
  obtain ⟨⟨⟩, s₁, hcheck, h⟩ := Program.bind_eq_ok.mp h
  obtain ⟨-, rfl⟩ := checkOpen_ok hcheck
  obtain ⟨resp, s₂, hprogram, hdone⟩ := Program.bind_eq_ok.mp h
  obtain ⟨q, hprotocol, rfl⟩ := onProtocol_ok hprogram
  obtain ⟨-, rfl⟩ := Prod.mk.inj hdone
  exact ⟨resp, q, hprotocol, rfl⟩

theorem erasePartition_ok (h : erasePartition io name s = (.ok (), t)) :
    ∃ q, FirehoseProtocol.erase io (erasePartitionCommand name) s.protocol = (.ok (), q) ∧
      t = s.withProtocol q := by
  obtain ⟨⟨⟩, s₁, hcheck, h⟩ := Program.bind_eq_ok.mp h
  obtain ⟨-, rfl⟩ := checkOpen_ok hcheck
  exact onProtocol_ok h

theorem readPartition_run (hopen : s.isOpen = true) :
    readPartition io fuel name s
      = onProtocol (FirehoseProtocol.read io fuel (readPartitionCommand name)) s :=
  Program.run_bind_ok (checkOpen_passes hopen)

theorem writePartition_run (hopen : s.isOpen = true) {data : ByteBuffer} {resp : FirehoseResponse}
    {q : FirehoseProtocol τ}
    (hprogram : FirehoseProtocol.program io fuel (writePartitionCommand name data) data s.protocol
      = (.ok resp, q)) :
    writePartition io fuel name data s = (.ok (), s.withProtocol q) := by
  rw [writePartition, Program.run_bind_ok (checkOpen_passes hopen)]
  exact Program.run_bind_ok (onProtocol_run hprogram)

theorem erasePartition_run (hopen : s.isOpen = true) :
    erasePartition io name s
      = onProtocol (FirehoseProtocol.erase io (erasePartitionCommand name)) s :=
  Program.run_bind_ok (checkOpen_passes hopen)

/-! ## Open and closed -/

inductive AdapterCall where
  | openDevice | close | reset | powerReset | cancel | getStorageInfo
  | uploadLoader (programmerData : ByteBuffer)
  | readMemory (address size : UInt64)
  | writeMemory (address : UInt64) (data : ByteBuffer)
  | eraseMemory (address size : UInt64)
  | readPartition (name : String)
  | writePartition (name : String) (data : ByteBuffer)
  | erasePartition (name : String)

namespace AdapterCall

/-- What the partition code asks for goes through the device. -/
def run (io : ITransport τ) (control : TransportControl τ) (u : CopyPastEnd) (fuel : Nat) :
    AdapterCall → Method τ Unit
  | openDevice => (device io control u fuel).openDevice
  | close => FirehoseAdapter.close control
  | reset => FirehoseAdapter.reset io
  | powerReset => FirehoseAdapter.powerReset io
  | cancel => FirehoseAdapter.cancel
  | getStorageInfo => Program.void (device io control u fuel).getStorageInfo
  | uploadLoader programmerData => FirehoseAdapter.uploadLoader programmerData
  | readMemory address size => Program.void ((device io control u fuel).readMemory address size)
  | writeMemory address data => (device io control u fuel).writeMemory address data
  | eraseMemory address size => (device io control u fuel).eraseMemory address size
  | readPartition name => Program.void (FirehoseAdapter.readPartition io fuel name)
  | writePartition name data => FirehoseAdapter.writePartition io fuel name data
  | erasePartition name => FirehoseAdapter.erasePartition io name

/-- The calls that an adapter refuses which is not open. -/
def NeedsOpen : AdapterCall → Prop
  | openDevice | close | cancel | uploadLoader _ => False
  | _ => True

/-- Whether the adapter is open after the call, which succeeded or not. -/
def leaves (isOpen ok : Bool) : AdapterCall → Bool
  | openDevice => isOpen || ok
  | close => false
  | reset => isOpen && !ok
  | _ => isOpen

end AdapterCall

section Lifecycle

variable (control : TransportControl τ) (u : CopyPastEnd)

theorem checkOpen_closed (h : s.isOpen = false) :
    checkOpen s = (.error .deviceDisconnected, s) := by
  rw [checkOpen, Program.run_failIf, h]
  rfl

/-- A closed adapter asks nothing of the transport. -/
theorem run_closed (h : s.isOpen = false) {call : AdapterCall} (hneeds : call.NeedsOpen) :
    call.run io control u fuel s = (.error .deviceDisconnected, s) := by
  have hrefused {α : Type} (rest : Method τ α) :
      (checkOpen >>= fun _ => rest) s = (.error .deviceDisconnected, s) :=
    Program.run_bind_error (checkOpen_closed h)
  have hunmapped {α : Type} (address size : Nat) (rest : SectorMapping → Method τ α) :
      (mapRange address size >>= rest) s = (.error .deviceDisconnected, s) :=
    Program.run_bind_error (hrefused _)
  cases call with
  | openDevice | close | cancel | uploadLoader => exact hneeds.elim
  | reset | powerReset | writePartition | erasePartition => exact hrefused _
  | getStorageInfo | readPartition => exact Program.run_bind_error (hrefused _)
  | readMemory => exact Program.run_bind_error (hunmapped _ _ _)
  | writeMemory | eraseMemory => exact hunmapped _ _ _

theorem onProtocol_isOpen {α : Type} (p : FirehoseProtocol.Method τ α) :
    Program.Preserves isOpen (onProtocol p) := fun _ => rfl

theorem checkOpen_bind_isOpen {α : Type} {rest : Method τ α}
    (h : Program.Preserves isOpen rest) :
    Program.Preserves isOpen (checkOpen >>= fun _ => rest) :=
  Program.Preserves.bind (fun _ => rfl) fun _ => h

theorem mapRange_isOpen (address size : Nat) :
    Program.Preserves isOpen (mapRange (τ := τ) address size) := by
  refine checkOpen_bind_isOpen ?_
  dsimp only
  split
  · exact Program.Preserves.fail _
  · exact Program.Preserves.pure _

theorem openDevice_isOpen (s : FirehoseAdapter τ) :
    (openDevice io control s).2.isOpen = (s.isOpen || (openDevice io control s).1.isOk) := by
  rw [openDevice, Program.run_bind_ok (Program.run_gets _ _)]
  cases hopen : s.isOpen with
  | true => exact hopen
  | false =>
    have htransport : (onTransport control.openTransport s).2.isOpen = false := hopen
    simp only [Bool.false_eq_true, if_false, Program.run_bind]
    generalize onTransport control.openTransport s = opened at htransport ⊢
    obtain ⟨e | ⟨⟩, s₁⟩ := opened
    · exact htransport
    have hprotocol : (onProtocol (FirehoseProtocol.handshake io) s₁).2.isOpen = false :=
      htransport
    simp only [Program.run_attempt]
    generalize onProtocol (FirehoseProtocol.handshake io) s₁ = answered at hprotocol ⊢
    obtain ⟨e | ⟨⟩, s₂⟩ := answered
    · exact hprotocol
    · rfl

theorem reset_isOpen (s : FirehoseAdapter τ) :
    (FirehoseAdapter.reset io s).2.isOpen
      = (s.isOpen && !(FirehoseAdapter.reset io s).1.isOk) := by
  rw [FirehoseAdapter.reset, Program.run_bind]
  cases hopen : s.isOpen with
  | false =>
    rw [checkOpen_closed hopen]
    exact hopen
  | true =>
    have hprotocol : (onProtocol (FirehoseProtocol.reset io) s).2.isOpen = true := hopen
    rw [checkOpen_passes hopen]
    simp only [Program.run_bind]
    generalize onProtocol (FirehoseProtocol.reset io) s = answered at hprotocol ⊢
    obtain ⟨e | ⟨⟩, s₁⟩ := answered
    · exact hprotocol
    · rfl

/-- The adapter opens and closes with these calls alone. -/
theorem isOpen_run (call : AdapterCall) (s : FirehoseAdapter τ) :
    (call.run io control u fuel s).2.isOpen
      = call.leaves s.isOpen (call.run io control u fuel s).1.isOk := by
  have hkept {p : Method τ Unit} (h : Program.Preserves isOpen p) : (p s).2.isOpen = s.isOpen := h s
  cases call with
  | openDevice => exact openDevice_isOpen control s
  | reset => exact reset_isOpen s
  | close | cancel | uploadLoader => rfl
  | powerReset | erasePartition => exact hkept (checkOpen_bind_isOpen (onProtocol_isOpen _))
  | readPartition =>
    exact hkept (Program.Preserves.void (checkOpen_bind_isOpen (onProtocol_isOpen _)))
  | writePartition =>
    exact hkept (checkOpen_bind_isOpen (Program.Preserves.bind (onProtocol_isOpen _) fun _ =>
      Program.Preserves.pure _))
  | getStorageInfo =>
    refine hkept (Program.Preserves.void (checkOpen_bind_isOpen
      (Program.Preserves.bind (onProtocol_isOpen _) fun storageResult => ?_)))
    cases FirehoseXmlEngine.parse storageResult.rawXml <;> exact Program.Preserves.pure _
  | eraseMemory =>
    exact hkept (Program.Preserves.bind (mapRange_isOpen _ _) fun _ => onProtocol_isOpen _)
  | readMemory =>
    refine hkept (Program.Preserves.void (Program.Preserves.bind (mapRange_isOpen _ _) fun sm =>
      Program.Preserves.bind (onProtocol_isOpen _) fun raw => ?_))
    split <;> exact Program.Preserves.pure _
  | writeMemory =>
    refine hkept (Program.Preserves.bind (mapRange_isOpen _ _) fun sm => ?_)
    split
    · exact Program.Preserves.fail _
    · exact Program.Preserves.bind (onProtocol_isOpen _) fun _ => Program.Preserves.pure _

end Lifecycle

/-! ## On the virtual device -/

/-- An open adapter on a configured virtual device. -/
def virtual (content : SectorStore) (plan : List SectorOrder) : FirehoseAdapter VirtualFlash where
  protocol :=
    { link := { transport := { content := content, plan := plan } }
      configured := true }
  isOpen := true

theorem virtual_ready (content : SectorStore) (plan : List SectorOrder) :
    (virtual content plan).protocol.Ready := by
  refine ⟨rfl, rfl, rfl, ?_, ?_⟩
  · show 0 < UInt32.toNat 1048576
    decide
  · show 0 < UInt32.toNat 1048576
    decide

end FirehoseAdapter

end MBootCore
