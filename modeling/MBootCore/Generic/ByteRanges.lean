import MBootCore.Generic.AdapterSpec

/-!
# Generic — ByteRanges

The byte operations of `FirehoseAdapter` over a device that carries out
commands on sectors, set against byte-addressed storage. Reads are trimmed to
the bytes asked for. Writes and erases are rounded out to whole sectors, and
what lies in those sectors besides the bytes named is overwritten: with 0xFF by
a write, with the fill byte of the device by an erase.
-/

namespace MBootCore

/-! ## Aligned data -/

section Aligned

open FirehoseAdapter LittleEndian

variable {total offset : Nat} {data : ByteBuffer}

theorem alignedData_length (h : offset + data.length ≤ total) :
    (alignedData total offset data).length = total := by
  simp only [alignedData, patch, List.length_append, List.length_take, List.length_drop,
    List.length_replicate]
  omega

/-- The data in the middle, 0xFF around it. -/
theorem alignedData_getD (h : offset + data.length ≤ total) {i : Nat} (hi : i < total) :
    (alignedData total offset data).getD i 0
      = if offset ≤ i ∧ i < offset + data.length then data.getD (i - offset) 0 else 0xFF := by
  have htake : (List.take offset (List.replicate total (0xFF : UInt8))).length = offset := by
    rw [List.length_take, List.length_replicate]
    omega
  rw [alignedData, patch, List.append_assoc]
  by_cases hlo : offset ≤ i
  · rw [List.getD_append_right _ _ _ _ (by omega), htake]
    by_cases hhi : i < offset + data.length
    · rw [if_pos ⟨hlo, hhi⟩, List.getD_append _ _ _ _ (by omega)]
    · rw [if_neg (by omega), List.getD_append_right _ _ _ _ (by omega), List.drop_replicate,
        List.getD_replicate _ (by omega)]
  · rw [if_neg (by omega), List.getD_append _ _ _ _ (by omega), List.take_replicate,
      List.getD_replicate _ (by omega)]

/-- Storing the aligned data is storing the data exactly where the padding
changes nothing. -/
theorem overlay_alignedData (store : ByteStore) (start : Nat)
    (h : offset + data.length ≤ total) :
    store.overlay start (alignedData total offset data) = store.overlay (start + offset) data ↔
      ∀ i, start ≤ i → i < start + total →
        i < start + offset ∨ start + offset + data.length ≤ i → store i = 0xFF := by
  have hlength := alignedData_length h
  constructor
  · intro hstores i hlo hhi houtside
    have hbyte := congrFun hstores i
    rw [ByteStore.overlay_inside hlo (by omega), alignedData_getD h (by omega), if_neg (by omega),
      ByteStore.overlay_apart (by simp only [ByteStore.Apart]; omega)]
      at hbyte
    exact hbyte.symm
  · intro hpadding
    funext i
    by_cases hcovered : start ≤ i ∧ i < start + total
    · obtain ⟨hlo, hhi⟩ := hcovered
      rw [ByteStore.overlay_inside hlo (by omega), alignedData_getD h (by omega)]
      by_cases hdata : start + offset ≤ i ∧ i < start + offset + data.length
      · rw [if_pos (by omega), ByteStore.overlay_inside hdata.1 hdata.2, Nat.sub_sub]
      · rw [if_neg (by omega), ByteStore.overlay_apart (by simp only [ByteStore.Apart]; omega),
          hpadding i hlo hhi (by omega)]
    · rw [ByteStore.overlay_apart (by simp only [ByteStore.Apart]; omega),
        ByteStore.overlay_apart (by simp only [ByteStore.Apart]; omega)]

end Aligned

/-! ## What the operations do to the device -/

namespace FirehoseAdapter

open SectorMapping

/-- The start of the sector an address lies in. -/
def sectorStart (address : Nat) : Nat := address / 4096 * 4096

section Device

variable {τ : Type} {io : ITransport τ} {content : τ → SectorStore} {fill : UInt8} {fuel : Nat}
  {s t : FirehoseAdapter τ} {address : UInt64}

/-- A range short enough for a buffer does not overflow where its sectors have
room in a command. -/
theorem fits_of_not_tooLarge {address size : Nat} (haddress : address < 2 ^ 64)
    (hsize : size < 2 ^ 63) (h : (ofBytes address size).tooLarge = false) :
    address + size + 4095 < 2 ^ 64 := by
  have hstart := (tooLarge_eq_false.mp h).1
  rw [(ofBytes_start haddress).1] at hstart
  omega

/-- The aligned data are whole sectors. -/
theorem alignedData_sectors {data : ByteBuffer} (hdata : data.length < 2 ^ 63)
    (h : (ofBytes address.toNat data.length).tooLarge = false) :
    (ofBytes address.toNat data.length).offset + data.length
      ≤ 4096 * (ofBytes address.toNat data.length).numSectors := by
  rw [(ofBytes_start address.toNat_lt).2.2]
  exact ofBytes_room (fits_of_not_tooLarge address.toNat_lt hdata h)

theorem writeMemory_content {data : ByteBuffer} (hdata : data.length < 2 ^ 63)
    (hdevice : SpeaksSectors io content fill s.protocol.link)
    (h : writeMemory io fuel address data s = (.ok (), t)) :
    (ofBytes address.toNat data.length).tooLarge = false ∧
      content t.protocol.link.transport = (content s.protocol.link.transport).write 0
        (sectorStart address.toNat)
        (alignedData (4096 * (ofBytes address.toNat data.length).numSectors)
          (address.toNat % 4096) data) := by
  obtain ⟨hsize, resp, q, hprogram, rfl⟩ := writeMemory_ok h
  refine ⟨hsize, ?_⟩
  have hlength := alignedData_length (alignedData_sectors hdata hsize)
  rw [programCommand_eq address.toNat_lt, (ofBytes_start address.toNat_lt).2.2] at hprogram
  rw [(ofBytes_start address.toNat_lt).2.2] at hlength
  have hprograms := hdevice.programs (ofBytes address.toNat data.length).startSector.toUInt32
    (ofBytes address.toNat data.length).numSectors.toUInt32
    (hlength.trans (by rw [numSectors_toNat hsize]))
  have hcontent := program_content hprograms hprogram
  have hrange := command_range address.toNat_lt hsize 0
  rw [(ofBytes_start address.toNat_lt).2.1] at hrange
  rw [ProgramCommand.range, hrange, List.take_of_length_le (by rw [hlength])] at hcontent
  exact hcontent

theorem readMemory_content {u : CopyPastEnd} {size : UInt64} {data : ByteBuffer}
    (hdevice : SpeaksSectors io content fill s.protocol.link)
    (h : readMemory io u fuel address size s = (.ok data, t)) :
    let raw := ((content s.protocol.link.transport) 0).slice (sectorStart address.toNat)
      (4096 * (ofBytes address.toNat size.toNat).numSectors)
    (ofBytes address.toNat size.toNat).tooLarge = false ∧
      data = if address.toNat % 4096 > 0 ∨ raw.length > size.toNat then
        copyRange u raw (address.toNat % 4096) size.toNat else raw := by
  obtain ⟨hsize, raw, q, hread, hdata, rfl⟩ := readMemory_ok h
  refine ⟨hsize, ?_⟩
  rw [readCommand_eq address.toNat_lt] at hread
  obtain ⟨hraw, -⟩ := read_content (hdevice.reads _ _) hread
  have hrange := command_range address.toNat_lt hsize 0
  rw [(ofBytes_start address.toNat_lt).2.1] at hrange
  rw [SectorStore.sectors, ReadCommand.range, hrange] at hraw
  rw [hdata, (ofBytes_start address.toNat_lt).2.2, hraw]
  rfl

theorem eraseCommand_range {size : Nat}
    (h : (ofBytes address.toNat size).tooLarge = false) :
    (ofBytes address.toNat size).eraseCommand.range
      = ⟨0, sectorStart address.toNat, 4096 * (ofBytes address.toNat size).numSectors⟩ :=
  command_range address.toNat_lt h 0

theorem erases_mapped (hdevice : SpeaksSectors io content fill s.protocol.link) (size : Nat) :
    Erases io content fill (ofBytes address.toNat size).eraseCommand s.protocol.link := by
  rw [eraseCommand_eq address.toNat_lt]
  exact hdevice.erases _ _

end Device

/-! ## Byte-addressed flash -/

section Contract

variable (before : SectorStore) (fill : UInt8) (address : UInt64)

/-- On every device with this content a write that returns stores the data at
the address and changes no other byte. -/
def StoresBytes (data : ByteBuffer) : Prop :=
  ∀ (τ : Type) (io : ITransport τ) (content : τ → SectorStore) (fuel : Nat)
    (s t : FirehoseAdapter τ),
    SpeaksSectors io content fill s.protocol.link → content s.protocol.link.transport = before →
    writeMemory io fuel address data s = (.ok (), t) →
    content t.protocol.link.transport = before.write 0 address.toNat data

/-- On every device with this content an erase, whatever it returns, changes no
byte outside of the range. -/
def ErasesWithin (size : UInt64) : Prop :=
  ∀ (τ : Type) (io : ITransport τ) (content : τ → SectorStore) (s : FirehoseAdapter τ),
    SpeaksSectors io content fill s.protocol.link → content s.protocol.link.transport = before →
    ∀ p i, (p = 0 → i < address.toNat ∨ address.toNat + size.toNat ≤ i) →
      content (eraseMemory io address size s).2.protocol.link.transport p i = before p i

/-- On every device with this content a read that returns yields the bytes of
the range. -/
def ReadsBytes (size : UInt64) : Prop :=
  ∀ (τ : Type) (io : ITransport τ) (content : τ → SectorStore) (u : CopyPastEnd) (fuel : Nat)
    (s t : FirehoseAdapter τ) (data : ByteBuffer),
    SpeaksSectors io content fill s.protocol.link → content s.protocol.link.transport = before →
    readMemory io u fuel address size s = (.ok data, t) →
    data = (before 0).slice address.toNat size.toNat

structure RefinesFlash (data : ByteBuffer) (size : UInt64) : Prop where
  stores : StoresBytes before fill address data
  erases : ErasesWithin before fill address size
  reads : ReadsBytes before fill address size

/-- The sectors of a range that a command has room for hold `byte` wherever
they reach beyond the range. -/
def Surrounded (store : ByteStore) (byte : UInt8) (address size : Nat) : Prop :=
  (ofBytes address size).tooLarge = false →
    ∀ i, sectorStart address ≤ i →
      i < sectorStart address + 4096 * (ofBytes address size).numSectors →
      i < address ∨ address + size ≤ i → store i = byte

/-- The rounding shows nowhere. -/
structure RoundsUnseen (data : ByteBuffer) (size : UInt64) : Prop where
  padding : Surrounded (before 0) 0xFF address.toNat data.length
  filled : Surrounded (before 0) fill address.toNat size.toNat
  mapped : (ofBytes address.toNat size.toNat).tooLarge = false →
    address.toNat + size.toNat + 4095 < 2 ^ 64

end Contract

variable {before : SectorStore} {fill : UInt8} {address : UInt64}

theorem sectorStart_add (address : Nat) : sectorStart address + address % 4096 = address := by
  rw [sectorStart]
  omega

theorem write_inj {store : SectorStore} {p : UInt32} {a b : Nat} {xs ys : ByteBuffer} :
    store.write p a xs = store.write p b ys ↔ (store p).overlay a xs = (store p).overlay b ys := by
  constructor
  · intro h
    simpa using congrFun h p
  · intro h
    funext q
    by_cases hq : q = p
    · subst hq
      simpa using h
    · rw [SectorStore.write_other _ hq, SectorStore.write_other _ hq]

theorem storesBytes_iff {data : ByteBuffer} (hdata : data.length < 2 ^ 63) :
    StoresBytes before fill address data
      ↔ Surrounded (before 0) 0xFF address.toNat data.length := by
  have haligned (hsize : (ofBytes address.toNat data.length).tooLarge = false) :
      before.write 0 (sectorStart address.toNat)
          (alignedData (4096 * (ofBytes address.toNat data.length).numSectors)
            (address.toNat % 4096) data) = before.write 0 address.toNat data ↔
        ∀ i, sectorStart address.toNat ≤ i →
          i < sectorStart address.toNat + 4096 * (ofBytes address.toNat data.length).numSectors →
          i < address.toNat ∨ address.toNat + data.length ≤ i → before 0 i = 0xFF := by
    have hroom := alignedData_sectors hdata hsize
    rw [(ofBytes_start address.toNat_lt).2.2] at hroom
    have hoverlay := overlay_alignedData (before 0) (sectorStart address.toNat) hroom
    rw [sectorStart_add] at hoverlay
    exact write_inj.trans hoverlay
  constructor
  · intro hstores hsize
    obtain ⟨l, hprogram⟩ : ∃ l, FirehoseProtocol.program (VirtualFlash.io VirtualFlash.hear fill)
        _ (ofBytes address.toNat data.length).programCommand
        (alignedData (4096 * (ofBytes address.toNat data.length).numSectors)
          (ofBytes address.toNat data.length).offset data) (virtual before []).protocol = _ :=
      FirehoseProtocol.program_acknowledged VirtualFlash.acknowledges _ rfl rfl
        (.inl (virtual_ready before []).toTarget) (Nat.lt_succ_self _)
    have hrun := writeMemory_run rfl hsize hprogram
    have hdevice : SpeaksSectors (VirtualFlash.io VirtualFlash.hear fill) VirtualFlash.content fill
        (virtual before []).protocol.link := VirtualFlash.speaksSectors rfl
    have hcontent := (writeMemory_content hdata hdevice hrun).2
    rw [hstores _ _ _ _ _ _ hdevice rfl hrun] at hcontent
    exact (haligned hsize).mp hcontent.symm
  · intro hpadding τ io content fuel s t hdevice hbefore hrun
    obtain ⟨hsize, hcontent⟩ := writeMemory_content hdata hdevice hrun
    rw [hcontent, hbefore]
    exact (haligned hsize).mpr (hpadding hsize)

theorem erasesWithin_iff {size : UInt64} :
    ErasesWithin before fill address size
      ↔ Surrounded (before 0) fill address.toNat size.toNat := by
  constructor
  · intro hwithin hsize i hlo hhi houtside
    obtain ⟨l, hsend⟩ : ∃ l, FirehoseProtocol.sendCommandUnlessNak
        (VirtualFlash.io VirtualFlash.hear fill)
        (.erase (ofBytes address.toNat size.toNat).eraseCommand) (virtual before []).protocol = _ :=
      FirehoseProtocol.sendCommandUnlessNak_acknowledged VirtualFlash.acknowledges _ rfl
    have herase : FirehoseProtocol.erase (VirtualFlash.io VirtualFlash.hear fill)
        (ofBytes address.toNat size.toNat).eraseCommand (virtual before []).protocol
        = (.ok (), (virtual before []).protocol.withLink l) := Program.void_eq_ok.mpr ⟨_, hsend⟩
    have hdevice : SpeaksSectors (VirtualFlash.io VirtualFlash.hear fill) VirtualFlash.content fill
        (virtual before []).protocol.link := VirtualFlash.speaksSectors rfl
    have hcontent := erase_content (erases_mapped hdevice size.toNat) herase
    have hafter : (eraseMemory (VirtualFlash.io VirtualFlash.hear fill) address size
        (virtual before [])).2.protocol = (virtual before []).protocol.withLink l := by
      rw [eraseMemory_run rfl hsize herase]
      rfl
    have hbyte := hwithin _ _ _ (virtual before []) hdevice rfl 0 i fun _ => houtside
    rw [hafter, hcontent, eraseCommand_range hsize, SectorStore.erase, SectorStore.write_self,
      ByteStore.overlay_replicate, if_pos ⟨hlo, hhi⟩] at hbyte
    exact hbyte.symm
  · intro hfilled τ io content s hdevice hbefore p i houtside
    have hprotocol : (eraseMemory io address size s).2.protocol = s.protocol ∨ _ :=
      eraseMemory_protocol
    rcases hprotocol with hkept | ⟨hsize, herase⟩
    · rw [hkept, hbefore]
    · have herases : Erases io content fill (ofBytes address.toNat size.toNat).eraseCommand _ :=
        erases_mapped hdevice size.toNat
      rw [herase]
      rcases erase_between herases p i with hkept | herased
      · rw [hkept, hbefore]
      · rw [herased, hbefore, eraseCommand_range hsize, SectorStore.erase]
        by_cases hp : p = 0
        · subst hp
          rw [SectorStore.write_self, ByteStore.overlay_replicate]
          by_cases hcovered : sectorStart address.toNat ≤ i ∧ i < sectorStart address.toNat
              + 4096 * (ofBytes address.toNat size.toNat).numSectors
          · rw [if_pos hcovered]
            exact (hfilled hsize i hcovered.1 hcovered.2 (houtside rfl)).symm
          · rw [if_neg hcovered]
        · rw [SectorStore.write_other _ hp]

/-- Every byte asked for lies in the sectors that were read. -/
theorem trimmed_eq {store : ByteStore} {u : CopyPastEnd} {address size : Nat}
    (h : address + size + 4095 < 2 ^ 64) :
    let raw := store.slice (sectorStart address) (4096 * (ofBytes address size).numSectors)
    (if address % 4096 > 0 ∨ raw.length > size then copyRange u raw (address % 4096) size else raw)
      = store.slice address size := by
  intro raw
  have hlength : raw.length = 4096 * (ofBytes address size).numSectors :=
    ByteStore.slice_length _ _ _
  have hroom := ofBytes_room h
  by_cases htrim : address % 4096 > 0 ∨ raw.length > size
  · rw [if_pos htrim, copyRange, if_pos (by omega), ByteStore.slice_drop_take _ _ hroom,
      sectorStart_add]
  · have haligned : address % 4096 = 0 := by omega
    have hwhole : 4096 * (ofBytes address size).numSectors = size := by omega
    have hstart := sectorStart_add address
    rw [haligned, Nat.add_zero] at hstart
    rw [if_neg htrim]
    show store.slice _ _ = _
    rw [hwhole, hstart]

theorem readsBytes_iff {size : UInt64} :
    ReadsBytes before fill address size ↔
      ((ofBytes address.toNat size.toNat).tooLarge = false →
        address.toNat + size.toNat + 4095 < 2 ^ 64) := by
  constructor
  · intro hreads hsize
    by_contra hlarge
    have hover : 2 ^ 64 ≤ address.toNat + size.toNat + 4095 := Nat.le_of_not_lt hlarge
    have hnone : (ofBytes address.toNat size.toNat).numSectors = 0 := by
      rw [ofBytes_overflows address.toNat_lt hover]
    have hstart := (tooLarge_eq_false.mp hsize).1
    rw [(ofBytes_start address.toNat_lt).1] at hstart
    obtain ⟨all, l, hread⟩ : ∃ all l, FirehoseProtocol.read
        (VirtualFlash.io VirtualFlash.hear fill) _ (ofBytes address.toNat size.toNat).readCommand
        (virtual before []).protocol = (.ok all, _) :=
      FirehoseProtocol.read_acknowledged VirtualFlash.acknowledges VirtualFlash.delivers _ rfl rfl
        (virtual_ready before []).fromTarget (Nat.lt_succ_self _)
    have hdevice : SpeaksSectors (VirtualFlash.io VirtualFlash.hear fill) VirtualFlash.content fill
        (virtual before []).protocol.link := VirtualFlash.speaksSectors rfl
    -- a copy past the end that happens to be empty
    obtain ⟨data, hrun⟩ : ∃ data, readMemory (VirtualFlash.io VirtualFlash.hear fill)
        (fun _ _ _ => []) _ address size (virtual before []) = (.ok data, _) :=
      readMemory_run rfl hsize hread
    obtain ⟨-, hdata⟩ := readMemory_content hdevice hrun
    have hempty : data = [] := by
      rw [hdata, hnone]
      simp only [copyRange]
      split
      · rw [if_neg (by simp only [ByteStore.slice_length]; omega)]
      · rfl
    have hlength := congrArg List.length (hreads _ _ _ _ _ _ _ _ hdevice rfl hrun)
    rw [hempty, ByteStore.slice_length, List.length_nil] at hlength
    omega
  · intro hmapped τ io content u fuel s t data hdevice hbefore hrun
    obtain ⟨hsize, hdata⟩ := readMemory_content hdevice hrun
    rw [hdata, hbefore]
    exact trimmed_eq (hmapped hsize)

/-- The adapter is byte-addressed flash exactly where the rounding to sectors
shows nowhere. -/
theorem refinesFlash_iff (before : SectorStore) (fill : UInt8) (address : UInt64)
    (data : ByteBuffer) (size : UInt64) (hdata : data.length < 2 ^ 63) :
    RefinesFlash before fill address data size ↔ RoundsUnseen before fill address data size := by
  constructor
  · rintro ⟨hstores, herases, hreads⟩
    exact ⟨(storesBytes_iff hdata).mp hstores, erasesWithin_iff.mp herases,
      readsBytes_iff.mp hreads⟩
  · rintro ⟨hpadding, hfilled, hmapped⟩
    exact ⟨(storesBytes_iff hdata).mpr hpadding, erasesWithin_iff.mpr hfilled,
      readsBytes_iff.mpr hmapped⟩

/-- In erased flash whose fill byte is 0xFF the rounding does not show. -/
theorem refinesFlash_blank : RefinesFlash (fun _ _ => 0xFF) 0xFF 0 [1] 1 :=
  (refinesFlash_iff _ 0xFF 0 [1] 1 (by decide)).mpr
    ⟨fun _ _ _ _ _ => rfl, fun _ _ _ _ _ => rfl, fun _ => by decide⟩

/-- One byte written to flash full of zeros sets the next one to 0xFF. -/
theorem refinesFlash_fails :
    ¬ ∀ (before : SectorStore) (fill : UInt8) (address : UInt64) (data : ByteBuffer)
        (size : UInt64), data.length < 2 ^ 63 → RefinesFlash before fill address data size := by
  intro hall
  have hstores : StoresBytes (fun _ _ => 0) 0xFF 0 [1] := (hall _ 0xFF 0 [1] 1 (by decide)).stores
  have hpadding := (storesBytes_iff (by decide)).mp hstores (by decide) 1 (by decide) (by decide)
    (.inr (by decide))
  exact absurd hpadding (by decide)

end FirehoseAdapter

end MBootCore
