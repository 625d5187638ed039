import MBootCore.Sahara.PacketRoundTrip

/-!
# Sahara — PacketAcceptance

Which byte strings `SaharaPacketParser::parse` accepts, and where the members of the
packet come from. The lengths it asks for are in one table, the offsets it reads in
the branches; together they keep every read inside of the declared length. The V2
form of a chip id has no extended members, and these are set to zero.
-/

namespace MBootCore

open SaharaPacketParser

namespace SaharaPacketParser

def isComplete (data : ByteBuffer) : Bool :=
  if data.length < 8 then false else data.length ≥ (readU32 data 4).toNat

/-- The four length and command conditions of the parser. -/
structure Accepted (data : ByteBuffer) : Prop where
  header : 8 ≤ data.length
  known : 0x01 ≤ readU32 data 0 ∧ readU32 data 0 ≤ 0x13
  minimum : requiredPacketLength (readU32 data 0) ≤ readU32 data 4
  whole : (readU32 data 4).toNat ≤ data.length

/-- The value is the word number `i` behind the header, and that word is inside of
the declared length. -/
structure ReadInside (data : ByteBuffer) (i : Nat) (value : UInt32) : Prop where
  inside : 8 + 4 * i + 4 ≤ (readU32 data 4).toNat
  read : value = readU32 data (8 + 4 * i)

end SaharaPacketParser

namespace SaharaPacket

/-- All the members of the packet object, whichever form it has. -/
def members : SaharaPacket → List UInt32
  | readChipId chipIdLo chipIdHi serialNum msmId oemId modelId _ =>
    [chipIdLo, chipIdHi, serialNum, msmId, oemId, modelId]
  | p => p.fields

/-- Whether it is a chip id without the extended members. -/
def isV2ChipId : SaharaPacket → Bool
  | readChipId _ _ _ _ _ _ isV3 => !isV3
  | _ => false

theorem members_eq_fields {p : SaharaPacket} (h : p.isV2ChipId = false) : p.members = p.fields := by
  cases p with
  | readChipId a b c d e f isV3 =>
    cases isV3 with
    | false => cases h
    | true => rfl
  | _ => rfl

/-- The fields of a packet fit into the length its command needs. -/
theorem fieldsEnd_le_required {p : SaharaPacket} (h : p.command ≠ 0x0A) :
    p.fieldsEnd ≤ (requiredPacketLength p.command).toNat := by
  cases p with
  | readChipId a b c d e f isV3 => exact absurd rfl h
  | _ => simp [fieldsEnd, fields, command, requiredPacketLength]

end SaharaPacket

namespace SaharaPacketParser

variable {data : ByteBuffer} {p : SaharaPacket}

theorem parseCommand_known_ok {cmd : UInt32} (h : 0x01 ≤ cmd ∧ cmd ≤ 0x13) :
    ∃ p, parseCommand data cmd = .ok p := by
  obtain ⟨hlo, hhi⟩ := h
  rw [UInt32.le_iff_toNat_le] at hlo hhi
  simp only [UInt32.reduceToNat] at hlo hhi
  generalize hk : cmd.toNat = k at hlo hhi
  obtain rfl : cmd = UInt32.ofNat k := by rw [← hk, UInt32.ofNat_toNat]
  interval_cases k <;> exact ⟨_, rfl⟩

theorem parse_ok_iff : (∃ p, parse data = .ok p) ↔ Accepted data := by
  constructor
  · rintro ⟨p, h⟩
    obtain ⟨hheader, hwhole, hminimum, hcommand⟩ := parse_cases h
    obtain ⟨hlo, hhi⟩ := parseCommand_known hcommand
    exact ⟨hheader, ⟨UInt32.le_iff_toNat_le.mpr hlo, UInt32.le_iff_toNat_le.mpr hhi⟩, hminimum,
      hwhole⟩
  · intro h
    have hheader := h.header
    have hwhole := h.whole
    simp only [parse]
    rw [if_neg (by omega), if_neg (by omega), if_neg (UInt32.not_lt.mpr h.minimum)]
    exact parseCommand_known_ok h.known

theorem isComplete_of_parse (h : parse data = .ok p) : isComplete data = true := by
  obtain ⟨hheader, hwhole, -, -⟩ := parse_cases h
  rw [isComplete, if_neg (by omega)]
  exact decide_eq_true hwhole

/-- The fields of a form are read from inside of the declared length. -/
theorem fields_inside (h : parse data = .ok p) {i : Nat} {value : UInt32}
    (hvalue : p.fields[i]? = some value) : ReadInside data i value := by
  obtain ⟨-, -, hminimum, hcommand⟩ := parse_cases h
  obtain ⟨hcmd, hfields⟩ := parseCommand_cases hcommand
  have hi : i < p.fields.length := (List.getElem?_eq_some_iff.mp hvalue).1
  have hend : p.fieldsEnd ≤ (readU32 data 4).toNat := by
    by_cases hchip : readU32 data 0 = 0x0A
    · rw [hchip] at hminimum hcommand
      obtain rfl := Except.ok.inj hcommand
      have hmin : 16 ≤ (readU32 data 4).toNat := UInt32.le_iff_toNat_le.mp hminimum
      by_cases hV3 : readU32 data 4 ≥ 40
      · have hlong : 40 ≤ (readU32 data 4).toNat := UInt32.le_iff_toNat_le.mp hV3
        simp only [SaharaPacket.fieldsEnd, SaharaPacket.fields, hV3, decide_true, if_true,
          List.length_cons, List.length_nil]
        omega
      · simp only [SaharaPacket.fieldsEnd, SaharaPacket.fields, hV3, decide_false,
          Bool.false_eq_true, if_false, List.length_cons, List.length_nil]
        omega
    · rw [← hcmd] at hminimum hchip
      exact Nat.le_trans (SaharaPacket.fieldsEnd_le_required hchip)
        (UInt32.le_iff_toNat_le.mp hminimum)
  rw [SaharaPacket.fieldsEnd] at hend
  refine ⟨by omega, ?_⟩
  rw [hfields, List.getElem?_map, List.getElem?_range hi] at hvalue
  exact (Option.some.inj hvalue).symm

/-- A V2 chip id is declared with less than 40 bytes, and has no extended members. -/
theorem parse_v2ChipId (h : parse data = .ok p) (hV2 : p.isV2ChipId = true) :
    readU32 data 0 = 0x0A ∧ readU32 data 4 < 40 ∧
      p.members = p.fields ++ [0, 0, 0, 0] ∧ p.fields.length = 2 := by
  obtain ⟨-, -, -, hcommand⟩ := parse_cases h
  obtain ⟨hcmd, -⟩ := parseCommand_cases hcommand
  have hchip : readU32 data 0 = 0x0A := by
    rw [← hcmd]
    cases p with
    | readChipId a b c d e f isV3 => rfl
    | _ => cases hV2
  rw [hchip] at hcommand
  obtain rfl := Except.ok.inj hcommand
  have hV3 : ¬ readU32 data 4 ≥ 40 := by
    simpa [SaharaPacket.isV2ChipId] using hV2
  refine ⟨hchip, UInt32.not_le.mp hV3, ?_, ?_⟩ <;>
    simp [SaharaPacket.members, SaharaPacket.fields, hV3]

/-- The parser accepts what satisfies its conditions, and nothing else. An accepted
string is complete, and all members of the packet are read from inside of its
declared length, but for the extended members of a V2 chip id, which are zero. -/
theorem parse_accepted (data : ByteBuffer) :
    ((∃ p, parse data = .ok p) ↔ Accepted data) ∧
      ∀ p, parse data = .ok p → isComplete data = true ∧
        ∀ i value, p.members[i]? = some value → ReadInside data i value ∨
          readU32 data 0 = 0x0A ∧ readU32 data 4 < 40 ∧ 2 ≤ i ∧ value = 0 := by
  refine ⟨parse_ok_iff, fun p h => ⟨isComplete_of_parse h, fun i value hvalue => ?_⟩⟩
  cases hV2 : p.isV2ChipId with
  | false =>
    rw [SaharaPacket.members_eq_fields hV2] at hvalue
    exact .inl (fields_inside h hvalue)
  | true =>
    obtain ⟨hchip, hshort, hmembers, hlength⟩ := parse_v2ChipId h hV2
    rw [hmembers] at hvalue
    rcases Nat.lt_or_ge i 2 with hi | hi
    · rw [List.getElem?_append_left (by omega)] at hvalue
      exact .inl (fields_inside h hvalue)
    · rw [List.getElem?_append_right (by omega)] at hvalue
      have hzero : value ∈ [0, 0, 0, 0] := List.mem_of_getElem? hvalue
      refine .inr ⟨hchip, hshort, hi, ?_⟩
      simpa using hzero

/-- A chip id of 16 bytes: no byte is there that the serial number is read from. -/
theorem parse_shortChipId :
    ¬ ∀ data, ((∃ p, parse data = .ok p) ↔ Accepted data) ∧
      ∀ p, parse data = .ok p → isComplete data = true ∧
        ∀ i value, p.members[i]? = some value → ReadInside data i value := by
  intro h
  have hparse : parse [0x0A, 0, 0, 0, 16, 0, 0, 0, 1, 0, 0, 0, 2, 0, 0, 0]
      = .ok (.readChipId 1 2 0 0 0 0 false) := by decide
  have hinside := ((h _).2 _ hparse).2 2 0 rfl |>.inside
  revert hinside
  decide

end SaharaPacketParser

end MBootCore
