import Mathlib.Tactic.IntervalCases
import MBootCore.Sahara.Packets
import MBootCore.Support.Scan

/-!
# Sahara — PacketRoundTrip

The serializer and the parser are inverse on every one of the 19 layouts.

Both directions go through one description of a packet's bytes: the words
`command :: length :: fields`, then the zero bytes that pad the layout
(`serialize_eq`). What the parser can return is said once, in `parse_cases`;
the accepted bytes are then rebuilt word by word.
-/

namespace MBootCore

open LittleEndian
open scoped Scan

namespace SaharaPacket

/-- The 32-bit words after the header, in layout order. -/
def fields : SaharaPacket → List UInt32
  | hello version versionSupported cmdPacketLength mode =>
    [version, versionSupported, cmdPacketLength, mode]
  | helloResponse version versionSupported status mode =>
    [version, versionSupported, status, mode]
  | readData imageId dataOffset dataLength => [imageId, dataOffset, dataLength]
  | endImageTransfer imageId status => [imageId, status]
  | doneResponse imageTxStatus => [imageTxStatus]
  | memoryDebug memTableAddr memTableLen => [memTableAddr, memTableLen]
  | readChipId chipIdLo chipIdHi serialNum msmId oemId modelId isV3 =>
    if isV3 then [chipIdLo, chipIdHi, serialNum, msmId, oemId, modelId]
    else [chipIdLo, chipIdHi]
  | commandSwitchMode mode => [mode]
  | commandExec clientCmd => [clientCmd]
  | commandExecResponse clientCmd respLength => [clientCmd, respLength]
  | executeData clientCmd dataLength => [clientCmd, dataLength]
  | executeDataResponse clientCmd status => [clientCmd, status]
  | rxData imageId dataOffset dataLength => [imageId, dataOffset, dataLength]
  | rxDataResponse imageId status => [imageId, status]
  | done | reset | resetResponse | commandReady | resetStateMachine => []

/-- Where the fields end; the rest of the layout is reserved. -/
def fieldsEnd (p : SaharaPacket) : Nat := 8 + 4 * p.fields.length

/-- The extended chip-id fields are present only in the V3 form. -/
def ExtendedOnlyInV3 : SaharaPacket → Prop
  | readChipId _ _ serialNum msmId oemId modelId false =>
    serialNum = 0 ∧ msmId = 0 ∧ oemId = 0 ∧ modelId = 0
  | _ => True

theorem fieldsEnd_le_length (p : SaharaPacket) : p.fieldsEnd ≤ p.length.toNat := by
  cases p with
  | readChipId _ _ _ _ _ _ isV3 => cases isV3 <;> simp [fieldsEnd, fields, length]
  | _ => simp [fieldsEnd, fields, length]

end SaharaPacket

/-- Every byte of `b` past the fields of `p` is zero. -/
def ReservedZero (p : SaharaPacket) (b : ByteBuffer) : Prop :=
  ∀ x ∈ b.drop p.fieldsEnd, x = 0

/-! ## Words -/

/-- Words laid out one after the other. -/
def words (ws : List UInt32) : ByteBuffer := ws.flatMap encode32

@[simp] theorem words_nil : words [] = [] := rfl

@[simp] theorem words_cons (w : UInt32) (ws : List UInt32) :
    words (w :: ws) = encode32 w ++ words ws := rfl

@[simp] theorem words_length (ws : List UInt32) : (words ws).length = 4 * ws.length := by
  induction ws with
  | nil => rfl
  | cons w ws ih =>
    simp only [words_cons, List.length_append, encode32_length, ih, List.length_cons]
    omega

namespace SaharaPacketParser

theorem readU32_encode32 (w : UInt32) (rest : ByteBuffer) :
    readU32 (encode32 w ++ rest) 0 = w := by
  simp [readU32, encode32]

theorem readU32_append (pre rest : ByteBuffer) (offset : Nat) :
    readU32 (pre ++ rest) (pre.length + offset) = readU32 rest offset := by
  simp only [readU32, List.length_append, List.getD_eq_getElem?_getD]
  by_cases h : offset + 4 > rest.length
  · rw [if_pos (by omega), if_pos h]
  · rw [if_neg (by omega), if_neg h]
    simp only [Nat.add_assoc, List.getElem?_append_right (Nat.le_add_right _ _),
      Nat.add_sub_cancel_left]

/-- Word `i` of a word list is read at offset `4 * i`. -/
theorem readU32_words (ws : List UInt32) (rest : ByteBuffer) (i : Nat) (h : i < ws.length) :
    readU32 (words ws ++ rest) (4 * i) = ws[i] := by
  induction ws generalizing i with
  | nil => simp at h
  | cons w ws ih =>
    cases i with
    | zero =>
      rw [words_cons, List.append_assoc]
      exact readU32_encode32 w _
    | succ i =>
      rw [words_cons, List.append_assoc, show 4 * (i + 1) = (encode32 w).length + 4 * i by
        rw [encode32_length]; omega, readU32_append]
      simpa using ih i (by simpa using h)

/-- A word read in bounds is the next four bytes. -/
theorem drop_eq_readU32 (data : ByteBuffer) (offset : Nat) (h : offset + 4 ≤ data.length) :
    data.drop offset = encode32 (readU32 data offset) ++ data.drop (offset + 4) := by
  have hget : ∀ i, offset + i < data.length →
      data.drop (offset + i) = data.getD (offset + i) 0 :: data.drop (offset + i + 1) := by
    intro i hi
    rw [List.drop_eq_getElem_cons hi, List.getD_eq_getElem _ _ hi]
  have h0 := hget 0 (by omega)
  have h1 := hget 1 (by omega)
  have h2 := hget 2 (by omega)
  have h3 := hget 3 (by omega)
  simp only [Nat.add_zero] at h0
  rw [h0, h1, h2, h3, readU32, if_neg (by omega), encode32_decode32]
  rfl

/-- The first `k` words of a long enough buffer, and what is left. -/
theorem eq_words_append (data : ByteBuffer) (k offset : Nat)
    (h : offset + 4 * k ≤ data.length) :
    data.drop offset = words ((List.range k).map fun i => readU32 data (offset + 4 * i))
      ++ data.drop (offset + 4 * k) := by
  induction k generalizing offset with
  | zero => simp
  | succ k ih =>
    rw [drop_eq_readU32 data offset (by omega), ih (offset + 4) (by omega),
      List.range_succ_eq_map, List.map_cons, words_cons, List.map_map, List.append_assoc]
    have hshift : (fun i => readU32 data (offset + 4 + 4 * i))
        = (fun i => readU32 data (offset + 4 * i)) ∘ Nat.succ := by
      funext i
      simp only [Function.comp, Nat.succ_eq_add_one]
      congr 1
      omega
    rw [hshift, show offset + 4 + 4 * k = offset + 4 * (k + 1) by omega]
    rfl

end SaharaPacketParser

/-! ## The serializer's output -/

open SaharaPacketSerializer SaharaPacketParser

theorem resize_of_length_le {buffer : ByteBuffer} {n : Nat} (h : buffer.length ≤ n) :
    buffer.resize n = buffer ++ List.replicate (n - buffer.length) 0 := by
  rw [ByteBuffer.resize, List.take_of_length_le h]

/-- What `serialize` writes for every kind. -/
theorem serialize_eq (p : SaharaPacket) :
    serialize p = .ok (words (p.command :: p.length :: p.fields)
      ++ List.replicate (p.length.toNat - p.fieldsEnd) 0) := by
  cases p with
  | readChipId _ _ _ _ _ _ isV3 =>
    cases isV3 <;> simp [serialize, canSerialize, SaharaPacket.command, SaharaPacket.length,
      SaharaPacket.fields, SaharaPacket.fieldsEnd, resize_of_length_le]
  | _ => simp [serialize, canSerialize, SaharaPacket.command, SaharaPacket.length,
      SaharaPacket.fields, SaharaPacket.fieldsEnd, resize_of_length_le]

theorem serialize_length {p : SaharaPacket} {b : ByteBuffer} (h : serialize p = .ok b) :
    b.length = p.length.toNat := by
  rw [serialize_eq, Except.ok.injEq] at h
  have hle := p.fieldsEnd_le_length
  rw [← h, List.length_append, words_length, List.length_replicate]
  simp only [SaharaPacket.fieldsEnd, List.length_cons] at hle ⊢
  omega

/-! ## The parser on serialized packets -/

theorem requiredPacketLength_le (p : SaharaPacket) :
    requiredPacketLength p.command ≤ p.length := by
  cases p with
  | readChipId _ _ _ _ _ _ isV3 =>
    cases isV3 <;> simp [requiredPacketLength, SaharaPacket.command, SaharaPacket.length]
  | _ => simp [requiredPacketLength, SaharaPacket.command, SaharaPacket.length]

/-- `parseCommand` rebuilds the packet whose header and fields it finds. -/
theorem parseCommand_words (p : SaharaPacket) (hp : p.ExtendedOnlyInV3) (rest : ByteBuffer) :
    parseCommand (words (p.command :: p.length :: p.fields) ++ rest) p.command = .ok p := by
  cases p with
  | readChipId chipIdLo chipIdHi serialNum msmId oemId modelId isV3 =>
    -- only this kind reads its length again, to tell the two forms apart
    cases isV3 with
    | false =>
      obtain ⟨rfl, rfl, rfl, rfl⟩ := hp
      have hread := readU32_words [0x0A, 16, chipIdLo, chipIdHi] rest
      change parseCommand (words [0x0A, 16, chipIdLo, chipIdHi] ++ rest) 0x0A = _
      generalize words [0x0A, 16, chipIdLo, chipIdHi] ++ rest = data at hread ⊢
      have h1 : readU32 data 4 = 16 := hread 1 (by simp)
      have h2 : readU32 data 8 = chipIdLo := hread 2 (by simp)
      have h3 : readU32 data 12 = chipIdHi := hread 3 (by simp)
      simp [parseCommand, h1, h2, h3]
    | true =>
      have hread := readU32_words
        [0x0A, 40, chipIdLo, chipIdHi, serialNum, msmId, oemId, modelId] rest
      change parseCommand
        (words [0x0A, 40, chipIdLo, chipIdHi, serialNum, msmId, oemId, modelId] ++ rest) 0x0A = _
      generalize words [0x0A, 40, chipIdLo, chipIdHi, serialNum, msmId, oemId, modelId] ++ rest
        = data at hread ⊢
      have h1 : readU32 data 4 = 40 := hread 1 (by simp)
      have h2 : readU32 data 8 = chipIdLo := hread 2 (by simp)
      have h3 : readU32 data 12 = chipIdHi := hread 3 (by simp)
      have h4 : readU32 data 16 = serialNum := hread 4 (by simp)
      have h5 : readU32 data 20 = msmId := hread 5 (by simp)
      have h6 : readU32 data 24 = oemId := hread 6 (by simp)
      have h7 : readU32 data 28 = modelId := hread 7 (by simp)
      simp [parseCommand, h1, h2, h3, h4, h5, h6, h7]
  | _ =>
    simp [parseCommand, readU32, encode32, SaharaPacket.command, SaharaPacket.length,
      SaharaPacket.fields]

theorem parse_serialize {p : SaharaPacket} (hp : p.ExtendedOnlyInV3) {b : ByteBuffer}
    (h : serialize p = .ok b) : parse b = .ok p := by
  have hlen := serialize_length h
  rw [serialize_eq, Except.ok.injEq] at h
  have hread := readU32_words (p.command :: p.length :: p.fields)
    (List.replicate (p.length.toNat - p.fieldsEnd) 0)
  rw [h] at hread
  have hcmd : readU32 b 0 = p.command := hread 0 (by simp)
  have hdecl : readU32 b 4 = p.length := hread 1 (by simp)
  have hmin : 8 ≤ p.length.toNat := by
    have := p.fieldsEnd_le_length
    simp only [SaharaPacket.fieldsEnd] at this
    omega
  have hreq := requiredPacketLength_le p
  simp only [parse, hcmd, hdecl, hlen]
  rw [if_neg (by omega), if_neg (by omega), if_neg (UInt32.not_lt.mpr hreq), ← h]
  exact parseCommand_words p hp _

/-! ## What the parser can return -/

theorem parseCommand_known {data : ByteBuffer} {cmd : UInt32} {p : SaharaPacket}
    (h : parseCommand data cmd = .ok p) : 1 ≤ cmd.toNat ∧ cmd.toNat ≤ 19 := by
  by_contra hout
  have hne : ∀ k : UInt32, 1 ≤ k.toNat → k.toNat ≤ 19 → cmd ≠ k := by
    rintro k h1 h2 rfl
    exact hout ⟨h1, h2⟩
  simp [parseCommand, hne] at h

/-- The returned packet has the command it was asked for, and its fields are
the words that follow the header. -/
theorem parseCommand_cases {data : ByteBuffer} {cmd : UInt32} {p : SaharaPacket}
    (h : parseCommand data cmd = .ok p) :
    p.command = cmd ∧
      p.fields = (List.range p.fields.length).map fun i => readU32 data (8 + 4 * i) := by
  obtain ⟨hlo, hhi⟩ := parseCommand_known h
  generalize hk : cmd.toNat = k at hlo hhi
  obtain rfl : cmd = UInt32.ofNat k := by rw [← hk, UInt32.ofNat_toNat]
  by_cases hchip : k = 10
  · subst hchip
    obtain rfl := Except.ok.inj h
    by_cases hV3 : readU32 data 4 ≥ 40
    · simp [hV3, SaharaPacket.command, SaharaPacket.fields, List.range_succ]
    · simp [hV3, SaharaPacket.command, SaharaPacket.fields, List.range_succ]
  · interval_cases k
    case «10» => exact absurd rfl hchip
    all_goals
      obtain rfl := Except.ok.inj h
      exact ⟨rfl, rfl⟩

/-- `parse` checks lengths only; the packet comes from `parseCommand`. -/
theorem parse_cases {data : ByteBuffer} {p : SaharaPacket} (h : parse data = .ok p) :
    8 ≤ data.length ∧ (readU32 data 4).toNat ≤ data.length ∧
      requiredPacketLength (readU32 data 0) ≤ readU32 data 4 ∧
      parseCommand data (readU32 data 0) = .ok p := by
  simp only [parse] at h
  by_cases h1 : data.length < 8
  · simp [h1] at h
  by_cases h2 : data.length < (readU32 data 4).toNat
  · simp [h1, h2] at h
  by_cases h3 : readU32 data 4 < requiredPacketLength (readU32 data 0)
  · simp [h1, h2, h3] at h
  rw [if_neg h1, if_neg h2, if_neg h3] at h
  exact ⟨by omega, by omega, UInt32.not_lt.mp h3, h⟩

theorem eq_replicate_of_reservedZero {p : SaharaPacket} {b : ByteBuffer}
    (h : ReservedZero p b) : b.drop p.fieldsEnd = List.replicate (b.length - p.fieldsEnd) 0 := by
  rw [List.eq_replicate_iff]
  exact ⟨List.length_drop, h⟩

/-- An accepted byte string of exactly its kind's length is rebuilt. -/
theorem serialize_of_parse {b : ByteBuffer} {p : SaharaPacket} (h : parse b = .ok p)
    (hsize : (readU32 b 4).toNat = b.length) (hkind : readU32 b 4 = p.length)
    (hzero : ReservedZero p b) : serialize p = .ok b := by
  obtain ⟨-, -, -, hp⟩ := parse_cases h
  obtain ⟨hcmd, hfields⟩ := parseCommand_cases hp
  have hlen : b.length = p.length.toNat := by rw [← hsize, hkind]
  have hend := p.fieldsEnd_le_length
  have hsplit := eq_words_append b (p.fields.length + 2) 0 (by
    simp only [SaharaPacket.fieldsEnd] at hend
    omega)
  have hwords : (List.range (p.fields.length + 2)).map (fun i => readU32 b (0 + 4 * i))
      = p.command :: p.length :: p.fields := by
    rw [List.range_succ_eq_map, List.range_succ_eq_map, hcmd, ← hkind]
    simp only [List.map_cons, List.map_map]
    refine congrArg₂ _ rfl (congrArg₂ _ rfl ?_)
    conv_rhs => rw [hfields]
    apply List.map_congr_left
    intro i _
    simp only [Function.comp, Nat.succ_eq_add_one]
    congr 1
    omega
  have hdrop : 0 + 4 * (p.fields.length + 2) = p.fieldsEnd := by
    simp only [SaharaPacket.fieldsEnd]
    omega
  rw [hwords, List.drop_zero, hdrop, eq_replicate_of_reservedZero hzero, hlen] at hsplit
  rw [serialize_eq, ← hsplit]

/-! ## The codec -/

/-- Serializing and parsing are inverse: on packets whose extended fields
belong to their form, and on the accepted byte strings that are as long as
their kind's layout. -/
theorem codec_inverse :
    (∀ p : SaharaPacket, p.ExtendedOnlyInV3 →
      ∃ b, serialize p = .ok b ∧ parse b = .ok p ∧ b.length = p.length.toNat) ∧
    (∀ (b : ByteBuffer) (p : SaharaPacket), parse b = .ok p →
      (readU32 b 4).toNat = b.length → readU32 b 4 = p.length → ReservedZero p b →
        serialize p = .ok b) := by
  constructor
  · intro p hp
    have h := serialize_eq p
    exact ⟨_, h, parse_serialize hp h, serialize_length h⟩
  · intro b p h hsize hkind hzero
    exact serialize_of_parse h hsize hkind hzero

/-- Both directions at a V3 chip-id packet. -/
theorem codec_inverse_readChipId :
    (∃ b, serialize (.readChipId 1 2 3 4 5 6 true) = .ok b ∧
      parse b = .ok (.readChipId 1 2 3 4 5 6 true) ∧ b.length = 40) ∧
    serialize (.doneResponse 7) = .ok [6, 0, 0, 0, 12, 0, 0, 0, 7, 0, 0, 0] := by
  refine ⟨codec_inverse.1 (.readChipId 1 2 3 4 5 6 true) trivial, ?_⟩
  exact codec_inverse.2 [6, 0, 0, 0, 12, 0, 0, 0, 7, 0, 0, 0] (.doneResponse 7) (by decide)
    (by decide) (by decide) (by unfold ReservedZero; decide)

/-- A DONE packet whose header declares 12 bytes is accepted, and serialized
to the 8 bytes of its kind. -/
theorem serialize_parse_long_done :
    ¬ ∀ (b : ByteBuffer) (p : SaharaPacket), parse b = .ok p →
      (readU32 b 4).toNat = b.length → ReservedZero p b → serialize p = .ok b := by
  intro h
  have hdone := h [5, 0, 0, 0, 12, 0, 0, 0, 0, 0, 0, 0] .done (by decide) (by decide)
    (by unfold ReservedZero; decide)
  exact absurd hdone (by decide)

end MBootCore
