import MBootCore.Firehose.XmlTokens
import MBootCore.Generic.AdapterSpec

/-!
# Generic — StorageReport

The storage info a device reports, and what `FirehoseAdapter::getStorageInfo`
makes of it. The parser takes the tag after a child's for the child itself, so
that the text of a leaf two levels down is where an element is expected: the
report of a device does not parse, and the adapter returns its defaults. A
refusal is not looked for.
-/

namespace MBootCore

open FirehoseXmlEngine
open scoped Scan

inductive StorageType where
  | unknown | eMMC | ufs | nand | nor | spi
  deriving DecidableEq, Repr

def storageTypeFromName (name : String) : StorageType :=
  if name = "emmc" ∨ name = "eMMC" then .eMMC
  else if name = "ufs" ∨ name = "UFS" then .ufs
  else if name = "nand" ∨ name = "NAND" then .nand
  else if name = "nor" ∨ name = "NOR" then .nor
  else if name = "spi" ∨ name = "SPI" then .spi
  else .unknown

/-- All the members of the source's `StorageInfo`. -/
structure FullStorageInfo extends StorageInfo where
  type : StorageType := .unknown
  name : String := ""
  pageSize : UInt32 := 0
  capacity : UInt64 := 0
  deriving DecidableEq, Repr

def FullStorageInfo.capacityBytes (si : FullStorageInfo) : UInt64 :=
  if si.capacity > 0 then si.capacity
  else if si.sectorSize ≠ 0 ∧
      si.numSectors.toNat > SectorMapping.maxUint64 / si.sectorSize.toNat then 0
  else si.numSectors * si.sectorSize.toUInt64

theorem FullStorageInfo.capacityBytes_empty {si : FullStorageInfo} (hcapacity : si.capacity = 0)
    (hnum : si.numSectors = 0) : si.capacityBytes = 0 := by
  rw [capacityBytes, hcapacity, hnum]
  simp

namespace FirehoseAdapter

def storageTypeFromFirehose (membType : String) : StorageType :=
  if membType = "UFS" ∨ membType = "ufs" then .ufs
  else if membType = "eMMC" ∨ membType = "emmc" then .eMMC
  else if membType = "NAND" ∨ membType = "nand" then .nand
  else if membType = "NOR" ∨ membType = "nor" then .nor
  else if membType = "SPI" ∨ membType = "spi" then .spi
  else .unknown

/-- The loops over the children: the last `memb_type` of a `storage_info`
counts. -/
def membType (root : XmlElement) : StorageType :=
  let names := (root.children.filter fun child => child.name = "storage_info").flatMap
    fun child => child.children.filter fun infoChild => infoChild.name = "memb_type"
  names.foldl (fun _ infoChild => storageTypeFromFirehose infoChild.content) .ufs

/-- What is made of an answer; one that does not parse leaves the defaults. -/
def storageInfoOf (memoryName rawXml : String) : FullStorageInfo :=
  match FirehoseXmlEngine.parse rawXml with
  | .error _ => { type := .ufs, name := memoryName, sectorSize := 4096 }
  | .ok root =>
    let capacity := parseStorageSize root
    { type := membType root
      name := memoryName
      capacity := capacity
      sectorSize := 4096
      numSectors := if capacity > 0 then capacity else 0 }

/-- `getStorageInfo` with all that it returns. -/
def getFullStorageInfo {τ : Type} (io : ITransport τ) : Method τ FullStorageInfo := do
  checkOpen
  let storageResult ← onProtocol (FirehoseProtocol.getStorageInfo io)
  let config ← Program.gets fun s => s.protocol.config
  pure (storageInfoOf config.memoryName storageResult.rawXml)

/-- The members the partition code reads. -/
theorem storageInfoOf_toStorageInfo (memoryName rawXml : String) :
    (storageInfoOf memoryName rawXml).toStorageInfo
      = match FirehoseXmlEngine.parse rawXml with
        | .error _ => { sectorSize := 4096 }
        | .ok root => { numSectors := parseStorageSize root, sectorSize := 4096 } := by
  rw [storageInfoOf]
  cases FirehoseXmlEngine.parse rawXml with
  | error e => rfl
  | ok root =>
    have hnum : (if parseStorageSize root > 0 then parseStorageSize root else 0)
        = parseStorageSize root := by
      split
      · rfl
      · rename_i h
        exact (UInt64.le_zero_iff.mp (UInt64.not_lt.mp h)).symm
    simp only [hnum]

theorem getStorageInfo_eq {τ : Type} (io : ITransport τ) :
    getStorageInfo io
      = getFullStorageInfo io >>= fun si => (pure si.toStorageInfo : Method τ StorageInfo) := by
  rw [getStorageInfo, getFullStorageInfo, Program.bind_assoc]
  refine congrArg _ (funext fun _ => ?_)
  rw [Program.bind_assoc]
  refine congrArg _ (funext fun storageResult => funext fun s => ?_)
  have hinfo := storageInfoOf_toStorageInfo s.protocol.config.memoryName storageResult.rawXml
  show _ = (Except.ok (storageInfoOf _ _).toStorageInfo, s)
  rw [hinfo]
  cases FirehoseXmlEngine.parse storageResult.rawXml <;> rfl

/-! ## Answers -/

section Answers

variable {τ : Type} {io : ITransport τ} {s : FirehoseAdapter τ} {buf : ByteBuffer}

/-- The adapter is open and not cancelled, and the device answers the request
with the bytes. -/
def AnsweredWith (io : ITransport τ) (s : FirehoseAdapter τ) (buf : ByteBuffer) : Prop :=
  s.isOpen = true ∧ s.protocol.cancelled = false ∧ ∃ n l₁ l₂,
    Link.write io (wireText FirehoseCommand.getStorageInfo.serialize) s.protocol.link
      = (.ok n, l₁) ∧
    Link.read io 1 8192 l₁ = (.ok buf, l₂)

/-- An answer is always taken. -/
theorem getFullStorageInfo_answered (h : AnsweredWith io s buf) :
    ∃ t, getFullStorageInfo io s
      = (.ok (storageInfoOf s.protocol.config.memoryName (answerIn buf).rawXml), t) := by
  obtain ⟨hopen, hcancelled, n, l₁, l₂, hwrite, hread⟩ := h
  have hanswer : FirehoseProtocol.getStorageInfo io s.protocol
      = (.ok (answerIn buf), s.protocol.withLink l₂) := by
    have hcheck : FirehoseProtocol.checkCancelled s.protocol = (.ok (), s.protocol) :=
      FirehoseProtocol.checkCancelled_passes hcancelled
    have hcheck' : FirehoseProtocol.checkCancelled (s.protocol.withLink l₁)
        = (.ok (), s.protocol.withLink l₁) := FirehoseProtocol.checkCancelled_passes hcancelled
    have hsent := FirehoseProtocol.onLink_run hwrite
    have hreceived : FirehoseProtocol.onLink (Link.read io 1 8192) (s.protocol.withLink l₁)
        = (.ok buf, s.protocol.withLink l₂) := FirehoseProtocol.onLink_run hread
    rw [FirehoseProtocol.getStorageInfo, FirehoseProtocol.sendCommand,
      FirehoseProtocol.sendXmlCommand, Program.run_bind_ok hcheck, Program.run_bind_ok hsent,
      FirehoseProtocol.receiveResponse, Program.run_bind_ok hcheck',
      Program.run_bind_ok hreceived]
    rfl
  refine ⟨s.withProtocol (s.protocol.withLink l₂), ?_⟩
  rw [getFullStorageInfo, Program.run_bind_ok (checkOpen_passes hopen),
    Program.run_bind_ok (onProtocol_run hanswer), Program.run_bind_ok (Program.run_gets _ _)]
  rfl

/-- An open adapter on a device with one answer left. -/
def answeringOnce (buf : ByteBuffer) : FirehoseAdapter Transport where
  protocol := { link := { transport := { replies := [.ok buf], writeResults := [] } } }
  isOpen := true

theorem answeringOnce_answers (buf : ByteBuffer) :
    AnsweredWith Transport.io (answeringOnce buf) buf :=
  ⟨rfl, rfl, _, _, _, rfl, rfl⟩

end Answers

/-! ## The report -/

/-- The report of the virtual device, up to the memory type. -/
def reportOpening : String :=
  "<getstorageinfo value=\"ACK\">\n" ++
  "  <storage_info>\n" ++
  "    <version>1</version>\n" ++
  "    <memb_type>"

/-- What follows the memory type and its end tag. -/
def reportClosing (numSectors : UInt64) : String :=
  "\n    <num_entires>1</num_entires>\n" ++
  "    <lun_info>\n" ++
  "      <lun>0</lun>\n" ++
  "      <lun_type>UFS</lun_type>\n" ++
  "      <size>" ++ toString numSectors.toNat ++ "</size>\n" ++
  "      <attributes>1</attributes>\n" ++
  "      <bdev_name>sda</bdev_name>\n" ++
  "    </lun_info>\n" ++
  "  </storage_info>\n" ++
  "</getstorageinfo>"

/-- A name of a memory type. -/
abbrev MemoryName : Type := { name : String // storageTypeFromName name ≠ .unknown }

/-- A report as it is sent. -/
def storageReport (name : MemoryName) (numSectors : UInt64) : ByteBuffer :=
  wireText (reportOpening ++ name.val ++ "</memb_type>" ++ reportClosing numSectors)

/-- What holds of the ten names holds of every name. -/
theorem memoryName_cases {p : String → Prop} (name : MemoryName)
    (eMMC : p "emmc" ∧ p "eMMC") (ufs : p "ufs" ∧ p "UFS") (nand : p "nand" ∧ p "NAND")
    (nor : p "nor" ∧ p "NOR") (spi : p "spi" ∧ p "SPI") : p name.val := by
  obtain ⟨text, hname⟩ := name
  rw [storageTypeFromName] at hname
  split_ifs at hname with h₁ h₂ h₃ h₄ h₅
  · rcases h₁ with rfl | rfl
    · exact eMMC.1
    · exact eMMC.2
  · rcases h₂ with rfl | rfl
    · exact ufs.1
    · exact ufs.2
  · rcases h₃ with rfl | rfl
    · exact nand.1
    · exact nand.2
  · rcases h₄ with rfl | rfl
    · exact nor.1
    · exact nor.2
  · rcases h₅ with rfl | rfl
    · exact spi.1
    · exact spi.2
  · exact absurd rfl hname

/-- A text that begins with no space and holds no tag. -/
def IsWord (text : String) : Prop :=
  ∃ c chars, text.toList = c :: chars ∧ isWhitespace c = false ∧ ∀ d ∈ c :: chars, d ≠ '<'

theorem memoryName_word (name : MemoryName) : IsWord name.val := by
  have hword {text : String} {c : Char} {chars : List Char} (htext : text.toList = c :: chars)
      (h : isWhitespace c = false ∧ ∀ d ∈ c :: chars, d ≠ '<') : IsWord text :=
    ⟨c, chars, htext, h⟩
  exact memoryName_cases name ⟨hword rfl (by decide), hword rfl (by decide)⟩
    ⟨hword rfl (by decide), hword rfl (by decide)⟩ ⟨hword rfl (by decide), hword rfl (by decide)⟩
    ⟨hword rfl (by decide), hword rfl (by decide)⟩ ⟨hword rfl (by decide), hword rfl (by decide)⟩

/-- Text is no element. -/
theorem parse_word {text : String} (h : IsWord text) (rest : List Char) (fuel : Nat) {depth : Nat}
    (hdepth : depth < kMaxXmlDepth) :
    parseXmlRecursive (fuel + 1) depth (text.toList ++ '<' :: rest)
      = some (.error .invalidPacket) := by
  obtain ⟨c, chars, htext, hspace, hchars⟩ := h
  rw [parseXmlRecursive, if_neg (Nat.not_le.mpr hdepth), htext, next_text hspace hchars]

theorem next_spaces {spaces : List Char} (h : ∀ c ∈ spaces, isWhitespace c = true)
    (input : List Char) : next (spaces ++ input) = next input := by
  rw [next, next, List.dropWhile_append_of_pos h]

/-- The opening as the tags it is made of. -/
theorem reportOpening_tags (tail : List Char) : reportOpening.toList ++ tail
    = '<' :: ("getstorageinfo value=\"ACK\"".toList ++ '>' :: ("\n  ".toList ++
      '<' :: ("storage_info".toList ++ '>' :: ("\n    ".toList ++
      '<' :: ("version".toList ++ '>' :: ('1' :: [] ++
      '<' :: '/' :: ("version".toList ++ '>' :: ("\n    ".toList ++
      '<' :: ("memb_type".toList ++ '>' :: tail))))))))) := by
  have hopening : reportOpening.toList = '<' :: ("getstorageinfo value=\"ACK\"".toList ++
      '>' :: ("\n  ".toList ++ '<' :: ("storage_info".toList ++ '>' :: ("\n    ".toList ++
      '<' :: ("version".toList ++ '>' :: ('1' :: [] ++ '<' :: '/' :: ("version".toList ++
      '>' :: ("\n    ".toList ++ '<' :: ("memb_type".toList ++ ['>']))))))))) := by decide
  rw [hopening]
  simp only [List.cons_append, List.append_assoc, List.nil_append]

theorem parse_version (rest : List Char) (fuel : Nat) :
    parseXmlRecursive (fuel + 3) 1 ("\n    ".toList ++
        '<' :: ("version".toList ++ '>' :: ('1' :: [] ++
        '<' :: '/' :: ("version".toList ++ '>' :: rest))))
      = some (.ok (.mk "version" [] [] "1", rest)) := by
  have htag : parseTagContent "version".toList = ⟨"version", []⟩ := by decide
  rw [parseXmlRecursive, if_neg (by decide), next_spaces (by decide),
    next_tagOpen (by decide) (by decide) (by decide)]
  simp only [htag]
  rw [parseBody, next_text (by decide) (by decide)]
  simp only
  rw [if_neg (by decide), parseBody, next_tagClose (by decide)]
  rfl

/-- `version` is taken for the content of `storage_info`, and the memory type
for a child of the root, whose text is where an element is expected. -/
theorem parse_report (name : MemoryName) (rest : List Char) (fuel : Nat) :
    parseXmlRecursive (fuel + 8) 0 (reportOpening.toList ++ (name.val.toList ++ '<' :: rest))
      = some (.error .invalidPacket) := by
  have hroot : parseTagContent "getstorageinfo value=\"ACK\"".toList
      = ⟨"getstorageinfo", [⟨"value", "ACK"⟩]⟩ := by decide
  have hinfo : parseTagContent "storage_info".toList = ⟨"storage_info", []⟩ := by decide
  have hmemb : parseTagContent "memb_type".toList = ⟨"memb_type", []⟩ := by decide
  rw [reportOpening_tags, parseXmlRecursive, if_neg (by decide),
    next_tagOpen (by decide) (by decide) (by decide)]
  simp only [hroot]
  rw [parseBody, next_spaces (by decide), next_tagOpen (by decide) (by decide) (by decide)]
  simp only [hinfo]
  rw [parse_version]
  simp only
  rw [parseBody, next_spaces (by decide), next_tagOpen (by decide) (by decide) (by decide)]
  simp only [hmemb]
  rw [parse_word (memoryName_word name) rest (fuel + 4) (by decide)]

theorem textOfBytes_toList (buf : ByteBuffer) :
    (textOfBytes buf).toList = buf.map fun b => Char.ofNat b.toNat := String.toList_ofList

theorem narrow_report (name : MemoryName) :
    VirtualFlash.Narrow (reportOpening ++ name.val).toList := by
  have hopening : VirtualFlash.Narrow reportOpening.toList := by
    rw [VirtualFlash.Narrow]
    decide
  have hname : VirtualFlash.Narrow name.val.toList := by
    refine memoryName_cases (p := fun text => ∀ c ∈ text.toList, c.toNat < 256) name ?_ ?_ ?_ ?_ ?_
    all_goals decide
  rw [String.toList_append]
  intro c hc
  exact (List.mem_append.mp hc).elim (hopening c) (hname c)

theorem textOfBytes_append (a b : ByteBuffer) :
    (textOfBytes (a ++ b)).toList = (textOfBytes a).toList ++ (textOfBytes b).toList := by
  rw [textOfBytes_toList, textOfBytes_toList, textOfBytes_toList, List.map_append]

theorem bytesOfText_append (a b : String) :
    bytesOfText (a ++ b) = bytesOfText a ++ bytesOfText b := by
  rw [bytesOfText, String.toList_append, List.map_append, bytesOfText, bytesOfText]

/-- What the adapter reads of a report: its text as far as the memory type. -/
theorem report_text (name : MemoryName) (numSectors : UInt64) :
    ∃ rest, (textOfBytes (storageReport name numSectors)).toList
      = reportOpening.toList ++ (name.val.toList ++ '<' :: rest) := by
  have hopening := VirtualFlash.textOfBytes_bytesOfText (narrow_report name)
  have htag : (textOfBytes (bytesOfText "</memb_type>")).toList
      = '<' :: "/memb_type>".toList := by decide
  refine ⟨"/memb_type>".toList
    ++ (textOfBytes (bytesOfText (reportClosing numSectors) ++ [0])).toList, ?_⟩
  rw [storageReport, wireText, bytesOfText_append, bytesOfText_append, List.append_assoc,
    List.append_assoc, textOfBytes_append, textOfBytes_append, hopening, htag,
    String.toList_append, List.append_assoc]
  rfl

theorem report_unparsed (name : MemoryName) (numSectors : UInt64) :
    FirehoseXmlEngine.parse (textOfBytes (storageReport name numSectors))
      = .error .invalidPacket := by
  obtain ⟨rest, htext⟩ := report_text name numSectors
  have hlength : 8 ≤ (textOfBytes (storageReport name numSectors)).toList.length + 1 := by
    rw [htext, List.length_append]
    have hopening : 8 ≤ reportOpening.toList.length := by decide
    omega
  obtain ⟨fuel, hfuel⟩ := Nat.exists_eq_add_of_le' hlength
  have hne : textOfBytes (storageReport name numSectors) ≠ "" := by
    intro hempty
    rw [hempty] at hlength
    exact absurd hlength (by decide)
  rw [FirehoseXmlEngine.parse, if_neg hne, hfuel, htext, parse_report]

/-- What a device answers the request with. -/
inductive StorageReply where
  | report (name : MemoryName) (numSectors : UInt64)
  | refusal (buf : { buf : ByteBuffer // (answerIn buf).isNak = true })

/-- The adapter returns what the device reported, the members the partition code
reads among it, and an error where the device refused. -/
def StorageReply.Honoured : StorageReply → Prop
  | report name numSectors => ∀ (τ : Type) (io : ITransport τ) (s : FirehoseAdapter τ),
      AnsweredWith io s (storageReport name numSectors) →
      ∃ si t, getFullStorageInfo io s = (.ok si, t) ∧
        getStorageInfo io s = (.ok si.toStorageInfo, t) ∧
        si.type = storageTypeFromName name.val ∧ si.numSectors = numSectors ∧
        (si.numSectors.toNat * si.sectorSize.toNat < 2 ^ 64 →
          si.capacityBytes.toNat = si.numSectors.toNat * si.sectorSize.toNat)
  | refusal buf => ∀ (τ : Type) (io : ITransport τ) (s : FirehoseAdapter τ),
      AnsweredWith io s buf.val → ∃ e t, getFullStorageInfo io s = (.error e, t)

theorem rawXml_answerIn (buf : ByteBuffer) : (answerIn buf).rawXml = textOfBytes buf := by
  rw [answerIn, FirehoseResponse.fromXml]
  cases FirehoseXmlEngine.parse (textOfBytes buf) <;> rfl

/-- Of every report the adapter returns the same. -/
theorem getFullStorageInfo_report {τ : Type} {io : ITransport τ} {s : FirehoseAdapter τ}
    {name : MemoryName} {numSectors : UInt64}
    (h : AnsweredWith io s (storageReport name numSectors)) :
    ∃ t, getFullStorageInfo io s
      = (.ok { type := .ufs, name := s.protocol.config.memoryName, sectorSize := 4096 }, t) := by
  obtain ⟨t, hinfo⟩ := getFullStorageInfo_answered h
  refine ⟨t, ?_⟩
  rw [hinfo, rawXml_answerIn, storageInfoOf, report_unparsed]

theorem not_honoured_refusal (buf : { buf : ByteBuffer // (answerIn buf).isNak = true }) :
    ¬ (StorageReply.refusal buf).Honoured := by
  intro h
  have hanswers := answeringOnce_answers buf.val
  obtain ⟨e, t, herror⟩ := h _ _ _ hanswers
  obtain ⟨t', hinfo⟩ := getFullStorageInfo_answered hanswers
  rw [hinfo] at herror
  cases herror

theorem empty_ufs_of_honoured {name : MemoryName} {numSectors : UInt64}
    (h : (StorageReply.report name numSectors).Honoured) :
    numSectors = 0 ∧ storageTypeFromName name.val = .ufs := by
  have hanswers := answeringOnce_answers (storageReport name numSectors)
  obtain ⟨si, t, hrun, -, htype, hnum, -⟩ := h _ _ _ hanswers
  obtain ⟨t', hinfo⟩ := getFullStorageInfo_report hanswers
  rw [hinfo] at hrun
  obtain ⟨hsi, -⟩ := Prod.mk.inj hrun
  obtain rfl := Except.ok.inj hsi
  exact ⟨hnum.symm, htype.symm⟩

/-- Honoured is a report of an empty UFS. -/
theorem honoured_iff (r : StorageReply) :
    r.Honoured ↔ ∃ name, r = .report name 0 ∧ storageTypeFromName name.val = .ufs := by
  constructor
  · intro h
    cases r with
    | refusal buf => exact absurd h (not_honoured_refusal buf)
    | report name numSectors =>
      obtain ⟨rfl, htype⟩ := empty_ufs_of_honoured h
      exact ⟨name, rfl, htype⟩
  · rintro ⟨name, rfl, htype⟩ τ io s hanswers
    obtain ⟨t, hinfo⟩ := getFullStorageInfo_report hanswers
    refine ⟨_, t, hinfo, ?_, htype.symm, rfl, fun _ => ?_⟩
    · rw [getStorageInfo_eq, Program.run_bind_ok hinfo]
      rfl
    · rw [FullStorageInfo.capacityBytes_empty rfl rfl]
      exact (Nat.zero_mul _).symm

/-- Eight sectors of eMMC are reported as an empty UFS. -/
theorem honoured_fails : ¬ ∀ r : StorageReply, r.Honoured := by
  intro h
  have htype : storageTypeFromName "eMMC" = .eMMC := by decide
  have hname : storageTypeFromName "eMMC" ≠ .unknown := by
    rw [htype]
    decide
  obtain ⟨hnum, -⟩ := empty_ufs_of_honoured (h (.report ⟨"eMMC", hname⟩ 8))
  exact absurd hnum (by decide)

end FirehoseAdapter

end MBootCore
