import MBootCore.Firehose.Acknowledging
import MBootCore.Firehose.CommandRoundTrip
import MBootCore.Firehose.SectorDevice

/-!
# Firehose — VirtualFlash

A device that carries out commands on sectors: it takes every write,
acknowledges every request and serves every read in full. Between transfers it
listens for the next command. What it hears is a parameter: it may parse the
text that was sent (`hear`), or follow a plan of the commands to come, which
also tells it where a transfer ends that is shorter than announced.
-/

namespace MBootCore

/-- What a command asks of the device. -/
inductive SectorOrder where
  | program (range : SectorRange) (length : Nat)
  | read (range : SectorRange)
  | erase (range : SectorRange)
  deriving DecidableEq, Repr

structure VirtualFlash where
  content : SectorStore
  physicalPartition : UInt32 := 0
  /-- Where the transfer under way has got to. -/
  position : Nat := 0
  /-- The bytes from there to the end of the sectors named. -/
  room : Nat := 0
  /-- The bytes still to come before the next command. -/
  remaining : Nat := 0
  plan : List SectorOrder := []

namespace VirtualFlash

variable (listen : List SectorOrder → ByteBuffer → Option SectorOrder) (fill : UInt8)

def obey (v : VirtualFlash) : SectorOrder → VirtualFlash
  | .program range length =>
    { v with
      physicalPartition := range.physicalPartition
      position := range.start
      room := range.size
      remaining := length
      plan := v.plan.tail }
  | .read range =>
    { v with
      physicalPartition := range.physicalPartition
      position := range.start
      plan := v.plan.tail }
  | .erase range => { v with content := v.content.erase fill range, plan := v.plan.tail }

def store (v : VirtualFlash) (data : ByteBuffer) : VirtualFlash :=
  { v with
    content := v.content.write v.physicalPartition v.position (data.take v.room)
    position := v.position + data.length
    room := v.room - data.length
    remaining := v.remaining - data.length }

def take (v : VirtualFlash) (data : ByteBuffer) : VirtualFlash :=
  if v.remaining = 0 then
    match listen v.plan data with
    | some order => v.obey fill order
    | none => v
  else v.store data

def serve (v : VirtualFlash) (size : Nat) : ByteBuffer × VirtualFlash :=
  ((v.content v.physicalPartition).slice v.position size, { v with position := v.position + size })

/-- A read that leaves the size open asks for an answer. -/
def io : ITransport VirtualFlash where
  read v minBytes maxBytes :=
    if minBytes < maxBytes then (.ok (wireText "<response value=\"ACK\"/>"), v)
    else (.ok (v.serve maxBytes).1, (v.serve maxBytes).2)
  write v data := (.ok data.length, v.take listen fill data)

variable {listen fill}

theorem acknowledges : FirehoseProtocol.Acknowledges (io listen fill) :=
  ⟨fun _ data => ⟨data.length, rfl⟩, fun _ => rfl⟩

theorem delivers : FirehoseProtocol.Delivers (io listen fill) := by
  intro v n
  refine ⟨(v.serve n).1, ?_, ByteStore.slice_length _ _ _⟩
  simp [io]

/-! ## One command -/

section Command

variable {l l₁ l' : Link VirtualFlash}

theorem write_transport {data : ByteBuffer} {n : Nat}
    (h : Link.write (io listen fill) data l = (.ok n, l₁)) :
    l₁.transport = l.transport.take listen fill data :=
  congrArg (fun r => Link.transport r.2) h.symm

theorem take_order {v : VirtualFlash} {data : ByteBuffer} {order : SectorOrder}
    (hidle : v.remaining = 0) (h : listen v.plan data = some order) :
    v.take listen fill data = v.obey fill order := by
  rw [take, if_pos hidle, h]

theorem take_data {v : VirtualFlash} (data : ByteBuffer) (h : v.remaining ≠ 0) :
    v.take listen fill data = v.store data :=
  if_neg h

theorem sent_transport {data : ByteBuffer} (h : Link.Sent (io listen fill) data l l') :
    l'.transport = l.transport.take listen fill data := by
  obtain ⟨n, l₁, hfirst, hwrite⟩ := h
  rcases hfirst with rfl | ⟨e, herror⟩
  · exact write_transport hwrite
  · cases congrArg Prod.fst herror

theorem answered_transport {resp : FirehoseResponse}
    (h : Link.Answered (io listen fill) l l' resp) : l'.transport = l.transport := by
  obtain ⟨buf, hread, -⟩ := h
  exact congrArg (fun r => Link.transport r.2) hread.symm

/-- What is streamed is stored from the position on as far as there is room. -/
theorem streamed_content {chunkSize : Nat} {data : ByteBuffer}
    (h : Link.Streamed (io listen fill) chunkSize data l l')
    (hremaining : data.length ≤ l.transport.remaining) :
    l'.transport.content = l.transport.content.write l.transport.physicalPartition
        l.transport.position (data.take l.transport.room) ∧
      l'.transport.remaining = l.transport.remaining - data.length ∧
      l'.transport.plan = l.transport.plan := by
  induction h with
  | done l => exact ⟨by rw [List.take_nil, SectorStore.write_nil], rfl, rfl⟩
  | @chunk rest l l₁ l₂ l' resp hrest hsent hanswered hkept hlater ih =>
    have hpos := List.length_pos_iff.mpr hrest
    have hafter : l₂.transport = l.transport.store (rest.take chunkSize) := by
      rw [answered_transport hanswered, sent_transport hsent, take_data _ (by omega)]
    have hlength : (rest.take chunkSize).length + (rest.drop chunkSize).length = rest.length := by
      rw [← List.length_append, List.take_append_drop]
    rw [hafter] at ih
    obtain ⟨hcontent, hleft, hplan⟩ := ih (by rw [store]; simp only; omega)
    refine ⟨?_, ?_, hplan⟩
    · rw [hcontent]
      simp only [store]
      rw [SectorStore.write_take_append, List.take_append_drop]
    · rw [hleft]
      simp only [store]
      omega

/-- What is collected are the bytes from the position on. -/
theorem collected_content {chunkSize remaining : Nat} {data all : ByteBuffer}
    (h : Link.Collected (io listen fill) chunkSize remaining data l l' all)
    (hremaining : remaining < 2 ^ 64) :
    all = data ++ (l.transport.content l.transport.physicalPartition).slice
        l.transport.position remaining ∧
      l'.transport.content = l.transport.content ∧
      l'.transport.remaining = l.transport.remaining ∧
      l'.transport.plan = l.transport.plan := by
  induction h with
  | done data l => exact ⟨by simp [ByteStore.slice], rfl, rfl, rfl⟩
  | @chunk remaining data chunk all l l₁ l' hpositive hread hlater ih =>
    let size := min remaining chunkSize
    have hserved : Link.read (io listen fill) size size l
        = (.ok (l.transport.serve size).1, ⟨(l.transport.serve size).2,
          l.exchanges ++ [.received (.ok (l.transport.serve size).1)]⟩) := by
      simp [Link.read, io]
    obtain ⟨hchunk, rfl⟩ := Prod.mk.inj (hserved.symm.trans hread)
    obtain rfl := Except.ok.inj hchunk
    have hlength : ((l.transport.serve size).1).length = size := ByteStore.slice_length _ _ _
    have hsub : sizeSub remaining size = remaining - size :=
      sizeSub_eq hremaining (Nat.min_le_left _ _)
    rw [hlength, hsub] at ih
    obtain ⟨hall, hcontent, hleft, hplan⟩ := ih (by omega)
    refine ⟨?_, hcontent, hleft, hplan⟩
    rw [hall, List.append_assoc]
    simp only [serve]
    rw [← ByteStore.slice_add, Nat.add_sub_cancel' (Nat.min_le_left _ _)]

/-- A program command that is heard, with the length of its data. -/
theorem programs {cmd : ProgramCommand} {data : ByteBuffer} (hidle : l.transport.remaining = 0)
    (hlisten : listen l.transport.plan (wireText (FirehoseCommand.program cmd).serialize)
      = some (.program cmd.range data.length)) :
    Programs (io listen fill) content cmd data l := by
  intro chunkSize n l₁ l' hwrite hstreamed
  have hheard : l₁.transport = l.transport.obey fill (.program cmd.range data.length) := by
    rw [write_transport hwrite, take_order hidle hlisten]
  obtain ⟨hcontent, -⟩ := streamed_content hstreamed (by rw [hheard]; exact Nat.le_refl _)
  rw [hcontent, hheard]
  rfl

theorem reads {cmd : ReadCommand} (hidle : l.transport.remaining = 0)
    (hlisten : listen l.transport.plan (wireText (FirehoseCommand.read cmd).serialize)
      = some (.read cmd.range)) :
    Reads (io listen fill) content cmd l := by
  intro chunkSize resp l₁ l' data hasked _ hcollected
  obtain ⟨n, l₀, hwrite, hanswered⟩ := hasked
  have hheard : l₁.transport = l.transport.obey fill (.read cmd.range) := by
    rw [answered_transport hanswered, write_transport hwrite, take_order hidle hlisten]
  have hsize : cmd.range.size < 2 ^ 32 * 2 ^ 32 :=
    Nat.mul_lt_mul'' cmd.sectorSize.toNat_lt cmd.numSectorSize.toNat_lt
  obtain ⟨hdata, hcontent, -⟩ := collected_content hcollected hsize
  rw [hdata, hcontent, hheard]
  exact ⟨List.nil_append _, rfl⟩

theorem erases {cmd : EraseCommand} (hidle : l.transport.remaining = 0)
    (hlisten : listen l.transport.plan (wireText (FirehoseCommand.erase cmd).serialize)
      = some (.erase cmd.range)) :
    Erases (io listen fill) content fill cmd l := by
  have hheard : l.transport.take listen fill (wireText (FirehoseCommand.erase cmd).serialize)
      = l.transport.obey fill (.erase cmd.range) := take_order hidle hlisten
  have hcontent : (l.transport.obey fill (.erase cmd.range)).content
      = l.transport.content.erase fill cmd.range := rfl
  refine ⟨?_, ?_, ?_⟩
  · show SectorStore.Between _ _ (l.transport.take listen fill _).content
    rw [hheard]
    exact .after _ _
  · intro n l₁ hwrite
    show SectorStore.Between _ _ l₁.transport.content
    rw [write_transport hwrite, hheard]
    exact .after _ _
  · intro resp l' hasked _
    obtain ⟨n, l₀, hwrite, hanswered⟩ := hasked
    rw [answered_transport hanswered, write_transport hwrite, hheard, hcontent]

end Command

/-! ## After a command -/

section After

variable {fuel : Nat} {s t : FirehoseProtocol VirtualFlash}

theorem program_leaves {cmd : ProgramCommand} {data : ByteBuffer} {resp : FirehoseResponse}
    (hidle : s.link.transport.remaining = 0)
    (hlisten : listen s.link.transport.plan (wireText (FirehoseCommand.program cmd).serialize)
      = some (.program cmd.range data.length))
    (h : FirehoseProtocol.program (io listen fill) fuel cmd data s = (.ok resp, t)) :
    t.link.transport.remaining = 0 ∧ t.link.transport.plan = s.link.transport.plan.tail := by
  obtain ⟨-, e, hengine, rfl⟩ := FirehoseProtocol.program_ok h
  obtain ⟨-, n, l₁, l, hwrite, hstreamed, rfl⟩ := FirehoseStreamEngine.streamToDevice_ok hengine
  have hheard : l₁.transport = s.link.transport.obey fill (.program cmd.range data.length) :=
    (write_transport hwrite).trans (take_order hidle hlisten)
  obtain ⟨-, hremaining, hplan⟩ := streamed_content hstreamed
    (by rw [hheard]; exact Nat.le_refl _)
  rw [hheard] at hremaining hplan
  exact ⟨hremaining.trans (Nat.sub_self _), hplan⟩

theorem erase_leaves {cmd : EraseCommand} (hidle : s.link.transport.remaining = 0)
    (hlisten : listen s.link.transport.plan (wireText (FirehoseCommand.erase cmd).serialize)
      = some (.erase cmd.range))
    (h : FirehoseProtocol.erase (io listen fill) cmd s = (.ok (), t)) :
    t.link.transport.remaining = 0 ∧ t.link.transport.plan = s.link.transport.plan.tail := by
  obtain ⟨resp, hsend⟩ := Program.void_eq_ok.mp h
  obtain ⟨-, -, l, ⟨n, l₁, hwrite, hanswered⟩, rfl⟩ :=
    FirehoseProtocol.sendCommandUnlessNak_ok hsend
  have hheard : l.transport = s.link.transport.obey fill (.erase cmd.range) := by
    rw [answered_transport hanswered, write_transport hwrite]
    exact take_order hidle hlisten
  show l.transport.remaining = 0 ∧ l.transport.plan = _
  rw [hheard]
  exact ⟨hidle, rfl⟩

end After

/-! ## Following a plan -/

/-- The next order of the plan, whatever is heard. -/
def follow (plan : List SectorOrder) (_ : ByteBuffer) : Option SectorOrder := plan.head?

/-! ## Parsing the commands -/

section Text

open FirehoseXmlEngine
open scoped Scan

/-- One byte for each character. -/
def Narrow (text : List Char) : Prop := ∀ c ∈ text, c.toNat < 256

theorem textOfBytes_bytesOfText {text : String} (h : Narrow text.toList) :
    textOfBytes (bytesOfText text) = text := by
  have hchar : ∀ c ∈ text.toList, Char.ofNat (c.toNat.toUInt8).toNat = c := by
    intro c hc
    rw [Nat.toUInt8_eq, UInt8.toNat_ofNat', Nat.mod_eq_of_lt (h c hc), Char.ofNat_toNat]
  have hmap : (bytesOfText text).map (fun b => Char.ofNat b.toNat) = text.toList := by
    rw [bytesOfText, List.map_map]
    exact (List.map_congr_left hchar).trans (List.map_id _)
  rw [textOfBytes, hmap, String.ofList_toList]

theorem narrow_toDecimal (val : UInt32) : Narrow (toDecimal val).toList := by
  intro c hc
  rw [toDecimal, String.toList_ofList] at hc
  obtain ⟨d, hd, rfl⟩ := Digits.mem_toDigits (by decide) hc
  have : ∀ d : Fin 10, d.val.digitChar.toNat < 256 := by decide
  exact this ⟨d, hd⟩

/-- The attributes of the commands on sectors. -/
def sectorAttributes : List String :=
  ["SECTOR_SIZE", "NUM_SECTOR_SIZE", "PARTITION_ID", "START_SECTOR", "physical_partition",
    "num_partition_sectors"]

/-- A tag of numbers. -/
theorem narrow_render {name : String} (numbers : List (String × UInt32))
    (hname : Narrow name.toList) (hnumbers : ∀ number ∈ numbers, number.1 ∈ sectorAttributes) :
    Narrow
      (render (.mk name (numbers.map fun number => ⟨number.1, toDecimal number.2⟩) [] "")) := by
  have hnarrow : ∀ attr ∈ sectorAttributes, Narrow attr.toList := by
    unfold Narrow
    decide
  intro c hc
  simp only [render, and_self, if_true, List.cons_append, List.mem_cons, List.mem_append,
    List.mem_flatMap, List.mem_map] at hc
  rcases hc with rfl | (hc | ⟨_, ⟨number, hnumber, rfl⟩, hc⟩) | hc
  · decide
  · exact hname c hc
  · simp only [renderAttribute, escapeAttribute_toDecimal, List.cons_append, List.mem_cons,
      List.mem_append, List.not_mem_nil, or_false] at hc
    rcases hc with rfl | ((hc | hc) | hc) | rfl
    · decide
    · exact hnarrow _ (hnumbers number hnumber) c hc
    · revert c
      decide
    · exact narrow_toDecimal _ c hc
    · decide
  · revert c
    decide

def orderOf : FirehoseCommand → Option SectorOrder
  | .program cmd => some (.program cmd.range cmd.range.size)
  | .read cmd => some (.read cmd.range)
  | .erase cmd => some (.erase cmd.range)
  | _ => none

/-- The command in a text with a null byte after it. -/
def hear (_ : List SectorOrder) (data : ByteBuffer) : Option SectorOrder :=
  match parseFirehoseXml (textOfBytes data.dropLast) with
  | .ok cmd => orderOf cmd
  | .error _ => none

theorem hear_wireText {cmd : FirehoseCommand} (h : Narrow (render cmd.toXml))
    (plan : List SectorOrder) : hear plan (wireText cmd.serialize) = orderOf cmd := by
  have hnarrow : Narrow cmd.serialize.toList := by
    rw [show cmd.serialize = String.ofList (render cmd.toXml) from rfl, String.toList_ofList]
    exact h
  rw [hear, wireText, List.dropLast_concat, textOfBytes_bytesOfText hnarrow,
    cmd.parseFirehoseXml_serialize]
  cases cmd <;> rfl

variable (startSector numSectors : UInt32)

theorem narrow_program : Narrow (render (FirehoseCommand.toXml
    (.program { startSector := startSector, numSectorSize := numSectors }))) :=
  narrow_render [("SECTOR_SIZE", 4096), ("NUM_SECTOR_SIZE", numSectors), ("PARTITION_ID", 0),
    ("START_SECTOR", startSector), ("physical_partition", 0), ("num_partition_sectors", 0)]
    (by unfold Narrow; decide) (by simp [sectorAttributes])

theorem narrow_read : Narrow (render (FirehoseCommand.toXml
    (.read { startSector := startSector, numSectorSize := numSectors }))) :=
  narrow_render [("SECTOR_SIZE", 4096), ("NUM_SECTOR_SIZE", numSectors), ("PARTITION_ID", 0),
    ("START_SECTOR", startSector), ("physical_partition", 0)]
    (by unfold Narrow; decide) (by simp [sectorAttributes])

theorem narrow_erase : Narrow (render (FirehoseCommand.toXml
    (.erase { startSector := startSector, numSectorSize := numSectors }))) :=
  narrow_render [("SECTOR_SIZE", 4096), ("NUM_SECTOR_SIZE", numSectors), ("PARTITION_ID", 0),
    ("START_SECTOR", startSector), ("physical_partition", 0)]
    (by unfold Narrow; decide) (by simp [sectorAttributes])

/-- A device that parses what it is sent carries out every command on sectors. -/
theorem speaksSectors {l : Link VirtualFlash} (hidle : l.transport.remaining = 0) :
    SpeaksSectors (io hear fill) content fill l where
  programs startSector numSectors data h := by
    apply programs hidle
    rw [hear_wireText (narrow_program startSector numSectors), h]
    rfl
  reads startSector numSectors := by
    apply reads hidle
    rw [hear_wireText (narrow_read startSector numSectors)]
    rfl
  erases startSector numSectors := by
    apply erases hidle
    rw [hear_wireText (narrow_erase startSector numSectors)]
    rfl

end Text

end VirtualFlash

end MBootCore
