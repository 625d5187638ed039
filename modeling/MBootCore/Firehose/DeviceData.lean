import MBootCore.Firehose.Acknowledging
import MBootCore.Firehose.Answers

/-!
# Firehose — DeviceData

The two commands whose answer carries data of the device: `peek` and
`getSha256Digest`. What a device sends is a stream of XML documents and of
data, which a transport hands over in pieces of any size. Both calls read one
piece, parse it as a document and return the data member of the response,
which nothing sets.
-/

namespace MBootCore

/-- What a device sends: a document of the protocol, or data. -/
inductive WirePiece where
  | document (xml : String)
  | payload (bytes : ByteBuffer)

def WirePiece.bytes : WirePiece → ByteBuffer
  | document xml => bytesOfText xml
  | payload bytes => bytes

/-- The data among the pieces. -/
def payloadOf (pieces : List WirePiece) : ByteBuffer :=
  pieces.flatMap fun
    | .document _ => []
    | .payload bytes => bytes

/-- The bytes of the reads that succeed. -/
def bytesRead (replies : List (Except ErrorCode ByteBuffer)) : ByteBuffer :=
  replies.flatMap fun
    | .error _ => []
    | .ok buf => buf

inductive DataQuery where
  | peek (cmd : PeekCommand)
  | digest (cmd : GetSha256DigestCommand)

namespace DataQuery

def command : DataQuery → FirehoseCommand
  | peek cmd => .peek cmd
  | digest cmd => .getSha256Digest cmd

variable {τ : Type} (io : ITransport τ)

def run : DataQuery → FirehoseProtocol.Method τ ByteBuffer
  | peek cmd => FirehoseProtocol.peek io cmd
  | digest cmd => FirehoseProtocol.getSha256Digest io cmd

/-- The answers that are no error: `getSha256Digest` takes any. -/
def takes : DataQuery → FirehoseResponse → Bool
  | peek _, resp => resp.notNak
  | digest _, _ => true

/-- The data returned are those of the device: as many bytes as were asked for,
or a digest. -/
def Returns (payload data : ByteBuffer) : DataQuery → Prop
  | peek cmd => data.length = cmd.size.toNat ∧ data = payload.take cmd.size.toNat
  | digest _ => data ≠ [] ∧ data = payload

end DataQuery

/-- A query to a device: the protocol on a transport that hands over the pieces
the device sends, split in any way and with any failures. -/
structure DataRun where
  query : DataQuery
  protocol : FirehoseProtocol Transport
  pieces : List WirePiece
  split : bytesRead protocol.link.transport.replies = pieces.flatMap WirePiece.bytes

namespace DataRun

def transport (run : DataRun) : Transport := run.protocol.link.transport

/-- A call that returns data returns those the device sent. -/
def Faithful (run : DataRun) : Prop :=
  ∀ data t, run.query.run Transport.io run.protocol = (.ok data, t) →
    run.query.Returns (payloadOf run.pieces) data

/-- The call is not cancelled, the request goes out and the first piece that is
read is no refusal. -/
def Answered (run : DataRun) : Prop :=
  run.protocol.cancelled = false ∧
    (∃ n, run.transport.writeResult (wireText run.query.command.serialize) = .ok n) ∧
    ∃ buf, run.transport.reply = .ok buf ∧ run.query.takes (answerIn buf) = true

/-- A peek of no bytes. -/
def AsksNothing (run : DataRun) : Prop :=
  ∃ cmd, run.query = .peek cmd ∧ cmd.size = 0

end DataRun

/-! ## What the calls return -/

theorem FirehoseResponse.data_answerIn (buf : ByteBuffer) : (answerIn buf).data = [] := by
  rw [answerIn, FirehoseResponse.fromXml]
  cases FirehoseXmlEngine.parse (textOfBytes buf) <;> rfl

namespace DataQuery

variable {τ : Type} {io : ITransport τ} {s t : FirehoseProtocol τ}

theorem run_bind {query : DataQuery} : query.run io
    = FirehoseProtocol.sendCommand io query.command >>= fun resp =>
      if query.takes resp then (pure resp.data : FirehoseProtocol.Method τ ByteBuffer)
      else Program.fail .protocolError := by
  cases query with
  | peek cmd =>
    rw [run, FirehoseProtocol.peek, FirehoseProtocol.sendCommandUnlessNak, Program.bind_assoc]
    refine congrArg _ (funext fun resp => ?_)
    cases hnak : resp.isNak <;> simp only [takes, FirehoseResponse.notNak, hnak] <;> rfl
  | digest cmd => rfl

/-- The data of a response that was parsed are empty. -/
theorem run_ok {query : DataQuery} {data : ByteBuffer} (h : query.run io s = (.ok data, t)) :
    data = [] ∧ s.cancelled = false ∧ ∃ n l₁ buf l₂,
      Link.write io (wireText query.command.serialize) s.link = (.ok n, l₁) ∧
      Link.read io 1 8192 l₁ = (.ok buf, l₂) ∧ query.takes (answerIn buf) = true := by
  rw [run_bind] at h
  obtain ⟨resp, s₁, hsend, h⟩ := Program.bind_eq_ok.mp h
  obtain ⟨hcancelled, l₂, ⟨n, l₁, hwrite, buf, hread, rfl⟩, rfl⟩ :=
    FirehoseProtocol.sendCommand_ok hsend
  by_cases htakes : query.takes (answerIn buf) = true
  · rw [if_pos htakes] at h
    obtain ⟨hdata, -⟩ := Prod.mk.inj h
    rw [← Except.ok.inj hdata]
    exact ⟨FirehoseResponse.data_answerIn buf, hcancelled, n, l₁, buf, l₂, hwrite, hread, htakes⟩
  · rw [if_neg htakes] at h
    cases h

theorem run_takes {query : DataQuery} {n : Nat} {l₁ l₂ : Link τ} {buf : ByteBuffer}
    (hcancelled : s.cancelled = false)
    (hwrite : Link.write io (wireText query.command.serialize) s.link = (.ok n, l₁))
    (hread : Link.read io 1 8192 l₁ = (.ok buf, l₂)) (htakes : query.takes (answerIn buf) = true) :
    query.run io s = (.ok [], s.withLink l₂) := by
  have hcheck := FirehoseProtocol.checkCancelled_passes hcancelled
  have hcheck' : FirehoseProtocol.checkCancelled (s.withLink l₁) = (.ok (), s.withLink l₁) :=
    FirehoseProtocol.checkCancelled_passes hcancelled
  have hreceived : FirehoseProtocol.onLink (Link.read io 1 8192) (s.withLink l₁)
      = (.ok buf, s.withLink l₂) := FirehoseProtocol.onLink_run hread
  have hsend : FirehoseProtocol.sendCommand io query.command s
      = (.ok (answerIn buf), s.withLink l₂) := by
    rw [FirehoseProtocol.sendCommand, FirehoseProtocol.sendXmlCommand,
      Program.run_bind_ok hcheck, Program.run_bind_ok (FirehoseProtocol.onLink_run hwrite),
      FirehoseProtocol.receiveResponse, Program.run_bind_ok hcheck',
      Program.run_bind_ok hreceived]
    rfl
  rw [run_bind, Program.run_bind_ok hsend, if_pos htakes, FirehoseResponse.data_answerIn]
  rfl

end DataQuery

namespace DataRun

theorem answered_iff {run : DataRun} :
    run.Answered ↔ ∃ t, run.query.run Transport.io run.protocol = (.ok [], t) := by
  constructor
  · rintro ⟨hcancelled, ⟨n, hwrite⟩, buf, hreply, htakes⟩
    let sent := Link.write Transport.io (wireText run.query.command.serialize) run.protocol.link
    let received := Link.read Transport.io 1 8192 sent.2
    have hwritten : sent = (.ok n, sent.2) := Prod.ext hwrite rfl
    have hread : received = (.ok buf, received.2) := Prod.ext hreply rfl
    exact ⟨_, DataQuery.run_takes hcancelled hwritten hread htakes⟩
  · rintro ⟨t, hrun⟩
    obtain ⟨-, hcancelled, n, l₁, buf, l₂, hwrite, hread, htakes⟩ := DataQuery.run_ok hrun
    obtain ⟨hwritten, rfl⟩ := Prod.mk.inj hwrite
    obtain ⟨hreply, -⟩ := Prod.mk.inj hread
    exact ⟨hcancelled, ⟨n, hwritten⟩, buf, hreply, htakes⟩

/-- Only a peek of no bytes that is answered returns what the device sent. -/
theorem faithful_iff (run : DataRun) : run.Faithful ↔ run.AsksNothing ∨ ¬ run.Answered := by
  constructor
  · intro hfaithful
    by_cases hanswered : run.Answered
    · obtain ⟨t, hrun⟩ := answered_iff.mp hanswered
      have hreturns := hfaithful [] t hrun
      cases hquery : run.query with
      | peek cmd =>
        rw [hquery] at hreturns
        exact .inl ⟨cmd, hquery, UInt32.toNat_inj.mp hreturns.1.symm⟩
      | digest cmd =>
        rw [hquery] at hreturns
        exact absurd rfl hreturns.1
    · exact .inr hanswered
  · intro h data t hrun
    have hdata := (DataQuery.run_ok hrun).1
    subst hdata
    rcases h with ⟨cmd, hquery, hsize⟩ | hunanswered
    · rw [hquery, DataQuery.Returns, hsize]
      exact ⟨rfl, rfl⟩
    · exact absurd (answered_iff.mpr ⟨t, hrun⟩) hunanswered

/-- Four bytes are asked for and sent with an acknowledgement after them. -/
def peekOfFour : DataRun where
  query := .peek { size := 4 }
  protocol :=
    { link := { transport :=
        { replies := [.ok [1, 2, 3, 4], .ok (bytesOfText "<peek value=\"ACK\"/>")]
          writeResults := [] } } }
  pieces := [.payload [1, 2, 3, 4], .document "<peek value=\"ACK\"/>"]
  split := rfl

theorem faithful_fails : ¬ ∀ run : DataRun, run.Faithful := by
  intro h
  have hanswered : peekOfFour.Answered :=
    ⟨rfl, ⟨_, rfl⟩, [1, 2, 3, 4], rfl, by decide⟩
  obtain ⟨t, hrun⟩ := answered_iff.mp hanswered
  have hlength := (h peekOfFour [] t hrun).1
  exact absurd hlength (by decide)

end DataRun

end MBootCore
