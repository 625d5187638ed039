import MBootCore.Firehose.ProtocolSpec

/-!
# Firehose — Answers

Which answers a successful call rests on. The I/O calls a call makes are read
off the link: a request that went out, what was read as its answer, and so on.
`configure` may have had refusals before the answer it returns on; every other
call sends its command once.
-/

namespace MBootCore

/-- Every request that went out was answered, and the answers are of the kind
`kept`. A write that failed sent no request. -/
def allAnswered (kept : FirehoseResponse → Bool) : List Exchange → Bool
  | [] => true
  | .wrote _ (.error _) :: rest => allAnswered kept rest
  | .wrote _ (.ok _) :: .received (.ok buf) :: rest =>
    kept (answerIn buf) && allAnswered kept rest
  | _ => false

/-- The request went out and was answered, by an answer of the kind `kept`. -/
def Exchanged (request : ByteBuffer) (kept : FirehoseResponse → Bool)
    (log : List Exchange) : Prop :=
  ∃ n buf, log = [.wrote request (.ok n), .received (.ok buf)] ∧ kept (answerIn buf) = true

def FirehoseResponse.notNak (resp : FirehoseResponse) : Bool := !resp.isNak

/-- The I/O calls of a successful call. -/
def FirehoseCall.Answered (config : FirehoseConfig) : FirehoseCall → List Exchange → Prop
  | handshake, log =>
    ∃ earlier last, log = earlier ++ last ∧
      Exchanged (wireText (FirehoseCommand.configure
        (FirehoseProtocol.configureCommand config)).serialize) FirehoseResponse.isAck last
  | uploadProgrammer _, _ => False
  | reset, log =>
    Exchanged (wireText (FirehoseCommand.reset {}).serialize) FirehoseResponse.isAck log
  | sendCommand cmd, log => Exchanged (wireText cmd.serialize) (fun _ => true) log
  | program cmd _, log =>
    ∃ n chunks, log = .wrote (wireText (FirehoseCommand.program cmd).serialize) (.ok n) :: chunks ∧
      allAnswered FirehoseResponse.notNak chunks = true
  | read cmd, log =>
    ∃ command chunks, log = command ++ chunks ∧
      Exchanged (wireText (FirehoseCommand.read cmd).serialize) FirehoseResponse.notNak command
  | erase cmd, log =>
    Exchanged (wireText (FirehoseCommand.erase cmd).serialize) FirehoseResponse.notNak log
  | peek cmd, log =>
    Exchanged (wireText (FirehoseCommand.peek cmd).serialize) FirehoseResponse.notNak log
  | poke cmd, log =>
    Exchanged (wireText (FirehoseCommand.poke cmd).serialize) FirehoseResponse.notNak log
  | patch cmd, log =>
    Exchanged (wireText (FirehoseCommand.patch cmd).serialize) FirehoseResponse.notNak log
  | powerReset cmd, log =>
    Exchanged (wireText (FirehoseCommand.power cmd).serialize) (fun _ => true) log
  | getStorageInfo, log =>
    Exchanged (wireText FirehoseCommand.getStorageInfo.serialize) (fun _ => true) log
  | getSha256Digest cmd, log =>
    Exchanged (wireText (FirehoseCommand.getSha256Digest cmd).serialize) (fun _ => true) log
  | configureMemory cmd, log =>
    Exchanged (wireText (FirehoseCommand.configureMemory cmd).serialize)
      FirehoseResponse.notNak log
  | cancel, log | resetState, log => log = []

namespace Link

variable {τ : Type} {io : ITransport τ} {l l' : Link τ}

theorem write_log {data : ByteBuffer} {r : Except ErrorCode Nat}
    (h : Link.write io data l = (r, l')) : l'.exchanges = l.exchanges ++ [.wrote data r] := by
  obtain ⟨hr, rfl⟩ := Prod.mk.inj h
  rw [← hr]

theorem read_log {minBytes maxBytes : Nat} {r : Except ErrorCode ByteBuffer}
    (h : Link.read io minBytes maxBytes l = (r, l')) :
    l'.exchanges = l.exchanges ++ [.received r] := by
  obtain ⟨hr, rfl⟩ := Prod.mk.inj h
  rw [← hr]

theorem Asked.log {request : ByteBuffer} {resp : FirehoseResponse}
    {kept : FirehoseResponse → Bool} (h : Asked io request l l' resp) (hkept : kept resp = true) :
    ∃ log, l'.exchanges = l.exchanges ++ log ∧ Exchanged request kept log := by
  obtain ⟨n, l₁, hwrite, buf, hread, rfl⟩ := h
  refine ⟨[.wrote request (.ok n), .received (.ok buf)], ?_, n, buf, rfl, hkept⟩
  rw [read_log hread, write_log hwrite, List.append_assoc]
  rfl

theorem Sent.log {data : ByteBuffer} (h : Sent io data l l') :
    ∃ n failed, l'.exchanges = l.exchanges ++ (failed ++ [.wrote data (.ok n)]) ∧
      (failed = [] ∨ ∃ e, failed = [.wrote data (.error e)]) := by
  obtain ⟨n, l₁, rfl | ⟨e, hfailed⟩, hwrite⟩ := h
  · exact ⟨n, [], write_log hwrite, .inl rfl⟩
  · refine ⟨n, [.wrote data (.error e)], ?_, .inr ⟨e, rfl⟩⟩
    rw [write_log hwrite, write_log hfailed, List.append_assoc]

/-- Every chunk streamed was answered, and none by a NAK. -/
theorem Streamed.log {chunkSize : Nat} {data : ByteBuffer} (h : Streamed io chunkSize data l l') :
    ∃ log, l'.exchanges = l.exchanges ++ log ∧ allAnswered FirehoseResponse.notNak log = true := by
  induction h with
  | done l => exact ⟨[], (List.append_nil _).symm, rfl⟩
  | @chunk rest l l₁ l₂ l' resp remaining sent answered kept later ih =>
    obtain ⟨n, failed, hsent, hfailed⟩ := sent.log
    obtain ⟨buf, hread, rfl⟩ := answered
    obtain ⟨log, hlog, hall⟩ := ih
    refine ⟨failed ++ [.wrote (rest.take chunkSize) (.ok n)] ++ .received (.ok buf) :: log, ?_, ?_⟩
    · rw [hlog, read_log hread, hsent]
      simp
    · rcases hfailed with rfl | ⟨e, rfl⟩ <;>
        simp [allAnswered, FirehoseResponse.notNak, kept, hall]

theorem Collected.log {chunkSize remaining : Nat} {data all : ByteBuffer}
    (h : Collected io chunkSize remaining data l l' all) :
    ∃ log, l'.exchanges = l.exchanges ++ log := by
  induction h with
  | done _ l => exact ⟨[], (List.append_nil _).symm⟩
  | @chunk remaining data chunk all l l₁ l' positive read later ih =>
    obtain ⟨log, hlog⟩ := ih
    exact ⟨.received (.ok chunk) :: log, by rw [hlog, read_log read, List.append_assoc]; rfl⟩

end Link

namespace FirehoseProtocol

variable {τ : Type} {io : ITransport τ} {s t : FirehoseProtocol τ}

/-- A call that sends one command and takes any answer. -/
theorem sendCommand_log {cmd : FirehoseCommand} {resp : FirehoseResponse}
    (h : sendCommand io cmd s = (.ok resp, t)) :
    ∃ log, t.link.exchanges = s.link.exchanges ++ log ∧
      Exchanged (wireText cmd.serialize) (fun _ => true) log := by
  obtain ⟨-, l, hasked, rfl⟩ := sendCommand_ok h
  exact hasked.log rfl

/-- A call that sends one command and refuses a NAK. -/
theorem sendCommandUnlessNak_log {cmd : FirehoseCommand} {resp : FirehoseResponse}
    (h : sendCommandUnlessNak io cmd s = (.ok resp, t)) :
    ∃ log, t.link.exchanges = s.link.exchanges ++ log ∧
      Exchanged (wireText cmd.serialize) FirehoseResponse.notNak log := by
  obtain ⟨-, hnak, l, hasked, rfl⟩ := sendCommandUnlessNak_ok h
  exact hasked.log (by rw [FirehoseResponse.notNak, hnak]; rfl)

theorem handshake_log (h : handshake io s = (.ok (), t)) :
    ∃ log, t.link.exchanges = s.link.exchanges ++ log ∧
      FirehoseCall.handshake.Answered s.config log := by
  rw [handshake_run] at h
  obtain ⟨-, -, l₁, l, resp, errors, ⟨earlier, hearlier, -⟩, hasked, hack, rfl⟩ :=
    configureLoop_ok h
  obtain ⟨last, hlast, hexchanged⟩ := hasked.log hack
  refine ⟨earlier ++ last, ?_, earlier, last, rfl, hexchanged⟩
  rw [← List.append_assoc, ← hearlier]
  exact hlast

theorem program_log {fuel : Nat} {cmd : ProgramCommand} {data : ByteBuffer}
    {resp : FirehoseResponse} (h : program io fuel cmd data s = (.ok resp, t)) :
    ∃ log, t.link.exchanges = s.link.exchanges ++ log ∧
      (FirehoseCall.program cmd data).Answered s.config log := by
  obtain ⟨-, e, hengine, rfl⟩ := program_ok h
  obtain ⟨-, n, l₁, l, hwrite, hstreamed, rfl⟩ := FirehoseStreamEngine.streamToDevice_ok hengine
  obtain ⟨chunks, hchunks, hall⟩ := hstreamed.log
  refine ⟨.wrote (wireText (FirehoseCommand.program cmd).serialize) (.ok n) :: chunks, ?_,
    n, chunks, rfl, hall⟩
  have hlog : l.exchanges = s.link.exchanges
      ++ [.wrote (wireText (FirehoseCommand.program cmd).serialize) (.ok n)] ++ chunks := by
    rw [hchunks, Link.write_log hwrite]
    rfl
  exact hlog.trans (List.append_assoc _ _ _)

theorem read_log {fuel : Nat} {cmd : ReadCommand} {data : ByteBuffer}
    (h : read io fuel cmd s = (.ok data, t)) :
    ∃ log, t.link.exchanges = s.link.exchanges ++ log ∧
      (FirehoseCall.read cmd).Answered s.config log := by
  obtain ⟨-, e, hengine, rfl⟩ := read_ok h
  obtain ⟨-, resp, l₁, l, hasked, hnak, hcollected, rfl⟩ :=
    FirehoseStreamEngine.streamFromDevice_ok hengine
  have hkept : resp.notNak = true := by rw [FirehoseResponse.notNak, hnak]; rfl
  obtain ⟨command, hcommand, hexchanged⟩ := hasked.log hkept
  obtain ⟨chunks, hchunks⟩ := hcollected.log
  refine ⟨command ++ chunks, ?_, command, chunks, rfl, hexchanged⟩
  rw [← List.append_assoc]
  exact hchunks.trans (congrArg (· ++ chunks) hcommand)

end FirehoseProtocol

open FirehoseProtocol in
theorem FirehoseCall.run_log {τ : Type} {io : ITransport τ} {fuel : Nat} {call : FirehoseCall}
    {s t : FirehoseProtocol τ} (h : call.run io fuel s = (.ok (), t)) :
    ∃ log, t.link.exchanges = s.link.exchanges ++ log ∧ call.Answered s.config log := by
  cases call with
  | handshake => exact handshake_log h
  | uploadProgrammer programmerData => cases h
  | reset =>
    obtain ⟨-, l, resp, hasked, hack, rfl⟩ := FirehoseProtocol.reset_ok h
    exact hasked.log hack
  | sendCommand cmd =>
    obtain ⟨resp, h⟩ := Program.void_eq_ok.mp h
    exact sendCommand_log h
  | program cmd data =>
    obtain ⟨resp, h⟩ := Program.void_eq_ok.mp h
    exact program_log h
  | read cmd =>
    obtain ⟨data, h⟩ := Program.void_eq_ok.mp h
    exact read_log h
  | erase cmd =>
    obtain ⟨resp, h⟩ := Program.void_eq_ok.mp h
    exact sendCommandUnlessNak_log h
  | peek cmd =>
    obtain ⟨data, h⟩ := Program.void_eq_ok.mp h
    obtain ⟨resp, s₁, hsend, hdone⟩ := Program.bind_eq_ok.mp h
    obtain ⟨-, rfl⟩ := Prod.mk.inj hdone
    exact sendCommandUnlessNak_log hsend
  | poke cmd =>
    obtain ⟨resp, h⟩ := Program.void_eq_ok.mp h
    exact sendCommandUnlessNak_log h
  | patch cmd =>
    obtain ⟨resp, h⟩ := Program.void_eq_ok.mp h
    exact sendCommandUnlessNak_log h
  | powerReset cmd =>
    obtain ⟨resp, h⟩ := Program.void_eq_ok.mp h
    exact sendCommand_log h
  | getStorageInfo =>
    obtain ⟨resp, h⟩ := Program.void_eq_ok.mp h
    exact sendCommand_log h
  | getSha256Digest cmd =>
    obtain ⟨data, h⟩ := Program.void_eq_ok.mp h
    obtain ⟨resp, s₁, hsend, hdone⟩ := Program.bind_eq_ok.mp h
    obtain ⟨-, rfl⟩ := Prod.mk.inj hdone
    exact sendCommand_log hsend
  | configureMemory cmd =>
    obtain ⟨resp, h⟩ := Program.void_eq_ok.mp h
    exact sendCommandUnlessNak_log h
  | cancel =>
    obtain ⟨-, rfl⟩ := Prod.mk.inj h
    exact ⟨[], (List.append_nil _).symm, rfl⟩
  | resetState =>
    obtain ⟨-, rfl⟩ := Prod.mk.inj h
    exact ⟨[], (List.append_nil _).symm, rfl⟩

/-- A call that returns success had its requests answered: `configure` and
`reset` by an ACK, the other commands and the chunks of `program` by
something other than a NAK, and `power` and the queries by anything. -/
theorem FirehoseCall.run_answered {τ : Type} (io : ITransport τ) (fuel : Nat)
    (call : FirehoseCall) (s : FirehoseProtocol τ) (h : (call.run io fuel s).1.isOk = true) :
    ∃ log, (call.run io fuel s).2.link.exchanges = s.link.exchanges ++ log ∧
      call.Answered s.config log := by
  obtain ⟨⟨⟩, hrun⟩ := Program.eq_ok_of_isOk h
  exact run_log hrun

/-! ## A refusal before the answer -/

/-- The document a device answers `configure` with. -/
def configureAnswer (value : String) : ByteBuffer :=
  wireText ("<configure value=\"" ++ value ++ "\"/>")

/-- A device that refuses the first configure request and takes the second. -/
def refusingOnce : FirehoseProtocol Transport where
  link := { transport := ⟨[.ok (configureAnswer "NAK"), .ok (configureAnswer "ACK")], [], []⟩ }

theorem refusingOnce_answered :
    ∃ log, (FirehoseCall.handshake.run Transport.io 0 refusingOnce).2.link.exchanges
        = refusingOnce.link.exchanges ++ log ∧
      FirehoseCall.handshake.Answered refusingOnce.config log :=
  FirehoseCall.run_answered Transport.io 0 .handshake refusingOnce (by decide)

/-- `configure` succeeds although its first request was refused. -/
theorem refusingOnce_refused :
    ¬ ∀ (τ : Type) (io : ITransport τ) (fuel : Nat) (call : FirehoseCall)
        (s : FirehoseProtocol τ), (call.run io fuel s).1.isOk = true →
        ∃ log, (call.run io fuel s).2.link.exchanges = s.link.exchanges ++ log ∧
          allAnswered FirehoseResponse.isAck log = true := by
  intro hall
  obtain ⟨log, hlog, hacked⟩ :=
    hall Transport Transport.io 0 .handshake refusingOnce (by decide)
  have hexchanges : log
      = (FirehoseCall.handshake.run Transport.io 0 refusingOnce).2.link.exchanges :=
    (hlog.trans (List.nil_append log)).symm
  rw [hexchanges] at hacked
  revert hacked
  decide

end MBootCore
