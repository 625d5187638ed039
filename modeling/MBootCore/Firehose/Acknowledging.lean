import MBootCore.Firehose.ProtocolSpec
import Mathlib

/-!
# Firehose — Acknowledging

Devices that take every write and acknowledge every request: on them every call
succeeds that the state of the protocol does not rule out. A read succeeds as
well if the device delivers what is read of it. The simplest such device does
nothing else and says that it took `taken data` bytes of a buffer `data`.
-/

namespace MBootCore.FirehoseProtocol

/-- Every write succeeds, and what is read for an answer is an ACK. -/
structure Acknowledges {τ : Type} (io : ITransport τ) : Prop where
  write_ok (t : τ) (data : ByteBuffer) : ∃ n, (io.write t data).1 = .ok n
  answer_eq (t : τ) : (io.read t 1 8192).1 = .ok (wireText "<response value=\"ACK\"/>")

/-- A read of a fixed size is served in full. -/
def Delivers {τ : Type} (io : ITransport τ) : Prop :=
  ∀ t n, ∃ data : ByteBuffer, (io.read t n n).1 = .ok data ∧ data.length = n

def acknowledging (taken : ByteBuffer → Nat) : ITransport Unit where
  read _ _ _ := (.ok (wireText "<response value=\"ACK\"/>"), ())
  write _ data := (.ok (taken data), ())

theorem acknowledging_acknowledges (taken : ByteBuffer → Nat) :
    Acknowledges (acknowledging taken) :=
  ⟨fun _ data => ⟨taken data, rfl⟩, fun _ => rfl⟩

def acknowledgement : FirehoseResponse := answerIn (wireText "<response value=\"ACK\"/>")

theorem acknowledgement_isAck : acknowledgement.isAck = true ∧ acknowledgement.isNak = false := by
  decide

variable {τ : Type} {io : ITransport τ} {s : FirehoseProtocol τ}

theorem Acknowledges.write (hio : Acknowledges io) (data : ByteBuffer) (l : Link τ) :
    ∃ n l', Link.write io data l = (.ok n, l') := by
  obtain ⟨n, hn⟩ := hio.write_ok l.transport data
  exact ⟨n, _, Prod.ext hn rfl⟩

theorem Acknowledges.answer (hio : Acknowledges io) (l : Link τ) :
    ∃ l', Link.read io 1 8192 l = (.ok (wireText "<response value=\"ACK\"/>"), l') :=
  ⟨_, Prod.ext (hio.answer_eq l.transport) rfl⟩

theorem onLink_run {α : Type} {p : Program (Link τ) ErrorCode α} {a : α} {l : Link τ}
    (h : p s.link = (.ok a, l)) : onLink p s = (.ok a, s.withLink l) :=
  Program.zoom_eq_ok.mpr ⟨l, h, rfl⟩

theorem receiveResponse_acknowledged (hio : Acknowledges io) (h : s.cancelled = false) :
    ∃ l, receiveResponse io s = (.ok acknowledgement, s.withLink l) := by
  obtain ⟨l, hread⟩ := hio.answer s.link
  rw [receiveResponse, Program.run_bind_ok (checkCancelled_passes h),
    Program.run_bind_ok (onLink_run hread)]
  exact ⟨l, rfl⟩

theorem sendCommand_acknowledged (hio : Acknowledges io) (cmd : FirehoseCommand)
    (h : s.cancelled = false) :
    ∃ l, sendCommand io cmd s = (.ok acknowledgement, s.withLink l) := by
  obtain ⟨n, l, hwrite⟩ := hio.write (wireText cmd.serialize) s.link
  rw [sendCommand, sendXmlCommand, Program.run_bind_ok (checkCancelled_passes h),
    Program.run_bind_ok (onLink_run hwrite)]
  exact receiveResponse_acknowledged (s := s.withLink l) hio h

theorem sendCommandUnlessNak_acknowledged (hio : Acknowledges io) (cmd : FirehoseCommand)
    (h : s.cancelled = false) :
    ∃ l, sendCommandUnlessNak io cmd s = (.ok acknowledgement, s.withLink l) := by
  obtain ⟨l, hl⟩ := sendCommand_acknowledged hio cmd h
  rw [sendCommandUnlessNak, Program.run_bind_ok hl, if_neg (by simp [acknowledgement_isAck.2])]
  exact ⟨l, rfl⟩

theorem handshake_acknowledged (hio : Acknowledges io) (h : s.cancelled = false)
    (hattempts : 0 < s.config.maxConfigureRetries) :
    ∃ l, handshake io s = (.ok (), (s.withLink l).afterConfigure) := by
  obtain ⟨attempts, hn⟩ : ∃ attempts, s.config.maxConfigureRetries.toNat = attempts + 1 :=
    Nat.exists_eq_add_one.mpr (by omega)
  have hexchange (cmd : ConfigureCommand) : ∃ l,
      configureExchange io cmd s = (.ok acknowledgement, s.withLink l) := by
    obtain ⟨n, l, hwrite⟩ := hio.write (wireText (FirehoseCommand.configure cmd).serialize) s.link
    rw [configureExchange, Program.run_bind_ok (show Program.ofExcept
      (FirehoseXmlEngine.serialize cmd.toXml) s
        = (.ok (FirehoseCommand.configure cmd).serialize, s) from rfl),
      Program.run_bind_ok (onLink_run hwrite)]
    exact receiveResponse_acknowledged (s := s.withLink l) hio h
  obtain ⟨l, hl⟩ := hexchange (configureCommand s.config)
  refine ⟨l, ?_⟩
  rw [handshake_run, hn, configureLoop, Program.run_bind_ok (checkCancelled_passes h),
    Program.run_bind_ok (Program.run_attempt _ s), hl]
  simp only [if_pos acknowledgement_isAck.1]
  rfl

/-- A command on the acknowledging device. -/
theorem command_acknowledged (hio : Acknowledges io) {call : FirehoseCall} {cmd : FirehoseCommand}
    (fuel : Nat) (hcommand : call.command = some cmd) (h : s.cancelled = false) :
    ∃ l, call.run io fuel s = (.ok (), s.withLink l) := by
  rcases FirehoseCall.run_command hcommand fuel s with hrun | hrun
  · obtain ⟨l, hl⟩ := sendCommand_acknowledged hio cmd h
    rw [hrun]
    exact ⟨l, Program.void_eq_ok.mpr ⟨_, hl⟩⟩
  · obtain ⟨l, hl⟩ := sendCommandUnlessNak_acknowledged hio cmd h
    rw [hrun]
    exact ⟨l, Program.void_eq_ok.mpr ⟨_, hl⟩⟩

/-! ## Streaming -/

section Engine

variable {e : FirehoseStreamEngine τ}

theorem onEngineLink_run {α : Type} {p : Program (Link τ) ErrorCode α} {a : α} {l : Link τ}
    (h : p e.link = (.ok a, l)) : FirehoseStreamEngine.onLink p e = (.ok a, e.withLink l) :=
  Program.zoom_eq_ok.mpr ⟨l, h, rfl⟩

theorem sendChunk_acknowledged (hio : Acknowledges io) (chunk : ByteBuffer)
    (h : e.cancelled = false) :
    ∃ l, FirehoseStreamEngine.sendChunk io chunk e = (.ok (), e.withLink l) := by
  obtain ⟨n, l, hwrite⟩ := hio.write chunk e.link
  rw [FirehoseStreamEngine.sendChunk,
    Program.run_bind_ok (FirehoseStreamEngine.checkCancelled_passes h),
    Program.run_bind_ok (onEngineLink_run hwrite)]
  exact ⟨l, rfl⟩

theorem engineResponse_acknowledged (hio : Acknowledges io) (h : e.cancelled = false) :
    ∃ l, FirehoseStreamEngine.receiveResponse io e = (.ok acknowledgement, e.withLink l) := by
  obtain ⟨l, hread⟩ := hio.answer e.link
  rw [FirehoseStreamEngine.receiveResponse,
    Program.run_bind_ok (FirehoseStreamEngine.checkCancelled_passes h),
    Program.run_bind_ok (onEngineLink_run hread)]
  exact ⟨l, rfl⟩

theorem sendRound_acknowledged (hio : Acknowledges io) (chunk : ByteBuffer)
    (h : e.cancelled = false) :
    ∃ l, FirehoseStreamEngine.sendRound io chunk e = (.ok (), e.withLink l) := by
  obtain ⟨l, hl⟩ := sendChunk_acknowledged hio chunk h
  have hretrying : FirehoseStreamEngine.sendChunkRetrying io chunk e = (.ok (), e.withLink l) := by
    rw [FirehoseStreamEngine.sendChunkRetrying, Program.run_bind_ok (Program.run_attempt _ e), hl]
    rfl
  obtain ⟨l', hl'⟩ := engineResponse_acknowledged (e := e.withLink l) hio h
  rw [FirehoseStreamEngine.sendRound, Program.run_bind_ok hretrying, Program.run_bind_ok hl',
    if_neg (by simp [acknowledgement_isAck.2])]
  exact ⟨l', rfl⟩

/-- Fuel above the length of the data sees every chunk out. -/
theorem sendLoop_acknowledged (hio : Acknowledges io) {fuel : Nat} {rest : ByteBuffer}
    (h : e.cancelled = false) (hchunk : 0 < e.config.chunkSizeToTarget ∨ rest = [])
    (hfuel : rest.length < fuel) :
    ∃ l, FirehoseStreamEngine.sendLoop io fuel rest e = (.ok (), e.withLink l) := by
  induction fuel generalizing rest e with
  | zero => omega
  | succ fuel ih =>
    rw [FirehoseStreamEngine.sendLoop, Program.run_bind_ok (Program.run_gets _ e)]
    by_cases hrest : rest = []
    · rw [if_pos (.inl hrest)]
      exact ⟨e.link, rfl⟩
    · have hpos : 0 < e.config.chunkSizeToTarget := hchunk.resolve_right hrest
      have hlength := List.length_pos_iff.mpr hrest
      rw [if_neg (by simp [hrest, h]), Program.run_bind_ok (Program.run_gets _ e)]
      obtain ⟨l, hl⟩ := sendRound_acknowledged hio
        (rest.take (min rest.length e.config.chunkSizeToTarget)) h
      rw [Program.run_bind_ok hl]
      exact ih (e := e.withLink l) h (.inl hpos) (by rw [List.length_drop]; omega)

theorem engineCommand_acknowledged (hio : Acknowledges io) (cmd : FirehoseCommand)
    (h : e.cancelled = false) :
    ∃ l, FirehoseStreamEngine.sendCommand io cmd e = (.ok (), e.withLink l) := by
  obtain ⟨n, l, hwrite⟩ := hio.write (wireText cmd.serialize) e.link
  rw [FirehoseStreamEngine.sendCommand,
    Program.run_bind_ok (FirehoseStreamEngine.checkCancelled_passes h),
    Program.run_bind_ok (show Program.ofExcept (FirehoseXmlEngine.serialize cmd.toXml) e
      = (.ok cmd.serialize, e) from rfl),
    Program.run_bind_ok (onEngineLink_run hwrite)]
  exact ⟨l, rfl⟩

theorem streamToDevice_acknowledged (hio : Acknowledges io) {fuel : Nat} (cmd : FirehoseCommand)
    {data : ByteBuffer} (h : e.cancelled = false)
    (hchunk : 0 < e.config.chunkSizeToTarget ∨ data = []) (hfuel : data.length < fuel) :
    ∃ l, FirehoseStreamEngine.streamToDevice io fuel cmd data e = (.ok (), e.withLink l) := by
  obtain ⟨l, hl⟩ := engineCommand_acknowledged hio cmd h
  obtain ⟨l', hl'⟩ := sendLoop_acknowledged (e := e.withLink l) hio h hchunk hfuel
  rw [FirehoseStreamEngine.streamToDevice,
    Program.run_bind_ok (FirehoseStreamEngine.checkCancelled_passes h),
    Program.run_bind_ok hl, Program.run_bind_ok hl']
  exact ⟨l', FirehoseStreamEngine.checkCancelled_passes h⟩

/-- Fuel above the number of bytes sees every chunk in. -/
theorem receiveLoop_delivered (hio : Delivers io) {fuel remaining : Nat} (data : ByteBuffer)
    (h : e.cancelled = false) (hchunk : 0 < e.config.chunkSizeFromTarget)
    (hremaining : remaining < 2 ^ 64) (hfuel : remaining < fuel) :
    ∃ all l, FirehoseStreamEngine.receiveLoop io fuel remaining data e
      = (.ok all, e.withLink l) := by
  induction fuel generalizing remaining data e with
  | zero => omega
  | succ fuel ih =>
    rw [FirehoseStreamEngine.receiveLoop, Program.run_bind_ok (Program.run_gets _ e)]
    by_cases hzero : remaining = 0
    · rw [if_pos (.inl hzero)]
      exact ⟨data, e.link, rfl⟩
    · rw [if_neg (by simp [hzero, h]), Program.run_bind_ok (Program.run_gets _ e)]
      obtain ⟨chunk, hread, hlength⟩ := hio e.link.transport
        (min remaining e.config.chunkSizeFromTarget)
      have hreceive : ∃ l, FirehoseStreamEngine.receiveChunk io
          (min remaining e.config.chunkSizeFromTarget) e = (.ok chunk, e.withLink l) := by
        rw [FirehoseStreamEngine.receiveChunk,
          Program.run_bind_ok (FirehoseStreamEngine.checkCancelled_passes h)]
        exact ⟨_, onEngineLink_run (Prod.ext hread rfl)⟩
      obtain ⟨l, hl⟩ := hreceive
      have hsub : sizeSub remaining chunk.length = remaining - chunk.length :=
        sizeSub_eq hremaining (by omega)
      rw [Program.run_bind_ok hl, hsub]
      exact ih (e := e.withLink l) _ h hchunk (by omega) (by omega)

theorem streamFromDevice_acknowledged (hio : Acknowledges io) (hdelivers : Delivers io)
    {fuel totalBytes : Nat} (cmd : FirehoseCommand) (h : e.cancelled = false)
    (hchunk : 0 < e.config.chunkSizeFromTarget) (htotal : totalBytes < 2 ^ 64)
    (hfuel : totalBytes < fuel) :
    ∃ all l, FirehoseStreamEngine.streamFromDevice io fuel cmd totalBytes e
      = (.ok all, e.withLink l) := by
  obtain ⟨l₁, hl₁⟩ := engineCommand_acknowledged hio cmd h
  obtain ⟨l₂, hl₂⟩ := engineResponse_acknowledged (e := e.withLink l₁) hio h
  obtain ⟨all, l₃, hl₃⟩ := receiveLoop_delivered (e := (e.withLink l₁).withLink l₂) hdelivers
    [] h hchunk htotal hfuel
  rw [FirehoseStreamEngine.streamFromDevice,
    Program.run_bind_ok (FirehoseStreamEngine.checkCancelled_passes h),
    Program.run_bind_ok hl₁, Program.run_bind_ok hl₂, if_neg (by simp [acknowledgement_isAck.2]),
    Program.run_bind_ok hl₃, Program.run_bind_ok (FirehoseStreamEngine.checkCancelled_passes
      (s := ((e.withLink l₁).withLink l₂).withLink l₃) h)]
  exact ⟨all, l₃, rfl⟩

end Engine

/-- Configured, not cancelled, and with chunks of some size. -/
structure Ready (s : FirehoseProtocol τ) : Prop where
  configured : s.configured = true
  live : s.cancelled = false
  engineLive : s.engineOf.cancelled = false
  toTarget : 0 < s.engineOf.config.chunkSizeToTarget
  fromTarget : 0 < s.engineOf.config.chunkSizeFromTarget

theorem Ready.withLink (h : s.Ready) (l : Link τ) : (s.withLink l).Ready :=
  ⟨h.configured, h.live, h.engineLive, h.toTarget, h.fromTarget⟩

theorem Ready.streamed (h : s.Ready) (l : Link τ) (phase : ProtocolPhase) :
    Ready { s.withEngine (s.engineOf.withLink l) with phase := phase } :=
  ⟨h.configured, h.live, h.engineLive, h.toTarget, h.fromTarget⟩

theorem program_acknowledged (hio : Acknowledges io) {fuel : Nat} (cmd : ProgramCommand)
    {data : ByteBuffer} (hconfigured : s.configured = true) (h : s.engineOf.cancelled = false)
    (hchunk : 0 < s.engineOf.config.chunkSizeToTarget ∨ data = []) (hfuel : data.length < fuel) :
    ∃ l, program io fuel cmd data s
      = (.ok {}, { s.withEngine (s.engineOf.withLink l) with phase := .firehoseReady }) := by
  obtain ⟨l, hl⟩ := streamToDevice_acknowledged hio (.program cmd) h hchunk hfuel
  rw [program_run fuel cmd data hconfigured, hl]
  exact ⟨l, rfl⟩

theorem read_acknowledged (hio : Acknowledges io) (hdelivers : Delivers io) {fuel : Nat}
    (cmd : ReadCommand) (hconfigured : s.configured = true) (h : s.engineOf.cancelled = false)
    (hchunk : 0 < s.engineOf.config.chunkSizeFromTarget)
    (hfuel : cmd.sectorSize.toNat * cmd.numSectorSize.toNat < fuel) :
    ∃ all l, read io fuel cmd s
      = (.ok all, { s.withEngine (s.engineOf.withLink l) with phase := .transferring }) := by
  have htotal : cmd.sectorSize.toNat * cmd.numSectorSize.toNat < 2 ^ 32 * 2 ^ 32 :=
    Nat.mul_lt_mul'' cmd.sectorSize.toNat_lt cmd.numSectorSize.toNat_lt
  obtain ⟨all, l, hl⟩ :=
    streamFromDevice_acknowledged hio hdelivers (.read cmd) h hchunk htotal hfuel
  rw [read, stream_run hconfigured, hl]
  exact ⟨all, l, rfl⟩

end MBootCore.FirehoseProtocol
