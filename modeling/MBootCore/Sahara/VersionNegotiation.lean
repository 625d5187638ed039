import MBootCore.Sahara.ProtocolSpec

/-!
# Sahara — VersionNegotiation

The version of a session. The host takes the versions from
`defaultVersionSupported` to `defaultVersion`, the device those its HELLO names,
and the session runs at the highest of both; where there is none nothing is
sent.
-/

namespace MBootCore.SaharaProtocol

open SaharaPacketParser SaharaPacketSerializer

/-- In the host's range and in the device's. -/
def Common (hello : HelloView) (v : UInt32) : Prop :=
  (defaultVersionSupported ≤ v ∧ v ≤ defaultVersion) ∧
    (hello.versionSupported ≤ v ∧ v ≤ hello.version)

structure Highest (hello : HelloView) (v : UInt32) : Prop where
  common : Common hello v
  greatest : ∀ w, Common hello w → w ≤ v

/-! ## The selection -/

theorem versionMismatch_eq_false {hello : HelloView} {v : UInt32} :
    versionMismatch v hello = false ↔ Common hello v := by
  simp only [versionMismatch, Common, Bool.or_eq_false_iff, decide_eq_false_iff_not, gt_iff_lt,
    UInt32.not_lt]
  tauto

/-- Where there is a common version the highest one is selected. -/
theorem selectVersion_highest {hello : HelloView} {v : UInt32} (h : Common hello v) :
    Highest hello (selectVersion hello) := by
  obtain ⟨⟨hlo, hhi⟩, hsupported, hversion⟩ := h
  have hlow : defaultVersionSupported.toNat = 2 := rfl
  have hhigh : defaultVersion.toNat = 3 := rfl
  simp only [UInt32.le_iff_toNat_le] at hlo hhi hsupported hversion
  rw [selectVersion]
  split
  · rename_i hhost
    refine ⟨⟨⟨by decide, UInt32.le_refl _⟩, hhost⟩, fun w hw => hw.1.2⟩
  · rename_i hhost
    simp only [ge_iff_le, UInt32.le_iff_toNat_le] at hhost
    -- the host's highest is above the device's
    have hbelow : hello.version.toNat < defaultVersion.toNat := by omega
    have hdevice : hello.version ≥ defaultVersionSupported ∧ hello.version ≤ defaultVersion := by
      simp only [ge_iff_le, UInt32.le_iff_toNat_le]
      omega
    rw [if_pos hdevice]
    refine ⟨⟨hdevice, ?_, UInt32.le_refl _⟩, fun w hw => hw.2.2⟩
    rw [UInt32.le_iff_toNat_le]
    omega

theorem versionMismatch_selectVersion {hello : HelloView} :
    versionMismatch (selectVersion hello) hello = false ↔ ∃ v, Common hello v := by
  rw [versionMismatch_eq_false]
  exact ⟨fun h => ⟨_, h⟩, fun ⟨_, h⟩ => (selectVersion_highest h).common⟩

/-! ## What follows HELLO_RESP -/

/-- More may have been written, and the version is the same. -/
def Negotiated (s t : SaharaProtocol) : Prop :=
  t.negotiatedVersion = s.negotiatedVersion ∧
    ∃ more, t.transport.written = s.transport.written ++ more

namespace Negotiated

protected theorem refl (s : SaharaProtocol) : Negotiated s s :=
  ⟨rfl, [], (List.append_nil _).symm⟩

protected theorem trans ⦃r s t : SaharaProtocol⦄ (h : Negotiated r s) (h' : Negotiated s t) :
    Negotiated r t := by
  obtain ⟨hversion, more, hmore⟩ := h
  obtain ⟨hversion', more', hmore'⟩ := h'
  exact ⟨hversion'.trans hversion, more ++ more', by rw [hmore', hmore, List.append_assoc]⟩

theorem bind {α β : Type} {p : Method α} {f : α → Method β} (hp : Program.Steps Negotiated p)
    (hf : ∀ a, Program.Steps Negotiated (f a)) : Program.Steps Negotiated (p >>= f) :=
  Program.Steps.bind Negotiated.trans hp hf

/-- A statement that leaves the transport and the version alone. -/
theorem quiet {f : SaharaProtocol → SaharaProtocol}
    (hversion : ∀ s, (f s).negotiatedVersion = s.negotiatedVersion)
    (htransport : ∀ s, (f s).transport = s.transport) :
    Program.Steps Negotiated (Program.modify f : Method Unit) :=
  fun s => ⟨hversion s, [], by
    show (f s).transport.written = _
    rw [htransport, List.append_nil]⟩

theorem accept (awaited : UInt32) (packet : SaharaPacket) :
    Program.Steps Negotiated (accept awaited packet) :=
  quiet (fun _ => rfl) fun _ => rfl

theorem setDeviceInfo (f : DeviceInfo → DeviceInfo) : Program.Steps Negotiated (setDeviceInfo f) :=
  quiet (fun _ => rfl) fun _ => rfl

theorem fire (event : SaharaEvent) : Program.Steps Negotiated (fire event) :=
  quiet (fun _ => rfl) fun _ => rfl

theorem setPhase (phase : ProtocolPhase) : Program.Steps Negotiated (setPhase phase) :=
  quiet (fun _ => rfl) fun _ => rfl

theorem transportRead : Program.Steps Negotiated transportRead :=
  fun _ => ⟨rfl, [], (List.append_nil _).symm⟩

theorem receivePacket (expectedCmd : UInt32) :
    Program.Steps Negotiated (receivePacket expectedCmd) := by
  intro s
  rw [receivePacket_state]
  exact ⟨rfl, [], (List.append_nil _).symm⟩

theorem sendPacket (packet : SaharaPacket) : Program.Steps Negotiated (sendPacket packet) := by
  intro s
  obtain ⟨data, hstate, -⟩ := sendPacket_run packet s
  rw [hstate]
  exact ⟨rfl, [data], rfl⟩

theorem v2Query (clientCmd : UInt32) : Program.Steps Negotiated (v2Query clientCmd) := by
  refine bind (sendPacket _) fun _ => bind transportRead fun rspBuf => ?_
  refine bind (Program.Steps.ofExcept Negotiated.refl _) fun packet => ?_
  cases packet with
  | commandExecResponse respCmd respLength =>
    by_cases hcmd : respCmd ≠ clientCmd
    · simp only [if_pos hcmd]
      exact Program.Steps.fail Negotiated.refl _
    · simp only [if_neg hcmd]
      exact bind (accept _ _) fun _ => setDeviceInfo _
  | _ => exact Program.Steps.fail Negotiated.refl _

theorem performV2Discovery : Program.Steps Negotiated performV2Discovery :=
  bind (v2Query 1) fun _ => bind (v2Query 2) fun _ => v2Query 3

theorem identify (u : WrongCast) (negotiatedVersion : UInt32) :
    Program.Steps Negotiated (identify u negotiatedVersion) := by
  refine bind ?_ fun chipPktResult => ?_
  · unfold receiveChipId
    split
    · exact (receivePacket 0x0A).attempt
    · exact Program.Steps.pure Negotiated.refl _
  · cases chipPktResult with
    | ok packet => exact bind (accept _ _) fun _ => bind (setDeviceInfo _) fun _ => setPhase _
    | error e => exact bind performV2Discovery.attempt fun _ => setPhase _

theorem handshakeFailed {α : Type} (e : ErrorCode) :
    Program.Steps Negotiated (handshakeFailed e : Method α) :=
  bind (fire _) fun _ => bind (setPhase _) fun _ => Program.Steps.fail Negotiated.refl _

end Negotiated

/-! ## The handshake -/

/-- HELLO_RESP is among the buffers. -/
def SendsHelloResponse (sent : List ByteBuffer) : Prop :=
  ∃ data ∈ sent, ∃ version versionSupported status mode,
    serialize (.helloResponse version versionSupported status mode) = .ok data

/-- What a handshake makes of a HELLO: what it writes, and how it ends. -/
structure AnswersHello (hello : HelloView) (sent : List ByteBuffer)
    (outcome : Except ErrorCode Unit × SaharaProtocol) : Prop where
  answered : SendsHelloResponse sent ↔ ∃ v, Common hello v
  highest : (∃ v, Common hello v) → Highest hello outcome.2.negotiatedVersion ∧
    ∃ data more, sent = data :: more ∧ serialize (.helloResponse outcome.2.negotiatedVersion
      defaultVersionSupported helloResponseSuccess hello.mode) = .ok data
  refused : (¬ ∃ v, Common hello v) → outcome.1 = .error .protocolMismatch ∧ sent = []

theorem sendPacket_writes (packet : SaharaPacket) (s : SaharaProtocol) :
    ∃ data, serialize packet = .ok data ∧ (sendPacket packet s).2 = s.afterWrite data := by
  obtain ⟨data, hdata⟩ : ∃ data, serialize packet = .ok data := ⟨_, serialize_eq packet⟩
  refine ⟨data, hdata, ?_⟩
  simp only [sendPacket, hdata, Program.run_bind, Program.run_ofExcept, transportWrite,
    Transport.write]
  cases s.transport.writeResult data <;> rfl

/-- HELLO_RESP is the first that is written, and nothing after it changes the
version. -/
theorem answerHello_writes (u : WrongCast) (v mode : UInt32) (s : SaharaProtocol) :
    (answerHello u v mode s).2.negotiatedVersion = s.negotiatedVersion ∧ ∃ data more,
      serialize (.helloResponse v defaultVersionSupported helloResponseSuccess mode) = .ok data ∧
      (answerHello u v mode s).2.transport.written = s.transport.written ++ data :: more := by
  obtain ⟨data, hdata, hsent⟩ := sendPacket_writes
    (.helloResponse v defaultVersionSupported helloResponseSuccess mode) s
  have hafter : Negotiated (s.afterWrite data) (answerHello u v mode s).2 := by
    rw [answerHello, Program.run_bind_ok (Program.run_attempt _ _), hsent]
    cases (sendPacket (.helloResponse v defaultVersionSupported helloResponseSuccess mode) s).1 with
    | error e => exact Negotiated.handshakeFailed e _
    | ok => exact Negotiated.bind (Negotiated.fire _) (fun _ => Negotiated.identify u v) _
  obtain ⟨hversion, more, hmore⟩ := hafter
  refine ⟨hversion, data, more, hdata, ?_⟩
  rw [hmore]
  exact List.append_assoc _ [data] more

/-- The state in which a HELLO is answered. -/
def greeted (s : SaharaProtocol) (hello : HelloView) : SaharaProtocol :=
  let negotiatedVersion := selectVersion hello
  let informed := setDeviceInfo (fun info =>
    { info with
      version := { info.version with major := negotiatedVersion }
      mode := saharaModeFromRaw hello.mode
      capabilities := if negotiatedVersion ≥ 3 then
        info.capabilities ||| DeviceCapability.v3Supported else info.capabilities })
    { s with negotiatedVersion := negotiatedVersion }
  (fire .helloReceived informed.2).2

theorem negotiate_answers (u : WrongCast) (hello : HelloView) (s : SaharaProtocol) :
    ∃ sent, (negotiate u hello s).2.transport.written = s.transport.written ++ sent ∧
      AnswersHello hello sent (negotiate u hello s) := by
  cases hmismatch : versionMismatch (selectVersion hello) hello with
  | true =>
    have hnone : ¬ ∃ v, Common hello v := by
      rw [← versionMismatch_selectVersion, hmismatch]
      decide
    refine ⟨[], ?_, ?_, fun h => absurd h hnone, fun _ => ⟨?_, rfl⟩⟩
    · simp only [negotiate, hmismatch, if_true, List.append_nil]
      rfl
    · exact iff_of_false (fun ⟨data, hdata, _⟩ => absurd hdata List.not_mem_nil) hnone
    · simp only [negotiate, hmismatch, if_true]
      rfl
  | false =>
    have hcommon := versionMismatch_selectVersion.mp hmismatch
    have hhighest := selectVersion_highest hcommon.choose_spec
    have hrun : negotiate u hello s
        = answerHello u (selectVersion hello) hello.mode (s.greeted hello) := by
      simp only [negotiate, hmismatch]
      rfl
    obtain ⟨hversion, data, more, hdata, hwritten⟩ :=
      answerHello_writes u (selectVersion hello) hello.mode (s.greeted hello)
    rw [hrun]
    refine ⟨data :: more, hwritten, ?_, fun _ => ?_, fun h => absurd hcommon h⟩
    · exact iff_of_true ⟨data, List.mem_cons_self, _, _, _, _, hdata⟩ hcommon
    · rw [hversion]
      exact ⟨hhighest, data, more, rfl, hdata⟩

/-- A handshake that receives a HELLO answers it where the ranges meet, with the
highest common version, and otherwise fails with nothing written. -/
theorem handshake_answers (u : WrongCast) (s : SaharaProtocol)
    (version versionSupported cmdPacketLength mode : UInt32)
    (h : s.packetAt 0 = .ok (.hello version versionSupported cmdPacketLength mode)) :
    ∃ sent, (handshake u s).2.transport.written = s.transport.written ++ sent ∧
      AnswersHello ⟨version, versionSupported, mode⟩ sent (handshake u s) := by
  have hpacket : (setPhase .handshake s).2.packetAt 0
      = .ok (.hello version versionSupported cmdPacketLength mode) := h
  have hreceive := receivePacket_run 0x01 (setPhase .handshake s).2
  rw [hpacket] at hreceive
  let received := (accept 0x01 (.hello version versionSupported cmdPacketLength mode)
    (setPhase .handshake s).2.afterRead).2
  have hrun : handshake u s = negotiate u ⟨version, versionSupported, mode⟩ received := by
    rw [handshake, Program.run_bind_ok (show setPhase .handshake s
      = (.ok (), (setPhase .handshake s).2) from rfl),
      Program.run_bind_ok (Program.run_attempt _ _), hreceive]
    rfl
  rw [hrun]
  exact negotiate_answers u _ received

/-- A device that takes the versions 1 and 2 is there. -/
def olderDevice : SaharaProtocol where
  transport :=
    { replies := [.ok ((serialize (.hello 2 1 1024 0)).toOption.getD [])]
      writeResults := [] }

/-- It gets version 2. -/
theorem handshake_answers_older : ∃ sent,
    (handshake ⟨fun _ => ⟨0, 0, 0⟩, fun _ => ⟨0, 0, 0, 0, 0, 0⟩⟩ olderDevice).2.transport.written
        = olderDevice.transport.written ++ sent ∧
      AnswersHello ⟨2, 1, 0⟩ sent
        (handshake ⟨fun _ => ⟨0, 0, 0⟩, fun _ => ⟨0, 0, 0, 0, 0, 0⟩⟩ olderDevice) :=
  handshake_answers _ _ 2 1 1024 0 (by decide)

end MBootCore.SaharaProtocol
