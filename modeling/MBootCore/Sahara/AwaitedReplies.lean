import MBootCore.Sahara.ProtocolSpec

/-!
# Sahara — AwaitedReplies

Which received packets `SaharaProtocol` takes for the reply it is waiting for.

`receivePacket` lets END_IMAGE through whatever it was asked for. The upload
loop tells that packet apart before it casts; the HELLO wait, the chip-id wait
and the two waits of `reset` do not. `RepliesAwaited` says of a call's
replies that no such wait meets an END_IMAGE packet, and the accepted packets
of a run are all of the awaited kind exactly when this holds of each call
(`runCalls_accepted_iff`).
-/

namespace MBootCore

namespace SaharaProtocol

open SaharaPacketParser SaharaPacketSerializer

def AcceptedAwaited (s : SaharaProtocol) : Prop :=
  ∀ e ∈ s.accepted, e.packet.command = e.awaited

theorem acceptedAwaited_congr {s t : SaharaProtocol} (h : t.accepted = s.accepted) :
    t.AcceptedAwaited ↔ s.AcceptedAwaited := by
  rw [AcceptedAwaited, AcceptedAwaited, h]

/-- One more accepted packet. -/
theorem acceptedAwaited_accept (s : SaharaProtocol) (awaited : UInt32) (packet : SaharaPacket) :
    (accept awaited packet s).2.AcceptedAwaited ↔
      s.AcceptedAwaited ∧ packet.command = awaited := by
  simp [accept, AcceptedAwaited, or_imp, forall_and]

/-- A run of the method keeps the log's verdict, either way. -/
def KeepsVerdict (s t : SaharaProtocol) : Prop := t.AcceptedAwaited ↔ s.AcceptedAwaited

/-- The packets a method checks before it accepts them keep the verdict, so
V2 discovery and the upload do. -/
theorem keepsVerdict_rules : StepRules KeepsVerdict where
  trans _ _ _ h₁ h₂ := Iff.trans h₂ h₁
  quiet h _ _ := acceptedAwaited_congr h
  fire _ _ := acceptedAwaited_congr rfl
  accept s h := by rw [KeepsVerdict, acceptedAwaited_accept, and_iff_left h]

/-! ## The waits that do not -/

def IsEndImage (r : Except ErrorCode SaharaPacket) : Prop :=
  ∃ imageId status, r = .ok (.endImageTransfer imageId status)

theorem command_eq_endImage {packet : SaharaPacket} :
    packet.command = 0x04 ↔ ∃ imageId status, packet = .endImageTransfer imageId status := by
  cases packet <;> simp [SaharaPacket.command]

/-- An unchecked wait: the verdict now depends on the reply. -/
theorem receive_accept (expectedCmd : UInt32) (hcmd : expectedCmd ≠ 0x04) {s t : SaharaProtocol}
    {packet : SaharaPacket} (h : receivePacket expectedCmd s = (.ok packet, t)) :
    (accept expectedCmd packet t).2.AcceptedAwaited ↔
      s.AcceptedAwaited ∧ ¬ IsEndImage (s.packetAt 0) := by
  obtain ⟨hpacket, rfl, hkind⟩ := receivePacket_ok h
  rw [acceptedAwaited_accept, hpacket]
  refine and_congr (acceptedAwaited_congr rfl) ?_
  simp only [IsEndImage, Except.ok.injEq, ← command_eq_endImage]
  rcases hkind with hkind | hkind
  · simp [hkind, hcmd]
  · simp [hkind, hcmd.symm]

theorem not_isEndImage_of_error {expectedCmd : UInt32} {s t : SaharaProtocol} {e : ErrorCode}
    (h : receivePacket expectedCmd s = (.error e, t)) : ¬ IsEndImage (s.packetAt 0) := by
  rintro ⟨imageId, status, hpacket⟩
  rw [receivePacket_run, hpacket] at h
  simp [SaharaPacket.command] at h

/-- A wait whose packet is accepted and then only worked with. -/
theorem wait_acceptedAwaited {α : Type} (expectedCmd : UInt32) (hcmd : expectedCmd ≠ 0x04)
    (next : SaharaPacket → Method α)
    (hnext : ∀ packet t, (next packet t).2.accepted = (accept expectedCmd packet t).2.accepted)
    (s : SaharaProtocol) :
    ((receivePacket expectedCmd >>= next) s).2.AcceptedAwaited ↔
      s.AcceptedAwaited ∧ ¬ IsEndImage (s.packetAt 0) := by
  rw [Program.run_bind]
  rcases hreceive : receivePacket expectedCmd s with ⟨e | packet, t⟩
  · rw [and_iff_left (not_isEndImage_of_error hreceive)]
    have := keepsVerdict_rules.receivePacket expectedCmd s
    rwa [hreceive] at this
  · rw [← receive_accept expectedCmd hcmd hreceive]
    exact acceptedAwaited_congr (hnext packet t)

/-- The chip-id wait; without an answer discovery takes over. -/
theorem identify_acceptedAwaited (u : WrongCast) (negotiatedVersion : UInt32)
    (s : SaharaProtocol) :
    (identify u negotiatedVersion s).2.AcceptedAwaited ↔
      s.AcceptedAwaited ∧ (negotiatedVersion ≥ 3 → ¬ IsEndImage (s.packetAt 0)) := by
  have hdiscovery (t : SaharaProtocol) :
      (performV2Discovery t).2.AcceptedAwaited ↔ t.AcceptedAwaited :=
    keepsVerdict_rules.performV2Discovery t
  by_cases hversion : negotiatedVersion ≥ 3
  · rw [imp_iff_right hversion]
    rcases hreceive : receivePacket 0x0A s with ⟨e | packet, t⟩
    · have hkeep : t.AcceptedAwaited ↔ s.AcceptedAwaited := by
        have := keepsVerdict_rules.receivePacket 0x0A s
        rwa [hreceive] at this
      rw [and_iff_left (not_isEndImage_of_error hreceive), ← hkeep, ← hdiscovery t]
      simp only [identify, receiveChipId, if_pos hversion, Program.run_bind,
        Program.run_attempt, hreceive]
      exact acceptedAwaited_congr rfl
    · rw [← receive_accept 0x0A (by decide) hreceive]
      simp only [identify, receiveChipId, if_pos hversion, Program.run_bind,
        Program.run_attempt, hreceive]
      exact acceptedAwaited_congr rfl
  · rw [and_iff_left (fun h => absurd h hversion), ← hdiscovery s]
    simp only [identify, receiveChipId, if_neg hversion, Program.run_bind, Program.run_pure,
      Program.run_attempt]
    exact acceptedAwaited_congr rfl

theorem answerHello_acceptedAwaited (u : WrongCast) (negotiatedVersion mode : UInt32)
    (s : SaharaProtocol) :
    (answerHello u negotiatedVersion mode s).2.AcceptedAwaited ↔
      s.AcceptedAwaited ∧ (negotiatedVersion ≥ 3 → s.writeOk 0 = true →
        ¬ IsEndImage (s.packetAt 0)) := by
  obtain ⟨data, hstate, hok⟩ := sendPacket_run (.helloResponse negotiatedVersion
    defaultVersionSupported helloResponseSuccess mode) s
  simp only [answerHello, Program.run_bind, Program.run_attempt, hstate, ← hok]
  cases (sendPacket (.helloResponse negotiatedVersion defaultVersionSupported
      helloResponseSuccess mode) s).1 with
  | error e =>
    rw [and_iff_left (by simp)]
    exact acceptedAwaited_congr rfl
  | ok v =>
    simp only [forall_const]
    exact identify_acceptedAwaited u negotiatedVersion
      (fire .helloResponseSent (s.afterWrite data)).2

/-- Only a version 3 device whose HELLO was answered is asked for its chip id. -/
theorem negotiate_acceptedAwaited (u : WrongCast) (hello : HelloView) (s : SaharaProtocol) :
    (negotiate u hello s).2.AcceptedAwaited ↔
      s.AcceptedAwaited ∧ (versionMismatch (selectVersion hello) hello = false →
        selectVersion hello ≥ 3 → s.writeOk 0 = true → ¬ IsEndImage (s.packetAt 0)) := by
  cases hmismatch : versionMismatch (selectVersion hello) hello with
  | true =>
    rw [and_iff_left (by simp)]
    simp only [negotiate, hmismatch, if_true]
    exact acceptedAwaited_congr rfl
  | false =>
    simp only [negotiate, hmismatch, Bool.false_eq_true, if_false, forall_const]
    exact answerHello_acceptedAwaited u _ _ _

theorem command_eq_hello {packet : SaharaPacket} (h : packet.command = 0x01) :
    ∃ version versionSupported cmdPacketLength mode,
      packet = .hello version versionSupported cmdPacketLength mode := by
  cases packet <;> simp [SaharaPacket.command] at h ⊢

/-- The replies the handshake waits for: HELLO, and the chip id of a device
that negotiates version 3. -/
def HandshakeRepliesAwaited (s : SaharaProtocol) : Prop :=
  ¬ IsEndImage (s.packetAt 0) ∧
    ∀ version versionSupported cmdPacketLength mode,
      s.packetAt 0 = .ok (.hello version versionSupported cmdPacketLength mode) →
      versionMismatch (selectVersion ⟨version, versionSupported, mode⟩)
        ⟨version, versionSupported, mode⟩ = false →
      selectVersion ⟨version, versionSupported, mode⟩ ≥ 3 → s.writeOk 0 = true →
        ¬ IsEndImage (s.packetAt 1)

theorem handshake_acceptedAwaited (u : WrongCast) (s : SaharaProtocol) :
    (handshake u s).2.AcceptedAwaited ↔ s.AcceptedAwaited ∧ s.HandshakeRepliesAwaited := by
  have hstart (k : Nat) : (setPhase .handshake s).2.packetAt k = s.packetAt k := rfl
  rcases hreceive : receivePacket 0x01 (setPhase .handshake s).2 with ⟨e | packet, t⟩
  · have hrun : (handshake u s).2.accepted = t.accepted := by
      simp only [handshake, Program.run_bind, Program.run_attempt]
      rw [show setPhase .handshake s = (.ok (), (setPhase .handshake s).2) from rfl]
      simp only [hreceive]
      rfl
    have hkeep : t.AcceptedAwaited ↔ s.AcceptedAwaited := by
      have := keepsVerdict_rules.receivePacket 0x01 (setPhase .handshake s).2
      rwa [hreceive] at this
    rw [acceptedAwaited_congr hrun, hkeep]
    refine (and_iff_left ⟨hstart 0 ▸ not_isEndImage_of_error hreceive, ?_⟩).symm
    intro version versionSupported cmdPacketLength mode hpacket
    rw [receivePacket_run, hstart, hpacket] at hreceive
    simp [SaharaPacket.command] at hreceive
  · have hrun : handshake u s = negotiate u (packet.asHello u) (accept 0x01 packet t).2 := by
      simp only [handshake, Program.run_bind, Program.run_attempt]
      rw [show setPhase .handshake s = (.ok (), (setPhase .handshake s).2) from rfl]
      simp only [hreceive]
      rfl
    rw [hrun, negotiate_acceptedAwaited, receive_accept 0x01 (by decide) hreceive, and_assoc,
      hstart, HandshakeRepliesAwaited]
    obtain ⟨hpacket, rfl, hkind⟩ := receivePacket_ok hreceive
    refine and_congr_right fun _ => and_congr_right fun hnot => ?_
    rw [hstart] at hpacket
    rcases hkind with hkind | hkind
    · obtain ⟨version, versionSupported, cmdPacketLength, mode, rfl⟩ := command_eq_hello hkind
      have hnext : (accept 0x01 (.hello version versionSupported cmdPacketLength mode)
          (setPhase .handshake s).2.afterRead).2.packetAt 0 = s.packetAt 1 :=
        packetAt_afterRead _ 0
      rw [hnext, hpacket]
      constructor
      · rintro h _ _ _ _ hp
        cases hp
        exact h
      · intro h
        exact h _ _ _ _ rfl
    · obtain ⟨imageId, status, rfl⟩ := command_eq_endImage.mp hkind
      exact absurd ⟨imageId, status, hpacket⟩ hnot

/-- A request, then a wait. -/
theorem exchange_acceptedAwaited {α : Type} (packet : SaharaPacket) {wait : Method α}
    (hwait : ∀ t, (wait t).2.AcceptedAwaited ↔ t.AcceptedAwaited ∧ ¬ IsEndImage (t.packetAt 0))
    (s : SaharaProtocol) :
    ((sendPacket packet >>= fun _ => wait) s).2.AcceptedAwaited ↔
      s.AcceptedAwaited ∧ (s.writeOk 0 = true → ¬ IsEndImage (s.packetAt 0)) := by
  obtain ⟨data, hstate, hok⟩ := sendPacket_run packet s
  rw [← hok, Program.run_bind]
  rcases hsend : sendPacket packet s with ⟨e | v, s₁⟩
  all_goals obtain rfl : s₁ = s.afterWrite data := by rw [← hstate, hsend]
  · rw [and_iff_left (by simp)]
    exact acceptedAwaited_congr rfl
  · rw [imp_iff_right rfl, hwait, packetAt_afterWrite]
    exact and_congr (acceptedAwaited_congr rfl) Iff.rfl

theorem requestDone_acceptedAwaited (s : SaharaProtocol) :
    (requestDone s).2.AcceptedAwaited ↔
      s.AcceptedAwaited ∧ (s.writeOk 0 = true → ¬ IsEndImage (s.packetAt 0)) := by
  apply exchange_acceptedAwaited
  exact wait_acceptedAwaited 0x06 (by decide) _ fun _ _ => rfl

theorem requestReset_acceptedAwaited (s : SaharaProtocol) :
    (requestReset s).2.AcceptedAwaited ↔
      s.AcceptedAwaited ∧ (s.writeOk 0 = true → ¬ IsEndImage (s.packetAt 0)) := by
  apply exchange_acceptedAwaited
  intro t
  exact wait_acceptedAwaited 0x08 (by decide)
    (fun resetResp => do
      accept 0x08 resetResp
      fire .resetResponseRecv
      setPhase .finished)
    (fun _ _ => rfl) (fire .resetRequested t).2

/-- When the DONE exchange goes through, and what it uses up. -/
theorem requestDone_run (s : SaharaProtocol) :
    ((requestDone s).1 = .ok () ↔ s.writeOk 0 = true ∧ ∃ packet, s.packetAt 0 = .ok packet ∧
      (packet.command = 0x06 ∨ packet.command = 0x04)) ∧
    ((requestDone s).1 = .ok () →
      (requestDone s).2.packetAt 0 = s.packetAt 1 ∧ (requestDone s).2.writeOk 0 = s.writeOk 1) := by
  obtain ⟨data, hstate, hok⟩ := sendPacket_run .done s
  rw [← hok]
  rcases hsend : sendPacket .done s with ⟨e | v, s₁⟩
  all_goals obtain rfl : s₁ = s.afterWrite data := by rw [← hstate, hsend]
  · simp [requestDone, Program.run_bind, hsend]
  · have hrun := receivePacket_run 0x06 (s.afterWrite data)
    rw [packetAt_afterWrite] at hrun
    simp only [requestDone, Program.run_bind, hsend, hrun]
    cases s.packetAt 0 with
    | error e => simp
    | ok packet =>
      by_cases hcmd : packet.command ≠ 0x06 ∧ packet.command ≠ 0x04
      · simp [hcmd]
      · simp only [if_neg hcmd]
        refine ⟨?_, fun _ => ⟨?_, ?_⟩⟩
        · have : packet.command = 0x06 ∨ packet.command = 0x04 := by tauto
          simpa [accept] using this
        · exact (packetAt_congr rfl 0).trans
            ((packetAt_afterRead _ 0).trans (packetAt_afterWrite _ _ 1))
        · exact (writeOk_congr rfl 0).trans (writeOk_afterWrite _ data 0)

/-- The replies `reset` waits for: DONE_RESP, and RESET_RESP once it was
asked for. -/
def ResetRepliesAwaited (s : SaharaProtocol) : Prop :=
  s.writeOk 0 = true → ¬ IsEndImage (s.packetAt 0) ∧
    ∀ imageTxStatus, s.packetAt 0 = .ok (.doneResponse imageTxStatus) → s.writeOk 1 = true →
      ¬ IsEndImage (s.packetAt 1)

theorem command_eq_doneResponse {packet : SaharaPacket} (h : packet.command = 0x06) :
    ∃ imageTxStatus, packet = .doneResponse imageTxStatus := by
  cases packet <;> simp [SaharaPacket.command] at h ⊢

theorem reset_acceptedAwaited (s : SaharaProtocol) :
    (reset s).2.AcceptedAwaited ↔ s.AcceptedAwaited ∧ s.ResetRepliesAwaited := by
  have hdone := requestDone_acceptedAwaited s
  obtain ⟨hok, hnext⟩ := requestDone_run s
  rcases hrun : requestDone s with ⟨e | v, t⟩
  · rw [hrun] at hdone hok
    rw [show (reset s).2 = t by simp [reset, Program.run_bind, hrun], hdone]
    refine and_congr_right fun _ => forall_congr' fun hwrite => ?_
    refine (and_iff_left ?_).symm
    intro imageTxStatus hpacket
    exact absurd (hok.mpr ⟨hwrite, _, hpacket, Or.inl rfl⟩) (by simp)
  · rw [hrun] at hdone hok hnext
    obtain ⟨hwrite, packet, hpacket, hkind⟩ := hok.mp rfl
    obtain ⟨hpacket₁, hwrite₁⟩ := hnext rfl
    rw [show reset s = requestReset t by simp [reset, Program.run_bind, hrun],
      requestReset_acceptedAwaited, hdone, ResetRepliesAwaited, imp_iff_right hwrite,
      imp_iff_right hwrite, hpacket₁, hwrite₁, and_assoc]
    refine and_congr_right fun _ => and_congr_right fun hnot => ?_
    rcases hkind with hkind | hkind
    · obtain ⟨imageTxStatus, rfl⟩ := command_eq_doneResponse hkind
      constructor
      · exact fun h _ _ => h
      · exact fun h => h imageTxStatus hpacket
    · obtain ⟨imageId, status, rfl⟩ := command_eq_endImage.mp hkind
      exact absurd ⟨imageId, status, hpacket⟩ hnot

end SaharaProtocol

/-! ## Whole runs -/

open SaharaProtocol

/-- None of the call's unchecked waits meets an END_IMAGE packet. -/
def SaharaCall.RepliesAwaited (s : SaharaProtocol) : SaharaCall → Prop
  | handshake => s.HandshakeRepliesAwaited
  | reset => s.ResetRepliesAwaited
  | uploadProgrammer _ | cancel | resetState => True

theorem SaharaCall.run_acceptedAwaited (u : WrongCast) (call : SaharaCall) (s : SaharaProtocol) :
    (call.run u s).2.AcceptedAwaited ↔ s.AcceptedAwaited ∧ call.RepliesAwaited s := by
  cases call with
  | handshake => exact handshake_acceptedAwaited u s
  | reset => exact reset_acceptedAwaited s
  | uploadProgrammer programmerData =>
    exact (keepsVerdict_rules.uploadProgrammer programmerData s).trans (and_iff_left trivial).symm
  | cancel | resetState => exact (and_iff_left trivial).symm

theorem runCalls_acceptedAwaited (u : WrongCast) (calls : List SaharaCall) (s : SaharaProtocol) :
    (runCalls u calls s).2.AcceptedAwaited ↔
      s.AcceptedAwaited ∧ ∀ r ∈ (runCalls u calls s).1, r.call.RepliesAwaited r.before := by
  induction calls generalizing s with
  | nil => simp [runCalls]
  | cons call calls ih =>
    simp only [runCalls, ih, SaharaCall.run_acceptedAwaited, List.forall_mem_cons, and_assoc]

/-- The call's `k`-th reply is a packet with that command. -/
def SaharaRecord.Received (r : SaharaRecord) (k : Nat) (command : UInt32) : Prop :=
  ∃ packet, r.before.packetAt k = .ok packet ∧ packet.command = command

/-- What a successful call has received. -/
def SaharaRecord.AnswersReceived (r : SaharaRecord) : Prop :=
  match r.call with
  | .handshake => r.Received 0 0x01
  | .reset => r.Received 0 0x06 ∧ r.Received 1 0x08
  | _ => True

theorem handshake_ok {u : WrongCast} {s : SaharaProtocol} (h : (handshake u s).1 = .ok ()) :
    ∃ packet, s.packetAt 0 = .ok packet ∧ (packet.command = 0x01 ∨ packet.command = 0x04) := by
  rcases hreceive : receivePacket 0x01 (setPhase .handshake s).2 with ⟨e | packet, t⟩
  · have herror : (handshake u s).1 = .error e := by
      simp only [handshake, Program.run_bind, Program.run_attempt]
      rw [show setPhase .handshake s = (.ok (), (setPhase .handshake s).2) from rfl]
      simp only [hreceive]
      rfl
    rw [herror] at h
    cases h
  · obtain ⟨hpacket, -, hkind⟩ := receivePacket_ok hreceive
    exact ⟨packet, hpacket, hkind⟩

theorem requestReset_ok {s t : SaharaProtocol} (h : requestReset s = (.ok (), t)) :
    s.writeOk 0 = true ∧ ∃ packet, s.packetAt 0 = .ok packet ∧
      (packet.command = 0x08 ∨ packet.command = 0x04) := by
  obtain ⟨⟨⟩, s₁, hsend, h⟩ := Program.bind_eq_ok.mp h
  obtain ⟨⟨⟩, s₂, hfire, h⟩ := Program.bind_eq_ok.mp h
  obtain ⟨packet, s₃, hreceive, -⟩ := Program.bind_eq_ok.mp h
  obtain ⟨data, hstate, hok⟩ := sendPacket_run .reset s
  obtain ⟨hpacket, -, hkind⟩ := receivePacket_ok hreceive
  rw [hsend] at hstate hok
  refine ⟨hok.mp rfl, packet, ?_, hkind⟩
  obtain ⟨-, rfl⟩ := Prod.mk.inj hfire
  obtain rfl : s₁ = s.afterWrite data := hstate
  exact hpacket

theorem reset_ok {s : SaharaProtocol} (h : (reset s).1 = .ok ()) :
    s.writeOk 0 = true ∧ s.writeOk 1 = true ∧
      (∃ packet, s.packetAt 0 = .ok packet ∧ (packet.command = 0x06 ∨ packet.command = 0x04)) ∧
      ∃ packet, s.packetAt 1 = .ok packet ∧ (packet.command = 0x08 ∨ packet.command = 0x04) := by
  obtain ⟨⟨⟩, t, hdone, hreset⟩ := Program.bind_eq_ok.mp (show reset s = (.ok (), _) from
    Prod.ext h rfl)
  obtain ⟨hok, hnext⟩ := requestDone_run s
  rw [hdone] at hok hnext
  obtain ⟨hpacket₁, hwrite₁⟩ := hnext rfl
  obtain ⟨hwrite, hpacket⟩ := hok.mp rfl
  obtain ⟨hwrite', hpacket'⟩ := requestReset_ok hreset
  rw [hpacket₁] at hpacket'
  exact ⟨hwrite, hwrite₁ ▸ hwrite', hpacket, hpacket'⟩

/-- On awaited replies a successful call has received its answers. -/
theorem SaharaCall.run_answersReceived (u : WrongCast) (call : SaharaCall) (s : SaharaProtocol)
    (h : call.RepliesAwaited s) (hok : (call.run u s).1 = .ok ()) :
    SaharaRecord.AnswersReceived ⟨call, s, (call.run u s).1, (call.run u s).2⟩ := by
  cases call with
  | handshake =>
    obtain ⟨packet, hpacket, hkind | hkind⟩ := handshake_ok hok
    · exact ⟨packet, hpacket, hkind⟩
    · obtain ⟨imageId, status, rfl⟩ := command_eq_endImage.mp hkind
      exact absurd ⟨imageId, status, hpacket⟩ h.1
  | reset =>
    obtain ⟨hwrite, hwrite₁, ⟨packet, hpacket, hkind⟩, packet₁, hpacket₁, hkind₁⟩ := reset_ok hok
    obtain ⟨hnot, hnot₁⟩ := h hwrite
    rcases hkind with hkind | hkind
    · refine ⟨⟨packet, hpacket, hkind⟩, packet₁, hpacket₁, ?_⟩
      rcases hkind₁ with hkind₁ | hkind₁
      · exact hkind₁
      · obtain ⟨imageTxStatus, rfl⟩ := command_eq_doneResponse hkind
        obtain ⟨imageId, status, rfl⟩ := command_eq_endImage.mp hkind₁
        exact absurd ⟨imageId, status, hpacket₁⟩ (hnot₁ imageTxStatus hpacket hwrite₁)
    · obtain ⟨imageId, status, rfl⟩ := command_eq_endImage.mp hkind
      exact absurd ⟨imageId, status, hpacket⟩ hnot
  | uploadProgrammer _ | cancel | resetState => trivial

theorem runCalls_answersReceived (u : WrongCast) (calls : List SaharaCall) (s : SaharaProtocol)
    (h : ∀ r ∈ (runCalls u calls s).1, r.call.RepliesAwaited r.before) :
    ∀ r ∈ (runCalls u calls s).1, r.result = .ok () → r.AnswersReceived := by
  induction calls generalizing s with
  | nil => simp [runCalls]
  | cons call calls ih =>
    simp only [runCalls, List.forall_mem_cons] at h ⊢
    exact ⟨call.run_answersReceived u s h.1, ih _ h.2⟩

/-- Over any run: every packet used as a reply is of the awaited kind, and
every successful handshake or reset has received its answers, exactly when no
unchecked wait of the run meets an END_IMAGE packet. -/
theorem runCalls_accepted_iff (u : WrongCast) (calls : List SaharaCall) (transport : Transport) :
    ((∀ e ∈ (runCalls u calls { transport := transport }).2.accepted,
        e.packet.command = e.awaited) ∧
      ∀ r ∈ (runCalls u calls { transport := transport }).1,
        r.result = .ok () → r.AnswersReceived) ↔
      ∀ r ∈ (runCalls u calls { transport := transport }).1, r.call.RepliesAwaited r.before := by
  have hrun := runCalls_acceptedAwaited u calls { transport := transport }
  rw [and_iff_right (show AcceptedAwaited { transport := transport } by simp [AcceptedAwaited])]
    at hrun
  constructor
  · exact fun h => hrun.mp h.1
  · exact fun h => ⟨hrun.mpr h, runCalls_answersReceived u calls _ h⟩

/-- `reset` takes two END_IMAGE packets for DONE_RESP and RESET_RESP and
returns Ok; neither packet was received. -/
theorem reset_accepts_endImage :
    let endImage : ByteBuffer := [4, 0, 0, 0, 16, 0, 0, 0, 1, 0, 0, 0, 0, 0, 0, 0]
    let run := runCalls ⟨fun _ => ⟨0, 0, 0⟩, fun _ => ⟨0, 0, 0, 0, 0, 0⟩⟩ [.reset]
      { transport := { replies := [.ok endImage, .ok endImage], writeResults := [] } }
    run.1.map SaharaRecord.result = [.ok ()] ∧
      run.2.accepted = [⟨0x06, .endImageTransfer 1 0⟩, ⟨0x08, .endImageTransfer 1 0⟩] ∧
      ¬ ∀ e ∈ run.2.accepted, e.packet.command = e.awaited := by
  decide

end MBootCore
