import MBootCore.Sahara.PacketRoundTrip
import MBootCore.Sahara.Protocol

/-!
# Sahara — ProtocolSpec

What one exchange of `SaharaProtocol` does to the state, stated in terms of
the packets the device still has to offer (`packetAt`), and the rule by which
a relation between the state before and after is carried through a whole
method (`StepRules`): it has to hold of the statements a method is made of.
-/

namespace MBootCore.SaharaProtocol

open SaharaPacketParser SaharaPacketSerializer

/-- The packet in the reply that `k` earlier reads leave next. -/
def packetAt (s : SaharaProtocol) (k : Nat) : Except ErrorCode SaharaPacket :=
  s.transport.replies[k]?.getD (.error .transportTimeout) >>= parse

/-- Whether the write that `k` earlier writes leave next succeeds. -/
def writeOk (s : SaharaProtocol) (k : Nat) : Bool :=
  match s.transport.writeResults[k]? with
  | some (.error _) => false
  | _ => true

def afterRead (s : SaharaProtocol) : SaharaProtocol := { s with transport := s.transport.read.2 }

def afterWrite (s : SaharaProtocol) (data : ByteBuffer) : SaharaProtocol :=
  { s with transport := (s.transport.write data).2 }

theorem packetAt_congr {s t : SaharaProtocol} (h : t.transport.replies = s.transport.replies)
    (k : Nat) : t.packetAt k = s.packetAt k := by
  rw [packetAt, packetAt, h]

@[simp] theorem packetAt_afterRead (s : SaharaProtocol) (k : Nat) :
    s.afterRead.packetAt k = s.packetAt (k + 1) := by
  simp [packetAt, afterRead, Transport.read]

@[simp] theorem packetAt_afterWrite (s : SaharaProtocol) (data : ByteBuffer) (k : Nat) :
    (s.afterWrite data).packetAt k = s.packetAt k :=
  packetAt_congr rfl k

theorem writeOk_congr {s t : SaharaProtocol}
    (h : t.transport.writeResults = s.transport.writeResults) (k : Nat) :
    t.writeOk k = s.writeOk k := by
  rw [writeOk, writeOk, h]

@[simp] theorem writeOk_afterRead (s : SaharaProtocol) (k : Nat) :
    s.afterRead.writeOk k = s.writeOk k :=
  writeOk_congr rfl k

@[simp] theorem writeOk_afterWrite (s : SaharaProtocol) (data : ByteBuffer) (k : Nat) :
    (s.afterWrite data).writeOk k = s.writeOk (k + 1) := by
  simp [writeOk, afterWrite, Transport.write]

/-- `receivePacket` reads one reply, whatever comes of it. -/
theorem receivePacket_run (expectedCmd : UInt32) (s : SaharaProtocol) :
    receivePacket expectedCmd s =
      (match s.packetAt 0 with
        | .error e => .error e
        | .ok packet =>
          if packet.command ≠ expectedCmd ∧ packet.command ≠ 0x04 then .error .unexpectedPacket
          else .ok packet, s.afterRead) := by
  have hpacket : s.packetAt 0 = s.transport.reply >>= parse := by
    rw [packetAt, Transport.reply, List.head?_eq_getElem?]
  rw [hpacket]
  simp only [receivePacket, Program.run_bind, transportRead, Transport.read]
  cases s.transport.reply with
  | error e => rfl
  | ok buffer =>
    rw [show (Except.ok buffer >>= parse) = parse buffer from rfl]
    simp only [Program.run_ofExcept]
    cases parse buffer with
    | error e => rfl
    | ok packet =>
      by_cases hcmd : packet.command ≠ expectedCmd ∧ packet.command ≠ 0x04
      · simp only [if_pos hcmd]
        rfl
      · simp only [if_neg hcmd]
        rfl

/-- What comes back is the awaited kind or an END_IMAGE packet. -/
theorem receivePacket_ok {expectedCmd : UInt32} {s t : SaharaProtocol} {packet : SaharaPacket}
    (h : receivePacket expectedCmd s = (.ok packet, t)) :
    s.packetAt 0 = .ok packet ∧ t = s.afterRead ∧
      (packet.command = expectedCmd ∨ packet.command = 0x04) := by
  rw [receivePacket_run, Prod.mk.injEq] at h
  obtain ⟨hr, rfl⟩ := h
  cases hp : s.packetAt 0 with
  | error e => simp [hp] at hr
  | ok q =>
    by_cases hq : q.command ≠ expectedCmd ∧ q.command ≠ 0x04
    · simp [hp, hq] at hr
    · obtain rfl : q = packet := by simpa [hp, hq] using hr
      exact ⟨rfl, rfl, by tauto⟩

theorem receivePacket_state (expectedCmd : UInt32) (s : SaharaProtocol) :
    (receivePacket expectedCmd s).2 = s.afterRead := by
  rw [receivePacket_run]

/-- Every packet serializes, so sending is one write. -/
theorem sendPacket_run (packet : SaharaPacket) (s : SaharaProtocol) :
    ∃ data, (sendPacket packet s).2 = s.afterWrite data ∧
      ((sendPacket packet s).1 = .ok () ↔ s.writeOk 0 = true) := by
  obtain ⟨data, hdata⟩ : ∃ data, serialize packet = .ok data := ⟨_, serialize_eq packet⟩
  have hrun : sendPacket packet s = (match s.transport.writeResult data with
      | .error e => .error e
      | .ok _ => .ok (), s.afterWrite data) := by
    simp only [sendPacket, hdata, Program.run_bind, Program.run_ofExcept, transportWrite,
      Transport.write]
    cases s.transport.writeResult data <;> rfl
  refine ⟨data, by rw [hrun], ?_⟩
  rw [hrun, Transport.writeResult, writeOk, List.head?_eq_getElem?]
  cases s.transport.writeResults[0]? with
  | none => simp
  | some r => cases r <;> simp

/-! ## From statements to methods -/

/-- What a two-state relation has to satisfy to hold of every method: it is a
preorder that ignores everything but the machine and the two logs, and it
holds of `fire` and of accepting a packet of the awaited kind. -/
structure StepRules (R : SaharaProtocol → SaharaProtocol → Prop) : Prop where
  trans : ∀ ⦃s t r⦄, R s t → R t r → R s r
  quiet : ∀ {s t : SaharaProtocol}, t.accepted = s.accepted → t.fired = s.fired →
    t.stateMachine = s.stateMachine → R s t
  fire : ∀ event s, R s (fire event s).2
  accept : ∀ {awaited packet} s, packet.command = awaited → R s (accept awaited packet s).2

namespace StepRules

variable {R : SaharaProtocol → SaharaProtocol → Prop}

theorem bind (hR : StepRules R) {α β : Type} {p : Method α} {f : α → Method β}
    (hp : Program.Steps R p) (hf : ∀ a, Program.Steps R (f a)) : Program.Steps R (p >>= f) :=
  Program.Steps.bind hR.trans hp hf

theorem refl (hR : StepRules R) (s : SaharaProtocol) : R s s := hR.quiet rfl rfl rfl

theorem sendPacket (hR : StepRules R) (packet : SaharaPacket) :
    Program.Steps R (sendPacket packet) := by
  intro s
  obtain ⟨data, hstate, -⟩ := sendPacket_run packet s
  rw [hstate]
  exact hR.quiet rfl rfl rfl

theorem receivePacket (hR : StepRules R) (expectedCmd : UInt32) :
    Program.Steps R (receivePacket expectedCmd) := by
  intro s
  rw [receivePacket_state]
  exact hR.quiet rfl rfl rfl

theorem v2Query (hR : StepRules R) (clientCmd : UInt32) : Program.Steps R (v2Query clientCmd) := by
  refine hR.bind (hR.sendPacket _) fun _ => ?_
  refine hR.bind (fun s => hR.quiet rfl rfl rfl) fun rspBuf => ?_
  refine hR.bind (Program.Steps.ofExcept hR.refl _) fun packet => ?_
  cases packet with
  | commandExecResponse respCmd respLength =>
    by_cases hcmd : respCmd ≠ clientCmd
    · simp only [if_pos hcmd]
      exact Program.Steps.fail hR.refl _
    · simp only [if_neg hcmd]
      exact hR.bind (fun s => hR.accept s rfl) fun _ s => hR.quiet rfl rfl rfl
  | _ => exact Program.Steps.fail hR.refl _

theorem performV2Discovery (hR : StepRules R) : Program.Steps R performV2Discovery :=
  hR.bind (hR.v2Query 1) fun _ => hR.bind (hR.v2Query 2) fun _ => hR.v2Query 3

theorem uploadRound (hR : StepRules R) (programmerData : ByteBuffer) :
    Program.Steps R (uploadRound programmerData) := by
  refine hR.bind (hR.receivePacket 0x03) fun packet => ?_
  cases packet with
  | endImageTransfer imageId status =>
    refine hR.bind (fun s => hR.accept s rfl) fun _ => ?_
    by_cases hstatus : status ≠ 0
    · simp only [if_pos hstatus]
      exact fun s => hR.quiet rfl rfl rfl
    · simp only [if_neg hstatus]
      exact Program.Steps.pure hR.refl _
  | readData imageId dataOffset dataLength =>
    refine hR.bind (fun s => hR.accept s rfl) fun _ => ?_
    refine hR.bind (hR.fire _) fun _ => ?_
    by_cases hrange : dataLength.toNat > programmerData.length ∨
        dataOffset.toNat > programmerData.length - dataLength.toNat
    · simp only [if_pos hrange]
      exact Program.Steps.fail hR.refl _
    · simp only [if_neg hrange]
      refine hR.bind (fun s => hR.quiet rfl rfl rfl) fun _ => ?_
      exact hR.bind (hR.fire _) fun _ => Program.Steps.pure hR.refl _
  | _ => exact Program.Steps.fail hR.refl _

theorem uploadLoop (hR : StepRules R) (programmerData : ByteBuffer) (fuel : Nat) :
    Program.Steps R (uploadLoop programmerData fuel) :=
  Program.Steps.repeatWhile hR.refl hR.trans (hR.uploadRound programmerData) _ fuel

theorem uploadProgrammer (hR : StepRules R) (programmerData : ByteBuffer) :
    Program.Steps R (uploadProgrammer programmerData) := by
  refine hR.bind (fun s => hR.quiet rfl rfl rfl) fun _ => ?_
  refine hR.bind (Program.Steps.get hR.refl) fun s => ?_
  refine hR.bind (hR.uploadLoop _ _) fun _ => ?_
  exact hR.bind (hR.fire _) fun _ s => hR.quiet rfl rfl rfl

/-! The handshake and `reset` accept without checking, so they need the rule
for every packet. -/

theorem handshakeFailed (hR : StepRules R) {α : Type} (e : ErrorCode) :
    Program.Steps R (handshakeFailed e : Method α) := by
  refine hR.bind (hR.fire _) fun _ => ?_
  exact hR.bind (fun s => hR.quiet rfl rfl rfl) fun _ => Program.Steps.fail hR.refl _

theorem identify (hR : StepRules R)
    (haccept : ∀ awaited packet s, R s (SaharaProtocol.accept awaited packet s).2)
    (u : WrongCast) (negotiatedVersion : UInt32) :
    Program.Steps R (identify u negotiatedVersion) := by
  refine hR.bind ?_ fun chipPktResult => ?_
  · unfold receiveChipId
    split
    · exact (hR.receivePacket 0x0A).attempt
    · exact Program.Steps.pure hR.refl _
  · cases chipPktResult with
    | ok packet =>
      refine hR.bind (haccept 0x0A packet) fun _ => ?_
      exact hR.bind (fun s => hR.quiet rfl rfl rfl) fun _ s => hR.quiet rfl rfl rfl
    | error e =>
      exact hR.bind hR.performV2Discovery.attempt fun _ s => hR.quiet rfl rfl rfl

theorem answerHello (hR : StepRules R)
    (haccept : ∀ awaited packet s, R s (SaharaProtocol.accept awaited packet s).2)
    (u : WrongCast) (negotiatedVersion mode : UInt32) :
    Program.Steps R (answerHello u negotiatedVersion mode) := by
  refine hR.bind (hR.sendPacket _).attempt fun sendResult => ?_
  cases sendResult with
  | error e => exact hR.handshakeFailed e
  | ok v => exact hR.bind (hR.fire _) fun _ => hR.identify haccept u _

theorem negotiate (hR : StepRules R)
    (haccept : ∀ awaited packet s, R s (SaharaProtocol.accept awaited packet s).2)
    (u : WrongCast) (hello : HelloView) : Program.Steps R (negotiate u hello) := by
  refine hR.bind (fun s => hR.quiet rfl rfl rfl) fun _ => ?_
  by_cases hmismatch : versionMismatch (selectVersion hello) hello
  · simp only [if_pos hmismatch]
    exact hR.bind (fun s => hR.quiet rfl rfl rfl) fun _ => hR.handshakeFailed _
  · simp only [if_neg hmismatch]
    refine hR.bind (fun s => hR.quiet rfl rfl rfl) fun _ => ?_
    exact hR.bind (hR.fire _) fun _ => hR.answerHello haccept u _ _

theorem handshake (hR : StepRules R)
    (haccept : ∀ awaited packet s, R s (SaharaProtocol.accept awaited packet s).2)
    (u : WrongCast) : Program.Steps R (handshake u) := by
  refine hR.bind (fun s => hR.quiet rfl rfl rfl) fun _ => ?_
  refine hR.bind (hR.receivePacket 0x01).attempt fun pktResult => ?_
  cases pktResult with
  | error e => exact hR.handshakeFailed e
  | ok packet => exact hR.bind (haccept 0x01 packet) fun _ => hR.negotiate haccept u _

theorem reset (hR : StepRules R)
    (haccept : ∀ awaited packet s, R s (SaharaProtocol.accept awaited packet s).2) :
    Program.Steps R reset := by
  refine hR.bind ?_ fun _ => ?_
  · refine hR.bind (hR.sendPacket _) fun _ => ?_
    exact hR.bind (hR.receivePacket 0x06) fun packet => haccept 0x06 packet
  · refine hR.bind (hR.sendPacket _) fun _ => ?_
    refine hR.bind (hR.fire _) fun _ => ?_
    refine hR.bind (hR.receivePacket 0x08) fun packet => ?_
    refine hR.bind (haccept 0x08 packet) fun _ => ?_
    exact hR.bind (hR.fire _) fun _ s => hR.quiet rfl rfl rfl

end StepRules

/-! ## The upload loop -/

/-- A round that goes on: a data request was read and its block written. -/
theorem uploadRound_continue {programmerData : ByteBuffer} {s t : SaharaProtocol}
    (h : uploadRound programmerData s = (.ok true, t)) :
    ∃ imageId dataOffset dataLength, ∃ s₁ : SaharaProtocol,
      s.packetAt 0 = .ok (.readData imageId dataOffset dataLength) ∧
      s₁.transport = (s.afterRead.afterWrite
        ((programmerData.drop dataOffset.toNat).take dataLength.toNat)).transport ∧
      t = (fire .dataSent s₁).2 := by
  obtain ⟨packet, s₁, hreceive, h⟩ := Program.bind_eq_ok.mp h
  obtain ⟨hpacket, rfl, -⟩ := receivePacket_ok hreceive
  cases packet with
  | endImageTransfer imageId status =>
    obtain ⟨-, s₂, -, h⟩ := Program.bind_eq_ok.mp h
    by_cases hstatus : status ≠ 0
    · rw [if_pos hstatus] at h
      cases h
    · rw [if_neg hstatus] at h
      cases h
  | readData imageId dataOffset dataLength =>
    obtain ⟨⟨⟩, s₂, haccept, h⟩ := Program.bind_eq_ok.mp h
    obtain ⟨⟨⟩, s₃, hfire, h⟩ := Program.bind_eq_ok.mp h
    by_cases hrange : dataLength.toNat > programmerData.length ∨
        dataOffset.toNat > programmerData.length - dataLength.toNat
    · simp only [if_pos hrange] at h
      cases h
    · simp only [if_neg hrange] at h
      obtain ⟨n, s₄, hwrite, h⟩ := Program.bind_eq_ok.mp h
      obtain ⟨⟨⟩, s₅, hsent, hdone⟩ := Program.bind_eq_ok.mp h
      obtain ⟨-, rfl⟩ := Prod.mk.inj haccept
      obtain ⟨-, rfl⟩ := Prod.mk.inj hfire
      obtain ⟨-, hs₄⟩ := Prod.mk.inj hwrite
      refine ⟨imageId, dataOffset, dataLength, s₄, hpacket, ?_, ?_⟩
      · rw [← hs₄]
        rfl
      · rw [hsent]
        exact (Prod.mk.inj hdone).2.symm
  | _ => cases h

/-- A round that leaves the loop: END_IMAGE with status 0, and nothing sent. -/
theorem uploadRound_break {programmerData : ByteBuffer} {s t : SaharaProtocol}
    (h : uploadRound programmerData s = (.ok false, t)) :
    ∃ imageId, s.packetAt 0 = .ok (.endImageTransfer imageId 0) ∧
      t = (accept 0x04 (.endImageTransfer imageId 0) s.afterRead).2 := by
  obtain ⟨packet, s₁, hreceive, h⟩ := Program.bind_eq_ok.mp h
  obtain ⟨hpacket, rfl, -⟩ := receivePacket_ok hreceive
  cases packet with
  | endImageTransfer imageId status =>
    obtain ⟨⟨⟩, s₂, haccept, h⟩ := Program.bind_eq_ok.mp h
    by_cases hstatus : status ≠ 0
    · rw [if_pos hstatus] at h
      cases h
    · obtain rfl : status = 0 := by simpa using hstatus
      obtain ⟨-, rfl⟩ := Prod.mk.inj haccept
      obtain ⟨-, rfl⟩ := Prod.mk.inj h
      exact ⟨imageId, hpacket, rfl⟩
  | readData imageId dataOffset dataLength =>
    obtain ⟨-, s₂, -, h⟩ := Program.bind_eq_ok.mp h
    obtain ⟨-, s₃, -, h⟩ := Program.bind_eq_ok.mp h
    by_cases hrange : dataLength.toNat > programmerData.length ∨
        dataOffset.toNat > programmerData.length - dataLength.toNat
    · simp only [if_pos hrange] at h
      cases h
    · simp only [if_neg hrange] at h
      obtain ⟨n, s₄, -, h⟩ := Program.bind_eq_ok.mp h
      obtain ⟨-, s₅, -, h⟩ := Program.bind_eq_ok.mp h
      cases h
  | _ => cases h

theorem replies_ne_nil_of_packetAt {s : SaharaProtocol} {packet : SaharaPacket}
    (h : s.packetAt 0 = .ok packet) : s.transport.replies ≠ [] := by
  intro hnil
  rw [packetAt, hnil] at h
  cases h

end MBootCore.SaharaProtocol
