import MBootCore.Firehose.Acknowledging
import MBootCore.Firehose.Answers
import MBootCore.Sahara.ProtocolSpec

/-!
# Protocols — ShortWrites

`ITransport::write` returns how many bytes it took. Neither protocol looks at
the number: a write that took part of a packet counts as one that took all of
it. So a call can return success over a transport that took a buffer short,
unless the call cannot succeed or has no byte to send.
-/

namespace MBootCore

/-! ## Sahara -/

namespace Transport

/-- How the writes made between two states of a script were answered: the
`i`-th buffer with the `i`-th answer. -/
def Answered (t t' : Transport) (data : ByteBuffer) (n : Nat) : Prop :=
  ∃ i, t'.written[t.written.length + i]? = some data ∧ t.writeResults[i]? = some (.ok n)

/-- No write took more than it was given. -/
def TookAtMost (t t' : Transport) : Prop := ∀ data n, t.Answered t' data n → n ≤ data.length

/-- Every write that was not refused took the whole buffer. -/
def TookWhole (t t' : Transport) : Prop := ∀ data n, t.Answered t' data n → n = data.length

/-- A script that takes nothing of the buffers written to it. -/
theorem tookAtMost_of_zero {t t' : Transport} (h : ∀ r ∈ t.writeResults, r = .ok 0) :
    t.TookAtMost t' := by
  rintro data n ⟨i, -, hanswer⟩
  have hzero := h _ (List.mem_of_getElem? hanswer)
  simp only [Except.ok.injEq] at hzero
  omega

/-- Its first write was short if the buffer was not empty. -/
theorem not_tookWhole_of_zero {t t' : Transport} {data : ByteBuffer}
    (hwritten : t'.written[t.written.length]? = some data) (hdata : data ≠ [])
    (hresult : t.writeResults[0]? = some (.ok 0)) : ¬ t.TookWhole t' := by
  intro hwhole
  have hlength := hwhole data 0 ⟨0, hwritten, hresult⟩
  exact hdata (List.length_eq_zero_iff.mp hlength.symm)

/-- The buffers written between two states were all empty. -/
def WroteNothing (t t' : Transport) : Prop :=
  ∃ sent, t'.written = t.written ++ sent ∧ ∀ data ∈ sent, data = []

theorem WroteNothing.refl (t : Transport) : t.WroteNothing t :=
  ⟨[], (List.append_nil _).symm, by simp⟩

theorem WroteNothing.trans {t₁ t₂ t₃ : Transport} (h : t₁.WroteNothing t₂)
    (h' : t₂.WroteNothing t₃) : t₁.WroteNothing t₃ := by
  obtain ⟨sent, hsent, hall⟩ := h
  obtain ⟨sent', hsent', hall'⟩ := h'
  refine ⟨sent ++ sent', by rw [hsent', hsent, List.append_assoc], ?_⟩
  intro data hdata
  rcases List.mem_append.mp hdata with hdata | hdata
  · exact hall data hdata
  · exact hall' data hdata

/-- An empty buffer cannot be taken short. -/
theorem WroteNothing.tookWhole {t t' : Transport} (h : t.WroteNothing t')
    (hatMost : t.TookAtMost t') : t.TookWhole t' := by
  obtain ⟨sent, hsent, hall⟩ := h
  intro data n hanswered
  have hle := hatMost data n hanswered
  obtain ⟨i, hwritten, -⟩ := hanswered
  rw [hsent, List.getElem?_append_right (Nat.le_add_right _ _), Nat.add_sub_cancel_left] at hwritten
  obtain rfl := hall data (List.mem_of_getElem? hwritten)
  exact Nat.le_zero.mp hle

end Transport

namespace SaharaProtocol

/-- The rule above over the states of the protocol. -/
def WroteNothing (s t : SaharaProtocol) : Prop := s.transport.WroteNothing t.transport

theorem WroteNothing.refl (s : SaharaProtocol) : WroteNothing s s := Transport.WroteNothing.refl _

theorem WroteNothing.trans ⦃s t r : SaharaProtocol⦄ (h : WroteNothing s t)
    (h' : WroteNothing t r) : WroteNothing s r :=
  Transport.WroteNothing.trans h h'

theorem uploadRound_wroteNothing : Program.Steps WroteNothing (uploadRound []) := by
  refine Program.Steps.bind WroteNothing.trans (fun s => ?_) fun packet => ?_
  · rw [receivePacket_state]
    exact Transport.WroteNothing.refl _
  · cases packet with
    | endImageTransfer imageId status =>
      refine Program.Steps.bind WroteNothing.trans WroteNothing.refl fun _ => ?_
      by_cases hstatus : status ≠ 0
      · simp only [if_pos hstatus]
        exact Program.Steps.bind WroteNothing.trans WroteNothing.refl fun _ =>
          Program.Steps.fail WroteNothing.refl _
      · simp only [if_neg hstatus]
        exact Program.Steps.pure WroteNothing.refl _
    | readData imageId dataOffset dataLength =>
      refine Program.Steps.bind WroteNothing.trans WroteNothing.refl fun _ => ?_
      refine Program.Steps.bind WroteNothing.trans WroteNothing.refl fun _ => ?_
      by_cases hrange : dataLength.toNat > ([] : ByteBuffer).length ∨
          dataOffset.toNat > ([] : ByteBuffer).length - dataLength.toNat
      · simp only [if_pos hrange]
        exact Program.Steps.fail WroteNothing.refl _
      · simp only [if_neg hrange]
        refine Program.Steps.bind WroteNothing.trans (fun s => ?_) fun n =>
          Program.Steps.bind WroteNothing.trans WroteNothing.refl fun _ =>
            Program.Steps.pure WroteNothing.refl _
        exact ⟨[[]], by simp [transportWrite, Transport.write], by simp⟩
    | _ => exact Program.Steps.fail WroteNothing.refl _

theorem upload_wroteNothing : Program.Steps WroteNothing (uploadProgrammer []) := by
  refine Program.Steps.bind WroteNothing.trans WroteNothing.refl fun _ => ?_
  refine Program.Steps.bind WroteNothing.trans (Program.Steps.get WroteNothing.refl) fun s => ?_
  refine Program.Steps.bind WroteNothing.trans ?_ fun _ =>
    Program.Steps.bind WroteNothing.trans WroteNothing.refl fun _ => WroteNothing.refl
  exact Program.Steps.repeatWhile WroteNothing.refl WroteNothing.trans uploadRound_wroteNothing _ _

end SaharaProtocol

namespace SaharaCall

/-- Whatever the transport answers, a success means that it took every buffer
whole. -/
def WritesWhole (u : WrongCast) (call : SaharaCall) (s : SaharaProtocol) : Prop :=
  ∀ t : Transport,
    t.TookAtMost (call.run u { s with transport := t }).2.transport →
    (call.run u { s with transport := t }).1.isOk = true →
    t.TookWhole (call.run u { s with transport := t }).2.transport

def sendsNothing : SaharaCall → Prop
  | uploadProgrammer programmerData => programmerData = []
  | handshake | reset => False
  | cancel | resetState => True

open SaharaPacketSerializer

theorem handshake_not_writesWhole (u : WrongCast) (s : SaharaProtocol) :
    ¬ SaharaCall.handshake.WritesWhole u s := by
  intro hwhole
  have hfirst := hwhole ⟨[serialize (.hello 2 1 0 0)], [.ok 0], []⟩
    (Transport.tookAtMost_of_zero (by simp)) rfl
  exact Transport.not_tookWhole_of_zero rfl (List.cons_ne_nil _ _) rfl hfirst

theorem reset_not_writesWhole (u : WrongCast) (s : SaharaProtocol) :
    ¬ SaharaCall.reset.WritesWhole u s := by
  intro hwhole
  have hfirst := hwhole ⟨[serialize (.doneResponse 0), serialize .resetResponse], [.ok 0], []⟩
    (Transport.tookAtMost_of_zero (by simp)) rfl
  exact Transport.not_tookWhole_of_zero rfl (List.cons_ne_nil _ _) rfl hfirst

theorem upload_not_writesWhole (u : WrongCast) (s : SaharaProtocol) (byte : UInt8)
    (rest : ByteBuffer) : ¬ (SaharaCall.uploadProgrammer (byte :: rest)).WritesWhole u s := by
  intro hwhole
  have hfirst := hwhole
    ⟨[serialize (.readData 0 0 1), serialize (.endImageTransfer 0 0)], [.ok 0], []⟩
    (Transport.tookAtMost_of_zero (by simp)) rfl
  exact Transport.not_tookWhole_of_zero rfl (List.cons_ne_nil _ _) rfl hfirst

theorem writesWhole_iff (u : WrongCast) (call : SaharaCall) (s : SaharaProtocol) :
    call.WritesWhole u s ↔ call.sendsNothing := by
  cases call with
  | handshake => exact iff_of_false (handshake_not_writesWhole u s) id
  | uploadProgrammer programmerData =>
    cases programmerData with
    | nil =>
      refine iff_of_true (fun t hatMost _ => ?_) rfl
      exact Transport.WroteNothing.tookWhole (SaharaProtocol.upload_wroteNothing _) hatMost
    | cons byte rest =>
      exact iff_of_false (upload_not_writesWhole u s byte rest) (List.cons_ne_nil _ _)
  | reset => exact iff_of_false (reset_not_writesWhole u s) id
  | cancel =>
    exact iff_of_true (fun t hatMost _ => (Transport.WroteNothing.refl t).tookWhole hatMost) trivial
  | resetState =>
    exact iff_of_true (fun t hatMost _ => (Transport.WroteNothing.refl t).tookWhole hatMost) trivial

end SaharaCall

/-! ## Firehose -/

/-- With chunks of no size there is nothing to stream. -/
theorem Link.Streamed.eq_nil {τ : Type} {io : ITransport τ} {chunkSize : Nat} {data : ByteBuffer}
    {l l' : Link τ} (h : Link.Streamed io chunkSize data l l') (hzero : chunkSize = 0) :
    data = [] := by
  induction h with
  | done l => rfl
  | @chunk rest l l₁ l₂ l' resp remaining sent answered kept later ih =>
    rw [hzero, List.drop_zero] at ih
    exact absurd ih remaining

namespace FirehoseProtocol

/-- A protocol in the same state on a transport of its own. -/
def onTransport {σ τ : Type} (s : FirehoseProtocol σ) (transport : τ) : FirehoseProtocol τ :=
  { link := { transport := transport }
    config := s.config
    stateMachine := s.stateMachine
    phase := s.phase
    errors := s.errors
    cancelled := s.cancelled
    streamEngine := s.streamEngine
    configured := s.configured }

end FirehoseProtocol

namespace FirehoseCall

open FirehoseProtocol

/-- No write took more than it was given. -/
def TookAtMost (log : List Exchange) : Prop :=
  ∀ data n, Exchange.wrote data (.ok n) ∈ log → n ≤ data.length

/-- Every write that was not refused took the whole buffer. -/
def TookWhole (log : List Exchange) : Prop :=
  ∀ data n, Exchange.wrote data (.ok n) ∈ log → n = data.length

/-- Whatever the transport answers, a success means that it took every buffer
whole. -/
def WritesWhole {σ : Type} (call : FirehoseCall) (s : FirehoseProtocol σ) : Prop :=
  ∀ (τ : Type) (io : ITransport τ) (fuel : Nat) (transport : τ),
    TookAtMost (call.run io fuel (s.onTransport transport)).2.link.exchanges →
    (call.run io fuel (s.onTransport transport)).1.isOk = true →
    TookWhole (call.run io fuel (s.onTransport transport)).2.link.exchanges

theorem wireText_length_pos (xml : String) : 0 < (wireText xml).length := by
  simp [wireText]

/-- The request of an exchange. -/
theorem mem_of_exchanged {request : ByteBuffer} {kept : FirehoseResponse → Bool}
    {log : List Exchange} (h : Exchanged request kept log) :
    ∃ n, Exchange.wrote request (.ok n) ∈ log := by
  obtain ⟨n, buf, rfl, -⟩ := h
  exact ⟨n, List.mem_cons_self⟩

/-- A device that takes nothing and acknowledges everything. -/
theorem not_writesWhole {σ : Type} {call : FirehoseCall} {s : FirehoseProtocol σ} {fuel : Nat}
    {request : ByteBuffer} (hlength : 0 < request.length)
    (hok : (call.run (acknowledging fun _ => 0) fuel (s.onTransport ())).1 = .ok ())
    (hwrote : ∀ log, call.Answered s.config log → ∃ n, Exchange.wrote request (.ok n) ∈ log) :
    ¬ call.WritesWhole s := by
  intro hwhole
  obtain ⟨log, hlog, hanswers⟩ : Link.Extends (acknowledging fun _ => 0) _ _ :=
    FirehoseCall.run_extends call fuel (s.onTransport ())
  have hzero : ∀ data n, Exchange.wrote data (.ok n) ∈ log → n = 0 := by
    intro data n hmem
    obtain ⟨_, hanswer⟩ := hanswers _ hmem
    exact (Except.ok.inj hanswer).symm
  obtain ⟨log', hlog', hanswered⟩ := run_log (Prod.ext hok rfl)
  obtain rfl : log = log' := List.append_cancel_left (hlog.symm.trans hlog')
  obtain ⟨n, hmem⟩ := hwrote log hanswered
  rw [show (s.onTransport ()).link.exchanges = [] from rfl, List.nil_append] at hlog
  have htook := hwhole Unit (acknowledging fun _ => 0) fuel ()
  rw [hlog, hok] at htook
  have hn := htook (fun data n hmem => by rw [hzero data n hmem]; exact Nat.zero_le _) rfl _ _ hmem
  rw [hzero _ _ hmem] at hn
  omega

theorem handshake_writesWhole_iff {σ : Type} (s : FirehoseProtocol σ) :
    FirehoseCall.handshake.WritesWhole s ↔
      s.cancelled = true ∨ s.config.maxConfigureRetries ≤ 0 := by
  constructor
  · intro hwhole
    by_contra hstate
    obtain ⟨hlive, hattempts⟩ := not_or.mp hstate
    have hlive' : (s.onTransport ()).cancelled = false := Bool.eq_false_iff.mpr hlive
    obtain ⟨l, hrun⟩ : ∃ l, FirehoseProtocol.handshake (acknowledging fun _ => 0)
        (s.onTransport ()) = _ :=
      handshake_acknowledged (acknowledging_acknowledges _) hlive' (Int.not_le.mp hattempts)
    have hok : (FirehoseCall.handshake.run (acknowledging fun _ => 0) 0
        (s.onTransport ())).1 = .ok () := congrArg Prod.fst hrun
    refine not_writesWhole (wireText_length_pos (FirehoseCommand.configure
      (configureCommand s.config)).serialize) hok ?_ hwhole
    rintro log ⟨earlier, last, rfl, hlast⟩
    obtain ⟨n, hmem⟩ := mem_of_exchanged hlast
    exact ⟨n, List.mem_append_right earlier hmem⟩
  · intro hstate τ io fuel transport _ hok
    obtain ⟨⟨⟩, hrun⟩ := Program.eq_ok_of_isOk hok
    obtain ⟨hlive, hattempts, -⟩ := configureLoop_ok hrun
    rcases hstate with hcancelled | hretries
    · exact absurd (hcancelled.symm.trans hlive) (by decide)
    · have hzero : s.config.maxConfigureRetries.toNat = 0 := by omega
      exact absurd (hzero ▸ hattempts) (Nat.lt_irrefl 0)

theorem program_writesWhole_iff {σ : Type} (s : FirehoseProtocol σ) (cmd : ProgramCommand)
    (data : ByteBuffer) :
    (FirehoseCall.program cmd data).WritesWhole s ↔
      s.configured = false ∨ s.engineOf.cancelled = true ∨
        (s.engineOf.config.chunkSizeToTarget = 0 ∧ data ≠ []) := by
  constructor
  · intro hwhole
    by_contra hstate
    obtain ⟨hconfigured, hstate⟩ := not_or.mp hstate
    obtain ⟨hlive, hchunk⟩ := not_or.mp hstate
    have hpos : 0 < s.engineOf.config.chunkSizeToTarget ∨ data = [] := by
      rcases Nat.eq_zero_or_pos s.engineOf.config.chunkSizeToTarget with hzero | hpos
      · exact .inr (by_contra fun hdata => hchunk ⟨hzero, hdata⟩)
      · exact .inl hpos
    obtain ⟨l, hprogram⟩ : ∃ l, FirehoseProtocol.program (acknowledging fun _ => 0)
        (data.length + 1) cmd data (s.onTransport ()) = _ :=
      program_acknowledged (acknowledging_acknowledges _) cmd
        (Bool.eq_true_of_not_eq_false hconfigured) (Bool.eq_false_iff.mpr hlive) hpos
        (Nat.lt_succ_self _)
    have hok : ((FirehoseCall.program cmd data).run (acknowledging fun _ => 0)
        (data.length + 1) (s.onTransport ())).1 = .ok () :=
      congrArg Prod.fst (Program.void_eq_ok.mpr ⟨_, hprogram⟩)
    refine not_writesWhole (wireText_length_pos (FirehoseCommand.program cmd).serialize) hok ?_
      hwhole
    rintro log ⟨n, chunks, rfl, -⟩
    exact ⟨n, List.mem_cons_self⟩
  · intro hstate τ io fuel transport _ hok
    obtain ⟨⟨⟩, hrun⟩ := Program.eq_ok_of_isOk hok
    obtain ⟨resp, hprogram⟩ := Program.void_eq_ok.mp hrun
    obtain ⟨hconfigured, e, hengine, -⟩ := program_ok hprogram
    obtain ⟨hlive, n, l₁, l, -, hstreamed, -⟩ := FirehoseStreamEngine.streamToDevice_ok hengine
    rcases hstate with hunconfigured | hcancelled | ⟨hzero, hdata⟩
    · exact absurd (hunconfigured.symm.trans hconfigured) (by decide)
    · exact absurd (hcancelled.symm.trans hlive) (by decide)
    · exact absurd (hstreamed.eq_nil hzero) hdata

theorem erase_writesWhole_iff {σ : Type} (s : FirehoseProtocol σ) (cmd : EraseCommand) :
    (FirehoseCall.erase cmd).WritesWhole s ↔ s.cancelled = true := by
  constructor
  · intro hwhole
    by_contra hlive
    have hlive' : (s.onTransport ()).cancelled = false := Bool.eq_false_iff.mpr hlive
    obtain ⟨l, hrun⟩ : ∃ l, FirehoseCall.run (acknowledging fun _ => 0) 0 (.erase cmd)
        (s.onTransport ()) = _ := command_acknowledged (acknowledging_acknowledges _) 0 rfl hlive'
    exact not_writesWhole (wireText_length_pos _) (congrArg Prod.fst hrun)
      (fun log hlog => mem_of_exchanged hlog) hwhole
  · intro hcancelled τ io fuel transport _ hok
    obtain ⟨⟨⟩, hrun⟩ := Program.eq_ok_of_isOk hok
    obtain ⟨resp, hsend⟩ := Program.void_eq_ok.mp hrun
    obtain ⟨hlive, -⟩ := sendCommandUnlessNak_ok hsend
    exact absurd (hcancelled.symm.trans hlive) (by decide)

end FirehoseCall

/-! ## Both protocols -/

/-- Success means whole writes, on every transport, exactly for the calls that
have no byte to send or cannot succeed. -/
theorem writesWhole_iff_harmless {σ : Type} (u : WrongCast) (sahara : SaharaProtocol)
    (firehose : FirehoseProtocol σ) :
    (∀ call : SaharaCall, call.WritesWhole u sahara ↔ call.sendsNothing) ∧
      (FirehoseCall.handshake.WritesWhole firehose ↔
        firehose.cancelled = true ∨ firehose.config.maxConfigureRetries ≤ 0) ∧
      (∀ cmd data, (FirehoseCall.program cmd data).WritesWhole firehose ↔
        firehose.configured = false ∨ firehose.engineOf.cancelled = true ∨
          (firehose.engineOf.config.chunkSizeToTarget = 0 ∧ data ≠ [])) ∧
      ∀ cmd, (FirehoseCall.erase cmd).WritesWhole firehose ↔ firehose.cancelled = true :=
  ⟨fun call => SaharaCall.writesWhole_iff u call sahara,
    FirehoseCall.handshake_writesWhole_iff firehose,
    FirehoseCall.program_writesWhole_iff firehose, FirehoseCall.erase_writesWhole_iff firehose⟩

/-- A reset succeeds over a transport that takes no byte of DONE. -/
theorem reset_takenShort :
    ¬ SaharaCall.reset.WritesWhole ⟨fun _ => ⟨0, 0, 0⟩, fun _ => ⟨0, 0, 0, 0, 0, 0⟩⟩
      { transport := ⟨[], [], []⟩ } :=
  SaharaCall.reset_not_writesWhole _ _

end MBootCore
