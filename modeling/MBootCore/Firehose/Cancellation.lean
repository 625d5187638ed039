import MBootCore.Firehose.ProtocolSpec

/-!
# Firehose — Cancellation

What is left of a cancelled protocol until `resetState`. Every command checks
the protocol's flag; `program` and `read` check only the flag of the stream
engine, which exists once one of them has been called on a configured
protocol. A cancel that comes before leaves them nothing to check.
-/

namespace MBootCore

namespace FirehoseCall

/-- The calls that go through the stream engine. -/
def streams : FirehoseCall → Bool
  | program _ _ | read _ => true
  | _ => false

end FirehoseCall

namespace FirehoseProtocol

variable {τ : Type} {io : ITransport τ} {s : FirehoseProtocol τ}

/-- A cancelled protocol has passed the cancel on to its engine. -/
def EngineCancelled (s : FirehoseProtocol τ) : Prop :=
  s.cancelled = true → ∀ e, s.streamEngine = some e → e.cancelled = true

/-- A cancelled, configured protocol that never made its engine. -/
def Unguarded (s : FirehoseProtocol τ) : Prop :=
  s.cancelled = true ∧ s.configured = true ∧ s.streamEngine = none

/-- The call failed and made no I/O call. -/
def Quiet (r : CallRecord FirehoseCall (FirehoseProtocol τ) (Except ErrorCode Unit)) : Prop :=
  r.result.isOk = false ∧ r.after.link = r.before.link

/-- Streaming through a cancelled engine. -/
theorem stream_cancelled {α : Type} {p : FirehoseStreamEngine.Method τ α}
    (hp : ∀ e, e.cancelled = true → p e = (.error .cancelled, e))
    (hcancelled : s.cancelled = true) (hengine : s.EngineCancelled) (hguarded : ¬ s.Unguarded) :
    ∃ code t, stream p s = (.error code, t) ∧ t.link = s.link ∧
      t.streamEngine = s.streamEngine := by
  cases hconfigured : s.configured with
  | false => exact ⟨_, s, stream_unconfigured hconfigured, rfl, rfl⟩
  | true =>
    obtain ⟨e, he⟩ : ∃ e, s.streamEngine = some e :=
      Option.ne_none_iff_exists'.mp fun hnone => hguarded ⟨hcancelled, hconfigured, hnone⟩
    have hengineOf : s.engineOf = ⟨s.link, e.config, e.cancelled⟩ := by
      rw [engineOf, he]
      rfl
    have hrun := hp s.engineOf (by rw [hengineOf]; exact hengine hcancelled e he)
    rw [stream_run hconfigured, hrun]
    refine ⟨_, _, rfl, ?_, ?_⟩
    · rw [hengineOf]
      rfl
    · rw [he, hengineOf]
      rfl

/-- Streaming through an engine made for it reaches the transport. -/
theorem stream_unguarded {α : Type} {p : FirehoseStreamEngine.Method τ α} (h : s.Unguarded)
    (hp : ∀ e : FirehoseStreamEngine τ, e.cancelled = false →
      ∃ r request log, (p e).2.link.exchanges = e.link.exchanges ++ .wrote request r :: log) :
    (stream p s).2.link ≠ s.link := by
  obtain ⟨-, hconfigured, hnone⟩ := h
  have hengineOf : s.engineOf.cancelled = false ∧ s.engineOf.link = s.link := by
    rw [engineOf, hnone]
    exact ⟨rfl, rfl⟩
  obtain ⟨r, request, log, hlog⟩ := hp s.engineOf hengineOf.1
  intro hsame
  have hlink : (stream p s).2.link = (p s.engineOf).2.link := by
    rw [stream_run hconfigured]
    rcases p s.engineOf with ⟨code | a, e⟩ <;> rfl
  rw [← hlink, hsame, hengineOf.2] at hlog
  have hlength := congrArg List.length hlog
  simp at hlength

end FirehoseProtocol

open FirehoseProtocol

namespace FirehoseCall

variable {τ : Type} {io : ITransport τ} {s : FirehoseProtocol τ} {call : FirehoseCall}

/-- On a cancelled protocol whose engine, if it has one, is cancelled too,
every operation fails without an I/O call, unless it is to stream through an
engine still to be made. -/
theorem run_cancelled (hop : call.isOperation = true) (fuel : Nat)
    (hcancelled : s.cancelled = true) (hengine : s.EngineCancelled)
    (hguarded : ¬ (call.streams = true ∧ s.Unguarded)) :
    (call.run io fuel s).1.isOk = false ∧ (call.run io fuel s).2.link = s.link ∧
      (call.run io fuel s).2.streamEngine = s.streamEngine := by
  cases hcommand : call.command with
  | some cmd =>
    have hsend : FirehoseProtocol.sendCommand io cmd s = _ := sendCommand_cancelled cmd hcancelled
    rcases run_command hcommand fuel s with hrun | hrun
    · rw [hrun, Program.void, Program.run_bind_error hsend]
      exact ⟨rfl, rfl, rfl⟩
    · rw [hrun, Program.void, sendCommandUnlessNak,
        Program.run_bind_error (Program.run_bind_error hsend)]
      exact ⟨rfl, rfl, rfl⟩
  | none =>
    cases call with
    | handshake =>
      rw [FirehoseCall.run, handshake_run]
      cases s.config.maxConfigureRetries.toNat with
      | zero => exact ⟨rfl, rfl, rfl⟩
      | succ attempts =>
        rw [configureLoop_cancelled _ attempts hcancelled]
        exact ⟨rfl, rfl, rfl⟩
    | uploadProgrammer programmerData => exact ⟨rfl, rfl, rfl⟩
    | reset =>
      rw [FirehoseCall.run, FirehoseProtocol.reset,
        Program.run_bind_error (sendCommand_cancelled _ hcancelled)]
      exact ⟨rfl, rfl, rfl⟩
    | program cmd data =>
      have hrefused (e : FirehoseStreamEngine τ) (he : e.cancelled = true) :
          FirehoseStreamEngine.streamToDevice io fuel (.program cmd) data e
            = (.error .cancelled, e) :=
        FirehoseStreamEngine.streamToDevice_cancelled fuel _ data he
      obtain ⟨code, t, hstream, hlink, hsame⟩ :=
        stream_cancelled hrefused hcancelled hengine fun h => hguarded ⟨rfl, h⟩
      rw [FirehoseCall.run, Program.void, FirehoseProtocol.program,
        Program.run_bind_error (Program.run_bind_error hstream)]
      exact ⟨rfl, hlink, hsame⟩
    | read cmd =>
      have hrefused (e : FirehoseStreamEngine τ) (he : e.cancelled = true) :
          FirehoseStreamEngine.streamFromDevice io fuel (.read cmd)
            (cmd.sectorSize.toNat * cmd.numSectorSize.toNat) e = (.error .cancelled, e) :=
        FirehoseStreamEngine.streamFromDevice_cancelled fuel _ _ he
      obtain ⟨code, t, hstream, hlink, hsame⟩ :=
        stream_cancelled hrefused hcancelled hengine fun h => hguarded ⟨rfl, h⟩
      rw [FirehoseCall.run, Program.void, FirehoseProtocol.read, Program.run_bind_error hstream]
      exact ⟨rfl, hlink, hsame⟩
    | cancel | resetState => cases hop
    | _ => cases hcommand

/-- What a call through an engine still to be made does instead. -/
theorem run_unguarded (hstreams : call.streams = true) (fuel : Nat) (h : s.Unguarded) :
    (call.run io fuel s).2.link ≠ s.link := by
  cases call with
  | program cmd data =>
    have hprogram : (FirehoseCall.run io fuel (.program cmd data) s).2.link
        = (stream (FirehoseStreamEngine.streamToDevice io fuel (.program cmd) data) s).2.link := by
      rw [FirehoseCall.run, Program.run_void_state, FirehoseProtocol.program, Program.run_bind]
      rcases stream (FirehoseStreamEngine.streamToDevice io fuel (.program cmd) data) s with
        ⟨code | ⟨⟩, t⟩ <;> rfl
    rw [hprogram]
    refine stream_unguarded h fun e he => ?_
    obtain ⟨r, log, hlog⟩ := FirehoseStreamEngine.streamToDevice_writes fuel (.program cmd) data he
    exact ⟨r, _, log, hlog⟩
  | read cmd =>
    rw [FirehoseCall.run, Program.run_void_state]
    refine stream_unguarded h fun e he => ?_
    obtain ⟨r, log, hlog⟩ := FirehoseStreamEngine.streamFromDevice_writes fuel (.read cmd) _ he
    exact ⟨r, _, log, hlog⟩
  | _ => cases hstreams

/-- The engine of a cancelled protocol stays cancelled as long as none is made
under it. -/
theorem run_engineCancelled (fuel : Nat) (hengine : s.EngineCancelled)
    (hguarded : ¬ (call.streams = true ∧ s.Unguarded)) :
    (call.run io fuel s).2.EngineCancelled := by
  cases hop : call.isOperation with
  | true =>
    intro hcancelled e he
    rw [(run_keeps hop fuel s).1] at hcancelled
    rw [(run_cancelled hop fuel hcancelled hengine hguarded).2.2] at he
    exact hengine hcancelled e he
  | false =>
    cases call with
    | cancel =>
      intro _ e he
      obtain ⟨e', -, rfl⟩ := Option.map_eq_some_iff.mp he
      rfl
    | resetState =>
      intro hcancelled
      cases hcancelled
    | _ => cases hop

end FirehoseCall

/-! ## Runs -/

namespace FirehoseProtocol

variable {τ : Type} (io : ITransport τ) (fuel : Nat)

/-- After a cancel and until the next `resetState`, every operation of the run
fails without an I/O call. -/
def CancelFinal (calls : List FirehoseCall) (s : FirehoseProtocol τ) : Prop :=
  ∀ earlier call later, calls = earlier ++ call :: later →
    FirehoseCall.cancelPending earlier = true → call.isOperation = true →
    Quiet (CallRun.record (FirehoseCall.run io fuel) call
      (CallRun.final (FirehoseCall.run io fuel) earlier s))

variable {io fuel} in
/-- A run that never streams through an engine still to be made. -/
theorem quiet_of_guarded {calls : List FirehoseCall} {s : FirehoseProtocol τ}
    (hengine : s.EngineCancelled)
    (hguarded : ∀ r ∈ CallRun.records (FirehoseCall.run io fuel) calls s,
      ¬ (r.call.streams = true ∧ r.before.Unguarded)) :
    ∀ r ∈ CallRun.records (FirehoseCall.run io fuel) calls s,
      r.before.cancelled = true → r.call.isOperation = true → Quiet r := by
  induction calls generalizing s with
  | nil => simp
  | cons call calls ih =>
    rw [CallRun.records_cons, List.forall_mem_cons] at hguarded
    obtain ⟨hfirst, hrest⟩ := hguarded
    intro r hr hcancelled hop
    rw [CallRun.records_cons, List.mem_cons] at hr
    rcases hr with rfl | hr
    · obtain ⟨hfail, hlink, -⟩ : (call.run io fuel s).1.isOk = false ∧
          (call.run io fuel s).2.link = s.link ∧ _ :=
        FirehoseCall.run_cancelled hop fuel hcancelled hengine hfirst
      exact ⟨hfail, hlink⟩
    · exact ih (FirehoseCall.run_engineCancelled fuel hengine hfirst) hrest r hr hcancelled hop

/-- Cancellation is final exactly when no `program` or `read` finds a
cancelled, configured protocol without an engine. -/
theorem cancelFinal_iff (transport : τ) (config : FirehoseConfig) (calls : List FirehoseCall) :
    CancelFinal io fuel calls (construct transport config) ↔
      ∀ r ∈ CallRun.records (FirehoseCall.run io fuel) calls (construct transport config),
        ¬ (r.call.streams = true ∧ r.before.Unguarded) := by
  constructor
  · rintro hfinal r hr ⟨hstreams, hunguarded⟩
    obtain ⟨earlier, call, later, hcalls, rfl⟩ := CallRun.mem_records.mp hr
    have hop : call.isOperation = true := by
      cases call <;> first | rfl | cases hstreams
    have hpending : FirehoseCall.cancelPending earlier = true := by
      rw [FirehoseCall.cancelPending, ← hunguarded.1]
      exact (FirehoseCall.final_cancelled fuel earlier (construct transport config)).symm
    exact FirehoseCall.run_unguarded hstreams fuel hunguarded
      (hfinal earlier call later hcalls hpending hop).2
  · intro hguarded earlier call later hcalls hpending hop
    refine quiet_of_guarded (fun h => by cases h) hguarded _
      (CallRun.mem_records.mpr ⟨earlier, call, later, hcalls, rfl⟩) ?_ hop
    rw [FirehoseCall.cancelPending] at hpending
    exact (FirehoseCall.final_cancelled fuel earlier (construct transport config)).trans hpending

/-- A device that acknowledges the configure request, and times out after. -/
def configuredOnce : Transport where
  replies := [.ok (wireText "<configure value=\"ACK\"/>")]
  writeResults := []

/-- A program command goes out on a protocol cancelled before its first one. -/
theorem configuredOnce_not_final :
    ¬ ∀ (τ : Type) (io : ITransport τ) (fuel : Nat) (transport : τ) (config : FirehoseConfig)
        (calls : List FirehoseCall), CancelFinal io fuel calls (construct transport config) := by
  intro hall
  have hquiet := hall Transport Transport.io 1 configuredOnce {}
    [.handshake, .cancel, .program {} []] [.handshake, .cancel] (.program {} []) [] rfl rfl rfl
  have hok : (FirehoseCall.run Transport.io 1 (.program {} [])
      (CallRun.final (FirehoseCall.run Transport.io 1) [.handshake, .cancel]
        (construct configuredOnce {}))).1.isOk = true := by decide
  exact absurd (hok.symm.trans hquiet.1) (by decide)

end FirehoseProtocol

end MBootCore
