import MBootCore.Firehose.Acknowledging

/-!
# Firehose — Phases

The three records `FirehoseProtocol` keeps of where it is: the phase, the
state machine and the configured flag. The constructor registers no
transition, so the machine never leaves `Idle`; and of the operations only
`configure`, `program` and `reset` set the phase a success ends in. The three
stay in step only in runs in which nothing but a reset can succeed.
-/

namespace MBootCore

namespace FirehoseCall

/-- A call, other than `reset`, that succeeds on a device that acknowledges
everything, whether or not the protocol is configured. -/
def Workable (config : FirehoseConfig) (call : FirehoseCall) : Prop :=
  (call = handshake ∧ 0 < config.maxConfigureRetries) ∨ call.command.isSome = true

end FirehoseCall

namespace FirehoseProtocol

variable {τ : Type} {io : ITransport τ} {fuel : Nat} {s t : FirehoseProtocol τ}

/-- The machine is in `Configured` or in `Busy` exactly when the protocol is
configured. -/
def MachineInStep (s : FirehoseProtocol τ) : Prop :=
  (s.stateMachine.currentState = 1 ∨ s.stateMachine.currentState = 2) ↔ s.configured = true

/-- The phase an operation ends in when it succeeds. -/
def successPhase : FirehoseCall → ProtocolPhase
  | .reset => .finished
  | _ => .firehoseReady

def PhaseInStep (r : CallRecord FirehoseCall (FirehoseProtocol τ) (Except ErrorCode Unit)) :
    Prop :=
  r.result.isOk = true → r.call.isOperation = true → r.after.phase = successPhase r.call

/-- The three records agree in every state the run reaches. -/
def InStep (io : ITransport τ) (fuel : Nat) (calls : List FirehoseCall)
    (s : FirehoseProtocol τ) : Prop :=
  s.MachineInStep ∧ ∀ r ∈ CallRun.records (FirehoseCall.run io fuel) calls s,
    r.after.MachineInStep ∧ PhaseInStep r

/-! ## What every call keeps -/

/-- The machine as it was constructed; the ready phase only when configured. -/
structure Idling (s : FirehoseProtocol τ) : Prop where
  machine : s.stateMachine = firehoseStateMachine
  ready : s.phase = .firehoseReady → s.configured = true

theorem construct_idling (transport : τ) (config : FirehoseConfig) :
    (construct transport config).Idling :=
  ⟨rfl, fun h => by cases h⟩

theorem machine_transition (h : s.stateMachine = firehoseStateMachine) (event : UInt32) :
    (s.stateMachine.transition event).2 = firehoseStateMachine := by
  rw [h, GenericStateMachine.transition_of_nil rfl]

theorem stream_idling {α : Type} {p : FirehoseStreamEngine.Method τ α} (h : s.Idling) :
    (stream p s).2.Idling ∧ (stream p s).2.configured = s.configured := by
  cases hconfigured : s.configured with
  | false =>
    rw [stream_unconfigured hconfigured]
    exact ⟨h, hconfigured⟩
  | true =>
    rw [stream_run hconfigured]
    rcases p s.engineOf with ⟨code | a, e⟩
    · exact ⟨⟨h.machine, fun _ => hconfigured⟩, hconfigured⟩
    · exact ⟨⟨h.machine, fun _ => hconfigured⟩, hconfigured⟩

theorem Idling.run (h : s.Idling) (call : FirehoseCall) : (call.run io fuel s).2.Idling := by
  cases hcommand : call.command with
  | some cmd =>
    obtain ⟨l, -, hstate⟩ : LinkExtends io s (call.run io fuel s).2 :=
      FirehoseCall.run_command_steps hcommand fuel s
    rw [hstate]
    exact ⟨h.machine, h.ready⟩
  | none =>
    cases call with
    | handshake =>
      rcases hrun : FirehoseCall.handshake.run io fuel s with ⟨e | ⟨⟩, t⟩
      · obtain ⟨l, errors, phase, hphase, rfl⟩ := configureLoop_error hrun
        refine ⟨h.machine, fun hready => ?_⟩
        rcases hphase with rfl | rfl
        · exact h.ready hready
        · cases hready
      · obtain ⟨-, -, l₁, l, resp, errors, -, -, -, rfl⟩ := configureLoop_ok hrun
        exact ⟨machine_transition h.machine 1, fun _ => rfl⟩
    | uploadProgrammer programmerData => exact h
    | reset =>
      rcases hrun : FirehoseCall.reset.run io fuel s with ⟨e | ⟨⟩, t⟩
      · obtain ⟨l, -, rfl⟩ := reset_error hrun
        exact ⟨h.machine, h.ready⟩
      · obtain ⟨-, l, resp, -, -, rfl⟩ := reset_ok hrun
        exact ⟨h.machine, fun hready => by cases hready⟩
    | program cmd data =>
      rw [FirehoseCall.run, Program.run_void_state]
      cases hconfigured : s.configured with
      | false =>
        rw [program_unconfigured fuel cmd data hconfigured]
        exact h
      | true =>
        rw [program_run fuel cmd data hconfigured]
        rcases FirehoseStreamEngine.streamToDevice io fuel (.program cmd) data s.engineOf with
          ⟨code | ⟨⟩, e⟩
        · exact ⟨h.machine, fun _ => hconfigured⟩
        · exact ⟨h.machine, fun _ => hconfigured⟩
    | read cmd =>
      rw [FirehoseCall.run, Program.run_void_state]
      exact (stream_idling h).1
    | cancel => exact ⟨h.machine, h.ready⟩
    | resetState =>
      refine ⟨?_, fun hready => by cases hready⟩
      exact (congrArg GenericStateMachine.reset h.machine).trans rfl
    | _ => cases hcommand

theorem idling_run (calls : List FirehoseCall) (h : s.Idling) :
    (CallRun.final (FirehoseCall.run io fuel) calls s).Idling :=
  (CallRun.run_invariant Idling (fun call _ _ hs => hs.run call) h).2

/-! ## Runs in which nothing but a reset succeeds -/

/-- Nothing was ever configured. -/
structure Unconfigured (config : FirehoseConfig) (s : FirehoseProtocol τ) : Prop where
  machine : s.stateMachine = firehoseStateMachine
  configured : s.configured = false
  config_eq : s.config = config

theorem Unconfigured.inStep {config : FirehoseConfig} (h : s.Unconfigured config) :
    s.MachineInStep := by
  rw [MachineInStep, h.machine, h.configured]
  decide

/-- A call that is not workable, or comes after a cancel, leaves the protocol
unconfigured and succeeds only as a reset. -/
theorem Unconfigured.run {config : FirehoseConfig} {call : FirehoseCall}
    (h : s.Unconfigured config) (hcall : call.Workable config → s.cancelled = true) :
    (call.run io fuel s).2.Unconfigured config ∧
      ((call.run io fuel s).1.isOk = true → call.isOperation = true →
        (call.run io fuel s).2.phase = successPhase call) := by
  cases hcommand : call.command with
  | some cmd =>
    have hcancelled := hcall (.inr (by rw [hcommand]; rfl))
    have hsend : sendCommand io cmd s = _ := sendCommand_cancelled cmd hcancelled
    rcases FirehoseCall.run_command hcommand fuel s with hrun | hrun
    · rw [hrun, Program.void, Program.run_bind_error hsend]
      exact ⟨h, fun hok => by cases hok⟩
    · rw [hrun, Program.void, sendCommandUnlessNak,
        Program.run_bind_error (Program.run_bind_error hsend)]
      exact ⟨h, fun hok => by cases hok⟩
  | none =>
    cases call with
    | handshake =>
      rcases hrun : FirehoseCall.handshake.run io fuel s with ⟨e | ⟨⟩, t⟩
      · obtain ⟨l, errors, phase, -, rfl⟩ := configureLoop_error hrun
        exact ⟨⟨h.machine, h.configured, h.config_eq⟩, fun hok => by cases hok⟩
      · obtain ⟨hlive, hattempts, -⟩ := configureLoop_ok hrun
        rw [h.config_eq] at hattempts
        have hcancelled := hcall (.inl ⟨rfl, by omega⟩)
        rw [hlive] at hcancelled
        cases hcancelled
    | uploadProgrammer programmerData => exact ⟨h, fun hok => by cases hok⟩
    | reset =>
      rcases hrun : FirehoseCall.reset.run io fuel s with ⟨e | ⟨⟩, t⟩
      · obtain ⟨l, -, rfl⟩ := reset_error hrun
        exact ⟨⟨h.machine, h.configured, h.config_eq⟩, fun hok => by cases hok⟩
      · obtain ⟨-, l, resp, -, -, rfl⟩ := reset_ok hrun
        exact ⟨⟨h.machine, rfl, h.config_eq⟩, fun _ _ => rfl⟩
    | program cmd data =>
      rw [FirehoseCall.run, Program.void,
        Program.run_bind_error (program_unconfigured fuel cmd data h.configured)]
      exact ⟨h, fun hok => by cases hok⟩
    | read cmd =>
      rw [FirehoseCall.run, Program.void, FirehoseProtocol.read,
        Program.run_bind_error (stream_unconfigured h.configured)]
      exact ⟨h, fun hok => by cases hok⟩
    | cancel => exact ⟨⟨h.machine, h.configured, h.config_eq⟩, fun _ hop => by cases hop⟩
    | resetState =>
      refine ⟨⟨?_, rfl, h.config_eq⟩, fun _ hop => by cases hop⟩
      exact (congrArg GenericStateMachine.reset h.machine).trans rfl
    | _ => cases hcommand

/-! ## Runs in which something else does -/

section Acknowledging

variable {s : FirehoseProtocol Unit}

/-- A workable call on the acknowledging device succeeds, and with it the
three records part. -/
theorem workable_not_inStep {config : FirehoseConfig} {call : FirehoseCall} (fuel : Nat)
    (hidling : s.Idling) (hconfig : s.config = config) (hlive : s.cancelled = false)
    (hcall : call.Workable config) :
    ¬ ((call.run (acknowledging List.length) fuel s).2.MachineInStep ∧
      PhaseInStep (CallRun.record (FirehoseCall.run (acknowledging List.length) fuel) call s)) := by
  rintro ⟨hmachine, hphase⟩
  have hidle : (call.run (acknowledging List.length) fuel s).2.stateMachine.currentState = 0 := by
    rw [(hidling.run call).machine]
    rfl
  have hunconfigured : (call.run (acknowledging List.length) fuel s).2.configured = false := by
    rw [MachineInStep, hidle] at hmachine
    simpa using hmachine
  rcases hcall with ⟨rfl, hattempts⟩ | hcommand
  · -- configured, with the machine still in `Idle`
    obtain ⟨l, hrun⟩ : ∃ l, handshake (acknowledging List.length) s = _ :=
      handshake_acknowledged (acknowledging_acknowledges _) hlive (by rw [hconfig]; exact hattempts)
    rw [FirehoseCall.run, hrun] at hunconfigured
    cases hunconfigured
  · -- a success that set no phase
    obtain ⟨cmd, hcommand⟩ := Option.isSome_iff_exists.mp hcommand
    obtain ⟨l, hrun⟩ : ∃ l, call.run (acknowledging List.length) fuel s = _ :=
      command_acknowledged (acknowledging_acknowledges _) fuel hcommand hlive
    rw [hrun] at hunconfigured
    have hop : call.isOperation = true := by
      cases call <;> first | rfl | cases hcommand
    have hready : successPhase call = .firehoseReady := by
      cases call <;> first | rfl | cases hcommand
    rw [PhaseInStep, CallRun.record, hrun, hready] at hphase
    have hconfigured := hidling.ready (hphase rfl hop)
    exact absurd (hconfigured.symm.trans hunconfigured) (by decide)

end Acknowledging

/-! ## Runs -/

theorem final_config (calls : List FirehoseCall) (s : FirehoseProtocol τ) :
    (CallRun.final (FirehoseCall.run io fuel) calls s).config = s.config := by
  have hstep : ∀ call ∈ calls, ∀ t : FirehoseProtocol τ, t.config = s.config →
      (call.run io fuel t).2.config = s.config := by
    intro call _ t ht
    rw [FirehoseCall.run_config, ht]
  exact (CallRun.run_invariant (fun t : FirehoseProtocol τ => t.config = s.config) hstep rfl).2

/-- A run whose workable calls come after a cancel, from any unconfigured
state; a cancel may be pending from the start. -/
theorem inStep_of_unconfigured {config : FirehoseConfig} {calls : List FirehoseCall}
    (h : s.Unconfigured config)
    (hcalls : ∀ earlier call later, calls = earlier ++ call :: later → call.Workable config →
      earlier.foldl FirehoseCall.cancelAfter s.cancelled = true) :
    ∀ r ∈ CallRun.records (FirehoseCall.run io fuel) calls s,
      r.after.MachineInStep ∧ PhaseInStep r := by
  induction calls generalizing s with
  | nil => simp
  | cons call calls ih =>
    obtain ⟨hafter, hphase⟩ : (call.run io fuel s).2.Unconfigured config ∧ _ :=
      h.run (hcalls [] call calls rfl)
    intro r hr
    rw [CallRun.records_cons, List.mem_cons] at hr
    rcases hr with rfl | hr
    · exact ⟨hafter.inStep, hphase⟩
    · refine ih hafter (fun earlier call' later heq hworkable => ?_) r hr
      rw [FirehoseCall.run_cancelAfter]
      exact hcalls (call :: earlier) call' later (by rw [heq]; rfl) hworkable

/-- The three records agree throughout, on every device, exactly in the runs
in which every workable call comes after a cancel. -/
theorem inStep_iff (config : FirehoseConfig) (calls : List FirehoseCall) :
    (∀ (τ : Type) (io : ITransport τ) (fuel : Nat) (transport : τ),
        InStep io fuel calls (construct transport config)) ↔
      ∀ earlier call later, calls = earlier ++ call :: later → call.Workable config →
        FirehoseCall.cancelPending earlier = true := by
  constructor
  · intro hall earlier call later hcalls hcall
    cases hpending : FirehoseCall.cancelPending earlier with
    | true => rfl
    | false =>
      have hinStep :=
    (hall Unit (acknowledging List.length) 0 ()).2 _
        (CallRun.mem_records.mpr ⟨earlier, call, later, hcalls, rfl⟩)
      have hlive : (CallRun.final (FirehoseCall.run (acknowledging List.length) 0) earlier
          (construct () config)).cancelled = false :=
        (FirehoseCall.final_cancelled 0 earlier _).trans hpending
      exact absurd hinStep (workable_not_inStep 0 (idling_run earlier (construct_idling () config))
        (final_config earlier _) hlive hcall)
  · intro hcalls τ io fuel transport
    have hstart : (construct transport config).Unconfigured config := ⟨rfl, rfl, rfl⟩
    exact ⟨hstart.inStep, inStep_of_unconfigured hstart hcalls⟩

/-- After a configure that was acknowledged, the machine is still in `Idle`. -/
theorem configured_not_inStep :
    ¬ ∀ (τ : Type) (io : ITransport τ) (fuel : Nat) (transport : τ) (config : FirehoseConfig)
        (calls : List FirehoseCall), InStep io fuel calls (construct transport config) := by
  intro hall
  have hinStep :=
    (hall Unit (acknowledging List.length) 0 () {} [.handshake]).2 _ List.mem_cons_self
  have hmachine : (FirehoseCall.run (acknowledging List.length) 0 .handshake
      (construct () {})).2.stateMachine.currentState = 0 := by decide
  have hconfigured : (FirehoseCall.run (acknowledging List.length) 0 .handshake
      (construct () {})).2.configured = true := by decide
  have hstate := hinStep.1.mpr hconfigured
  rw [CallRun.record, hmachine] at hstate
  revert hstate
  decide

end FirehoseProtocol

end MBootCore
