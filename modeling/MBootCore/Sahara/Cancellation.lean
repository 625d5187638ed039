import MBootCore.Sahara.ProtocolSpec
import MBootCore.Support.CallRun

/-!
# Sahara — Cancellation

What `SaharaProtocol::cancel` leaves running. No operation reads the flag, so
a cancel, called between two operations or inside one, stops neither the
operation in progress nor the ones after it; what a transport aborts on
`cancel()` is one more answer of its script.
-/

namespace MBootCore

/-- One call of a client. A cancel inside an operation lands once it has made
`cancelAfter` writes, or before it returns if it makes fewer. -/
structure SaharaStep where
  call : SaharaCall
  cancelAfter : Option Nat := none
  deriving DecidableEq, Repr

namespace SaharaStep

/-- Nothing an operation does depends on the flag, so setting it inside one is
setting it at its end. -/
def run (u : WrongCast) (step : SaharaStep) : SaharaProtocol.Method Unit := fun s =>
  let outcome := step.call.run u s
  (outcome.1,
    if step.cancelAfter.isSome then { outcome.2 with cancelled := true } else outcome.2)

def isOperation (step : SaharaStep) : Bool :=
  match step.call with
  | .cancel | .resetState => false
  | _ => true

/-- Whether a cancel is pending after a step, given whether one was before. -/
def pendingAfter (pending : Bool) (step : SaharaStep) : Bool :=
  step.cancelAfter.isSome ||
    match step.call with
    | .cancel => true
    | .resetState => false
    | _ => pending

/-- The steps made a cancel that no `resetState` has undone. -/
def cancelPending (steps : List SaharaStep) : Bool := steps.foldl pendingAfter false

end SaharaStep

namespace SaharaProtocol

/-- After a cancel and until the next `resetState`, no operation of the run
writes to the transport and every operation fails. -/
def CancelFinal (u : WrongCast) (steps : List SaharaStep) (s : SaharaProtocol) : Prop :=
  ∀ earlier step later, steps = earlier ++ step :: later → step.isOperation = true →
    let r := CallRun.record (SaharaStep.run u) step (CallRun.final (SaharaStep.run u) earlier s)
    (SaharaStep.cancelPending earlier = true →
      r.result.isOk = false ∧ r.after.transport.written = r.before.transport.written) ∧
    ∀ k, step.cancelAfter = some k →
      r.result.isOk = false ∧
        r.after.transport.written.length ≤ r.before.transport.written.length + k

open SaharaPacketSerializer

/-! ## A device that lets one operation through -/

/-- The answers on which an operation succeeds. -/
def obliging : SaharaCall → List (Except ErrorCode ByteBuffer)
  | .handshake => [serialize (.hello 2 1 0 0)]
  | .uploadProgrammer _ => [serialize (.endImageTransfer 0 0)]
  | .reset => [serialize (.doneResponse 0), serialize .resetResponse]
  | .cancel | .resetState => []

/-- The answers left to a protocol, all its writes succeeding. -/
def Offered (replies : List (Except ErrorCode ByteBuffer)) (s : SaharaProtocol) : Prop :=
  s.transport.replies = replies ∧ s.transport.writeResults = []

theorem obliging_run (u : WrongCast) {call : SaharaCall} {s : SaharaProtocol}
    (h : s.Offered (obliging call)) : (call.run u s).1.isOk = true := by
  obtain ⟨transport, stateMachine, phase, errors, cancelled, version, info, accepted, fired⟩ := s
  obtain ⟨replies, writeResults, written⟩ := transport
  obtain ⟨rfl, rfl⟩ : replies = obliging call ∧ writeResults = [] := h
  cases call <;> rfl

/-- A read that fails ends the operation, with one answer used up. -/
theorem failing_run (u : WrongCast) {step : SaharaStep} {s : SaharaProtocol} {e : ErrorCode}
    {replies : List (Except ErrorCode ByteBuffer)} (hop : step.isOperation = true)
    (h : s.Offered (.error e :: replies)) : (step.run u s).2.Offered replies := by
  obtain ⟨transport, stateMachine, phase, errors, cancelled, version, info, accepted, fired⟩ := s
  obtain ⟨offered, writeResults, written⟩ := transport
  obtain ⟨rfl, rfl⟩ : offered = .error e :: replies ∧ writeResults = [] := h
  obtain ⟨call, cancelAfter⟩ := step
  cases call with
  | cancel | resetState => cases hop
  | _ => cases cancelAfter <;> exact ⟨rfl, rfl⟩

theorem other_run (u : WrongCast) {step : SaharaStep} {s : SaharaProtocol}
    (hop : step.isOperation = false) : (step.run u s).2.transport = s.transport := by
  obtain ⟨call, cancelAfter⟩ := step
  cases call with
  | cancel | resetState => cases cancelAfter <;> rfl
  | _ => cases hop

/-- A device that refuses the operations among the steps, one after the other. -/
def refusals (steps : List SaharaStep) : List (Except ErrorCode ByteBuffer) :=
  (steps.filter SaharaStep.isOperation).map fun _ => .error .transportTimeout

/-- The refused operations leave the answers that come after. -/
theorem refusals_run (u : WrongCast) (steps : List SaharaStep) {s : SaharaProtocol}
    {replies : List (Except ErrorCode ByteBuffer)} (h : s.Offered (refusals steps ++ replies)) :
    (CallRun.final (SaharaStep.run u) steps s).Offered replies := by
  induction steps generalizing s with
  | nil => exact h
  | cons step steps ih =>
    rw [CallRun.final_cons]
    apply ih
    cases hop : step.isOperation with
    | true =>
      apply failing_run u hop
      simpa [refusals, hop] using h
    | false =>
      rw [Offered, other_run u hop]
      simpa [refusals, hop, Offered] using h

/-! ## Runs -/

/-- Cancellation is final whatever the transport answers exactly when no
operation is interrupted by a cancel or called under one. -/
theorem saharaCancelFinal_iff (u : WrongCast) (steps : List SaharaStep) :
    (∀ transport : Transport, CancelFinal u steps { transport }) ↔
      ∀ earlier step later, steps = earlier ++ step :: later → step.isOperation = true →
        step.cancelAfter = none ∧ SaharaStep.cancelPending earlier = false := by
  constructor
  · intro hfinal earlier step later hsteps hop
    -- every operation before it is refused, and the device obliges this one
    let device : Transport :=
      { replies := refusals earlier ++ obliging step.call, writeResults := [] }
    have hoffered : (CallRun.final (SaharaStep.run u) earlier
        { transport := device }).Offered (obliging step.call) := refusals_run u earlier ⟨rfl, rfl⟩
    have hok : (CallRun.record (SaharaStep.run u) step
        (CallRun.final (SaharaStep.run u) earlier { transport := device })).result.isOk = true :=
      obliging_run u hoffered
    obtain ⟨hpending, hinside⟩ := hfinal device earlier step later hsteps hop
    constructor
    · cases hcancel : step.cancelAfter with
      | none => rfl
      | some k =>
        rw [(hinside k hcancel).1] at hok
        cases hok
    · cases hbefore : SaharaStep.cancelPending earlier with
      | false => rfl
      | true =>
        rw [(hpending hbefore).1] at hok
        cases hok
  · intro hnone transport earlier step later hsteps hop
    obtain ⟨hinside, hpending⟩ := hnone earlier step later hsteps hop
    refine ⟨fun h => ?_, fun k h => ?_⟩
    · rw [hpending] at h
      cases h
    · rw [hinside] at h
      cases h

/-- A reset after a cancel reaches the device, and succeeds. -/
theorem cancelled_reset_succeeds :
    ¬ ∀ (u : WrongCast) (transport : Transport) (steps : List SaharaStep),
      CancelFinal u steps { transport } := by
  intro hall
  let u : WrongCast := ⟨fun _ => ⟨0, 0, 0⟩, fun _ => ⟨0, 0, 0, 0, 0, 0⟩⟩
  have hfails := (hall u { replies := obliging .reset, writeResults := [] }
    [⟨.cancel, none⟩, ⟨.reset, none⟩] [⟨.cancel, none⟩] ⟨.reset, none⟩ [] rfl rfl).1 rfl
  exact absurd hfails.1 (by decide)

end SaharaProtocol

end MBootCore
