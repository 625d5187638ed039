import MBootCore.Domain.Error
import MBootCore.Support.TransitionTable

/-!
# Sahara — StateMachine

`SaharaStateMachine`: the table `s_transitions` over raw 32-bit state and
event ids, searched from the front by `transition` and `canTransition`.
-/

namespace MBootCore

open TransitionTable

inductive SaharaStateId where
  | disconnected | waitingForHello | handshake | ready | readingImage | sendingData
  | waitingEndImage | sendingDone | waitingDoneResp | sendingReset | waitingResetResp
  | error | finished
  deriving DecidableEq, Repr

def SaharaStateId.id : SaharaStateId → UInt32
  | disconnected => 0
  | waitingForHello => 1
  | handshake => 2
  | ready => 3
  | readingImage => 4
  | sendingData => 5
  | waitingEndImage => 6
  | sendingDone => 7
  | waitingDoneResp => 8
  | sendingReset => 9
  | waitingResetResp => 10
  | error => 11
  | finished => 12

inductive SaharaEvent where
  | helloReceived | helloResponseSent | readDataReceived | dataSent | endImageReceived
  | doneReceived | doneResponseSent | resetRequested | resetResponseRecv | errorOccurred
  | timeout | cancel
  deriving DecidableEq, Repr

def SaharaEvent.id : SaharaEvent → UInt32
  | helloReceived => 1
  | helloResponseSent => 2
  | readDataReceived => 3
  | dataSent => 4
  | endImageReceived => 5
  | doneReceived => 6
  | doneResponseSent => 7
  | resetRequested => 8
  | resetResponseRecv => 9
  | errorOccurred => 10
  | timeout => 11
  | cancel => 12

structure SaharaStateMachine where
  currentState : UInt32 := SaharaStateId.waitingForHello.id
  deriving DecidableEq, Repr

namespace SaharaStateMachine

/-- From, to, event. Event 0 belongs to no `SaharaEvent`. -/
def s_transitions : List (Edge UInt32 UInt32) := [
  ⟨0, 1, 0⟩,
  ⟨1, 2, 1⟩,
  ⟨1, 11, 11⟩,
  ⟨2, 3, 2⟩,
  ⟨3, 4, 3⟩,
  ⟨4, 5, 4⟩,
  ⟨5, 3, 0⟩,
  ⟨3, 6, 5⟩,
  ⟨6, 7, 6⟩,
  ⟨7, 8, 7⟩,
  ⟨8, 1, 0⟩,
  ⟨8, 12, 0⟩,
  ⟨3, 9, 8⟩,
  ⟨9, 10, 9⟩,
  ⟨10, 12, 0⟩,
  ⟨1, 11, 10⟩,
  ⟨2, 11, 10⟩,
  ⟨3, 11, 10⟩,
  ⟨4, 11, 10⟩,
  ⟨5, 11, 10⟩,
  ⟨6, 11, 10⟩,
  ⟨7, 11, 10⟩,
  ⟨0, 11, 12⟩,
  ⟨1, 11, 12⟩,
  ⟨2, 11, 12⟩,
  ⟨3, 11, 12⟩,
  ⟨4, 11, 12⟩,
  ⟨5, 11, 12⟩,
  ⟨6, 11, 12⟩,
  ⟨7, 11, 12⟩,
  ⟨8, 11, 12⟩,
  ⟨9, 11, 12⟩,
  ⟨10, 11, 12⟩]

def transition (m : SaharaStateMachine) (event : UInt32) :
    Except ErrorCode Unit × SaharaStateMachine :=
  match next s_transitions m.currentState event with
  | some newId => (.ok (), { m with currentState := newId })
  | none => (.error .invalidState, m)

def canTransition (m : SaharaStateMachine) (event : UInt32) : Bool :=
  s_transitions.any fun t => t.fromState = m.currentState ∧ t.event = event

def reset (m : SaharaStateMachine) : SaharaStateMachine :=
  { m with currentState := SaharaStateId.waitingForHello.id }

/-- `transition` moves along the table, refused events included. -/
theorem transition_currentState (m : SaharaStateMachine) (event : UInt32) :
    (m.transition event).2.currentState = fire s_transitions m.currentState event := by
  rw [transition, fire]
  cases next s_transitions m.currentState event <;> rfl

end SaharaStateMachine

end MBootCore
