import MBootCore.Domain.Error
import MBootCore.Support.TransitionTable

/-!
# State — GenericStateMachine

`GenericStateMachine` of `core/state/StateMachine.cpp`: states and transitions
registered at run time. The states are a map from ids to names. Nothing that
is modelled calls `addTransition` or registers a callback.
-/

namespace MBootCore

open TransitionTable

structure GenericStateMachine where
  states : List (UInt32 × String) := []
  transitions : List (Edge UInt32 UInt32) := []
  currentState : UInt32 := 0
  initialState : UInt32 := 0
  deriving DecidableEq, Repr

namespace GenericStateMachine

/-- `try_emplace`: a second state under an id is dropped. -/
def addState (m : GenericStateMachine) (id : UInt32) (name : String) : GenericStateMachine :=
  if m.states.any fun state => state.1 = id then m
  else { m with states := m.states ++ [(id, name)] }

def setInitialState (m : GenericStateMachine) (id : UInt32) : GenericStateMachine :=
  { m with initialState := id, currentState := id }

def transition (m : GenericStateMachine) (event : UInt32) :
    Except ErrorCode Unit × GenericStateMachine :=
  match next m.transitions m.currentState event with
  | some newId => (.ok (), { m with currentState := newId })
  | none => (.error .invalidState, m)

def reset (m : GenericStateMachine) : GenericStateMachine :=
  { m with currentState := m.initialState }

/-- A machine without transitions refuses every event and stays where it is. -/
theorem transition_of_nil {m : GenericStateMachine} (h : m.transitions = []) (event : UInt32) :
    m.transition event = (.error .invalidState, m) := by
  rw [transition, h]
  rfl

end GenericStateMachine

end MBootCore
