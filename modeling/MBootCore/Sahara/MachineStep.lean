import MBootCore.Sahara.ProtocolSpec

/-!
# Sahara — MachineStep

The events `SaharaProtocol` fires against the table of its state machine.

DataSent leads to SendingData, and the only edge from there back to Ready is
on event 0, which no `SaharaEvent` is. Whatever the upload fires next is
refused (`refused_of_sendingData`), so after one answered data request an
event of the run has been refused for good; and Finished is entered on event 0
only, so no run reaches it.
-/

namespace MBootCore

open TransitionTable

namespace SaharaStateMachine

/-- The machine as the table drives it. -/
theorem canTransition_iff_enabled (m : SaharaStateMachine) (event : UInt32) :
    m.canTransition event = true ↔ Enabled s_transitions m.currentState event := by
  simp [canTransition, Enabled, next]

/-- An enabled DataSent can only have come from ReadingImage. -/
theorem sendingData_of_dataSent (m : SaharaStateMachine)
    (h : m.canTransition SaharaEvent.dataSent.id = true) :
    (m.transition SaharaEvent.dataSent.id).2.currentState = SaharaStateId.sendingData.id := by
  have hedges : ∀ t ∈ s_transitions, t.event = SaharaEvent.dataSent.id →
      t.toState = SaharaStateId.sendingData.id := by decide
  obtain ⟨t, hmem, -, hevent, hto⟩ := fire_of_enabled ((canTransition_iff_enabled m _).mp h)
  rw [transition_currentState, ← hto]
  exact hedges t hmem hevent

/-- What the upload fires after DataSent. -/
theorem refused_of_sendingData {m : SaharaStateMachine} {event : SaharaEvent}
    (h : m.currentState = SaharaStateId.sendingData.id)
    (hevent : event = .readDataReceived ∨ event = .endImageReceived) :
    m.canTransition event.id = false := by
  rcases hevent with rfl | rfl <;> simp [canTransition, h] <;> decide

theorem id_ne_zero (event : SaharaEvent) : event.id ≠ 0 := by
  cases event <;> decide

/-- Finished is entered on event 0 only. -/
theorem transition_ne_finished (m : SaharaStateMachine) (event : SaharaEvent)
    (h : m.currentState ≠ SaharaStateId.finished.id) :
    (m.transition event.id).2.currentState ≠ SaharaStateId.finished.id := by
  have hconfined : Confined s_transitions (fun s => s ≠ SaharaStateId.finished.id)
      (fun e => e ≠ 0) := by
    unfold Confined
    decide
  rw [transition_currentState]
  exact hconfined.fire h (id_ne_zero event)

end SaharaStateMachine

namespace SaharaProtocol

/-! ## What every method keeps -/

/-- Some event was refused when it was fired. -/
def SomeRefused (s : SaharaProtocol) : Prop := ∃ f ∈ s.fired, f.enabled = false

/-- A refusal is never undone. -/
theorem someRefused_rules : StepRules fun s t => s.SomeRefused → t.SomeRefused where
  trans _ _ _ h₁ h₂ h := h₂ (h₁ h)
  quiet _ hfired _ h := by rwa [SomeRefused, hfired]
  fire _ _ := fun ⟨f, hmem, hf⟩ => ⟨f, List.mem_append_left _ hmem, hf⟩
  accept _ _ h := h

def NotFinished (s : SaharaProtocol) : Prop :=
  s.stateMachine.currentState ≠ SaharaStateId.finished.id

theorem notFinished_rules : StepRules fun s t => s.NotFinished → t.NotFinished where
  trans _ _ _ h₁ h₂ h := h₂ (h₁ h)
  quiet _ _ hmachine h := by rwa [NotFinished, hmachine]
  fire event s := s.stateMachine.transition_ne_finished event
  accept _ _ h := h

/-- A method's rules carry over to every call of a run; only `resetState`
touches the machine directly. -/
theorem call_steps {R : SaharaProtocol → SaharaProtocol → Prop} (hR : StepRules R)
    (haccept : ∀ awaited packet s, R s (accept awaited packet s).2)
    (hreset : ∀ s, R s (resetState s).2) (u : WrongCast) (call : SaharaCall) :
    Program.Steps R (call.run u) := by
  cases call with
  | handshake => exact hR.handshake haccept u
  | uploadProgrammer programmerData => exact hR.uploadProgrammer programmerData
  | reset => exact hR.reset haccept
  | cancel => exact fun s => hR.quiet rfl rfl rfl
  | resetState => exact hreset

/-! ## The upload -/

/-- In SendingData, or an event was refused already. -/
def Stuck (s : SaharaProtocol) : Prop :=
  s.SomeRefused ∨ s.stateMachine.currentState = SaharaStateId.sendingData.id

theorem stuck_of_dataSent (s : SaharaProtocol) : (fire .dataSent s).2.Stuck := by
  by_cases henabled : s.stateMachine.canTransition SaharaEvent.dataSent.id = true
  · exact Or.inr (s.stateMachine.sendingData_of_dataSent henabled)
  · refine Or.inl ⟨⟨.dataSent, _⟩, List.mem_append_right _ (List.mem_singleton_self _), ?_⟩
    simpa using henabled

/-- The first event after DataSent is refused. -/
theorem someRefused_of_stuck {s : SaharaProtocol} (h : s.Stuck) :
    (fire .endImageReceived s).2.SomeRefused := by
  rcases h with h | h
  · exact someRefused_rules.fire _ s h
  · refine ⟨⟨.endImageReceived, _⟩, List.mem_append_right _ (List.mem_singleton_self _), ?_⟩
    exact SaharaStateMachine.refused_of_sendingData h (Or.inr rfl)

/-- An upload that returns has sent nothing, or is stuck. -/
theorem uploadLoop_ok {programmerData : ByteBuffer} {fuel : Nat} {s t : SaharaProtocol}
    (h : uploadLoop programmerData fuel s = (.ok (), t)) :
    t.transport.written = s.transport.written ∨ t.Stuck := by
  obtain ⟨s', hs', hbreak⟩ := Program.repeatWhile_ok
    (fun r => r.transport.written = s.transport.written ∨ r.Stuck) (fun r r' _ hround => by
      obtain ⟨_, _, _, s₁, -, -, rfl⟩ := uploadRound_continue hround
      exact Or.inr (stuck_of_dataSent s₁)) (Or.inl rfl) h
  obtain ⟨imageId, -, rfl⟩ := uploadRound_break hbreak
  exact hs'

/-- A successful upload that answered a data request was refused an event. -/
theorem uploadProgrammer_refused {programmerData : ByteBuffer} {s t : SaharaProtocol}
    (h : uploadProgrammer programmerData s = (.ok (), t))
    (hsent : t.transport.written ≠ s.transport.written) : t.SomeRefused := by
  obtain ⟨⟨⟩, s₁, hphase, h⟩ := Program.bind_eq_ok.mp h
  obtain ⟨s₂, s₃, hget, h⟩ := Program.bind_eq_ok.mp h
  obtain ⟨⟨⟩, s₄, hloop, hfire⟩ := Program.bind_eq_ok.mp h
  obtain ⟨-, rfl⟩ := Prod.mk.inj hphase
  obtain ⟨-, rfl⟩ := Prod.mk.inj hget
  obtain ⟨-, rfl⟩ := Prod.mk.inj hfire
  rcases uploadLoop_ok hloop with hsame | hstuck
  · exact absurd hsame hsent
  · exact someRefused_of_stuck hstuck

end SaharaProtocol

/-! ## Whole runs -/

open SaharaProtocol

theorem runCalls_steps {R : SaharaProtocol → SaharaProtocol → Prop} (hrefl : ∀ s, R s s)
    (htrans : ∀ ⦃s t r⦄, R s t → R t r → R s r) (u : WrongCast)
    (hcall : ∀ call : SaharaCall, Program.Steps R (call.run u)) (calls : List SaharaCall)
    (s : SaharaProtocol) : R s (runCalls u calls s).2 := by
  induction calls generalizing s with
  | nil => exact hrefl s
  | cons call calls ih => exact htrans (hcall call s) (ih _)

/-- The call is a successful upload that answered a data request. -/
def SaharaRecord.AnsweredReadRequest (r : SaharaRecord) : Prop :=
  ∃ programmerData, r.call = .uploadProgrammer programmerData ∧ r.result = .ok () ∧
    r.after.transport.written ≠ r.before.transport.written

theorem waitingForHello_ne_finished : SaharaStateId.waitingForHello.id ≠
    SaharaStateId.finished.id := by
  decide

theorem runCalls_notFinished (u : WrongCast) (calls : List SaharaCall) (s : SaharaProtocol)
    (h : s.NotFinished) : (runCalls u calls s).2.NotFinished :=
  runCalls_steps (fun _ h => h) notFinished_rules.trans u
    (call_steps notFinished_rules (fun _ _ _ h => h) (fun _ _ => waitingForHello_ne_finished) u)
    calls s h

theorem runCalls_someRefused (u : WrongCast) (calls : List SaharaCall) (s : SaharaProtocol)
    (h : ∃ r ∈ (runCalls u calls s).1, r.AnsweredReadRequest) :
    (runCalls u calls s).2.SomeRefused := by
  induction calls generalizing s with
  | nil => simp [runCalls] at h
  | cons call calls ih =>
    obtain ⟨r, hmem, hr⟩ := h
    rcases List.mem_cons.mp hmem with rfl | hmem
    · obtain ⟨programmerData, rfl, hok, hsent⟩ := hr
      have hrefused := uploadProgrammer_refused (Prod.ext hok rfl) hsent
      exact runCalls_steps (fun _ h => h) someRefused_rules.trans u
        (call_steps someRefused_rules (fun _ _ _ h => h) (fun _ h => h) u) calls _ hrefused
    · exact ih _ ⟨r, hmem, hr⟩

/-- In a run in which an upload answers a data request and returns Ok, some
event fired on the machine was refused, and the machine is not in Finished. -/
theorem runCalls_outOfStep (u : WrongCast) (calls : List SaharaCall) (transport : Transport)
    (h : ∃ r ∈ (runCalls u calls { transport := transport }).1, r.AnsweredReadRequest) :
    (∃ f ∈ (runCalls u calls { transport := transport }).2.fired, f.enabled = false) ∧
      (runCalls u calls { transport := transport }).2.stateMachine.currentState
        ≠ SaharaStateId.finished.id :=
  ⟨runCalls_someRefused u calls _ h, runCalls_notFinished u calls _ waitingForHello_ne_finished⟩

/-- A version 2 device that asks for one block, ends the image and confirms
DONE and RESET. -/
def oneBlockDevice : Transport where
  replies := [SaharaPacketSerializer.serialize (.hello 2 1 0 0), .error .transportTimeout,
    SaharaPacketSerializer.serialize (.readData 0 0 2),
    SaharaPacketSerializer.serialize (.endImageTransfer 0 0),
    SaharaPacketSerializer.serialize (.doneResponse 0),
    SaharaPacketSerializer.serialize .resetResponse]
  writeResults := []

theorem oneBlockDevice_outOfStep :
    let run := runCalls ⟨fun _ => ⟨0, 0, 0⟩, fun _ => ⟨0, 0, 0, 0, 0, 0⟩⟩
      [.handshake, .uploadProgrammer [1, 2], .reset] { transport := oneBlockDevice }
    (∃ f ∈ run.2.fired, f.enabled = false) ∧
      run.2.stateMachine.currentState ≠ SaharaStateId.finished.id :=
  runCalls_outOfStep _ _ _
    ⟨_, List.mem_cons_of_mem _ List.mem_cons_self, [1, 2], rfl, by decide, by decide⟩

/-- All three calls return Ok; END_IMAGE, RESET and its answer were refused
and the machine is still in SendingData. -/
theorem oneBlockDevice_run :
    let run := runCalls ⟨fun _ => ⟨0, 0, 0⟩, fun _ => ⟨0, 0, 0, 0, 0, 0⟩⟩
      [.handshake, .uploadProgrammer [1, 2], .reset] { transport := oneBlockDevice }
    run.1.map SaharaRecord.result = [.ok (), .ok (), .ok ()] ∧
      run.2.fired = [⟨.helloReceived, true⟩, ⟨.helloResponseSent, true⟩,
        ⟨.readDataReceived, true⟩, ⟨.dataSent, true⟩, ⟨.endImageReceived, false⟩,
        ⟨.resetRequested, false⟩, ⟨.resetResponseRecv, false⟩] ∧
      run.2.stateMachine.currentState = SaharaStateId.sendingData.id := by
  decide

end MBootCore
