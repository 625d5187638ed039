import MBootCore.Session.WatchedSession

/-!
# Session — CancelSticks

Whether a cancellation is the last word on the state of the session. Between the calls of
`cancel` an operation writes the state itself: before the device is called, and after it.
A cancellation lasts exactly where the operation does not write the state after it.
-/

namespace MBootCore.Session

namespace WatchedSession

open Program (Steps)

variable {W : Type} {α β : Type}

/-- `cancel` is called while the method runs. -/
def CancelledIn (m : Method W α) (s : WatchedSession W) : Prop := s.cancels < (m s).2.cancels

/-- A cancellation in the method leaves the session cancelled, and the method fails. -/
def Sticks (m : Method W α) (s : WatchedSession W) : Prop :=
  CancelledIn m s → (m s).2.session.state = .cancelled ∧ (m s).1.isOk = false

/-! ## What a step does to the state -/

/-- A step writes no state but by `cancel`. -/
def Unwritten (s t : WatchedSession W) : Prop :=
  t.cancels = s.cancels ∧ t.session.state = s.session.state ∨
    s.cancels < t.cancels ∧ t.session.state = .cancelled

theorem Unwritten.rfl (s : WatchedSession W) : Unwritten s s := .inl ⟨Eq.refl _, Eq.refl _⟩

theorem Unwritten.trans ⦃s t u : WatchedSession W⦄ (h : Unwritten s t) (h' : Unwritten t u) :
    Unwritten s u := by
  rcases h with ⟨hcancels, hstate⟩ | ⟨hcancels, hstate⟩ <;>
    rcases h' with ⟨hcancels', hstate'⟩ | ⟨hcancels', hstate'⟩
  · exact .inl ⟨hcancels'.trans hcancels, hstate'.trans hstate⟩
  · exact .inr ⟨hcancels ▸ hcancels', hstate'⟩
  · exact .inr ⟨hcancels' ▸ hcancels, hstate'.trans hstate⟩
  · exact .inr ⟨Nat.lt_trans hcancels hcancels', hstate'⟩

/-- A method without a statement that writes the state. -/
abbrev Leaves (m : Method W α) : Prop := Steps Unwritten m

theorem Leaves.bind {m : Method W α} {k : α → Method W β} (hm : Leaves m)
    (hk : ∀ a, Leaves (k a)) : Leaves (m >>= k) :=
  Steps.bind Unwritten.trans hm hk

theorem call_leaves (code : DeviceSession W → Client W α) : Leaves (call code) := by
  intro s
  rw [call]
  rcases code s.session s.session.device with ⟨a, world, _ | _⟩
  · exact .inl ⟨rfl, rfl⟩
  · exact .inr ⟨Nat.lt_succ_self _, rfl⟩

/-- A statement of the session that keeps its state. -/
theorem onSession_leaves {m : DeviceSession.Method W α}
    (h : Program.Preserves DeviceSession.state m) : Leaves (onSession m) :=
  fun s => .inl ⟨rfl, h s.session⟩

/-- The method returns whatever happens. -/
def Returns (m : Method W α) : Prop := ∀ s, (m s).1.isOk = true

theorem Returns.bind {m : Method W α} {k : α → Method W β} (hm : Returns m)
    (hk : ∀ a, Returns (k a)) : Returns (m >>= k) := by
  intro s
  have hreturned := hm s
  rw [Program.run_bind]
  rcases hrun : m s with ⟨e | a, s₁⟩
  · rw [hrun] at hreturned
    cases hreturned
  · exact hk a s₁

theorem call_returns (code : DeviceSession W → Client W α) : Returns (call code) := by
  intro s
  rw [call]
  rcases code s.session s.session.device with ⟨a, world, _ | _⟩ <;> rfl

/-- The state is written once, and after that by `cancel` only. -/
def Lands (state : SessionState) (m : Method W α) : Prop :=
  ∀ s, (m s).2.cancels = s.cancels ∧ (m s).2.session.state = state ∨
    s.cancels < (m s).2.cancels ∧ (m s).2.session.state = .cancelled

theorem Lands.bind {state : SessionState} {m : Method W α} {k : α → Method W β}
    (hm : Lands state m) (hk : ∀ a, Leaves (k a)) : Lands state (m >>= k) := by
  intro s
  rw [Program.run_bind]
  have hfirst := hm s
  rcases hrun : m s with ⟨e | a, s₁⟩
  · rw [hrun] at hfirst
    exact hfirst
  · rw [hrun] at hfirst
    have hrest := hk a s₁
    rcases hfirst with ⟨hcancels, hstate⟩ | ⟨hcancels, hstate⟩ <;>
      rcases hrest with ⟨hcancels', hstate'⟩ | ⟨hcancels', hstate'⟩
    · exact .inl ⟨hcancels'.trans hcancels, hstate'.trans hstate⟩
    · exact .inr ⟨hcancels ▸ hcancels', hstate'⟩
    · exact .inr ⟨hcancels' ▸ hcancels, hstate'.trans hstate⟩
    · exact .inr ⟨Nat.lt_trans hcancels hcancels', hstate'⟩

/-- What comes before the write does not matter, unless it cancels. -/
theorem Lands.after {state : SessionState} {m : Method W α} {k : α → Method W β}
    (hm : Program.Preserves WatchedSession.cancels m) (hreturns : Returns m)
    (hk : ∀ a, Lands state (k a)) : Lands state (m >>= k) := by
  intro s
  have hkept := hm s
  have hreturned := hreturns s
  rw [Program.run_bind]
  rcases hrun : m s with ⟨e | a, s₁⟩
  · rw [hrun] at hreturned
    cases hreturned
  · rw [hrun] at hkept
    have hrest := hk a s₁
    rw [show s₁.cancels = s.cancels from hkept] at hrest
    exact hrest

/-- Where another state than Cancelled is written, only a cancellation after it is seen. -/
theorem Lands.cancelled_iff {state : SessionState} (hstate : state ≠ .cancelled)
    {m : Method W α} (h : Lands state m) (s : WatchedSession W) :
    (m s).2.session.state = .cancelled ↔ CancelledIn m s := by
  unfold CancelledIn
  rcases h s with ⟨hcancels, hwritten⟩ | ⟨hcancels, hcancelled⟩
  · constructor
    · intro hcancelled
      exact absurd (hwritten.symm.trans hcancelled) hstate
    · intro hlt
      rw [hcancels] at hlt
      exact absurd hlt (Nat.lt_irrefl _)
  · exact ⟨fun _ => hcancels, fun _ => hcancelled⟩

/-! ## The statements -/

variable (company : Company W)

theorem setState_lands (state : SessionState) : Lands state (setState company state) := by
  intro s
  rw [setState, Program.run_bind_ok (Program.run_get s)]
  have hwritten : onSession (DeviceSession.setState state) s
      = (.ok (), { s with session := { s.session with state := state } }) := rfl
  rw [Program.run_bind_ok hwritten]
  by_cases hsame : s.session.state = state
  · rw [if_pos hsame]
    exact .inl ⟨rfl, rfl⟩
  · rw [if_neg hsame]
    exact call_leaves _ { s with session := { s.session with state := state } }

theorem setState_returns (state : SessionState) : Returns (setState company state) := by
  intro s
  rw [setState, Program.run_bind_ok (Program.run_get s)]
  have hwritten : onSession (DeviceSession.setState state) s
      = (.ok (), { s with session := { s.session with state := state } }) := rfl
  rw [Program.run_bind_ok hwritten]
  by_cases hsame : s.session.state = state
  · rw [if_pos hsame]
    rfl
  · rw [if_neg hsame]
    exact call_returns _ _

theorem addHistoryEntry_state (name : String) (success : Bool) (bytes : UInt64) :
    Program.Preserves DeviceSession.state
      (DeviceSession.addHistoryEntry (τ := W) name success bytes) := by
  intro s
  rw [DeviceSession.addHistoryEntry, Program.run_modify]
  cases s.enableHistory <;> rfl

theorem failed_lands (job : Job W α) (error : ErrorCode) :
    Lands .error (failed company job error) := by
  refine Lands.after (fun _ => rfl) (fun _ => rfl) fun _ => ?_
  refine Lands.bind (setState_lands company .error) fun _ => ?_
  refine Leaves.bind (call_leaves _) fun _ => ?_
  exact Leaves.bind (onSession_leaves (addHistoryEntry_state _ _ _)) fun _ => call_leaves _

theorem connectFailed_lands (error : ErrorCode) : Lands .error (connectFailed company error) :=
  Lands.bind (setState_lands company .error) fun _ =>
    Leaves.bind (call_leaves _) fun _ => call_leaves _

theorem begin_returns (busyState : SessionState) (name : String)
    (operation : Client W (Except ErrorCode α)) :
    Returns (begin company busyState name operation) :=
  Returns.bind (setState_returns company busyState) fun _ =>
    Returns.bind (call_returns _) fun _ => call_returns _

theorem succeeded_returns (job : Job W α) (a : α) : Returns (succeeded company job a) := by
  refine Returns.bind (setState_returns company .ready) fun _ => ?_
  refine Returns.bind (fun _ => rfl) fun _ => ?_
  refine Returns.bind (fun _ => rfl) fun _ => ?_
  exact Returns.bind (call_returns _) fun _ => call_returns _

theorem failed_returns (job : Job W α) (error : ErrorCode) :
    Returns (failed company job error) := by
  refine Returns.bind (fun _ => rfl) fun _ => ?_
  refine Returns.bind (setState_returns company .error) fun _ => ?_
  refine Returns.bind (call_returns _) fun _ => ?_
  exact Returns.bind (fun _ => rfl) fun _ => call_returns _

theorem connected_returns : Returns (connected company) :=
  Returns.bind (setState_returns company .ready) fun _ =>
    Returns.bind (call_returns _) fun _ => call_returns _

theorem connectFailed_returns (error : ErrorCode) : Returns (connectFailed company error) :=
  Returns.bind (setState_returns company .error) fun _ =>
    Returns.bind (call_returns _) fun _ => call_returns _

theorem failIf_leaves (g : DeviceSession W → Bool) (e : ErrorCode) :
    Leaves (onSession (Program.failIf g e)) :=
  onSession_leaves fun _ => rfl

/-! ## Guarded operations -/

/-- The method ends cancelled, and says so. -/
def Kept (m : Method W α) (s : WatchedSession W) : Prop :=
  (m s).2.session.state = .cancelled ∧ (m s).1.isOk = false

theorem sticks_iff_kept (m : Method W α) (s : WatchedSession W) :
    Sticks m s ↔ ¬ CancelledIn m s ∨ Kept m s := by
  unfold Sticks
  by_cases h : CancelledIn m s
  · simp only [h, not_true_eq_false, false_or, true_implies, Kept]
  · simp only [h, not_false_eq_true, true_or, false_implies]

/-- The checks refuse. -/
def Refused (guard : Method W Unit) (s : WatchedSession W) : Prop := (guard s).1.isOk = false

/-- The checks pass, the device fails, and `cancel` is called after the state is set to
Error. -/
def CancelledLate (guard : Method W Unit) (busy : Method W (Except ErrorCode α))
    (bad : ErrorCode → Method W Unit) (s : WatchedSession W) : Prop :=
  ∃ s₁ e s₂, guard s = (.ok (), s₁) ∧ busy s₁ = (.ok (.error e), s₂) ∧ CancelledIn (bad e) s₂

/-- A cancellation during checks that refuse is kept. -/
def Refuses (guard : Method W Unit) : Prop :=
  ∀ s, (guard s).1.isOk = false → s.cancels < (guard s).2.cancels →
    (guard s).2.session.state = .cancelled

theorem Leaves.refuses {guard : Method W Unit} (h : Leaves guard) : Refuses guard := by
  intro s _ hcancelled
  rcases h s with ⟨hcancels, -⟩ | ⟨-, hstate⟩
  · rw [hcancels] at hcancelled
    exact absurd hcancelled (Nat.lt_irrefl _)
  · exact hstate

theorem checkOperation_refuses : Refuses (checkOperation company) := by
  intro s
  have hrest : Leaves (do
      meanwhile company
      onSession (Program.failIf (!·.isConnected) .deviceDisconnected)
      meanwhile company
      onSession (Program.failIf (·.isBusy) .invalidState)
      meanwhile company) :=
    Leaves.bind (call_leaves _) fun _ => Leaves.bind (failIf_leaves _ _) fun _ =>
      Leaves.bind (call_leaves _) fun _ => Leaves.bind (failIf_leaves _ _) fun _ => call_leaves _
  by_cases hcancelled : s.session.isCancelled = true
  · have hcheck : checkCancelled company s = (do
        setState company .cancelled
        Program.fail .cancelled : Method W Unit) s := by
      rw [checkCancelled, Program.run_bind_ok (Program.run_get s), if_pos hcancelled]
    have hlands : Lands .cancelled (do
        setState company .cancelled
        Program.fail .cancelled : Method W Unit) :=
      Lands.bind (setState_lands company .cancelled) fun _ => Steps.fail Unwritten.rfl _
    have hstate : (checkCancelled company s).2.session.state = .cancelled := by
      rw [hcheck]
      rcases hlands s with ⟨-, hstate⟩ | ⟨-, hstate⟩ <;> exact hstate
    have hfails : ∃ e s₁, checkCancelled company s = (.error e, s₁) := by
      rw [hcheck, Program.run_bind]
      rcases setState company .cancelled s with ⟨e | ⟨⟩, s₁⟩
      · exact ⟨e, s₁, rfl⟩
      · exact ⟨_, s₁, rfl⟩
    obtain ⟨e, s₁, hrun⟩ := hfails
    rw [hrun] at hstate
    intro _ _
    rw [checkOperation, Program.run_bind_error hrun]
    exact hstate
  · have hcheck : checkCancelled company s = (.ok (), s) := by
      rw [checkCancelled, Program.run_bind_ok (Program.run_get s), if_neg hcancelled]
      rfl
    rw [checkOperation, Program.run_bind_ok hcheck]
    exact hrest.refuses s

theorem checkConnect_leaves : Leaves (checkConnect company) := by
  refine Leaves.bind (call_leaves _) fun _ => ?_
  refine Leaves.bind (failIf_leaves _ _) fun _ => ?_
  refine Leaves.bind (call_leaves _) fun _ => ?_
  exact onSession_leaves fun _ => rfl

section Guarded

variable {guard : Method W Unit} {busy : Method W (Except ErrorCode α)}
  {good : α → Method W Unit} {bad : ErrorCode → Method W Unit} {m : Method W α}

/-- An operation behind its checks, with what it does about the answer of the device. -/
theorem guarded_kept_iff (hbusy : Returns busy) (hgood : ∀ a, Returns (good a))
    (hbad : ∀ e, Returns (bad e)) (hlands : ∀ e, Lands .error (bad e))
    (hm : m = guard >>= fun _ => busy >>= conclude good bad) (s : WatchedSession W) :
    Kept m s ↔ Kept guard s ∨ CancelledLate guard busy bad s := by
  unfold Kept CancelledLate
  subst hm
  rw [Program.run_bind]
  rcases hrun : guard s with ⟨e | ⟨⟩, s₁⟩
  · constructor
    · exact .inl
    · rintro (hkept | ⟨s₁', -, -, hguarded, -⟩)
      · exact hkept
      · cases hguarded
  have hanswers := hbusy s₁
  simp only [Program.run_bind]
  rcases hanswer : busy s₁ with ⟨e | answer, s₂⟩
  · rw [hanswer] at hanswers
    cases hanswers
  cases answer with
  | error e =>
    have hends := hbad e s₂
    have hiff := (hlands e).cancelled_iff (by decide) s₂
    rcases hbadrun : bad e s₂ with ⟨e' | ⟨⟩, s₃⟩
    · rw [hbadrun] at hends
      cases hends
    rw [hbadrun] at hiff
    simp only [conclude, Program.run_bind, hbadrun, Program.run_fail]
    constructor
    · rintro ⟨hstate, -⟩
      exact .inr ⟨s₁, e, s₂, rfl, hanswer, hiff.mp hstate⟩
    · rintro (⟨-, hrefused⟩ | ⟨s₁', e', s₂', hguarded, hanswer', hlate⟩)
      · cases hrefused
      · obtain ⟨-, rfl⟩ := Prod.mk.inj hguarded
        rw [hanswer] at hanswer'
        obtain ⟨hsame, rfl⟩ := Prod.mk.inj hanswer'
        cases hsame
        exact ⟨hiff.mpr hlate, rfl⟩
  | ok a =>
    have hends := hgood a s₂
    rcases hgoodrun : good a s₂ with ⟨e' | ⟨⟩, s₃⟩
    · rw [hgoodrun] at hends
      cases hends
    simp only [conclude, Program.run_bind, hgoodrun, Program.run_pure]
    constructor
    · rintro ⟨-, hfails⟩
      cases hfails
    · rintro (⟨-, hrefused⟩ | ⟨s₁', e', s₂', hguarded, hanswer', -⟩)
      · cases hrefused
      · obtain ⟨-, rfl⟩ := Prod.mk.inj hguarded
        rw [hanswer] at hanswer'
        cases (Prod.mk.inj hanswer').1

theorem guarded_sticks_iff (hguard : Refuses guard) (hbusy : Returns busy)
    (hgood : ∀ a, Returns (good a)) (hbad : ∀ e, Returns (bad e))
    (hlands : ∀ e, Lands .error (bad e))
    (hm : m = guard >>= fun _ => busy >>= conclude good bad) (s : WatchedSession W) :
    Sticks m s ↔ ¬ CancelledIn m s ∨ Refused guard s ∨ CancelledLate guard busy bad s := by
  rw [sticks_iff_kept, guarded_kept_iff hbusy hgood hbad hlands hm]
  by_cases hcancelled : CancelledIn m s
  · have hkept : Kept guard s ↔ Refused guard s := by
      refine and_iff_right_of_imp fun hrefused => hguard s hrefused ?_
      -- behind checks that refuse nothing more happens
      rcases hrun : guard s with ⟨e | ⟨⟩, s₁⟩
      · rw [CancelledIn, hm, Program.run_bind_error hrun] at hcancelled
        exact hcancelled
      · rw [hrun] at hrefused
        cases hrefused
    rw [hkept]
  · exact iff_of_true (.inl hcancelled) (.inl hcancelled)

/-- Checks that write no state are left in the state Cancelled when they are entered in it, or
when `cancel` is called in them. -/
theorem Leaves.kept_iff (h : Leaves guard) (s : WatchedSession W) :
    Kept guard s ↔
      Refused guard s ∧ (s.session.state = .cancelled ∨ CancelledIn guard s) := by
  rw [Kept, and_comm]
  refine and_congr_right fun _ => ?_
  rcases h s with ⟨hcancels, hstate⟩ | ⟨hcancels, hstate⟩
  · rw [hstate, CancelledIn, hcancels]
    simp
  · exact iff_of_true hstate (.inr hcancels)

end Guarded

/-! ## The lifecycle -/

theorem disconnect_returns : Returns (disconnect company) := by
  intro s
  rw [disconnect, Program.run_bind_ok (Program.run_get s)]
  by_cases hleft : s.session.state = .disconnected ∨ s.session.state = .finished
  · rw [if_pos hleft]
    rfl
  rw [if_neg hleft]
  have hclose : Returns (close company) := by
    unfold close
    cases company.flashDevice with
    | none => exact fun _ => rfl
    | some device => exact call_returns _
  exact Returns.bind (call_returns _) (fun _ => Returns.bind (fun _ => rfl) fun _ =>
    Returns.bind hclose fun _ => Returns.bind (setState_returns company _) fun _ =>
      call_returns _) s

/-- The connection is refused or fails, and its last state is Cancelled: the checks found it so,
or `cancel` is called in them or after the state is set to Error. -/
def ConnectedLate (s : WatchedSession W) : Prop :=
  ¬ (s.session.state = .ready ∨ s.session.state = .connected) ∧
    (Refused (checkConnect company) s ∧
        (s.session.state = .cancelled ∨ CancelledIn (checkConnect company) s) ∨
      CancelledLate (checkConnect company)
        (begin company .connecting "connect" (openDevice company)) (connectFailed company) s)

theorem connect_kept_iff (s : WatchedSession W) :
    Kept (connect company) s ↔ ConnectedLate company s := by
  by_cases h : s.session.state = .ready ∨ s.session.state = .connected
  · have hdone : connect company s = (.ok (), s) := by
      rw [connect, Program.run_bind_ok (Program.run_get s), if_pos h]
      rfl
    rw [Kept, hdone, ConnectedLate]
    simp [h, Except.isOk, Except.toBool]
  · have hkept : Kept (checkConnect company >>= fun _ =>
        begin company .connecting "connect" (openDevice company) >>=
          conclude (fun _ => connected company) (connectFailed company)) s ↔ _ :=
      guarded_kept_iff (begin_returns company .connecting "connect" (openDevice company))
        (fun _ => connected_returns company) (connectFailed_returns company)
        (connectFailed_lands company) rfl s
    rw [(checkConnect_leaves company).kept_iff] at hkept
    rw [ConnectedLate, ← hkept, Kept, Kept, connect, Program.run_bind_ok (Program.run_get s),
      if_neg h]
    exact (and_iff_right h).symm

/-- The connection ends in the state Cancelled, or it fails and `cancel` is called when that is
announced. -/
def ReconnectedLate (s : WatchedSession W) : Prop :=
  ∃ s₁, beginReconnect company s = (.ok (), s₁) ∧
    (ConnectedLate company s₁ ∨
      ∃ e s₂, connect company s₁ = (.error e, s₂) ∧
        CancelledIn (announce company (.operationFinished "reconnect" false)) s₂)

theorem reconnect_kept_iff (s : WatchedSession W) :
    Kept (reconnect company) s ↔ ReconnectedLate company s := by
  have hbegins : Returns (beginReconnect company) :=
    Returns.bind (disconnect_returns company) fun _ => call_returns _
  have hbegin := hbegins s
  unfold ReconnectedLate
  rw [Kept, reconnect, Program.run_bind]
  rcases hrun : beginReconnect company s with ⟨e | ⟨⟩, s₁⟩
  · rw [hrun] at hbegin
    cases hbegin
  have hconnected := connect_kept_iff company s₁
  rcases hconnect : connect company s₁ with ⟨result, s₂⟩
  have hattempt : Program.attempt (connect company) s₁ = (.ok result, s₂) := by
    rw [Program.run_attempt, hconnect]
  simp only [Program.run_bind_ok hattempt, Program.run_bind]
  rw [Kept, hconnect] at hconnected
  have htold := call_returns (company.notify (.operationFinished "reconnect" result.isOk)) s₂
  have hleaves := call_leaves (company.notify (.operationFinished "reconnect" result.isOk)) s₂
  rcases hannounce : announce company (.operationFinished "reconnect" result.isOk) s₂
    with ⟨e | ⟨⟩, s₃⟩
  · rw [← announce, hannounce] at htold
    cases htold
  rw [← announce, hannounce] at hleaves
  simp only [Program.run_ofExcept]
  constructor
  · rintro ⟨hstate, hfails⟩
    refine ⟨s₁, rfl, ?_⟩
    cases result with
    | ok => cases hfails
    | error e =>
      rcases hleaves with ⟨-, hkept⟩ | ⟨hgrown, -⟩
      · exact .inl (hconnected.mp ⟨hkept.symm.trans hstate, rfl⟩)
      · refine .inr ⟨e, s₂, hconnect, ?_⟩
        unfold CancelledIn
        rw [show announce company (.operationFinished "reconnect" false) s₂ = _ from hannounce]
        exact hgrown
  · rintro ⟨s₁', hbegun, hlate⟩
    obtain ⟨-, rfl⟩ := Prod.mk.inj hbegun
    rcases hlate with hlate | ⟨e, s₂', hconnect', hgrown⟩
    · obtain ⟨hcancelled, hfails⟩ := hconnected.mpr hlate
      refine ⟨?_, hfails⟩
      rcases hleaves with ⟨-, hkept⟩ | ⟨-, hstate⟩
      · exact hkept.trans hcancelled
      · exact hstate
    · rw [hconnect] at hconnect'
      obtain ⟨rfl, rfl⟩ := Prod.mk.inj hconnect'
      refine ⟨?_, rfl⟩
      rcases hleaves with ⟨hcancels, -⟩ | ⟨-, hstate⟩
      · unfold CancelledIn at hgrown
        rw [show announce company (.operationFinished "reconnect" false) s₂ = _ from hannounce]
          at hgrown
        rw [hcancels] at hgrown
        exact absurd hgrown (Nat.lt_irrefl _)
      · exact hstate

theorem retry_kept_iff {s : WatchedSession W} (hstate : s.session.state = .error) :
    Kept (retry company) s ↔
      ∃ s₁, beginRetry company s = (.ok (), s₁) ∧ ReconnectedLate company s₁ := by
  have hchecked : onSession (Program.failIf (·.state ≠ .error) .invalidState) s
      = (.ok (), s) := by
    rw [onSession, Program.run_zoom, Program.run_failIf]
    simp [hstate]
  have hbegins : Returns (beginRetry company) :=
    Returns.bind (call_returns _) fun _ _ => rfl
  have hbegin := hbegins s
  unfold Kept
  rw [retry, Program.run_bind_ok hchecked]
  rcases hrun : beginRetry company s with ⟨e | ⟨⟩, s₁⟩
  · rw [hrun] at hbegin
    cases hbegin
  rw [Program.run_bind_ok hrun]
  constructor
  · intro hkept
    exact ⟨s₁, rfl, (reconnect_kept_iff company s₁).mp hkept⟩
  · rintro ⟨s₁', hbegun, hlate⟩
    obtain ⟨-, rfl⟩ := Prod.mk.inj hbegun
    exact (reconnect_kept_iff company s₁).mpr hlate

theorem execute_sticks_iff (job : Job W α) (s : WatchedSession W) :
    Sticks (execute company job) s ↔ ¬ CancelledIn (execute company job) s ∨
      Refused (checkOperation company) s ∨
        CancelledLate (checkOperation company)
          (begin company job.busyState job.operationName job.operation) (failed company job) s :=
  guarded_sticks_iff (checkOperation_refuses company)
    (begin_returns company job.busyState job.operationName job.operation)
    (succeeded_returns company job) (failed_returns company job) (failed_lands company job) rfl s

theorem connect_sticks_iff {s : WatchedSession W}
    (h : ¬ (s.session.state = .ready ∨ s.session.state = .connected)) :
    Sticks (connect company) s ↔ ¬ CancelledIn (connect company) s ∨
      Refused (checkConnect company) s ∨
        CancelledLate (checkConnect company)
          (begin company .connecting "connect" (openDevice company)) (connectFailed company) s := by
  have hm := guarded_sticks_iff (checkConnect_leaves company).refuses
    (begin_returns company .connecting "connect" (openDevice company))
    (fun _ => connected_returns company) (connectFailed_returns company)
    (connectFailed_lands company) rfl s
  unfold Sticks CancelledIn at hm ⊢
  rw [connect, Program.run_bind_ok (Program.run_get s), if_neg h]
  exact hm

end WatchedSession

open WatchedSession

variable {W : Type} {α : Type}

/-- Where the call is refused at its checks, or it fails and `cancel` is called after it has
written the state for the last time. -/
def ReportedCall.Heeds (company : Company W) {α : Type} :
    ReportedCall α → WatchedSession W → Prop
  | connect, s =>
    ¬ (s.session.state = .ready ∨ s.session.state = .connected) ∧
      (Refused (checkConnect company) s ∨
        CancelledLate (checkConnect company)
          (begin company .connecting "connect" (openDevice company)) (connectFailed company) s)
  | reconnect, s => ReconnectedLate company s
  | retry, s => s.session.state ≠ .error ∨
      ∃ s₁, beginRetry company s = (.ok (), s₁) ∧ ReconnectedLate company s₁
  | reset, _ => False
  | onDevice call, s => ∃ device, company.flashDevice = some device ∧
      (Refused (checkOperation company) s ∨
        CancelledLate (checkOperation company)
          (begin company (call.job device).busyState (call.job device).operationName
            (call.job device).operation)
          (failed company (call.job device)) s)

/-- A call without a cancellation in it. -/
theorem sticks_of_unchanged {m : WatchedSession.Method W α} {s : WatchedSession W}
    (h : (m s).2 = s) : ¬ CancelledIn m s := by
  unfold CancelledIn
  rw [h]
  exact Nat.lt_irrefl _

/-- Whoever is around, whatever they do and from every state. -/
theorem ReportedCall.sticks_iff (company : Company W) (call : ReportedCall α)
    (s : WatchedSession W) :
    Sticks (call.method company) s ↔
      ¬ CancelledIn (call.method company) s ∨ call.Heeds company s := by
  cases call with
  | connect =>
    by_cases hconnected : s.session.state = .ready ∨ s.session.state = .connected
    · have hnone : ¬ CancelledIn (connect.method company) s := by
        refine sticks_of_unchanged ?_
        rw [ReportedCall.method, WatchedSession.connect,
          Program.run_bind_ok (Program.run_get s), if_pos hconnected]
        rfl
      exact ⟨fun _ => .inl hnone, fun _ hcancelled => absurd hcancelled hnone⟩
    · have hiff := connect_sticks_iff company hconnected
      simp only [ReportedCall.method, ReportedCall.Heeds, hconnected, not_false_eq_true, true_and]
      exact hiff
  | reconnect =>
    rw [sticks_iff_kept]
    exact or_congr_right (reconnect_kept_iff company s)
  | retry =>
    by_cases hstate : s.session.state = .error
    · rw [sticks_iff_kept]
      simp only [ReportedCall.method, ReportedCall.Heeds, hstate, ne_eq, not_true_eq_false,
        false_or]
      exact or_congr_right (retry_kept_iff company hstate)
    · have hnone : ¬ CancelledIn (retry.method company) s := by
        refine sticks_of_unchanged ?_
        have hrefused : onSession (Program.failIf (·.state ≠ .error) .invalidState) s
            = (.error .invalidState, s) := by
          rw [onSession, Program.run_zoom, Program.run_failIf]
          simp [hstate]
        rw [ReportedCall.method, WatchedSession.retry, Program.run_bind_error hrefused]
      exact ⟨fun _ => .inl hnone, fun _ hcancelled => absurd hcancelled hnone⟩
  | reset =>
    rw [sticks_iff_kept]
    refine or_congr_right ⟨?_, False.elim⟩
    rintro ⟨-, hfails⟩
    have hreturns := disconnect_returns company s
    rw [ReportedCall.method, WatchedSession.reset, hreturns] at hfails
    cases hfails
  | onDevice call =>
    cases hdevice : company.flashDevice with
    | none =>
      have hnone : ¬ CancelledIn ((onDevice call).method company) s := by
        refine sticks_of_unchanged ?_
        rw [ReportedCall.method, DeviceCall.method, hdevice]
        rfl
      exact ⟨fun _ => .inl hnone, fun _ hcancelled => absurd hcancelled hnone⟩
    | some device =>
      have hmethod : (onDevice call).method company = execute company (call.job device) := by
        rw [ReportedCall.method, DeviceCall.method, hdevice]
      rw [hmethod]
      have hiff := execute_sticks_iff company (call.job device) s
      simp only [ReportedCall.Heeds, hdevice, Option.some.injEq, exists_eq_left']
      exact hiff

/-- A device that is cancelled in every call, and goes through with it. -/
def stubbornDevice : WatchedDevice Unit where
  openDevice _ := (.ok (), (), true)
  close _ := ((), (), true)
  readMemory _ _ _ := (.ok [], (), true)
  writeMemory _ _ _ := (.ok (), (), true)
  eraseMemory _ _ _ := (.ok (), (), true)
  readPartition _ _ := (.ok [], (), true)
  writePartition _ _ _ := (.ok (), (), true)
  erasePartition _ _ := (.ok (), (), true)
  reset _ := (.ok (), (), true)

/-- The session is ready again after a read that was cancelled, and the read succeeded. -/
theorem readMemory_overwrites :
    let company : Company Unit := ⟨some stubbornDevice, fun _ _ _ => ((), (), false),
      fun _ _ => ((), (), false)⟩
    let outcome := (ReportedCall.onDevice (.readMemory 0 16)).method company
      ⟨{ device := (), state := .ready }, 0⟩
    outcome.2.cancels = 1 ∧ outcome.2.session.state = .ready ∧ outcome.1.isOk = true ∧
      ¬ Sticks ((ReportedCall.onDevice (.readMemory 0 16)).method company)
        ⟨{ device := (), state := .ready }, 0⟩ := by
  intro company outcome
  have hstate : outcome.2.session.state = .ready := by decide
  have hcancelled : outcome.2.cancels = 1 := by decide
  refine ⟨hcancelled, hstate, by decide, fun hsticks => ?_⟩
  have hin : 0 < outcome.2.cancels := Nat.lt_of_lt_of_eq Nat.one_pos hcancelled.symm
  have hkept := (hsticks hin).1
  exact absurd (hstate.symm.trans hkept) (by decide)

end MBootCore.Session
