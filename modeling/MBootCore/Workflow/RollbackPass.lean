import MBootCore.Workflow.StepLog
import Mathlib.Data.List.Perm.Basic

/-!
# Workflow — RollbackPass

What a rollback after a run owes to the steps: those whose execution succeeded
in the run and that were not rolled back since are to be rolled back, the last
one first, and those whose rollback fails are to be left to the next rollback.

`rollback` goes by the completed steps before the current one instead, which are
the same steps under `Undoable` only.
-/

namespace MBootCore.Workflow

/-- The steps executed and not rolled back since, in the order of execution. -/
def StepEvent.settle (steps : List Nat) : StepEvent → List Nat
  | executed index => steps.filter (· ≠ index) ++ [index]
  | skipped _ => steps
  | rolledBack index (.ok ()) => steps.filter (· ≠ index)
  | rolledBack _ (.error _) => steps

def outstanding (events : List StepEvent) : List Nat := events.foldl StepEvent.settle []

/-- The steps asked to roll back. -/
def rolledBackSteps (events : List StepEvent) : List Nat :=
  events.filterMap fun
    | .rolledBack index _ => some index
    | _ => none

theorem outstanding_append (events more : List StepEvent) :
    outstanding (events ++ more) = more.foldl StepEvent.settle (outstanding events) :=
  List.foldl_append

namespace WorkflowEngine

variable {σ : Type} {w : Surroundings σ} {e e' : WorkflowEngine σ}

/-! ## One pass of rollbacks -/

/-- What the given steps answer when they are rolled back one after the other. -/
def pass (w : Surroundings σ) : List Nat → σ → List (Nat × Answer σ)
  | [], _ => []
  | index :: rest, world =>
    (index, w.rollback index world) :: pass w rest (w.rollback index world).world

/-- The error of the last rollback that fails. -/
def passError (answers : List (Nat × Answer σ)) (lastError : ErrorCode) : ErrorCode :=
  answers.foldl (fun lastError answer =>
    match answer.2.result with
    | .error error => error
    | .ok () => lastError) lastError

def passCancelled (answers : List (Nat × Answer σ)) : Bool :=
  answers.any fun answer => .cancel ∈ answer.2.requests

def passEvents (answers : List (Nat × Answer σ)) : List StepEvent :=
  answers.map fun answer => .rolledBack answer.1 answer.2.result

/-- The completed steps before `count`, the last one first. -/
def targets (e : WorkflowEngine σ) (count : Nat) : List Nat :=
  ((List.range count).filter e.completed).reverse

theorem targets_succ (e : WorkflowEngine σ) (count : Nat) :
    e.targets (count + 1)
      = if e.completed count then count :: e.targets count else e.targets count := by
  by_cases h : e.completed count = true <;>
    simp [targets, List.range_succ, List.filter_append, h]

theorem mem_targets {count index : Nat} :
    index ∈ e.targets count ↔ index < count ∧ e.completed index = true := by
  simp [targets]

theorem rolledBackSteps_pass (indices : List Nat) (world : σ) :
    rolledBackSteps (passEvents (pass w indices world)) = indices := by
  induction indices generalizing world with
  | nil => rfl
  | cons index rest ih =>
    have hrest := ih (w.rollback index world).world
    simpa [rolledBackSteps, passEvents, pass] using hrest

/-- What a pass of rollbacks leaves. -/
structure Undone (e e' : WorkflowEngine σ) (answers : List (Nat × Answer σ)) : Prop where
  steps : e'.steps = e.steps
  current : e'.currentStepIndex = e.currentStepIndex
  log : e'.log = e.log ++ passEvents answers
  state : e'.state = if passCancelled answers then .cancelled else e.state

/-- No step of the workflow runs. -/
def Idle (e : WorkflowEngine σ) : Prop := e.state ≠ .running ∧ e.state ≠ .paused

theorem state_request (h : e.Idle) (request : Request) :
    (e.request request).state = if request = .cancel then .cancelled else e.state := by
  cases request with
  | cancel => rfl
  | pause => rw [WorkflowEngine.request, pause, if_pos h.1, if_neg (by decide)]
  | resume => rw [WorkflowEngine.request, resume, if_pos h.2, if_neg (by decide)]

theorem Idle.request (h : e.Idle) (request : Request) : (e.request request).Idle := by
  rw [Idle, state_request h]
  split
  · decide
  · exact h

theorem state_requests (h : e.Idle) (requests : List Request) :
    (requests.foldl WorkflowEngine.request e).state
      = if .cancel ∈ requests then .cancelled else e.state := by
  induction requests generalizing e with
  | nil => rfl
  | cons request requests ih =>
    rw [List.foldl_cons, ih (h.request request), state_request h]
    by_cases hcancel : request = .cancel
    · simp [hcancel]
    · simp [hcancel, Ne.symm hcancel]

theorem frame_requests (requests : List Request) (e : WorkflowEngine σ) :
    (requests.foldl WorkflowEngine.request e).steps = e.steps ∧
      (requests.foldl WorkflowEngine.request e).world = e.world := by
  induction requests generalizing e with
  | nil => exact ⟨rfl, rfl⟩
  | cons request requests ih =>
    rw [List.foldl_cons, (ih _).1, (ih _).2]
    cases request with
    | cancel => exact ⟨rfl, rfl⟩
    | pause =>
      rw [WorkflowEngine.request, pause]
      split <;> exact ⟨rfl, rfl⟩
    | resume =>
      rw [WorkflowEngine.request, resume]
      split <;> exact ⟨rfl, rfl⟩

namespace Undone

variable {answers more : List (Nat × Answer σ)} {e'' : WorkflowEngine σ}

theorem targets (h : Undone e e' answers) (count : Nat) : e'.targets count = e.targets count := by
  unfold WorkflowEngine.targets completed
  rw [h.steps]

theorem idle (h : Undone e e' answers) (he : e.Idle) : e'.Idle := by
  rw [Idle, h.state]
  split
  · decide
  · exact he

theorem append (h : Undone e e' answers) (h' : Undone e' e'' more) :
    Undone e e'' (answers ++ more) where
  steps := h'.steps.trans h.steps
  current := h'.current.trans h.current
  log := by simp [h'.log, h.log, passEvents]
  state := by
    have happend : passCancelled (answers ++ more)
        = (passCancelled answers || passCancelled more) :=
      List.any_append
    rw [h'.state, h.state, happend]
    cases passCancelled answers <;> cases passCancelled more <;> rfl

end Undone

theorem undone_rollbackStep (h : e.Idle) {index : Nat} (hcompleted : e.completed index = true)
    (lastError : ErrorCode) :
    Undone e (rollbackStep w index lastError e).2 [(index, w.rollback index e.world)] ∧
      (rollbackStep w index lastError e).1
        = passError [(index, w.rollback index e.world)] lastError ∧
      (rollbackStep w index lastError e).2.world = (w.rollback index e.world).world := by
  let asked : WorkflowEngine σ := { e with world := (w.rollback index e.world).world }
  have hframe := frame_requests (w.rollback index e.world).requests asked
  have hlogs := logs_requests (w.rollback index e.world).requests asked
  have hstate := state_requests (e := asked) h (w.rollback index e.world).requests
  have hlog := hlogs.log
  rw [List.append_nil] at hlog
  rw [rollbackStep, if_pos hcompleted]
  simp only [ask]
  cases hresult : (w.rollback index e.world).result with
  | ok =>
    refine ⟨⟨hframe.1, hlogs.current, ?_, ?_⟩, ?_, hframe.2⟩
    · simp [record, countRollback, passEvents, hresult, hlog, asked]
    · simpa [record, countRollback, passCancelled, asked] using hstate
    · simp [passError, hresult]
  | error error =>
    refine ⟨⟨hframe.1, hlogs.current, ?_, ?_⟩, ?_, hframe.2⟩
    · simp [record, countError, passEvents, hresult, hlog, asked]
    · simpa [record, countError, passCancelled, asked] using hstate
    · simp [passError, hresult]

/-- `rollbackSteps` asks the completed steps, the last one first. -/
theorem undone_rollbackSteps (h : e.Idle) (count : Nat) (lastError : ErrorCode) :
    Undone e (rollbackSteps w count lastError e).2 (pass w (e.targets count) e.world) ∧
      (rollbackSteps w count lastError e).1
        = passError (pass w (e.targets count) e.world) lastError := by
  induction count generalizing e lastError with
  | zero => exact ⟨⟨rfl, rfl, (List.append_nil _).symm, rfl⟩, rfl⟩
  | succ count ih =>
    rw [targets_succ, rollbackSteps]
    by_cases hcompleted : e.completed count = true
    · obtain ⟨hstep, herror, hworld⟩ := undone_rollbackStep (w := w) h hcompleted lastError
      obtain ⟨hrest, hrestError⟩ := ih (hstep.idle h) (rollbackStep w count lastError e).1
      rw [hstep.targets, hworld] at hrest hrestError
      rw [if_pos hcompleted, pass]
      refine ⟨hstep.append hrest, ?_⟩
      rw [hrestError, herror]
      rfl
    · rw [if_neg hcompleted, rollbackStep, if_neg hcompleted]
      exact ih h lastError

/-- What a rollback leaves that is carried out. -/
theorem rollback_undone (haccepted : e.state = .failed ∨ e.state = .cancelled) :
    let answers := pass w (e.targets e.currentStepIndex) e.world
    (e.rollback w).2.steps = e.steps ∧
      (e.rollback w).2.currentStepIndex = e.currentStepIndex ∧
      (e.rollback w).2.log = e.log ++ passEvents answers ∧
      (e.rollback w).2.state
        = if passError answers .success = .success then .ready
          else if passCancelled answers = true then .cancelled else .rollingBack := by
  intro answers
  let rolling : WorkflowEngine σ := { e with state := .rollingBack }
  have hidle : rolling.Idle := ⟨nofun, nofun⟩
  obtain ⟨hundone, herror⟩ :=
    undone_rollbackSteps (w := w) hidle e.currentStepIndex .success
  have hrefused : ¬ (e.state ≠ .failed ∧ e.state ≠ .cancelled) :=
    fun h => haccepted.elim h.1 h.2
  rw [rollback, if_neg hrefused]
  rcases hr : rollbackSteps w e.currentStepIndex .success rolling with ⟨lastError, e₁⟩
  rw [hr] at hundone herror
  have hlast : lastError = passError answers .success := herror
  by_cases hfailed : passError answers .success = .success
  · rw [if_pos hfailed]
    simp only [hlast, hfailed, ne_eq, not_true_eq_false, if_false]
    exact ⟨hundone.steps, hundone.current, hundone.log, trivial⟩
  · rw [if_neg hfailed]
    simp only [hlast, ne_eq, hfailed, not_false_eq_true, if_true]
    exact ⟨hundone.steps, hundone.current, hundone.log, hundone.state⟩

/-- The steps a rollback asks are those before the current one that are completed. -/
theorem rolledBackSteps_rollback (haccepted : e.state = .failed ∨ e.state = .cancelled) :
    rolledBackSteps ((e.rollback w).2.log.drop e.log.length)
      = e.targets e.currentStepIndex := by
  rw [(rollback_undone haccepted).2.2.1, List.drop_left, rolledBackSteps_pass]

/-! ## The steps executed in a run -/

theorem AllRolledBack.settle_sublist {events : List StepEvent} (h : AllRolledBack events)
    (steps : List Nat) : (events.foldl StepEvent.settle steps).Sublist steps := by
  induction events generalizing steps with
  | nil => exact .refl steps
  | cons event events ih =>
    have hrest := ih fun event hevent => h event (List.mem_cons_of_mem _ hevent)
    obtain ⟨index, result, rfl⟩ := h event List.mem_cons_self
    cases result with
    | ok => exact (hrest _).trans List.filter_sublist
    | error => exact hrest _

/-- The steps executed since `base`, in order, are completed and before `bound`. -/
def ExecutedSince (base : List StepEvent) (bound : Nat) (e : WorkflowEngine σ) : Prop :=
  ∃ events, e.log = base ++ events ∧ (outstanding events).Pairwise (· < ·) ∧
    ∀ index ∈ outstanding events, index < bound ∧ e.completed index = true

namespace ExecutedSince

variable {base : List StepEvent} {bound index : Nat}

theorem start (e : WorkflowEngine σ) (bound : Nat) : ExecutedSince e.log bound e :=
  ⟨[], (List.append_nil _).symm, .nil, by simp [outstanding]⟩

theorem mono {bound' : Nat} (h : ExecutedSince base bound e) (hbound : bound ≤ bound') :
    ExecutedSince base bound' e := by
  obtain ⟨events, hlog, hsorted, hbefore⟩ := h
  exact ⟨events, hlog, hsorted, fun i hi => ⟨Nat.lt_of_lt_of_le (hbefore i hi).1 hbound,
    (hbefore i hi).2⟩⟩

theorem logs {more : List StepEvent} (h : ExecutedSince base bound e)
    (hmore : AllRolledBack more) (hlogs : Logs { e with currentStepIndex := index } e' more) :
    ExecutedSince base bound e' := by
  obtain ⟨events, hlog, hsorted, hbefore⟩ := h
  have hkept := hmore.settle_sublist (outstanding events)
  refine ⟨events ++ more, ?_, ?_, ?_⟩
  · rw [hlogs.log, hlog, List.append_assoc]
  · rw [outstanding_append]
    exact hsorted.sublist hkept
  · rw [outstanding_append]
    intro i hi
    have hold := hbefore i (hkept.subset hi)
    exact ⟨hold.1, hlogs.completed hold.2⟩

theorem quiet (h : ExecutedSince base bound e) (hlogs : Logs e e' []) :
    ExecutedSince base bound e' :=
  have hnone : AllRolledBack [] := by simp [AllRolledBack]
  have hset : Logs { e with currentStepIndex := e.currentStepIndex } e' [] := hlogs
  h.logs hnone hset

theorem snoc {event : StepEvent} (h : ExecutedSince base index e)
    (hevent : event = .executed index ∨ event = .skipped index)
    (hlogs : Logs { e with currentStepIndex := index } e' [event])
    (hcompleted : e'.completed index = true) : ExecutedSince base (index + 1) e' := by
  obtain ⟨events, hlog, hsorted, hbefore⟩ := h
  refine ⟨events ++ [event], by rw [hlogs.log, hlog, List.append_assoc], ?_⟩
  rw [outstanding_append]
  rcases hevent with rfl | rfl
  · have hfilter : (outstanding events).filter (· ≠ index) = outstanding events :=
      List.filter_eq_self.mpr fun i hi => by
        have hlt := (hbefore i hi).1
        simpa using Nat.ne_of_lt hlt
    simp only [List.foldl_cons, List.foldl_nil, StepEvent.settle, hfilter]
    refine ⟨List.pairwise_append.mpr ⟨hsorted, List.pairwise_singleton _ _, ?_⟩, ?_⟩
    · intro i hi j hj
      rw [List.mem_singleton.mp hj]
      exact (hbefore i hi).1
    · intro i hi
      rcases List.mem_append.mp hi with hi | hi
      · exact ⟨Nat.lt_succ_of_lt (hbefore i hi).1, hlogs.completed (hbefore i hi).2⟩
      · rw [List.mem_singleton.mp hi]
        exact ⟨Nat.lt_succ_self index, hcompleted⟩
  · refine ⟨hsorted, fun i hi => ?_⟩
    exact ⟨Nat.lt_succ_of_lt (hbefore i hi).1, hlogs.completed (hbefore i hi).2⟩

end ExecutedSince

theorem executedSince_runSteps {base : List StepEvent} {index count : Nat}
    (h : ExecutedSince base index e) (hcurrent : index ≤ e.currentStepIndex + 1)
    (hin : ∀ i ∈ List.range' index count, i < e.steps.length) :
    ExecutedSince base ((runSteps w (List.range' index count) e).2.currentStepIndex + 1)
      (runSteps w (List.range' index count) e).2 := by
  induction count generalizing index e with
  | zero =>
    rw [List.range'_zero, runSteps]
    have hlogs : Logs e e.finish.2 [] := logs_finish e
    rw [hlogs.current]
    exact (h.mono hcurrent).quiet hlogs
  | succ count ih =>
    rw [List.range'_succ] at hin ⊢
    have hpass := passes (w := w) index (List.range' (index + 1) count) e
    generalize runSteps w (index :: _) e = r at hpass ⊢
    have hrest : ∀ {e₁ events}, Logs { e with currentStepIndex := index } e₁ events →
        index + 1 ≤ e₁.currentStepIndex + 1 ∧
          ∀ i ∈ List.range' (index + 1) count, i < e₁.steps.length := by
      intro e₁ events hlogs
      rw [hlogs.current, hlogs.count]
      exact ⟨Nat.le_refl _, fun i hi => hin i (List.mem_cons_of_mem _ hi)⟩
    cases hpass with
    | cancelled hlogs =>
      rw [hlogs.current]
      exact (h.mono hcurrent).quiet hlogs
    | done hevent hlogs hcompleted =>
      have hdone := h.snoc hevent hlogs (hcompleted (hin index List.mem_cons_self))
      exact ih hdone (hrest hlogs).1 (hrest hlogs).2
    | @continued e₁ _ result hevents hlogs =>
      have hnext : ExecutedSince base (index + 1) { e₁.countWarning with result } :=
        (h.logs hevents hlogs).mono (Nat.le_succ _)
      exact ih hnext (hrest hlogs).1 (hrest hlogs).2
    | failed hevents hlogs =>
      have hcurrent := hlogs.current
      simp only at hcurrent
      rw [hcurrent]
      exact (h.logs hevents hlogs).mono (Nat.le_succ _)

theorem executedSince_runPrepared {base : List StepEvent}
    (h : ∀ bound, ExecutedSince base bound e) :
    ExecutedSince base ((e.runPrepared w).2.currentStepIndex + 1) (e.runPrepared w).2 := by
  rw [runPrepared]
  split
  · exact h _
  · split
    · exact (h _).quiet (.of_same rfl)
    · refine executedSince_runSteps ((h _).quiet (.of_same rfl)) (Nat.le_succ _) fun i hi => ?_
      have hi := List.mem_range'_1.mp hi
      exact (by omega : i < e.steps.length)

theorem executedSince_run (e : WorkflowEngine σ) :
    ExecutedSince e.log ((e.run w).2.currentStepIndex + 1) (e.run w).2 := by
  have hstart := ExecutedSince.start e
  rw [run]
  split
  · have hprepare := logs_prepare (w := w) e
    rcases hr : e.prepare w with ⟨_ | _, e₁⟩ <;> rw [hr] at hprepare
    · exact (hstart _).quiet hprepare
    · exact executedSince_runPrepared fun bound => (hstart bound).quiet hprepare
  · exact executedSince_runPrepared hstart

/-! ## The rollback after a run -/

/-- The rollback after the given events asks exactly the steps that are owed one,
the last one first, and leaves those that fail to the next rollback. -/
structure RollsBackRun (w : Surroundings σ) (events : List StepEvent) (e : WorkflowEngine σ) :
    Prop where
  complete : rolledBackSteps ((e.rollback w).2.log.drop e.log.length) = (outstanding events).reverse
  retried : ∀ undone, (e.rollback w).2.log = e.log ++ undone →
    (∃ index error, .rolledBack index (.error error) ∈ undone) →
    ((e.rollback w).2.state = .failed ∨ (e.rollback w).2.state = .cancelled) ∧
      rolledBackSteps (((e.rollback w).2.rollback w).2.log.drop (e.rollback w).2.log.length)
        = (outstanding (events ++ undone)).reverse

/-- The completed steps before the current one are those owed a rollback, and
their rollbacks all succeed, or all fail while `cancel` is called. -/
structure Undoable (w : Surroundings σ) (events : List StepEvent) (e : WorkflowEngine σ) :
    Prop where
  current : e.currentStepIndex ∉ outstanding events
  executed : ∀ index < e.currentStepIndex, e.completed index = true → index ∈ outstanding events
  answers : let answers := pass w (outstanding events).reverse e.world
    (∀ answer ∈ answers, answer.2.result = .ok ()) ∨
      (∀ answer ∈ answers, answer.2.result ≠ .ok ()) ∧ passCancelled answers = true ∧
        passError answers .success ≠ .success

/-- The steps a rollback asks are those owed one under two conditions. -/
theorem targets_eq_iff {steps : List Nat} (hsorted : steps.Pairwise (· < ·))
    (hbefore : ∀ index ∈ steps, index < e.currentStepIndex + 1 ∧ e.completed index = true) :
    e.targets e.currentStepIndex = steps.reverse ↔
      e.currentStepIndex ∉ steps ∧
        ∀ index < e.currentStepIndex, e.completed index = true → index ∈ steps := by
  constructor
  · intro heq
    have hmem : ∀ index, index ∈ steps ↔ index < e.currentStepIndex ∧ e.completed index = true :=
      fun index => by rw [← mem_targets, heq, List.mem_reverse]
    refine ⟨fun h => ?_, fun index hindex hcompleted => (hmem index).mpr ⟨hindex, hcompleted⟩⟩
    exact Nat.lt_irrefl _ ((hmem _).mp h).1
  · rintro ⟨hcurrent, hexecuted⟩
    have hrange : ((List.range e.currentStepIndex).filter e.completed).Pairwise (· < ·) :=
      List.pairwise_lt_range.filter _
    have hperm : ((List.range e.currentStepIndex).filter e.completed).Perm steps := by
      refine (List.perm_ext_iff_of_nodup (hrange.imp Nat.ne_of_lt)
        (hsorted.imp Nat.ne_of_lt)).mpr fun index => ?_
      rw [List.mem_filter, List.mem_range]
      constructor
      · exact fun h => hexecuted index h.1 h.2
      · intro h
        have hne : index ≠ e.currentStepIndex := fun heq => hcurrent (heq ▸ h)
        have hle := (hbefore index h).1
        exact ⟨by omega, (hbefore index h).2⟩
    rw [targets, hperm.eq_of_pairwise (fun _ _ _ _ h h' => absurd h (Nat.lt_asymm h'))
      hrange hsorted]

theorem settle_of_failed {answers : List (Nat × Answer σ)} (steps : List Nat)
    (h : ∀ answer ∈ answers, answer.2.result ≠ .ok ()) :
    (passEvents answers).foldl StepEvent.settle steps = steps := by
  induction answers with
  | nil => rfl
  | cons answer answers ih =>
    have hfailed := h answer List.mem_cons_self
    rw [passEvents, List.map_cons, List.foldl_cons]
    cases hresult : answer.2.result with
    | ok => exact absurd hresult hfailed
    | error => exact ih fun answer hanswer => h answer (List.mem_cons_of_mem _ hanswer)

theorem allRolledBack_passEvents (answers : List (Nat × Answer σ)) :
    AllRolledBack (passEvents answers) := by
  intro event hevent
  obtain ⟨answer, -, rfl⟩ := List.mem_map.mp hevent
  exact ⟨_, _, rfl⟩

/-- A step that was rolled back is owed no rollback any more. -/
theorem notMem_settle {answers : List (Nat × Answer σ)} {answer : Nat × Answer σ}
    (hanswer : answer ∈ answers) (hok : answer.2.result = .ok ()) (steps : List Nat) :
    answer.1 ∉ (passEvents answers).foldl StepEvent.settle steps := by
  induction answers generalizing steps with
  | nil => cases hanswer
  | cons first answers ih =>
    rw [passEvents, List.map_cons, List.foldl_cons]
    rcases List.mem_cons.mp hanswer with rfl | hrest
    · intro hmem
      have hsettled := (allRolledBack_passEvents answers).settle_sublist _ |>.subset hmem
      simp [StepEvent.settle, hok] at hsettled
    · exact ih hrest _

theorem mem_pass {indices : List Nat} {world : σ} {answer : Nat × Answer σ}
    (h : answer ∈ pass w indices world) : answer.1 ∈ indices := by
  have hmem : answer.1 ∈ rolledBackSteps (passEvents (pass w indices world)) :=
    List.mem_filterMap.mpr ⟨_, List.mem_map_of_mem h, rfl⟩
  rwa [rolledBackSteps_pass] at hmem

theorem rollsBackRun_iff_undoable {events : List StepEvent}
    (haccepted : e.state = .failed ∨ e.state = .cancelled)
    (hsorted : (outstanding events).Pairwise (· < ·))
    (hbefore : ∀ index ∈ outstanding events,
      index < e.currentStepIndex + 1 ∧ e.completed index = true) :
    RollsBackRun w events e ↔ Undoable w events e := by
  obtain ⟨hsteps, hcurrent, hlog, hstate⟩ := rollback_undone (w := w) haccepted
  have hasked := rolledBackSteps_rollback (w := w) haccepted
  have hagain : (e.rollback w).2.targets (e.rollback w).2.currentStepIndex
      = e.targets e.currentStepIndex := by
    unfold targets completed
    rw [hsteps, hcurrent]
  constructor
  · rintro ⟨hcomplete, hretried⟩
    have htargets := hasked.symm.trans hcomplete
    obtain ⟨hnot, hexecuted⟩ := (targets_eq_iff hsorted hbefore).mp htargets
    refine ⟨hnot, hexecuted, ?_⟩
    rw [htargets] at hlog hstate
    by_cases hok : ∀ answer ∈ pass w (outstanding events).reverse e.world,
        answer.2.result = .ok ()
    · exact .inl hok
    · obtain ⟨failed, hfailed, hresult⟩ : ∃ answer ∈ pass w (outstanding events).reverse e.world,
          answer.2.result ≠ .ok () := by
        simpa using hok
      obtain ⟨error, herror⟩ : ∃ error, failed.2.result = .error error := by
        cases h : failed.2.result with
        | ok => exact absurd h hresult
        | error error => exact ⟨error, rfl⟩
      obtain ⟨hpossible, hretry⟩ := hretried _ hlog
        ⟨failed.1, error, herror ▸ List.mem_map_of_mem hfailed⟩
      rw [rolledBackSteps_rollback hpossible, hagain, htargets, outstanding_append] at hretry
      refine .inr ⟨fun answer hanswer hanswerOk => ?_, ?_⟩
      · refine notMem_settle hanswer hanswerOk (outstanding events) ?_
        rw [← List.reverse_injective hretry]
        exact List.mem_reverse.mp (mem_pass hanswer)
      · rw [hstate] at hpossible
        split at hpossible
        · rcases hpossible with h | h <;> cases h
        · rename_i hlast
          split at hpossible
          · rename_i hcancelled
            exact ⟨hcancelled, hlast⟩
          · rcases hpossible with h | h <;> cases h
  · rintro ⟨hnot, hexecuted, hanswers⟩
    have htargets := (targets_eq_iff hsorted hbefore).mpr ⟨hnot, hexecuted⟩
    refine ⟨hasked.trans htargets, fun undone hundone hfailing => ?_⟩
    obtain ⟨index, error, hmem⟩ := hfailing
    rw [htargets] at hlog hstate
    rw [List.append_cancel_left (hundone.symm.trans hlog)] at hmem ⊢
    obtain ⟨answer, hanswer, hevent⟩ := List.mem_map.mp hmem
    rcases hanswers with hok | ⟨hfailed, hcancelled, hlast⟩
    · rw [hok answer hanswer] at hevent
      cases hevent
    · rw [if_neg hlast, if_pos hcancelled] at hstate
      refine ⟨.inr hstate, ?_⟩
      rw [rolledBackSteps_rollback (.inr hstate), hagain, htargets, outstanding_append,
        settle_of_failed _ hfailed]

/-- After a run that ends failed or cancelled the rollback does what it owes
exactly when the steps are undoable. -/
theorem rollsBackRun_iff (w : Surroundings σ) (e : WorkflowEngine σ)
    (hends : (e.run w).2.state = .failed ∨ (e.run w).2.state = .cancelled) :
    RollsBackRun w ((e.run w).2.log.drop e.log.length) (e.run w).2 ↔
      Undoable w ((e.run w).2.log.drop e.log.length) (e.run w).2 := by
  obtain ⟨events, hlog, hsorted, hbefore⟩ := executedSince_run (w := w) e
  rw [hlog, List.drop_left]
  exact rollsBackRun_iff_undoable hends hsorted hbefore

/-- A step that fails has the step before it rolled back. -/
theorem rollsBackRun_failingOnce :
    ((create 0 2 {}).run (failingOnce 1)).2.state = .failed ∧
      RollsBackRun (failingOnce 1) [.executed 0] ((create 0 2 {}).run (failingOnce 1)).2 := by
  refine ⟨rfl, (rollsBackRun_iff (failingOnce 1) (create 0 2 {}) (.inl rfl)).mpr
    ⟨by decide, ?_, .inl ?_⟩⟩
  · intro index hindex _
    obtain rfl : index = 0 := Nat.lt_one_iff.mp hindex
    decide
  · intro answer hanswer
    rw [List.mem_singleton.mp hanswer]
    rfl

/-- Steps that succeed, with `cancel` called after the first one. -/
def cancelledBetween : Surroundings Nat :=
  { failingOnce 2 with between := fun count => (if count = 1 then [.cancel] else [], count) }

/-- A run cancelled between two steps: the one executed is not rolled back. -/
theorem rollback_misses_current :
    ¬ ∀ {σ : Type} (w : Surroundings σ) (e : WorkflowEngine σ),
        ((e.run w).2.state = .failed ∨ (e.run w).2.state = .cancelled) →
          RollsBackRun w ((e.run w).2.log.drop e.log.length) (e.run w).2 := by
  intro h
  have hcomplete := (h cancelledBetween (create 0 2 {}) (.inr rfl)).complete
  exact absurd hcomplete (by decide)

end WorkflowEngine

end MBootCore.Workflow
