import CelldWorld.EventLog

namespace CelldWorld

/-- The step a request reports progress of; `step_created` is a step event that
reports none. -/
def CreateEvent.progressOf : CreateEvent → Option String
  | .stepStarted id _ | .stepCompleted id _ | .stepFailed id _ | .stepRetrying id _ _ => some id
  | _ => none

def CreateEvent.isStepEvent : CreateEvent → Bool
  | .stepCreated .. => true
  | data => data.progressOf.isSome

/-- What `step_completed` and `step_retrying`, which skip the run read, make of their step. -/
def CreateEvent.unreadUpdate (stamp : Stamp) : CreateEvent → Option (String × (Step → Step))
  | .stepCompleted id result => some (id, fun step => stamp.completedStep step result)
  | .stepRetrying id error retryAfter => some (id, fun step => stamp.retryingStep step error retryAfter)
  | _ => none

/-- The request addresses a step that is running in this store. -/
def RunStore.InFlight (store : RunStore) (data : CreateEvent) : Prop :=
  ∃ id step, data.progressOf = some id ∧ store.steps[id]? = some step ∧ step.status = .running

/-- The answer is no success: the cell refuses the request or throws. -/
def Rejected (answer : Except Thrown (ApplyEventOutcome × RunStore)) : Prop :=
  ∀ success after, answer ≠ .ok (.ok success, after)

/-- Only an in-flight step records progress by this request: any other step is left
alone, and so is the log. -/
def OnlyInFlight (W : WorldContract) (runId : String) (now : Nat) (request : ApplyEventRequest)
    (store : RunStore) : Prop :=
  store.InFlight request.data.data ∨
    (Rejected (WorkflowRunDO.applyEvent W runId now request store) ∧
      (CellOp.applyEvent request).run W runId now store = store)

/-- The requests that reach a pending step past the guard of a terminal run:
`step_completed` and `step_retrying` that pass every check made of any event. -/
structure ReachesPending (W : WorldContract) (runId : String) (now : Nat) (request : ApplyEventRequest)
    (store : RunStore) (id : String) (step : Step) (update : Step → Step) : Prop where
  unread : request.data.data.unreadUpdate
    (({ request with now } : ApplyEventContext).stamp W) = some (id, update)
  stored : store.steps[id]? = some step
  pending : step.status = .pending
  parsed : parseApplyEventRequest W request = .ok request
  addressed : request.runId = runId
  cleanup : checkCleanup request.cleanup = .ok ()
  unexpired : store.tombstoneFrom now = none
  specVersion : ({ request with now } : ApplyEventContext).specVersion W = W.specVersionCurrent
  stepValid : W.stepSchema (update step) = true
  eventValid : W.eventSchema
    { eventId := W.slotToEventId (store.eventSequence + 1)
      runId := request.runId
      createdAt := now
      occurredAt := request.params.bind (·.occurredAt)
      resumeId := none
      specVersion := ({ request with now } : ApplyEventContext).specVersion W
      data := request.data.data.record } = true

/-- A step event that passes the guard on terminal runs addresses an existing step. -/
theorem CreateEvent.stepTarget_of_inert {W : WorldContract} {data : CreateEvent}
    (stepEvent : data.isStepEvent = true) (inert : data.needsActiveRun W = false) :
    ∃ id, data.progressOf = some id ∧ data.stepTarget W = some (id, false) := by
  cases data with
  | stepStarted id eventData =>
    refine ⟨id, rfl, ?_⟩
    unfold stepTarget
    simp only [Option.some.injEq, Prod.mk.injEq, true_and]
    exact inert
  | stepCompleted id _ | stepFailed id _ | stepRetrying id _ _ => exact ⟨id, rfl, rfl⟩
  | stepCreated => cases inert
  | _ => cases stepEvent

/-- The guard of a terminal run lets step events through to running steps only. -/
theorem stepGuard_terminal {W : WorldContract} {store : RunStore} {run : WorkflowRun} {data : CreateEvent}
    {validatedStep : Option Step} {id : String} (terminal : isTerminalWorkflowRunStatus run.status = true)
    (target : data.stepTarget W = some (id, false))
    (passed : stepGuard W store (some run) data = .ok validatedStep) :
    ∃ step, store.steps[id]? = some step ∧ step.status = .running := by
  unfold stepGuard at passed
  simp only [target, Bool.false_eq_true, if_false] at passed
  cases stored : store.steps[id]? with
  | none =>
    rw [stored] at passed
    cases passed
  | some step =>
    rw [stored] at passed
    simp only [terminal, true_and] at passed
    refine ⟨step, rfl, ?_⟩
    by_cases running : step.status = .running
    · exact running
    · rw [if_pos running] at passed
      split at passed <;> cases passed

namespace ApplyEventContext
variable {W : WorldContract} {ctx : ApplyEventContext} {txn : EventTxn}

/-- What the guards refuse is answered with the transaction untouched. -/
def Refuses (answer : Except Thrown (ApplyEventOutcome × EventTxn)) (txn : EventTxn) : Prop :=
  (∃ thrown, answer = .error thrown) ∨ ∃ refusal, answer = .ok (.fail refusal, txn)

theorem bootstrapRun_stepEvent {currentRun : Option WorkflowRun}
    (stepEvent : ctx.data.data.isStepEvent = true) :
    ctx.bootstrapRun W currentRun txn = .ok (currentRun, none, txn) := by
  have none_ : ctx.bootstrapData = none := by
    unfold bootstrapData
    split
    · rename_i data
      rw [data] at stepEvent
      cases stepEvent
    · rfl
  unfold bootstrapRun
  rw [none_]
  cases currentRun <;> rfl

theorem applyGuarded_guardRefuses {deferTerminalCleanup : Bool} {currentRun : Option WorkflowRun}
    {bootstrapped : Option RunCreatedInfo} {outcome : ApplyEventOutcome}
    (refused : stepGuard W txn.store currentRun ctx.data.data = .error outcome) :
    Refuses (ctx.applyGuarded W deferTerminalCleanup currentRun bootstrapped txn) txn := by
  unfold applyGuarded
  rw [refused]
  cases outcome with
  | fail failure => exact .inr ⟨failure, rfl⟩
  | ok success => exact absurd refused stepGuard_refuses

/-- A step event that reads the run and addresses no running step is refused. -/
theorem applyEvent_readRefuses {run : WorkflowRun} (stepEvent : ctx.data.data.isStepEvent = true)
    (reads : ctx.skipRunValidation = false) (stored : txn.store.run = some run)
    (terminal : isTerminalWorkflowRunStatus run.status = true)
    (idle : ¬ txn.store.InFlight ctx.data.data) :
    Refuses (CelldWorld.applyEvent W true ctx txn) txn := by
  unfold CelldWorld.applyEvent
  split
  · exact .inr ⟨_, rfl⟩
  rw [bootstrapRun_stepEvent stepEvent]
  simp only [reads, stored, Bool.false_eq_true, if_false]
  change Refuses (if run.specVersion ≠ W.specVersionCurrent then _ else _) txn
  split
  · exact .inr ⟨_, rfl⟩
  cases guard : ctx.terminalRunGuard W run txn with
  | error thrown => exact .inl ⟨thrown, rfl⟩
  | ok answer =>
    obtain ⟨early, txn'⟩ := answer
    rcases terminalRunGuard_cases guard with ⟨rfl, rfl, active⟩ | ⟨refusal, rfl, rfl⟩ |
      ⟨event, rfl, cancels, -, -, rfl⟩
    · have inert : ctx.data.data.needsActiveRun W = false := by
        cases needs : ctx.data.data.needsActiveRun W with
        | false => rfl
        | true => exact absurd terminal (by rw [active needs]; exact Bool.false_ne_true)
      obtain ⟨id, progress, target⟩ := CreateEvent.stepTarget_of_inert stepEvent inert
      cases guarded : stepGuard W txn'.store (some run) ctx.data.data with
      | error outcome => exact applyGuarded_guardRefuses guarded
      | ok validatedStep =>
        obtain ⟨step, found, running⟩ := stepGuard_terminal terminal target guarded
        exact absurd ⟨id, step, progress, found, running⟩ idle
    · exact .inr ⟨refusal, rfl⟩
    · rw [cancels] at stepEvent
      cases stepEvent

theorem unread_skips {id : String} {update : Step → Step}
    (unread : ctx.data.data.unreadUpdate (ctx.stamp W) = some (id, update)) :
    ctx.skipRunValidation = true ∧ ctx.data.data.isStepEvent = true ∧
      ctx.data.data.stepTarget W = some (id, false) ∧ ctx.data.data.progressOf = some id := by
  unfold skipRunValidation
  cases request : ctx.data.data with
  | stepCompleted _ _ | stepRetrying _ _ _ =>
    rw [request] at unread
    cases unread
    exact ⟨rfl, rfl, rfl, rfl⟩
  | _ =>
    rw [request] at unread
    cases unread

/-- With the run read skipped, nothing but the step itself is looked at. -/
theorem applyEvent_unread {id : String} {update : Step → Step}
    (unread : ctx.data.data.unreadUpdate (ctx.stamp W) = some (id, update))
    (version : ctx.specVersion W = W.specVersionCurrent) :
    CelldWorld.applyEvent W true ctx txn = ctx.applyGuarded W true none none txn := by
  obtain ⟨skips, stepEvent, -, -⟩ := unread_skips unread
  unfold CelldWorld.applyEvent
  rw [if_neg (not_not_intro version), bootstrapRun_stepEvent stepEvent]
  simp only [skips, if_true]
  rfl

theorem applyGuarded_unread {id : String} {update : Step → Step} {step : Step}
    (unread : ctx.data.data.unreadUpdate (ctx.stamp W) = some (id, update))
    (stored : txn.store.steps[id]? = some step) (unfinished : isTerminalStepStatus step.status = false) :
    ctx.applyGuarded W true none none txn = ctx.writeStep W id (update step) false txn := by
  obtain ⟨skips, -, target, -⟩ := unread_skips unread
  have passes : stepGuard W txn.store none ctx.data.data = .ok (some step) := by
    unfold stepGuard
    simp only [target, stored, unfinished, Bool.false_eq_true, if_false]
  unfold applyGuarded
  rw [passes]
  cases request : ctx.data.data with
  | stepCompleted _ _ | stepRetrying _ _ _ =>
    rw [request] at unread
    cases unread
    simp only [hookResumeGuard, hookGuard, skips, request, Bool.true_eq_false, false_and, if_false]
    unfold applyWrites
    rw [request]
    rfl
  | _ =>
    rw [request] at unread
    cases unread

/-- A finished or missing step is refused, whatever the run. -/
theorem applyGuarded_unreadRefuses {id : String} {update : Step → Step}
    (unread : ctx.data.data.unreadUpdate (ctx.stamp W) = some (id, update))
    (finished : ∀ step, txn.store.steps[id]? = some step → isTerminalStepStatus step.status = true) :
    Refuses (ctx.applyGuarded W true none none txn) txn := by
  obtain ⟨-, -, target, -⟩ := unread_skips unread
  cases guarded : stepGuard W txn.store none ctx.data.data with
  | error outcome => exact applyGuarded_guardRefuses guarded
  | ok validatedStep =>
    obtain ⟨rfl, unfinished, creates⟩ := stepGuard_ok target guarded
    cases stored : txn.store.steps[id]? with
    | none => cases creates stored
    | some step => exact absurd (finished step stored) (by rw [unfinished step stored]; exact Bool.false_ne_true)

theorem skips_unread (stepEvent : ctx.data.data.isStepEvent = true)
    (skips : ctx.skipRunValidation = true) :
    ∃ id update, ctx.data.data.unreadUpdate (ctx.stamp W) = some (id, update) := by
  unfold skipRunValidation at skips
  split at skips
  · rename_i request
    rw [request] at stepEvent
    cases stepEvent
  · rename_i request
    exact ⟨_, _, by rw [request]; rfl⟩
  · rename_i request
    exact ⟨_, _, by rw [request]; rfl⟩
  · cases skips

theorem unread_record {id : String} {update : Step → Step}
    (unread : ctx.data.data.unreadUpdate (ctx.stamp W) = some (id, update)) :
    ctx.data.data.record.isHookReceived = false := by
  cases request : ctx.data.data with
  | stepCompleted _ _ | stepRetrying _ _ _ => rfl
  | _ =>
    rw [request] at unread
    cases unread

theorem applyEvent_versionRefuses (other : ctx.specVersion W ≠ W.specVersionCurrent) :
    Refuses (CelldWorld.applyEvent W true ctx txn) txn := by
  unfold CelldWorld.applyEvent
  rw [if_pos other]
  exact .inr ⟨_, rfl⟩

/-- A step is written when the schemas take the step and its event. -/
theorem writeStep_of_valid {id : String} {updated : Step} (valid : W.stepSchema updated = true)
    (built : ∃ event middle, ctx.buildEvent W txn ctx.data.data.record = .ok (event, middle)) :
    ∃ success txn', ctx.writeStep W id updated false txn = .ok (.ok success, txn') ∧ success.run = none := by
  obtain ⟨event, middle, build⟩ := built
  refine ⟨{ event := some event, step := some updated, stepCreated := false },
    (middle.putStep id updated).putEvent event, ?_, rfl⟩
  unfold writeStep
  exact bind_ok.mpr ⟨updated, parseWith_ok.mpr ⟨valid, rfl⟩, bind_ok.mpr ⟨_, build, rfl⟩⟩

theorem writeStep_valid {id : String} {updated : Step} {result : ApplyEventOutcome × EventTxn}
    (run : ctx.writeStep W id updated false txn = .ok result) :
    W.stepSchema updated = true ∧
      ∃ event middle, ctx.buildEvent W txn ctx.data.data.record = .ok (event, middle) := by
  unfold writeStep at run
  obtain ⟨step, parsed, run⟩ := bind_ok.mp run
  obtain ⟨⟨event, middle⟩, build, -⟩ := bind_ok.mp run
  exact ⟨(parseWith_ok.mp parsed).1, event, middle, build⟩

theorem buildEvent_accepts {data : EventData} (plain : data.isHookReceived = false) :
    (∃ event middle, ctx.buildEvent W txn data = .ok (event, middle)) ↔
      W.eventSchema
        { eventId := W.slotToEventId (txn.eventSequence + 1)
          runId := ctx.runId
          createdAt := ctx.now
          occurredAt := ctx.params.bind (·.occurredAt)
          resumeId := none
          specVersion := ctx.specVersion W
          data } = true := by
  unfold buildEvent
  simp only [plain, Bool.false_eq_true, if_false]
  constructor
  · rintro ⟨event, middle, build⟩
    obtain ⟨_, parsed, -⟩ := bind_ok.mp build
    exact (parseWith_ok.mp parsed).1
  · intro valid
    exact ⟨_, _, bind_ok.mpr ⟨_, parseWith_ok.mpr ⟨valid, rfl⟩, rfl⟩⟩

end ApplyEventContext
section
variable {W : WorldContract} {runId : String} {now : Nat} {request : ApplyEventRequest} {store : RunStore}

/-- A cell that refuses or throws keeps its store. -/
theorem Rejected.unchanged (rejected : Rejected (WorkflowRunDO.applyEvent W runId now request store)) :
    (CellOp.applyEvent request).run W runId now store = store := by
  change transaction store (WorkflowRunDO.applyEvent W runId now request store) = store
  cases answer : WorkflowRunDO.applyEvent W runId now request store with
  | error thrown => rfl
  | ok result =>
    obtain ⟨outcome, after⟩ := result
    rcases WorkflowRunDO.applyEvent_ok answer with ⟨-, rfl⟩ | ⟨success, txn, -, -, -, commit⟩
    · rfl
    · cases outcome with
      | fail refusal => exact absurd commit WorkflowRunDO.commitOutcome_succeeds
      | ok success => exact absurd answer (rejected success after)

theorem WorkflowRunDO.applyEvent_parses {result : ApplyEventOutcome × RunStore}
    (call : WorkflowRunDO.applyEvent W runId now request store = .ok result) :
    parseApplyEventRequest W request = .ok request ∧ checkCleanup request.cleanup = .ok () := by
  unfold WorkflowRunDO.applyEvent at call
  obtain ⟨parsed, parse, checked⟩ := bind_ok.mp call
  obtain rfl := parseApplyEventRequest_ok parse
  split at checked
  · cases checked
  obtain ⟨_, cleanup, -⟩ := bind_ok.mp checked
  exact ⟨parse, cleanup⟩

/-- A success that carries no run is committed as it is. -/
theorem WorkflowRunDO.applyEvent_commits {success : ApplyEventSuccess} {txn' : EventTxn}
    (parsed : parseApplyEventRequest W request = .ok request) (addressed : request.runId = runId)
    (cleanup : checkCleanup request.cleanup = .ok ()) (unexpired : store.tombstoneFrom now = none)
    (core : CelldWorld.applyEvent W true { request with now } ⟨store, store.eventSequence⟩ =
      .ok (.ok success, txn')) (plain : success.run = none) :
    ¬ Rejected (WorkflowRunDO.applyEvent W runId now request store) := by
  intro rejected
  have committed : ∃ outcome after, WorkflowRunDO.commitOutcome W request now store.eventSequence success txn' =
      .ok (outcome, after) := by
    unfold WorkflowRunDO.commitOutcome WorkflowRunDO.scheduleTerminalRetention
    rw [plain]
    exact ⟨_, _, rfl⟩
  obtain ⟨outcome, after, committed⟩ := committed
  have answer : WorkflowRunDO.applyEvent W runId now request store = .ok (outcome, after) := by
    unfold WorkflowRunDO.applyEvent
    rw [parsed]
    change (if request.runId ≠ runId then _ else _) = _
    rw [if_neg (not_not_intro addressed), cleanup, unexpired, core]
    exact committed
  cases outcome with
  | fail refusal => exact WorkflowRunDO.commitOutcome_succeeds committed
  | ok success => exact rejected success after answer

/-- Such a request is accepted, and its step is pending. -/
theorem ReachesPending.accepted {id : String} {step : Step} {update : Step → Step}
    (reaches : ReachesPending W runId now request store id step update) :
    ¬ OnlyInFlight W runId now request store := by
  obtain ⟨-, -, -, progress⟩ := ApplyEventContext.unread_skips reaches.unread
  rintro (⟨other, found, same, stored, running⟩ | ⟨rejected, -⟩)
  · obtain rfl := Option.some.inj (progress.symm.trans same)
    obtain rfl := Option.some.inj (reaches.stored.symm.trans stored)
    rw [reaches.pending] at running
    cases running
  · have unfinished : isTerminalStepStatus step.status = false := by
      rw [reaches.pending]
      rfl
    let ctx : ApplyEventContext := { request with now }
    let txn : EventTxn := ⟨store, store.eventSequence⟩
    have core : CelldWorld.applyEvent W true ctx txn = ctx.writeStep W id (update step) false txn :=
      (ApplyEventContext.applyEvent_unread reaches.unread reaches.specVersion).trans
        (ApplyEventContext.applyGuarded_unread reaches.unread reaches.stored unfinished)
    have built : ∃ event middle, ctx.buildEvent W txn ctx.data.data.record = .ok (event, middle) :=
      (ApplyEventContext.buildEvent_accepts (ApplyEventContext.unread_record reaches.unread)).mpr
        reaches.eventValid
    obtain ⟨success, txn', written, plain⟩ : ∃ success txn',
        ctx.writeStep W id (update step) false txn = .ok (.ok success, txn') ∧ success.run = none :=
      ApplyEventContext.writeStep_of_valid reaches.stepValid built
    exact WorkflowRunDO.applyEvent_commits reaches.parsed reaches.addressed reaches.cleanup
      reaches.unexpired (core.trans written) plain rejected

theorem reachesPending_of_accepted {success : ApplyEventSuccess} {after : RunStore}
    (terminal : store.isTerminal = true) (stepEvent : request.data.data.isStepEvent = true)
    (idle : ¬ store.InFlight request.data.data)
    (answer : WorkflowRunDO.applyEvent W runId now request store = .ok (.ok success, after)) :
    ∃ id step update, ReachesPending W runId now request store id step update := by
  obtain ⟨parsed, cleanup⟩ := WorkflowRunDO.applyEvent_parses answer
  rcases WorkflowRunDO.applyEvent_ok answer with ⟨⟨_, refused⟩, -⟩ | ⟨core, txn, addressed, unexpired, applied, -⟩
  · cases refused
  have accepted : ¬ ApplyEventContext.Refuses
      (CelldWorld.applyEvent W true { request with now } ⟨store, store.eventSequence⟩)
      ⟨store, store.eventSequence⟩ := by
    rw [applied]
    rintro (⟨_, thrown⟩ | ⟨_, refused⟩)
    · cases thrown
    · cases refused
  obtain ⟨run, stored, ended⟩ := Option.any_eq_true _ _ |>.mp terminal
  cases reads : ({ request with now } : ApplyEventContext).skipRunValidation with
  | false => exact absurd (ApplyEventContext.applyEvent_readRefuses stepEvent reads stored ended idle) accepted
  | true =>
    obtain ⟨id, update, unread⟩ := ApplyEventContext.skips_unread (W := W) stepEvent reads
    obtain ⟨-, -, -, progress⟩ := ApplyEventContext.unread_skips unread
    have version : ({ request with now } : ApplyEventContext).specVersion W = W.specVersionCurrent :=
      Decidable.of_not_not fun other => accepted (ApplyEventContext.applyEvent_versionRefuses other)
    rw [ApplyEventContext.applyEvent_unread unread version] at applied accepted
    have unfinished : ∃ step, store.steps[id]? = some step ∧ isTerminalStepStatus step.status = false := by
      by_cases finished : ∀ step, store.steps[id]? = some step → isTerminalStepStatus step.status = true
      · exact absurd (ApplyEventContext.applyGuarded_unreadRefuses unread finished) accepted
      · obtain ⟨step, unfinished⟩ := not_forall.mp finished
        obtain ⟨found, unfinished⟩ := Classical.not_imp.mp unfinished
        exact ⟨step, found, Bool.eq_false_iff.mpr unfinished⟩
    obtain ⟨step, found, unfinished⟩ := unfinished
    rw [ApplyEventContext.applyGuarded_unread unread found unfinished] at applied
    obtain ⟨stepValid, built⟩ := ApplyEventContext.writeStep_valid applied
    refine ⟨id, step, update, unread, found, ?_, parsed, addressed, cleanup, unexpired, version, stepValid,
      (ApplyEventContext.buildEvent_accepts (ApplyEventContext.unread_record unread)).mp built⟩
    cases status : step.status with
    | pending => rfl
    | running => exact absurd ⟨id, step, progress, found, status⟩ idle
    | completed => simp [status, isTerminalStepStatus] at unfinished
    | failed => simp [status, isTerminalStepStatus] at unfinished

/-- On a terminal run a step event is taken from an in-flight step only, unless it is
`step_completed` or `step_retrying` and reaches a pending step. -/
theorem terminalRun_onlyInFlight_iff (terminal : store.isTerminal = true)
    (stepEvent : request.data.data.isStepEvent = true) :
    OnlyInFlight W runId now request store ↔
      ¬ ∃ id step update, ReachesPending W runId now request store id step update := by
  constructor
  · rintro inFlight ⟨id, step, update, reaches⟩
    exact reaches.accepted inFlight
  · intro none_
    by_cases inFlight : store.InFlight request.data.data
    · exact .inl inFlight
    have rejected : Rejected (WorkflowRunDO.applyEvent W runId now request store) := by
      intro success after answer
      exact none_ (reachesPending_of_accepted terminal stepEvent inFlight answer)
    exact .inr ⟨rejected, rejected.unchanged⟩

end

/-- A run that ended after its step "step" was created and before the step was started. -/
def endedBeforeStep : RunStore :=
  (CellOp.runAll .unary "run" 0
    [.resilientStart "run" "deployment" "workflow" (.other 0),
     .event (.stepCreated "step" { stepName := "work", workflowName := none, input := .other 0 }),
     .event (.runCompleted none)]
    ({}, [])).1

/-- Failing the step that never started is refused. -/
theorem terminalRun_refusesPending :
    endedBeforeStep.isTerminal = true ∧ OnlyInFlight .unary "run" 0
      { runId := "run", data := { specVersion := none, data := .stepFailed "step" none } }
      endedBeforeStep := by
  have terminal : endedBeforeStep.isTerminal = true := by decide +kernel
  refine ⟨terminal, (terminalRun_onlyInFlight_iff terminal rfl).mpr ?_⟩
  rintro ⟨_, _, _, reaches⟩
  cases reaches.unread

/-- The step that never started is completed on the ended run. -/
theorem terminalRun_completesPending :
    (∃ history, CellReach .unary "run" (· ≤ ·) 0 endedBeforeStep history) ∧
      endedBeforeStep.isTerminal = true ∧
      ¬ OnlyInFlight .unary "run" 0
        { runId := "run", data := { specVersion := none, data := .stepCompleted "step" none } }
        endedBeforeStep := by
  refine ⟨⟨_, CellReach.runAll _ (Nat.le_refl 0) (.start 0)⟩, by decide +kernel, ?_⟩
  have stored : ∃ step, endedBeforeStep.steps["step"]? = some step ∧ step.status = .pending := by
    decide +kernel
  obtain ⟨step, stored, pending⟩ := stored
  have reaches : ReachesPending .unary "run" 0
      { runId := "run", data := { specVersion := none, data := .stepCompleted "step" none } }
      endedBeforeStep "step" step (fun step => Stamp.completedStep ⟨"run", 0, 5⟩ step none) :=
    ⟨rfl, stored, pending, by decide +kernel, rfl, rfl, by decide +kernel, by decide +kernel, rfl, rfl⟩
  exact reaches.accepted

end CelldWorld
