import CelldWorld.Journal

namespace CelldWorld

/-- The store that a transaction commits. -/
def EventTxn.commit (txn : EventTxn) : RunStore :=
  { txn.store with eventSequence := txn.eventSequence }

/-- A transaction whose next event ID has been taken. -/
def EventTxn.nextSlot (txn : EventTxn) : EventTxn :=
  { txn with eventSequence := txn.eventSequence + 1 }

/-- The state, output and error in which a terminal run event ends its run. -/
def CreateEvent.finish : CreateEvent → Option (RunStatus × Option Value × Option StructuredError)
  | .runCompleted output => some (.completed, output, none)
  | .runFailed error errorCode => some (.failed, none, some (toStructuredError error errorCode))
  | .runCancelled => some (.cancelled, none, none)
  | _ => none

theorem CreateEvent.finish_terminal {data : CreateEvent}
    {ending : RunStatus × Option Value × Option StructuredError}
    (finishes : data.finish = some ending) : isTerminalWorkflowRunStatus ending.1 = true := by
  cases data <;> cases finishes <;> rfl

/-- What `step_completed`, `step_failed` and `step_retrying` make of their step. -/
def CreateEvent.stepUpdate (stamp : Stamp) : CreateEvent → Option (String × (Step → Step))
  | .stepCompleted id result => some (id, (stamp.completedStep · result))
  | .stepFailed id error => some (id, (stamp.failedStep · error))
  | .stepRetrying id error retryAfter => some (id, (stamp.retryingStep · error retryAfter))
  | _ => none

namespace ApplyEventContext
variable {W : WorldContract} {ctx : ApplyEventContext} {txn txn' : EventTxn} {outcome : ApplyEventOutcome}

/-- The event that `buildEvent` returns: the one of the next slot, with the request's own stamp. -/
structure Built (W : WorldContract) (ctx : ApplyEventContext) (txn : EventTxn) (data : EventData)
    (event : Event) : Prop where
  next : NextEvent W ctx.runId ctx.now txn.commit event
  recorded : event.data = data
  stamp : event.stamp = ctx.stamp W
  resumeId : event.resumeId = if data.isHookReceived then ctx.resumeId else none

theorem buildEvent_ok {data : EventData} {event : Event}
    (run : ctx.buildEvent W txn data = .ok (event, txn')) :
    ctx.Built W txn data event ∧ txn' = txn.nextSlot := by
  unfold buildEvent at run
  obtain ⟨built, parsed, run⟩ := bind_ok.mp run
  obtain ⟨-, rfl⟩ := parseWith_ok.mp parsed
  cases run
  exact ⟨⟨⟨rfl, rfl, rfl⟩, rfl, rfl, rfl⟩, rfl⟩

/-- What the writes of a run event or of an attribute event did: what they found, the event
they built, their answer and the transaction they leave. -/
inductive WroteRun (W : WorldContract) (ctx : ApplyEventContext) (currentRun : Option WorkflowRun)
    (bootstrapped : Option RunCreatedInfo) (txn : EventTxn) : ApplyEventSuccess → EventTxn → Prop
  | runExists {eventData : RunCreatedData} {run : WorkflowRun} (request : ctx.data.data = .runCreated eventData)
      (stored : txn.store.run = some run) : WroteRun W ctx currentRun bootstrapped txn { run := some run } txn
  | runCreated {eventData : RunCreatedData} {event : Event}
      (request : ctx.data.data = .runCreated eventData) (absent : txn.store.run = none)
      (valid : W.workflowRunSchema ((ctx.stamp W).createdRun eventData) = true)
      (built : ctx.Built W txn ctx.data.data.record event) :
      WroteRun W ctx currentRun bootstrapped txn
        { event := some event, run := some ((ctx.stamp W).createdRun eventData)
          runCreated := some ⟨eventData.workflowName, ctx.now⟩ }
        ((txn.nextSlot.putRun ((ctx.stamp W).createdRun eventData)).putEvent event)
  | runRunning {eventData : Option RunStartedData} {run : WorkflowRun}
      (request : ctx.data.data = .runStarted eventData) (current : currentRun = some run) :
      WroteRun W ctx currentRun bootstrapped txn
        { run := some run, maxEvents := some W.getMaxEventsPerRun, page := ctx.preloadEvents W txn } txn
  | runStarted {eventData : Option RunStartedData} {run : WorkflowRun} {event : Event} {last : EventTxn}
      (request : ctx.data.data = .runStarted eventData) (current : currentRun = some run)
      (waits : run.status ≠ .running) (valid : W.workflowRunSchema ((ctx.stamp W).startedRun run) = true)
      (built : ctx.Built W txn ctx.data.data.record event)
      (stores : last = (txn.nextSlot.putRun ((ctx.stamp W).startedRun run)).putEvent event) :
      WroteRun W ctx currentRun bootstrapped txn
        { event := some event, run := some ((ctx.stamp W).startedRun run), runCreated := bootstrapped
          maxEvents := some W.getMaxEventsPerRun, page := ctx.preloadEvents W last } last
  | runFinished {status : RunStatus} {output : Option Value} {error : Option StructuredError} {run : WorkflowRun}
      {event : Event} (request : ctx.data.data.finish = some (status, output, error))
      (current : currentRun = some run)
      (valid : W.workflowRunSchema ((ctx.stamp W).finishedRun run status output error) = true)
      (built : ctx.Built W txn ctx.data.data.record event) :
      WroteRun W ctx currentRun bootstrapped txn
        { event := some event, run := some ((ctx.stamp W).finishedRun run status output error) }
        ((txn.nextSlot.putRun ((ctx.stamp W).finishedRun run status output error)).putEvent event)
  | attrSet {correlationId : Option String} {eventData : AttrSetData} {run : WorkflowRun} {event : Event}
      (request : ctx.data.data = .attrSet correlationId eventData)
      (current : currentRun = some run)
      (unmarked : ∀ key, attributeMarker correlationId eventData = some key → txn.store.attrEvent[key]? = none)
      (valid : W.workflowRunSchema ((ctx.stamp W).attributedRun W run eventData) = true)
      (built : ctx.Built W txn ctx.data.data.record event) :
      WroteRun W ctx currentRun bootstrapped txn
        { event := some event, run := some ((ctx.stamp W).attributedRun W run eventData) }
        (((txn.nextSlot.putRun ((ctx.stamp W).attributedRun W run eventData)).markAttribute
          (attributeMarker correlationId eventData) event.eventId).putEvent event)

/-- What the writes of a step event did. -/
inductive WroteStep (W : WorldContract) (ctx : ApplyEventContext) (validatedStep : Option Step) (txn : EventTxn) :
    ApplyEventSuccess → EventTxn → Prop
  | created {id : String} {eventData : StepCreatedData} {event : Event}
      (request : ctx.data.data = .stepCreated id eventData) (absent : txn.store.steps[id]? = none)
      (built : ctx.Built W txn ctx.data.data.record event) :
      WroteStep W ctx validatedStep txn
        { event := some event, step := some ((ctx.stamp W).createdStep id eventData.stepName eventData.input) }
        (((txn.nextSlot.putStep id
          ((ctx.stamp W).createdStep id eventData.stepName eventData.input)).putStepCreated
          ((ctx.stamp W).createdStep id eventData.stepName eventData.input)).putEvent event)
  | started {id : String} {eventData : Option StepStartedData} {step : Step} {event : Event}
      (request : ctx.data.data = .stepStarted id eventData) (validated : validatedStep = some step)
      (due : ∀ retryAfter, step.retryAfter = some retryAfter → retryAfter ≤ ctx.now)
      (built : ctx.Built W txn ctx.data.data.record event) :
      WroteStep W ctx validatedStep txn { event := some event, step := some ((ctx.stamp W).startedStep step) }
        ((txn.nextSlot.putStep id ((ctx.stamp W).startedStep step)).putEvent event)
  | startedLazily {id : String} {eventData : Option StepStartedData} {creation : StepCreatedData}
      {created event : Event} {lazy : EventTxn} (request : ctx.data.data = .stepStarted id eventData)
      (missing : validatedStep = none) (creates : ctx.Built W txn (.stepCreated id creation) created)
      (stores : lazy = ((txn.nextSlot.putStep id ((ctx.stamp W).createdStep id creation.stepName
        creation.input)).putStepCreated ((ctx.stamp W).createdStep id creation.stepName creation.input)).putEvent
          created)
      (built : ctx.Built W lazy ctx.data.data.record event) :
      WroteStep W ctx validatedStep txn
        { event := some event
          step := some ((ctx.stamp W).startedStep ((ctx.stamp W).createdStep id creation.stepName creation.input))
          stepCreated := true }
        ((lazy.nextSlot.putStep id ((ctx.stamp W).startedStep
          ((ctx.stamp W).createdStep id creation.stepName creation.input))).putEvent event)
  | updated {id : String} {update : Step → Step} {step : Step} {event : Event}
      (request : ctx.data.data.stepUpdate (ctx.stamp W) = some (id, update))
        (validated : validatedStep = some step)
      (built : ctx.Built W txn ctx.data.data.record event) :
      WroteStep W ctx validatedStep txn { event := some event, step := some (update step) }
        ((txn.nextSlot.putStep id (update step)).putEvent event)

/-- What the writes of a hook event did. -/
inductive WroteHook (W : WorldContract) (ctx : ApplyEventContext) (txn : EventTxn) :
    ApplyEventSuccess → EventTxn → Prop
  | conflict {id : String} {eventData : HookCreatedData} {holder : String} {reason : Option ForceRefusedReason}
      {event : Event} (request : ctx.data.data = .hookCreated id eventData)
      (built : ctx.Built W txn (.hookConflict id eventData.token holder reason) event) :
      WroteHook W ctx txn { event := some event } (txn.nextSlot.putEvent event)
  | replayed {id : String} {eventData : HookCreatedData} {hook : Hook}
      (request : ctx.data.data = .hookCreated id eventData) (stored : txn.store.hooks[id]? = some hook) :
      WroteHook W ctx txn { hook := some hook, hookToIndex := some hook } txn
  | created {id : String} {eventData : HookCreatedData} {claimedFrom : Option HookClaimedFrom} {event : Event}
      (request : ctx.data.data = .hookCreated id eventData)
      (fresh : txn.store.hookEvent[id]? = none)
      (built : ctx.Built W txn (.hookCreated id { eventData with forceClaimedFrom := claimedFrom }) event) :
      WroteHook W ctx txn
        { event := some event, hook := some ((ctx.stamp W).createdHook id eventData claimedFrom)
          hookToIndex := some ((ctx.stamp W).createdHook id eventData claimedFrom) }
        (((txn.nextSlot.putHook ((ctx.stamp W).createdHook id eventData claimedFrom)).putHookEvent id
          event.eventId).putEvent event)
  | received {id : String} {payload : Value} {event : Event} {resumes : KeyMap HookResumeClaim}
      (request : ctx.data.data = .hookReceived id payload)
      (claims : truthy ctx.resumeId = none ∧ resumes = txn.store.hookResume ∨
        ∃ resumeId, truthy ctx.resumeId = some resumeId ∧
          resumes = txn.store.hookResume.insert resumeId ⟨id, event.eventId, truthy ctx.resumePayloadDigest⟩)
      (built : ctx.Built W txn ctx.data.data.record event) :
      WroteHook W ctx txn { event := some event }
        { txn.nextSlot.putEvent event with store :=
          { (txn.nextSlot.putEvent event).store with hookResume := resumes } }
  | disposed {id : String} {token : Option String} {claimedBy : Option HookTokenOwner}
      {hook : Hook} {event : Event}
      (request : ctx.data.data = .hookDisposed id token claimedBy)
      (stored : txn.store.hooks[id]? = some hook) (built : ctx.Built W txn ctx.data.data.record event) :
      WroteHook W ctx txn { event := some event, releasedHooks := [⟨hook.hookId, hook.token⟩] }
        ((txn.nextSlot.releaseHook id hook).putEvent event)

/-- What the writes of a wait event did. -/
inductive WroteWait (W : WorldContract) (ctx : ApplyEventContext) (txn : EventTxn) :
    ApplyEventSuccess → EventTxn → Prop
  | created {id : String} {resumeAt : Nat} {event : Event}
      (request : ctx.data.data = .waitCreated id resumeAt) (absent : txn.store.waits[id]? = none)
      (built : ctx.Built W txn ctx.data.data.record event) :
      WroteWait W ctx txn { event := some event, wait := some ((ctx.stamp W).createdWait id resumeAt) }
        ((txn.nextSlot.putWait id ((ctx.stamp W).createdWait id resumeAt)).putEvent event)
  | completed {id : String} {resumeAt : Option Nat} {wait : Wait} {event : Event}
      (request : ctx.data.data = .waitCompleted id resumeAt) (stored : txn.store.waits[id]? = some wait)
      (waiting : wait.status ≠ .completed) (built : ctx.Built W txn ctx.data.data.record event) :
      WroteWait W ctx txn { event := some event, wait := some ((ctx.stamp W).completedWait wait resumeAt) }
        ((txn.nextSlot.putWait id ((ctx.stamp W).completedWait wait resumeAt)).putEvent event)

/-- What the writes of an event did, by the entity that the event is about. -/
inductive Wrote (W : WorldContract) (ctx : ApplyEventContext) (currentRun : Option WorkflowRun)
    (bootstrapped : Option RunCreatedInfo) (validatedStep : Option Step) (txn : EventTxn)
    (success : ApplyEventSuccess) (txn' : EventTxn) : Prop
  | run (wrote : ctx.WroteRun W currentRun bootstrapped txn success txn')
  | step (wrote : ctx.WroteStep W validatedStep txn success txn')
  | hook (wrote : ctx.WroteHook W txn success txn')
  | wait (wrote : ctx.WroteWait W txn success txn')

/-- A refusal that has written nothing, or a success and what it wrote. -/
inductive Settled (wrote : ApplyEventSuccess → EventTxn → Prop) (txn : EventTxn) :
    ApplyEventOutcome → EventTxn → Prop
  | refused (refusal : ApplyEventFailure) : Settled wrote txn (.fail refusal) txn
  | done {success : ApplyEventSuccess} {txn' : EventTxn} (writes : wrote success txn') :
      Settled wrote txn (.ok success) txn'

theorem Settled.imp {wrote wrote' : ApplyEventSuccess → EventTxn → Prop}
    (settled : Settled wrote txn outcome txn') (imp : ∀ success txn', wrote success txn' → wrote' success txn') :
    Settled wrote' txn outcome txn' := by
  cases settled with
  | refused refusal => exact .refused refusal
  | done writes => exact .done (imp _ _ writes)

section Writes
variable {currentRun : Option WorkflowRun} {bootstrapped : Option RunCreatedInfo} {validatedStep : Option Step}

theorem applyRunCreated_settled {eventData : RunCreatedData} (request : ctx.data.data = .runCreated eventData)
    (run : ctx.applyRunCreated W eventData txn = .ok (outcome, txn')) :
    Settled (ctx.WroteRun W currentRun bootstrapped txn) txn outcome txn' := by
  unfold applyRunCreated at run
  split at run
  · rename_i existing stored
    cases run
    exact .done (.runExists request stored)
  · rename_i absent
    obtain ⟨-, -, run⟩ := bind_ok.mp run
    obtain ⟨created, parsed, run⟩ := bind_ok.mp run
    obtain ⟨valid, rfl⟩ := parseWith_ok.mp parsed
    obtain ⟨⟨event, middle⟩, build, run⟩ := bind_ok.mp run
    obtain ⟨built, rfl⟩ := buildEvent_ok build
    cases run
    exact .done (.runCreated request absent valid built)

theorem applyRunStarted_settled {eventData : Option RunStartedData}
    (request : ctx.data.data = .runStarted eventData)
    (run : ctx.applyRunStarted W currentRun bootstrapped txn = .ok (outcome, txn')) :
    Settled (ctx.WroteRun W currentRun bootstrapped txn) txn outcome txn' := by
  unfold applyRunStarted at run
  split at run
  · cases run
    exact .refused _
  split at run
  · cases run
    exact .done (.runRunning request rfl)
  · rename_i waits
    obtain ⟨started, parsed, run⟩ := bind_ok.mp run
    obtain ⟨valid, rfl⟩ := parseWith_ok.mp parsed
    obtain ⟨⟨event, middle⟩, build, run⟩ := bind_ok.mp run
    obtain ⟨built, rfl⟩ := buildEvent_ok build
    cases run
    exact .done (.runStarted request rfl waits valid built rfl)

theorem finishRun_settled {status : RunStatus} {output : Option Value} {error : Option StructuredError}
    (request : ctx.data.data.finish = some (status, output, error))
    (run : ctx.finishRun W status output error true currentRun txn = .ok (outcome, txn')) :
    Settled (ctx.WroteRun W currentRun bootstrapped txn) txn outcome txn' := by
  unfold finishRun at run
  split at run
  · cases run
    exact .refused _
  · obtain ⟨finished, parsed, run⟩ := bind_ok.mp run
    obtain ⟨valid, rfl⟩ := parseWith_ok.mp parsed
    obtain ⟨⟨event, middle⟩, build, run⟩ := bind_ok.mp run
    obtain ⟨built, rfl⟩ := buildEvent_ok build
    cases run
    exact .done (.runFinished request rfl valid built)

theorem applyAttrSet_settled {correlationId : Option String} {eventData : AttrSetData}
    (request : ctx.data.data = .attrSet correlationId eventData)
    (run : ctx.applyAttrSet W correlationId eventData currentRun txn = .ok (outcome, txn')) :
    Settled (ctx.WroteRun W currentRun bootstrapped txn) txn outcome txn' := by
  unfold applyAttrSet at run
  split at run
  · cases run
    exact .refused _
  split at run
  · cases run
  simp only at run
  split at run
  · cases run
    exact .refused _
  · rename_i unmarked
    obtain ⟨attributed, parsed, run⟩ := bind_ok.mp run
    obtain ⟨valid, rfl⟩ := parseWith_ok.mp parsed
    obtain ⟨⟨event, middle⟩, build, run⟩ := bind_ok.mp run
    obtain ⟨built, rfl⟩ := buildEvent_ok build
    cases run
    have unmarked : ∀ key, attributeMarker correlationId eventData = some key →
        txn.store.attrEvent[key]? = none := fun key marker => by simpa [marker] using unmarked
    exact .done (.attrSet request rfl unmarked valid built)

theorem applyStepCreated_settled {id : String} {eventData : StepCreatedData}
    (request : ctx.data.data = .stepCreated id eventData)
    (run : ctx.applyStepCreated W id eventData txn = .ok (outcome, txn')) :
    Settled (ctx.WroteStep W validatedStep txn) txn outcome txn' := by
  unfold applyStepCreated at run
  split at run
  · cases run
    exact .refused _
  · rename_i absent
    obtain ⟨created, parsed, run⟩ := bind_ok.mp run
    obtain ⟨-, rfl⟩ := parseWith_ok.mp parsed
    obtain ⟨⟨event, middle⟩, build, run⟩ := bind_ok.mp run
    obtain ⟨built, rfl⟩ := buildEvent_ok build
    cases run
    exact .done (.created request (by simpa using absent) built)

theorem writeStep_ok {id : String} {updated : Step} {stepCreated : Bool}
    (run : ctx.writeStep W id updated stepCreated txn = .ok (outcome, txn')) :
    ∃ event, ctx.Built W txn ctx.data.data.record event ∧
      outcome = .ok { event := some event, step := some updated, stepCreated } ∧
      txn' = (txn.nextSlot.putStep id updated).putEvent event := by
  unfold writeStep at run
  obtain ⟨step, parsed, run⟩ := bind_ok.mp run
  obtain ⟨-, rfl⟩ := parseWith_ok.mp parsed
  obtain ⟨⟨event, middle⟩, build, run⟩ := bind_ok.mp run
  obtain ⟨built, rfl⟩ := buildEvent_ok build
  cases run
  exact ⟨event, built, rfl, rfl⟩

theorem startStep_ok {id : String} {step : Step} {stepCreated : Bool}
    (run : ctx.startStep W id step stepCreated txn = .ok (outcome, txn')) :
    ((∃ refusal, outcome = .fail refusal) ∧ step.retryAfter ≠ none ∧ txn' = txn) ∨
      ((∀ retryAfter, step.retryAfter = some retryAfter → retryAfter ≤ ctx.now) ∧
        ∃ event, ctx.Built W txn ctx.data.data.record event ∧
          outcome = .ok { event := some event, step := some ((ctx.stamp W).startedStep step), stepCreated } ∧
          txn' = (txn.nextSlot.putStep id ((ctx.stamp W).startedStep step)).putEvent event) := by
  unfold startStep at run
  split at run
  · rename_i retryAfter after
    split at run
    · cases run
      exact .inl ⟨⟨_, rfl⟩, by rw [after]; nofun, rfl⟩
    · refine .inr ⟨fun other same => ?_, writeStep_ok run⟩
      obtain rfl := Option.some.inj (after.symm.trans same)
      omega
  · rename_i none_after
    exact .inr ⟨fun other same => (by rw [none_after] at same; cases same), writeStep_ok run⟩

theorem applyStepStarted_settled {id : String} {eventData : Option StepStartedData}
    (request : ctx.data.data = .stepStarted id eventData)
    (run : ctx.applyStepStarted W id eventData validatedStep txn = .ok (outcome, txn')) :
    Settled (ctx.WroteStep W validatedStep txn) txn outcome txn' := by
  unfold applyStepStarted at run
  split at run
  · rcases startStep_ok run with ⟨⟨refusal, rfl⟩, -, rfl⟩ | ⟨due, event, built, rfl, rfl⟩
    · exact .refused refusal
    · exact .done (.started request rfl due built)
  · obtain ⟨⟨step, middle⟩, create, run⟩ := bind_ok.mp run
    unfold createLazyStep at create
    obtain ⟨created, parsed, create⟩ := bind_ok.mp create
    obtain ⟨-, rfl⟩ := parseWith_ok.mp parsed
    obtain ⟨⟨createdEvent, lazy⟩, build, create⟩ := bind_ok.mp create
    obtain ⟨creates, rfl⟩ := buildEvent_ok build
    cases create
    -- A step that has just been created has no `retryAfter`.
    rcases startStep_ok run with ⟨-, delayed, -⟩ | ⟨-, started, built, rfl, rfl⟩
    · exact absurd rfl delayed
    · exact .done (.startedLazily request rfl creates rfl built)
  · cases run
    exact .refused _

theorem applyStepUpdate_settled {id : String} {update : Step → Step}
    (request : ctx.data.data.stepUpdate (ctx.stamp W) = some (id, update))
    (run : ctx.applyStepUpdate W id update validatedStep txn = .ok (outcome, txn')) :
    Settled (ctx.WroteStep W validatedStep txn) txn outcome txn' := by
  unfold applyStepUpdate at run
  split at run
  · cases run
    exact .refused _
  · obtain ⟨event, built, rfl, rfl⟩ := writeStep_ok run
    exact .done (.updated request rfl built)

theorem applyHookCreated_settled {id : String} {eventData : HookCreatedData}
    (request : ctx.data.data = .hookCreated id eventData)
    (run : ctx.applyHookCreated W id eventData txn = .ok (outcome, txn')) :
    Settled (ctx.WroteHook W txn) txn outcome txn' := by
  unfold applyHookCreated at run
  split at run
  · cases run
    exact .refused _
  split at run
  · unfold applyHookConflict at run
    obtain ⟨⟨event, middle⟩, build, run⟩ := bind_ok.mp run
    obtain ⟨built, rfl⟩ := buildEvent_ok build
    cases run
    exact .done (.conflict request built)
  split at run
  · unfold applyHookReplay at run
    split at run
    · rename_i existing stored
      split at run <;> cases run
      · exact .done (.replayed request stored)
      · exact .refused _
    · cases run
      exact .refused _
  · rename_i fresh
    unfold applyHookCreation at run
    obtain ⟨hook, parsed, run⟩ := bind_ok.mp run
    obtain ⟨-, rfl⟩ := parseWith_ok.mp parsed
    obtain ⟨⟨event, middle⟩, build, run⟩ := bind_ok.mp run
    obtain ⟨built, rfl⟩ := buildEvent_ok build
    cases run
    exact .done (.created request (by simpa using fresh) built)

theorem applyHookReceived_settled {id : String} {payload : Value}
    (request : ctx.data.data = .hookReceived id payload)
    (run : ctx.applyHookReceived W id txn = .ok (outcome, txn')) :
    Settled (ctx.WroteHook W txn) txn outcome txn' := by
  unfold applyHookReceived at run
  obtain ⟨⟨event, middle⟩, build, run⟩ := bind_ok.mp run
  obtain ⟨built, rfl⟩ := buildEvent_ok build
  cases run
  cases resume : truthy ctx.resumeId with
  | none => exact .done (.received request (.inl ⟨resume, rfl⟩) built)
  | some resumeId => exact .done (.received request (.inr ⟨resumeId, resume, rfl⟩) built)

/-- The event of a disposal is built after its hook has been released. -/
theorem applyHookDisposed_settled {id : String} {token : Option String} {claimedBy : Option HookTokenOwner}
    (request : ctx.data.data = .hookDisposed id token claimedBy)
    (run : ctx.applyHookDisposed W id txn = .ok (outcome, txn')) :
    Settled (ctx.WroteHook W txn) txn outcome txn' := by
  unfold applyHookDisposed at run
  split at run
  · cases run
    exact .refused _
  · rename_i hook stored
    obtain ⟨⟨event, middle⟩, build, run⟩ := bind_ok.mp run
    obtain ⟨released, rfl⟩ := buildEvent_ok build
    cases run
    have built : ctx.Built W txn ctx.data.data.record event :=
      ⟨⟨released.next.eventId, released.next.ofRun, released.next.createdAt⟩, released.recorded, released.stamp,
        released.resumeId⟩
    exact .done (.disposed request stored built)

theorem writeWait_ok {id : String} {wait : Wait} (run : ctx.writeWait W id wait txn = .ok (outcome, txn')) :
    ∃ event, ctx.Built W txn ctx.data.data.record event ∧
      outcome = .ok { event := some event, wait := some wait } ∧
      txn' = (txn.nextSlot.putWait id wait).putEvent event := by
  unfold writeWait at run
  obtain ⟨written, parsed, run⟩ := bind_ok.mp run
  obtain ⟨-, rfl⟩ := parseWith_ok.mp parsed
  obtain ⟨⟨event, middle⟩, build, run⟩ := bind_ok.mp run
  obtain ⟨built, rfl⟩ := buildEvent_ok build
  cases run
  exact ⟨event, built, rfl, rfl⟩

theorem applyWaitCreated_settled {id : String} {resumeAt : Nat}
    (request : ctx.data.data = .waitCreated id resumeAt)
    (run : ctx.applyWaitCreated W id resumeAt txn = .ok (outcome, txn')) :
    Settled (ctx.WroteWait W txn) txn outcome txn' := by
  unfold applyWaitCreated at run
  split at run
  · cases run
    exact .refused _
  · rename_i absent
    obtain ⟨event, built, rfl, rfl⟩ := writeWait_ok run
    exact .done (.created request (by simpa using absent) built)

theorem applyWaitCompleted_settled {id : String} {resumeAt : Option Nat}
    (request : ctx.data.data = .waitCompleted id resumeAt)
    (run : ctx.applyWaitCompleted W id resumeAt txn = .ok (outcome, txn')) :
    Settled (ctx.WroteWait W txn) txn outcome txn' := by
  unfold applyWaitCompleted at run
  split at run
  · cases run
    exact .refused _
  rename_i wait stored
  split at run
  · cases run
    exact .refused _
  · rename_i waiting
    obtain ⟨event, built, rfl, rfl⟩ := writeWait_ok run
    exact .done (.completed request stored waiting built)

/-- Every branch of the writes refuses before it writes, or succeeds. -/
theorem applyWrites_settled
    (run : ctx.applyWrites W true currentRun bootstrapped validatedStep txn = .ok (outcome, txn')) :
    Settled (ctx.Wrote W currentRun bootstrapped validatedStep txn) txn outcome txn' := by
  unfold applyWrites at run
  split at run <;> rename_i request
  · exact (applyRunCreated_settled request run).imp fun _ _ => .run
  · exact (applyRunStarted_settled request run).imp fun _ _ => .run
  · exact (finishRun_settled (by rw [request]; rfl) run).imp fun _ _ => .run
  · exact (finishRun_settled (by rw [request]; rfl) run).imp fun _ _ => .run
  · exact (finishRun_settled (by rw [request]; rfl) run).imp fun _ _ => .run
  · exact (applyAttrSet_settled request run).imp fun _ _ => .run
  · exact (applyStepCreated_settled request run).imp fun _ _ => .step
  · exact (applyStepStarted_settled request run).imp fun _ _ => .step
  · exact (applyStepUpdate_settled (by rw [request]; rfl) run).imp fun _ _ => .step
  · exact (applyStepUpdate_settled (by rw [request]; rfl) run).imp fun _ _ => .step
  · exact (applyStepUpdate_settled (by rw [request]; rfl) run).imp fun _ _ => .step
  · exact (applyHookCreated_settled request run).imp fun _ _ => .hook
  · exact (applyHookReceived_settled request run).imp fun _ _ => .hook
  · exact (applyHookDisposed_settled request run).imp fun _ _ => .hook
  · exact (applyWaitCreated_settled request run).imp fun _ _ => .wait
  · exact (applyWaitCompleted_settled request run).imp fun _ _ => .wait

end Writes
end ApplyEventContext

end CelldWorld
