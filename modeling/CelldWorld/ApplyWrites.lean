import CelldWorld.ApplyGuards

namespace CelldWorld

/-- `readStringProp` -/
def readStringProp (value : Value) (key : String) : Option String :=
  match value with
  | .object strings _ => strings.lookup key
  | _ => none

/-- `toStructuredError` with the error code of a `run_failed` event. -/
def toStructuredError (error : Value) (errorCode : Option String) : StructuredError :=
  { message := match error with
      | .string text => text
      | error => (readStringProp error "message").getD "Unknown error"
    stack := readStringProp error "stack"
    code := errorCode.or (readStringProp error "code") }

namespace Stamp
variable (stamp : Stamp)

def startedRun (currentRun : WorkflowRun) : WorkflowRun :=
  { currentRun with
    status := .running, output := none, error := none, completedAt := none
    startedAt := currentRun.startedAt.or (some stamp.now), updatedAt := stamp.now }

def finishedRun (currentRun : WorkflowRun) (status : RunStatus) (output : Option Value)
    (error : Option StructuredError) : WorkflowRun :=
  { currentRun with
    status, output, error, completedAt := some stamp.now, updatedAt := stamp.now }

def attributedRun (W : WorldContract) (currentRun : WorkflowRun) (eventData : AttrSetData) : WorkflowRun :=
  { currentRun with
    attributes := W.applyAttributeChanges currentRun.attributes eventData.changes
    updatedAt := stamp.now }

/-- The pending step that `step_created` and a lazy `step_started` store. -/
def createdStep (stepId stepName : String) (input : Value) : Step :=
  { runId := stamp.runId, stepId, stepName
    status := .pending
    input
    output := none
    error := none
    attempt := 0
    startedAt := none
    completedAt := none
    retryAfter := none
    createdAt := stamp.now
    updatedAt := stamp.now
    specVersion := stamp.specVersion }

def startedStep (step : Step) : Step :=
  { step with
    status := .running
    startedAt := step.startedAt.or (some stamp.now)
    attempt := step.attempt + 1
    retryAfter := none
    updatedAt := stamp.now }

def completedStep (step : Step) (result : Option Value) : Step :=
  { step with
    status := .completed, output := result, completedAt := some stamp.now, updatedAt := stamp.now }

def failedStep (step : Step) (error : Option Value) : Step :=
  { step with status := .failed, error, completedAt := some stamp.now, updatedAt := stamp.now }

def retryingStep (step : Step) (error : Option Value) (retryAfter : Option Nat) : Step :=
  { step with status := .pending, error, retryAfter, updatedAt := stamp.now }

/-- The hook a creation stores. -/
def createdHook (hookId : String) (eventData : HookCreatedData)
    (claimedFrom : Option HookClaimedFrom) : Hook :=
  { runId := stamp.runId, hookId
    token := eventData.token
    metadata := eventData.metadata
    ownerId := "", projectId := "", environment := ""
    createdAt := stamp.now
    specVersion := stamp.specVersion
    isWebhook := eventData.isWebhook.getD false
    isSystem := eventData.isSystem
    tokenRetentionUntil := eventData.tokenRetentionUntil
    claimedFrom }

def createdWait (correlationId : String) (resumeAt : Nat) : Wait :=
  { waitId := s!"{stamp.runId}-{correlationId}"
    runId := stamp.runId
    status := .waiting
    resumeAt
    completedAt := none
    createdAt := stamp.now
    updatedAt := stamp.now
    specVersion := stamp.specVersion }

def completedWait (existing : Wait) (resumeAt : Option Nat) : Wait :=
  { existing with
    status := .completed
    resumeAt := resumeAt.getD existing.resumeAt
    completedAt := some stamp.now
    updatedAt := stamp.now }

end Stamp

namespace EventTxn

/-- `releaseAllHooks`: only outside celld, where terminal cleanup is not deferred. -/
def releaseAllHooks (txn : EventTxn) (deferTerminalCleanup : Bool) :
    List HookIndexReference × EventTxn :=
  if deferTerminalCleanup then ([], txn)
  else
    let hooks := txn.store.hooks.toList.map (·.2)
    (hooks.map fun hook => ⟨hook.hookId, hook.token⟩,
      hooks.foldl (fun txn hook => { txn with store := { txn.store with
        hooks := txn.store.hooks.erase hook.hookId
        hookCreated := txn.store.hookCreated.erase (hook.createdAt, hook.hookId) } }) txn)

/-- `releaseAllWaits` -/
def releaseAllWaits (txn : EventTxn) (deferTerminalCleanup : Bool) : EventTxn :=
  if deferTerminalCleanup then txn else { txn with store := { txn.store with waits := ∅ } }

end EventTxn

namespace ApplyEventContext
variable (W : WorldContract) (ctx : ApplyEventContext)

def runNotFound : ApplyEventOutcome :=
  failure .runNotFound s!"Workflow run \"{ctx.runId}\" not found"

/-- A replayed creation answers the stored run and appends nothing. -/
def applyRunCreated (eventData : RunCreatedData) (txn : EventTxn) :
    Except Thrown (ApplyEventOutcome × EventTxn) :=
  match txn.store.run with
  | some existing => .ok (.ok { run := some existing }, txn)
  | none => do
    checkCreationAttributes W eventData
    let run ← parseWith "WorkflowRunSchema" W.workflowRunSchema ((ctx.stamp W).createdRun eventData)
    let (event, txn) ← ctx.buildEvent W txn ctx.data.data.record
    .ok (.ok { event := some event, run := some run
               runCreated := some ⟨eventData.workflowName, ctx.now⟩ },
      (txn.putRun run).putEvent event)

def skipPreload : Bool := ctx.params.any (·.skipPreload)

/-- The complete log that a `run_started` response preloads. -/
def preloadEvents (txn : EventTxn) : Option EventPage :=
  if ctx.skipPreload then none else some (listEventPage txn.store.events W.getMaxEventsPerRun none)

def applyRunStarted (currentRun : Option WorkflowRun) (bootstrapped : Option RunCreatedInfo)
    (txn : EventTxn) : Except Thrown (ApplyEventOutcome × EventTxn) :=
  match currentRun with
  | none => .ok (ctx.runNotFound, txn)
  | some currentRun =>
    if currentRun.status = .running then
      .ok (.ok { run := some currentRun, maxEvents := some W.getMaxEventsPerRun
                 page := ctx.preloadEvents W txn }, txn)
    else do
      let run ← parseWith "WorkflowRunSchema" W.workflowRunSchema ((ctx.stamp W).startedRun currentRun)
      let (event, txn) ← ctx.buildEvent W txn ctx.data.data.record
      let txn := (txn.putRun run).putEvent event
      .ok (.ok { event := some event, run := some run, runCreated := bootstrapped
                 maxEvents := some W.getMaxEventsPerRun, page := ctx.preloadEvents W txn }, txn)

/-- The three terminal run events differ in the final status, output and error only. -/
def finishRun (status : RunStatus) (output : Option Value) (error : Option StructuredError)
    (deferTerminalCleanup : Bool) (currentRun : Option WorkflowRun) (txn : EventTxn) :
    Except Thrown (ApplyEventOutcome × EventTxn) :=
  match currentRun with
  | none => .ok (ctx.runNotFound, txn)
  | some currentRun => do
    let run ← parseWith "WorkflowRunSchema" W.workflowRunSchema
      ((ctx.stamp W).finishedRun currentRun status output error)
    let (event, txn) ← ctx.buildEvent W txn ctx.data.data.record
    let (releasedHooks, txn) := ((txn.putRun run).putEvent event).releaseAllHooks deferTerminalCleanup
    .ok (.ok { event := some event, run := some run, releasedHooks },
      txn.releaseAllWaits deferTerminalCleanup)

def applyRunCompleted (output : Option Value) := ctx.finishRun W .completed output none

def applyRunFailed (error : Value) (errorCode : Option String) :=
  ctx.finishRun W .failed none (some (toStructuredError error errorCode))

def applyRunCancelled := ctx.finishRun W .cancelled none none

/-- The marker of a workflow-authored `attr_set`; an empty correlation ID gets none. -/
def attributeMarker (correlationId : Option String) (eventData : AttrSetData) : Option String :=
  if eventData.writer = .workflow then truthy correlationId else none

def applyAttrSet (correlationId : Option String) (eventData : AttrSetData)
    (currentRun : Option WorkflowRun) (txn : EventTxn) :
    Except Thrown (ApplyEventOutcome × EventTxn) :=
  match currentRun with
  | none => .ok (ctx.runNotFound, txn)
  | some currentRun =>
    if W.validateAttributeChanges eventData.changes (currentRun.attributes.map (·.1))
        eventData.allowReservedAttributes = false then .error .attributeError
    else
      let marked := correlationId.getD ""
      let markerKey := attributeMarker correlationId eventData
      if markerKey.any (fun key => txn.store.attrEvent[key]?.isSome) then
        .ok (failure .entityConflict
          s!"Attribute event \"{marked}\" already exists", txn)
      else do
        let run ← parseWith "WorkflowRunSchema" W.workflowRunSchema
          ((ctx.stamp W).attributedRun W currentRun eventData)
        let (event, txn) ← ctx.buildEvent W txn ctx.data.data.record
        .ok (.ok { event := some event, run := some run },
          ((txn.putRun run).markAttribute markerKey event.eventId).putEvent event)

def applyStepCreated (correlationId : String) (eventData : StepCreatedData) (txn : EventTxn) :
    Except Thrown (ApplyEventOutcome × EventTxn) :=
  if txn.store.steps[correlationId]?.isSome then
    .ok (failure .entityConflict s!"Step \"{correlationId}\" already exists", txn)
  else do
    let step ← parseWith "StepSchema" W.stepSchema
      ((ctx.stamp W).createdStep correlationId eventData.stepName eventData.input)
    let (event, txn) ← ctx.buildEvent W txn ctx.data.data.record
    .ok (.ok { event := some event, step := some step },
      ((txn.putStep correlationId step).putStepCreated step).putEvent event)

/-- The data a `step_started` creates its missing step from. -/
def lazyStepData (eventData : Option StepStartedData) : Option StepCreatedData :=
  eventData.bind fun data =>
    match data.input, truthy data.stepName with
    | some input, some stepName => some { stepName, workflowName := data.workflowName, input }
    | _, _ => none

/-- Lazy start: a missing step is created and journaled before it is started. -/
def createLazyStep (correlationId : String) (eventData : StepCreatedData) (txn : EventTxn) :
    Except Thrown (Step × EventTxn) := do
  let step ← parseWith "StepSchema" W.stepSchema
    ((ctx.stamp W).createdStep correlationId eventData.stepName eventData.input)
  let (event, txn) ← ctx.buildEvent W txn (.stepCreated correlationId eventData)
  .ok (step, ((txn.putStep correlationId step).putStepCreated step).putEvent event)

def tooEarly (correlationId : String) (retryAfter : Nat) : ApplyEventOutcome :=
  .fail
    { code := .tooEarly
      message := s!"Cannot start step \"{correlationId}\": retryAfter timestamp has not been reached yet"
      retryAfterSeconds := some ((retryAfter - ctx.now + 999) / 1000) }

/-- Store a changed step and journal the requested event. -/
def writeStep (correlationId : String) (updated : Step) (stepCreated : Bool) (txn : EventTxn) :
    Except Thrown (ApplyEventOutcome × EventTxn) := do
  let step ← parseWith "StepSchema" W.stepSchema updated
  let (event, txn) ← ctx.buildEvent W txn ctx.data.data.record
  .ok (.ok { event := some event, step := some step, stepCreated },
    (txn.putStep correlationId step).putEvent event)

def startStep (correlationId : String) (step : Step) (stepCreated : Bool) (txn : EventTxn) :
    Except Thrown (ApplyEventOutcome × EventTxn) :=
  match step.retryAfter with
  | some retryAfter =>
    if ctx.now < retryAfter then .ok (ctx.tooEarly correlationId retryAfter, txn)
    else ctx.writeStep W correlationId ((ctx.stamp W).startedStep step) stepCreated txn
  | none => ctx.writeStep W correlationId ((ctx.stamp W).startedStep step) stepCreated txn

def stepNotFound (correlationId : String) : ApplyEventOutcome :=
  failure .stepNotFound s!"Step \"{correlationId}\" not found"

def applyStepStarted (correlationId : String) (eventData : Option StepStartedData)
    (validatedStep : Option Step) (txn : EventTxn) :
    Except Thrown (ApplyEventOutcome × EventTxn) :=
  match validatedStep, lazyStepData eventData with
  | some step, _ => ctx.startStep W correlationId step false txn
  | none, some creation => do
    let (step, txn) ← ctx.createLazyStep W correlationId creation txn
    ctx.startStep W correlationId step true txn
  | none, none => .ok (stepNotFound correlationId, txn)

/-- `step_completed`, `step_failed` and `step_retrying` differ in the update only. -/
def applyStepUpdate (correlationId : String) (update : Step → Step) (validatedStep : Option Step)
    (txn : EventTxn) : Except Thrown (ApplyEventOutcome × EventTxn) :=
  match validatedStep with
  | none => .ok (stepNotFound correlationId, txn)
  | some step => ctx.writeStep W correlationId (update step) false txn

def applyStepCompleted (correlationId : String) (result : Option Value) :=
  ctx.applyStepUpdate W correlationId (fun step => (ctx.stamp W).completedStep step result)

def applyStepFailed (correlationId : String) (error : Option Value) :=
  ctx.applyStepUpdate W correlationId (fun step => (ctx.stamp W).failedStep step error)

def applyStepRetrying (correlationId : String) (error : Option Value) (retryAfter : Option Nat) :=
  ctx.applyStepUpdate W correlationId (fun step => (ctx.stamp W).retryingStep step error retryAfter)

/-- Another hook holds the token: the conflict is journaled, not refused. -/
def applyHookConflict (hookId : String) (eventData : HookCreatedData) (holder : HookTokenOwner)
    (txn : EventTxn) : Except Thrown (ApplyEventOutcome × EventTxn) := do
  let (event, txn) ← ctx.buildEvent W txn (.hookConflict hookId eventData.token holder.runId
    (if eventData.force = some true then ctx.forceRefusedReason else none))
  .ok (.ok { event := some event }, txn.putEvent event)

/-- The hook of an earlier creation: re-indexed as a crash orphan, or a duplicate. -/
def applyHookReplay (hookId : String) (eventData : HookCreatedData) (txn : EventTxn) :
    ApplyEventOutcome :=
  let duplicate := failure .entityConflict s!"Hook \"{hookId}\" already created"
  match txn.store.hooks[hookId]? with
  | some existing =>
    if ctx.tokenHolder.isNone ∧ existing.token = eventData.token then
      .ok { hook := some existing, hookToIndex := some existing }
    else duplicate
  | none => duplicate

def applyHookCreation (hookId : String) (eventData : HookCreatedData) (txn : EventTxn) :
    Except Thrown (ApplyEventOutcome × EventTxn) := do
  let claimedFrom := if eventData.force = some true then ctx.claimedFrom else none
  let hook ← parseWith "HookSchema" W.hookSchema ((ctx.stamp W).createdHook hookId eventData claimedFrom)
  let (event, txn) ← ctx.buildEvent W txn
    (.hookCreated hookId { eventData with forceClaimedFrom := claimedFrom })
  .ok (.ok { event := some event, hook := some hook, hookToIndex := some hook },
    ((txn.putHook hook).putHookEvent hookId event.eventId).putEvent event)

/-- Is the reservation behind this creation fenced? -/
def hookClaimCancelled (store : RunStore) : Bool :=
  (truthy ctx.hookClaimId).any fun claimId => store.hookClaimCancelled[claimId]?.isSome

def applyHookCreated (hookId : String) (eventData : HookCreatedData) (txn : EventTxn) :
    Except Thrown (ApplyEventOutcome × EventTxn) :=
  if ctx.hookClaimCancelled txn.store then
    .ok (failure .hookClaimCancelled
      s!"Hook reservation for \"{hookId}\" was canceled before commit", txn)
  else
    match ctx.tokenHolder.filter (fun holder => holder ≠ ⟨ctx.runId, hookId⟩) with
    | some holder => ctx.applyHookConflict W hookId eventData holder txn
    | none =>
      if txn.store.hookEvent[hookId]?.isSome then
        .ok (ctx.applyHookReplay hookId eventData txn, txn)
      else ctx.applyHookCreation W hookId eventData txn

def applyHookDisposed (correlationId : String) (txn : EventTxn) :
    Except Thrown (ApplyEventOutcome × EventTxn) :=
  match txn.store.hooks[correlationId]? with
  | none => .ok (failure .hookNotFound s!"Hook \"{correlationId}\" not found", txn)
  | some hook => do
    let (event, txn) ← ctx.buildEvent W (txn.releaseHook correlationId hook) ctx.data.data.record
    .ok (.ok { event := some event, releasedHooks := [⟨hook.hookId, hook.token⟩] },
      txn.putEvent event)

/-- Store a wait and journal the requested event. -/
def writeWait (correlationId : String) (wait : Wait) (txn : EventTxn) :
    Except Thrown (ApplyEventOutcome × EventTxn) := do
  let wait ← parseWith "WaitSchema" W.waitSchema wait
  let (event, txn) ← ctx.buildEvent W txn ctx.data.data.record
  .ok (.ok { event := some event, wait := some wait },
    (txn.putWait correlationId wait).putEvent event)

def applyWaitCreated (correlationId : String) (resumeAt : Nat) (txn : EventTxn) :
    Except Thrown (ApplyEventOutcome × EventTxn) :=
  if txn.store.waits[correlationId]?.isSome then
    .ok (failure .entityConflict s!"Wait \"{correlationId}\" already exists", txn)
  else ctx.writeWait W correlationId ((ctx.stamp W).createdWait correlationId resumeAt) txn

def applyWaitCompleted (correlationId : String) (resumeAt : Option Nat) (txn : EventTxn) :
    Except Thrown (ApplyEventOutcome × EventTxn) :=
  match txn.store.waits[correlationId]? with
  | none => .ok (failure .waitNotFound s!"Wait \"{correlationId}\" not found", txn)
  | some existing =>
    if existing.status = .completed then
      .ok (failure .entityConflict s!"Wait \"{correlationId}\" already completed", txn)
    else ctx.writeWait W correlationId ((ctx.stamp W).completedWait existing resumeAt) txn

/-- `hook_received` only appends its event and claims its resume ID. -/
def applyHookReceived (correlationId : String) (txn : EventTxn) :
    Except Thrown (ApplyEventOutcome × EventTxn) := do
  let (event, txn) ← ctx.buildEvent W txn ctx.data.data.record
  let txn := txn.putEvent event
  let txn : EventTxn := match truthy ctx.resumeId with
    | some resumeId => { txn with store := { txn.store with
        hookResume := txn.store.hookResume.insert resumeId
          ⟨correlationId, event.eventId, truthy ctx.resumePayloadDigest⟩ } }
    | none => txn
  .ok (.ok { event := some event }, txn)

end ApplyEventContext

end CelldWorld
