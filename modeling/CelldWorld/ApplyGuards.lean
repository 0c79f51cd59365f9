import CelldWorld.EventRequest

namespace CelldWorld

/-- The open transaction of one event application: the store and the
in-memory sequence behind `nextEventId`. -/
structure EventTxn where
  store : RunStore
  eventSequence : Nat

namespace EventTxn
variable (txn : EventTxn)

def putRun (run : WorkflowRun) : EventTxn := { txn with store := txn.store.putRun run }

def putEvent (event : Event) : EventTxn :=
  { txn with store := { txn.store with events := txn.store.events.insert event.eventId event } }

def putStep (id : String) (step : Step) : EventTxn := { txn with store := txn.store.putStep id step }

def putStepCreated (step : Step) : EventTxn := { txn with store := txn.store.putStepCreated step }

def putWait (id : String) (wait : Wait) : EventTxn := { txn with store := txn.store.putWait id wait }

def putHook (hook : Hook) : EventTxn := { txn with store := txn.store.putHook hook }

def putHookEvent (hookId eventId : String) : EventTxn :=
  { txn with store := txn.store.putHookEvent hookId eventId }

def releaseHook (hookId : String) (hook : Hook) : EventTxn :=
  { txn with store := txn.store.releaseHook hookId hook }

def markAttribute (marker : Option String) (eventId : String) : EventTxn :=
  { txn with store := txn.store.markAttribute marker eventId }

def putHookForced (hookId : String) (claim : HookForceClaim) : EventTxn :=
  { txn with store := txn.store.putHookForced hookId claim }

end EventTxn

/-- An application in progress: the request with the transaction's clock. -/
structure ApplyEventContext extends ApplyEventRequest where
  now : Nat

/-- The journal form of a request: `run_started` drops its event data and
`step_started` drops the step input. -/
def CreateEvent.record : CreateEvent → EventData
  | .runCreated eventData => .runCreated eventData
  | .runStarted _ => .runStarted
  | .runCompleted output => .runCompleted output
  | .runFailed error errorCode => .runFailed error errorCode
  | .runCancelled => .runCancelled
  | .attrSet correlationId eventData => .attrSet correlationId eventData
  | .stepCreated correlationId eventData => .stepCreated correlationId eventData
  | .stepStarted correlationId eventData =>
      .stepStarted correlationId (eventData.map fun data => { data with input := none })
  | .stepCompleted correlationId result => .stepCompleted correlationId result
  | .stepFailed correlationId error => .stepFailed correlationId error
  | .stepRetrying correlationId error retryAfter => .stepRetrying correlationId error retryAfter
  | .hookCreated correlationId eventData => .hookCreated correlationId eventData
  | .hookReceived correlationId payload => .hookReceived correlationId payload
  | .hookDisposed correlationId token forceClaimedBy =>
      .hookDisposed correlationId token forceClaimedBy
  | .waitCreated correlationId resumeAt => .waitCreated correlationId resumeAt
  | .waitCompleted correlationId resumeAt => .waitCompleted correlationId resumeAt

def EventData.isHookReceived : EventData → Bool
  | .hookReceived .. => true
  | _ => false

/-- What every entity and event written by one application has in common. -/
structure Stamp where
  runId : String
  now : Nat
  specVersion : Nat

def Event.stamp (event : Event) : Stamp := ⟨event.runId, event.createdAt, event.specVersion⟩

/-- The pending run that `run_created` and a resilient `run_started` store. -/
def Stamp.createdRun (stamp : Stamp) (eventData : RunCreatedData) : WorkflowRun :=
  { runId := stamp.runId
    deploymentId := eventData.deploymentId
    workflowName := eventData.workflowName
    specVersion := stamp.specVersion
    executionContext := eventData.executionContext
    attributes := eventData.attributes.getD []
    encryptionPublicKey := eventData.encryptionPublicKey
    input := eventData.input
    status := .pending
    output := none
    error := none
    startedAt := none
    completedAt := none
    createdAt := stamp.now
    updatedAt := stamp.now
    expiredAt := none }

namespace ApplyEventContext
variable (W : WorldContract) (ctx : ApplyEventContext)

def specVersion : Nat := ctx.data.specVersion.getD W.specVersionCurrent

def stamp : Stamp := ⟨ctx.runId, ctx.now, ctx.specVersion W⟩

def resumeId : Option String := ctx.params.bind (·.resumeId)

def resumePayloadDigest : Option String := ctx.params.bind (·.resumePayloadDigest)

/-- Build and validate the stored event before anything is persisted. -/
def buildEvent (txn : EventTxn) (data : EventData) : Except Thrown (Event × EventTxn) :=
  let event : Event :=
    { eventId := W.slotToEventId (txn.eventSequence + 1)
      runId := ctx.runId
      createdAt := ctx.now
      occurredAt := ctx.params.bind (·.occurredAt)
      resumeId := if data.isHookReceived then ctx.resumeId else none
      specVersion := ctx.specVersion W
      data }
  parseWith "EventSchema" W.eventSchema event >>= fun event =>
    .ok (event, { txn with eventSequence := txn.eventSequence + 1 })

/-- `run_created`, `step_completed` and `step_retrying` skip the run read. -/
def skipRunValidation : Bool :=
  match ctx.data.data with
  | .runCreated _ | .stepCompleted .. | .stepRetrying .. => true
  | _ => false

/-- The attribute changes of a creation are checked, not applied. -/
def checkCreationAttributes (eventData : RunCreatedData) : Except Thrown Unit :=
  let changes := (eventData.attributes.getD []).map fun (key, value) =>
    { key, value := some value : AttributeChange }
  if W.validateAttributeChanges changes [] eventData.allowReservedAttributes then .ok ()
  else .error .attributeError

/-- The run input of a `run_started` that may bootstrap its run. -/
def bootstrapData : Option RunCreatedData :=
  match ctx.data.data with
  | .runStarted (some eventData) =>
    match truthy eventData.deploymentId, truthy eventData.workflowName, eventData.input with
    | some deploymentId, some workflowName, some input =>
      some { deploymentId, workflowName, input
             executionContext := eventData.executionContext
             attributes := eventData.attributes
             allowReservedAttributes := eventData.allowReservedAttributes
             encryptionPublicKey := eventData.encryptionPublicKey }
    | _, _, _ => none
  | _ => none

/-- Resilient start: `run_started` on a missing run creates the run first. -/
def bootstrapRun (currentRun : Option WorkflowRun) (txn : EventTxn) :
    Except Thrown (Option WorkflowRun × Option RunCreatedInfo × EventTxn) :=
  match currentRun, ctx.bootstrapData with
  | none, some eventData =>
    checkCreationAttributes W eventData >>= fun _ =>
    parseWith "WorkflowRunSchema" W.workflowRunSchema ((ctx.stamp W).createdRun eventData) >>= fun run =>
    ctx.buildEvent W txn (.runCreated eventData) >>= fun (event, txn) =>
    .ok (some run, some ⟨eventData.workflowName, ctx.now⟩, (txn.putRun run).putEvent event)
  | currentRun, _ => .ok (currentRun, none, txn)

/-- The Workflow 5 protocol boundary. -/
def specVersionRefusal (specVersion : Nat) : ApplyEventOutcome :=
  .fail
    { code := .runNotSupported
      message := s!"Run \"{ctx.runId}\" uses unsupported specVersion {specVersion}; this world requires {W.specVersionCurrent}"
      runSpecVersion := some specVersion }

/-- Guards on a run in a terminal state. A repeated `run_cancelled` is
journaled again; everything else that would change the run is refused. -/
def terminalRunGuard (currentRun : WorkflowRun) (txn : EventTxn) :
    Except Thrown (Option ApplyEventOutcome × EventTxn) :=
  if isTerminalWorkflowRunStatus currentRun.status = false then .ok (none, txn)
  else
    let conflict := failure .entityConflict
      s!"Cannot transition run from terminal state \"{currentRun.status.name}\""
    match ctx.data.data with
    | .runCancelled =>
      if currentRun.status = .cancelled then
        ctx.buildEvent W txn .runCancelled >>= fun (event, txn) =>
        .ok (some (.ok { event := some event, run := some currentRun }), txn.putEvent event)
      else .ok (some conflict, txn)
    | .runStarted _ =>
      .ok (some (failure .runExpired
        s!"Workflow run \"{ctx.runId}\" is already in terminal state \"{currentRun.status.name}\""), txn)
    | .runCompleted _ | .runFailed .. => .ok (some conflict, txn)
    | data =>
      if W.isChildEntityCreationEvent data then
        .ok (some (failure .entityConflict
          s!"Cannot create new entities on run in terminal state \"{currentRun.status.name}\""), txn)
      else match data with
        | .attrSet .. =>
          .ok (some (failure .entityConflict
            s!"Cannot set attributes on run in terminal state \"{currentRun.status.name}\""), txn)
        | _ => .ok (none, txn)

end ApplyEventContext

/-- The step a step event addresses, and whether it may create that step. -/
def CreateEvent.stepTarget (W : WorldContract) : CreateEvent → Option (String × Bool)
  | .stepStarted id eventData => some (id, W.isChildEntityCreationEvent (.stepStarted id eventData))
  | .stepCompleted id _ | .stepFailed id _ | .stepRetrying id _ _ => some (id, false)
  | _ => none

/-- Guards on step ordering and terminal steps; the validated step is handed on. -/
def stepGuard (W : WorldContract) (store : RunStore) (currentRun : Option WorkflowRun)
    (data : CreateEvent) : Except ApplyEventOutcome (Option Step) :=
  match data.stepTarget W with
  | none => .ok none
  | some (correlationId, lazyStepStart) =>
    match store.steps[correlationId]? with
    | none =>
      if lazyStepStart then .ok none
      else .error (failure .stepNotFound s!"Step \"{correlationId}\" not found")
    | some step =>
      if lazyStepStart then
        .error (failure .entityConflict s!"Step \"{correlationId}\" already exists")
      else if isTerminalStepStatus step.status then
        .error (failure .entityConflict
          s!"Cannot modify step in terminal state \"{step.status.name}\"")
      else match currentRun with
        | some run =>
          if isTerminalWorkflowRunStatus run.status ∧ step.status ≠ .running then
            .error (failure .runExpired
              s!"Cannot modify non-running step on run in terminal state \"{run.status.name}\"")
          else .ok (some step)
        | none => .ok (some step)

/-- Does this event record the claimed resume? -/
def Event.recordsResume (event : Event) (hookId resumeId : String) : Bool :=
  match event.data with
  | .hookReceived correlationId _ => correlationId = hookId ∧ event.resumeId = some resumeId
  | _ => false

/-- A `hook_received` whose resume ID was already claimed is answered from the claim. -/
def hookResumeGuard (store : RunStore) (ctx : ApplyEventContext) : Option ApplyEventOutcome :=
  match ctx.data.data, truthy ctx.resumeId with
  | .hookReceived correlationId _, some resumeId =>
    match store.hookResume[resumeId]? with
    | none => none
    | some claim =>
      if claim.hookId ≠ correlationId then
        some (failure .entityConflict
          s!"hook_received resumeId \"{resumeId}\" already recorded for a different hook")
      else
        match truthy claim.payloadDigest, truthy ctx.resumePayloadDigest with
        | some recorded, some supplied =>
          if recorded ≠ supplied then
            some (failure .entityConflict
              s!"hook_received resumeId \"{resumeId}\" already recorded with a different payload")
          else committedResume claim resumeId
        | _, _ => committedResume claim resumeId
  | _, _ => none
where
  committedResume (claim : HookResumeClaim) (resumeId : String) : Option ApplyEventOutcome :=
    match store.events[claim.eventId]? with
    | none => none
    | some committed =>
      if committed.recordsResume claim.hookId resumeId then
        some (.ok { event := some committed })
      else
        some (failure .entityConflict
          s!"hook_received resumeId \"{resumeId}\" points to a different event")

/-- Guards on `hook_disposed` and `hook_received`; an empty correlation ID passes them. -/
def hookGuard (store : RunStore) (currentRun : Option WorkflowRun) (data : CreateEvent) :
    Option ApplyEventOutcome :=
  match data with
  | .hookDisposed correlationId _ _ =>
    if correlationId = "" then none
    else match store.hooks[correlationId]? with
      | some _ => none
      | none =>
        match store.hookReleased[correlationId]? with
        | some released => some (.ok { releasedHooks := [released] })
        | none => some (failure .hookNotFound s!"Hook \"{correlationId}\" not found")
  | .hookReceived correlationId _ =>
    if correlationId = "" then none
    else match store.hooks[correlationId]? with
      | none =>
        match store.hookForced[correlationId]? with
        | some forced =>
          some (.fail
            { code := .hookForceClaimed
              message := s!"Hook \"{correlationId}\" was force-claimed by run \"{forced.claimedBy.runId}\""
              token := some forced.token
              claimedBy := some forced.claimedBy })
        | none => some (failure .hookNotFound s!"Hook \"{correlationId}\" not found")
      | some _ =>
        if currentRun.any (fun run => isTerminalWorkflowRunStatus run.status) then
          some (failure .hookNotFound s!"Hook \"{correlationId}\" not found")
        else none
  | _ => none

end CelldWorld
