import CelldWorld.ApplyWrites

namespace CelldWorld

namespace ApplyEventContext
variable (W : WorldContract) (ctx : ApplyEventContext)

/-- The event and entity writes, by event type. -/
def applyWrites (deferTerminalCleanup : Bool) (currentRun : Option WorkflowRun)
    (bootstrapped : Option RunCreatedInfo) (validatedStep : Option Step) (txn : EventTxn) :
    Except Thrown (ApplyEventOutcome × EventTxn) :=
  match ctx.data.data with
  | .runCreated eventData => ctx.applyRunCreated W eventData txn
  | .runStarted _ => ctx.applyRunStarted W currentRun bootstrapped txn
  | .runCompleted output => ctx.applyRunCompleted W output deferTerminalCleanup currentRun txn
  | .runFailed error errorCode =>
      ctx.applyRunFailed W error errorCode deferTerminalCleanup currentRun txn
  | .runCancelled => ctx.applyRunCancelled W deferTerminalCleanup currentRun txn
  | .attrSet correlationId eventData => ctx.applyAttrSet W correlationId eventData currentRun txn
  | .stepCreated correlationId eventData => ctx.applyStepCreated W correlationId eventData txn
  | .stepStarted correlationId eventData =>
      ctx.applyStepStarted W correlationId eventData validatedStep txn
  | .stepCompleted correlationId result =>
      ctx.applyStepCompleted W correlationId result validatedStep txn
  | .stepFailed correlationId error => ctx.applyStepFailed W correlationId error validatedStep txn
  | .stepRetrying correlationId error retryAfter =>
      ctx.applyStepRetrying W correlationId error retryAfter validatedStep txn
  | .hookCreated correlationId eventData => ctx.applyHookCreated W correlationId eventData txn
  | .hookReceived correlationId _ => ctx.applyHookReceived W correlationId txn
  | .hookDisposed correlationId _ _ => ctx.applyHookDisposed W correlationId txn
  | .waitCreated correlationId resumeAt => ctx.applyWaitCreated W correlationId resumeAt txn
  | .waitCompleted correlationId resumeAt => ctx.applyWaitCompleted W correlationId resumeAt txn

def isRunStarted : Bool :=
  match ctx.data.data with
  | .runStarted _ => true
  | _ => false

/-- Everything after the terminal-run guard: step guards, hook guards, writes. -/
def applyGuarded (deferTerminalCleanup : Bool) (currentRun : Option WorkflowRun)
    (bootstrapped : Option RunCreatedInfo) (txn : EventTxn) :
    Except Thrown (ApplyEventOutcome × EventTxn) :=
  match stepGuard W txn.store currentRun ctx.data.data with
  | .error outcome => .ok (outcome, txn)
  | .ok validatedStep =>
    match hookResumeGuard txn.store ctx with
    | some outcome => .ok (outcome, txn)
    | none =>
      match hookGuard txn.store currentRun ctx.data.data with
      | some outcome => .ok (outcome, txn)
      | none =>
        if ctx.skipRunValidation = false ∧ ctx.isRunStarted = false ∧ currentRun = none then
          .ok (ctx.runNotFound, txn)
        else ctx.applyWrites W deferTerminalCleanup currentRun bootstrapped validatedStep txn

end ApplyEventContext

/-- `applyEvent` of the event core: all guards, the append and the entity
mutation of one request against one open transaction. -/
def applyEvent (W : WorldContract) (deferTerminalCleanup : Bool) (ctx : ApplyEventContext)
    (txn : EventTxn) : Except Thrown (ApplyEventOutcome × EventTxn) :=
  if ctx.specVersion W ≠ W.specVersionCurrent then
    .ok (ctx.specVersionRefusal W (ctx.specVersion W), txn)
  else do
    let (currentRun, bootstrapped, txn) ←
      ctx.bootstrapRun W (if ctx.skipRunValidation then none else txn.store.run) txn
    match currentRun with
    | none => ctx.applyGuarded W deferTerminalCleanup none bootstrapped txn
    | some run =>
      if run.specVersion ≠ W.specVersionCurrent then
        .ok (ctx.specVersionRefusal W run.specVersion, txn)
      else do
        let (early, txn) ← ctx.terminalRunGuard W run txn
        match early with
        | some outcome => .ok (outcome, txn)
        | none => ctx.applyGuarded W deferTerminalCleanup (some run) bootstrapped txn

/-- The victim half of a forced takeover. A finished run gets no row. -/
def applyForcedHookDisposal (W : WorldContract) (runId : String) (now : Nat) (hookId token : String)
    (claimedBy : HookTokenOwner) (txn : EventTxn) : Except Thrown (Bool × EventTxn) :=
  if txn.store.hookForced[hookId]?.isSome then .ok (false, txn)
  else match txn.store.hooks[hookId]? with
    | none => .ok (false, txn)
    | some hook =>
      if hook.token ≠ token then .ok (false, txn)
      else
        let txn := (txn.releaseHook hookId hook).putHookForced hookId ⟨token, claimedBy⟩
        match txn.store.run with
        | none => .ok (false, txn)
        | some run =>
          if isTerminalWorkflowRunStatus run.status then .ok (false, txn)
          else do
            let event ← parseWith "EventSchema" W.eventSchema
              { eventId := W.slotToEventId (txn.eventSequence + 1)
                runId
                createdAt := now
                occurredAt := none
                resumeId := none
                specVersion := run.specVersion
                data := .hookDisposed hookId (some token) (some claimedBy) }
            let txn : EventTxn := { txn with eventSequence := txn.eventSequence + 1 }
            .ok (true, txn.putEvent event)

/-- The two event claim IDs under which a reservation of `claimId` can commit. -/
def fenceHookClaim (store : RunStore) (claimId : String) (cancellation : HookClaimCancellation) :
    RunStore :=
  let fenced := store.hookClaimCancelled.insert s!"{claimId}:{claimId}" cancellation
  { store with hookClaimCancelled := fenced.insert s!"-:{claimId}" cancellation }

structure ForcedClaimRequest where
  hookId : String
  token : String
  claimId : String
  victim : HookTokenOwner
  deriving DecidableEq, Repr

structure ForcedClaimResolution where
  journaled : Bool
  hook : Option Hook
  deriving DecidableEq, Repr

/-- The `hook_created` event journaled for a hook, found through its marker. -/
def RunStore.createdEvent (store : RunStore) (hookId : String) : Option HookCreatedData :=
  store.hookEvent[hookId]?.bind fun eventId =>
    store.events[eventId]?.bind fun event =>
      match event.data with
      | .hookCreated _ eventData => some eventData
      | _ => none

/-- Decide a pending forced takeover from the claimer's own log: journaled
against this victim, or fenced. -/
def resolveForcedHookClaim (store : RunStore) (request : ForcedClaimRequest) (now : Nat) :
    ForcedClaimResolution × RunStore :=
  let journaled := (store.createdEvent request.hookId).any fun created =>
    created.token = request.token ∧
      created.forceClaimedFrom.map HookClaimedFrom.owner = some request.victim
  if journaled then
    let live := store.run.any fun run => isTerminalWorkflowRunStatus run.status = false
    ({ journaled := true
       hook := if live then
          store.hooks[request.hookId]?.filter (fun hook => hook.token = request.token)
        else none }, store)
  else
    ({ journaled := false, hook := none },
      fenceHookClaim store request.claimId ⟨request.hookId, some request.token, now⟩)

/-- `attachHookReplayPreload`: the complete log with its last event as cursor. -/
def attachHookReplayPreload (W : WorldContract) (store : RunStore) (result : ApplyEventSuccess) :
    ApplyEventSuccess :=
  match store.run with
  | none => result
  | some run =>
    if run.startedAt.isNone ∨ run.status ≠ .running then result
    else
      let log := listEventPage store.events W.getMaxEventsPerRun none
      match log.hasMore, log.events.getLast? with
      | false, some last =>
        { result with
          replayRun := some run
          maxEvents := some W.getMaxEventsPerRun
          page := some { events := log.events, cursor := some last.eventId, hasMore := false } }
      | _, _ => result

/-- The events a stale `eventCount` is missing before the committed event. -/
def attachSkippedEvents (W : WorldContract) (store : RunStore) (result : ApplyEventSuccess)
    (event : Event) (eventCount : Nat) : ApplyEventSuccess :=
  match W.eventIdToSlot event.eventId with
  | none => result
  | some committedSlot =>
    if committedSlot ≤ eventCount + 1 then result
    else
      let skippedCount := committedSlot - eventCount - 1
      let page := listEventPage store.events skippedCount
        (if 0 < eventCount then some (W.slotToEventId eventCount) else none)
      let events := page.events.filter fun other => other.eventId < event.eventId
      { result with
        page := some { events, cursor := none, hasMore := events.length < skippedCount } }

/-- Complete the event page of a successful outcome after an atomic apply. -/
def finalizeEventPage (W : WorldContract) (store : RunStore) (outcome : ApplyEventOutcome)
    (params : Option CreateEventParams) : ApplyEventOutcome :=
  match outcome with
  | .fail failure => .fail failure
  | .ok success =>
    let result := if success.run.isSome ∧ success.maxEvents = none then
        { success with maxEvents := some W.getMaxEventsPerRun }
      else success
    match result.event, params with
    | none, _ | some _, none => .ok result
    | some event, some params =>
      if params.preloadEvents ∧ event.data.isHookReceived then
        .ok (attachHookReplayPreload W store result)
      else match params.sinceCursor, params.eventCount with
        | some cursor, _ =>
          .ok { result with page := some (listEventPage store.events 100 (some cursor)) }
        | none, none => .ok result
        | none, some eventCount => .ok (attachSkippedEvents W store result event eventCount)

end CelldWorld
