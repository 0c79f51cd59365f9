import CelldWorld.ApplyEvent

namespace CelldWorld

/-- `Date.prototype.toISOString` for a non-negative time. -/
def toISOString (ms : Nat) : String :=
  let pad (width value : Nat) : String :=
    let digits := toString value
    String.ofList (List.replicate (width - digits.length) '0') ++ digits
  -- civil date of a day count, in 400-year eras starting on 1 March
  let day := ms / 86400000 + 719468
  let era := day / 146097
  let dayOfEra := day % 146097
  let yearOfEra := (dayOfEra - dayOfEra / 1460 + dayOfEra / 36524 - dayOfEra / 146096) / 365
  let dayOfYear := dayOfEra - (365 * yearOfEra + yearOfEra / 4 - yearOfEra / 100)
  let shifted := (5 * dayOfYear + 2) / 153
  let dayOfMonth := dayOfYear - (153 * shifted + 2) / 5 + 1
  let month := if shifted < 10 then shifted + 3 else shifted - 9
  let year := yearOfEra + era * 400 + (if month ≤ 2 then 1 else 0)
  let date := (if year ≤ 9999 then pad 4 year else "+" ++ pad 6 year) ++ "-" ++ pad 2 month ++
    "-" ++ pad 2 dayOfMonth
  let time := ms % 86400000
  date ++ "T" ++ pad 2 (time / 3600000) ++ ":" ++ pad 2 (time / 60000 % 60) ++ ":" ++
    pad 2 (time / 1000 % 60) ++ "." ++ pad 3 (time % 1000) ++ "Z"

/-- `cleanupTombstone` -/
def cleanupTombstone (record : CleanupRecord) (now : Nat) : RunTombstone :=
  { runId := record.runId
    status := record.status.or record.terminalStatus
    terminalStatus := record.terminalStatus
    completedAt := record.completedAt
    expiredAt := record.dueAt
    tombstonedAt := now
    cleanup := { record with phase := .tombstoned, tombstonedAt := some now } }

namespace RunStore

/-- `tombstoneFrom`: the run is expired once its cleanup record is due or past `retained`. -/
def tombstoneFrom (store : RunStore) (now : Nat) : Option RunTombstone :=
  match store.tombstone, store.cleanup with
  | some tombstone, _ => some tombstone
  | none, none => none
  | none, some cleanup =>
    if cleanup.phase = .retained ∧ now < cleanup.dueAt then none
    else some (cleanupTombstone cleanup (cleanup.tombstonedAt.getD cleanup.dueAt))

/-- The run exists and has reached a terminal status. -/
def isTerminal (store : RunStore) : Bool :=
  store.run.any fun run => isTerminalWorkflowRunStatus run.status

end RunStore

/-- `validateCleanupRequest`, for a retention that is already a non-negative integer. -/
def validateCleanupRequest (request : ScheduleCleanupRequest) (allowDisabled : Bool) :
    Except Thrown Unit :=
  if request.retentionMs ≤ MAX_SAFE_INTEGER ∧ (allowDisabled ∨ 0 < request.retentionMs) then .ok ()
  else if allowDisabled then
    .error (.error "world-celld retentionMs must be a non-negative safe integer")
  else .error (.error "world-celld retentionMs must be a positive safe integer")

def checkCleanup : Option ScheduleCleanupRequest → Except Thrown Unit
  | none => .ok ()
  | some request => validateCleanupRequest request true

def retentionDeadline (baseMs retentionMs : Nat) (runId : String) : Except Thrown Nat :=
  if baseMs + retentionMs ≤ MAX_SAFE_INTEGER ∧ baseMs + retentionMs ≤ MAX_DATE_MS then
    .ok (baseMs + retentionMs)
  else .error (.error s!"world-celld retention deadline is out of range for {runId}")

/-- `cleanupRecord`: a fresh record of a run in the `retained` phase. -/
def cleanupRecord (run : WorkflowRun) (dueAt : Nat) (reason : CleanupReason) : CleanupRecord :=
  let terminal := isTerminalWorkflowRunStatus run.status
  { runId := run.runId
    workflowName := run.workflowName
    createdAt := run.createdAt
    status := some run.status
    completedAt := if terminal then run.completedAt else none
    terminalStatus := if terminal then some run.status else none
    reason := some reason
    dueAt
    phase := .retained
    generation := 0
    attempts := 0
    lastError := none
    lastAttemptAt := none
    tombstonedAt := none
    deletedPayloadKeys := 0
    deletedStreams := 0
    deletedQueuePayloads := 0 }

inductive RunLifecycleStatus
  | active | terminal | expired | missing
  deriving DecidableEq, Repr

/-- What a forced takeover learns about the run that holds the token. -/
structure ForceClaimVictim where
  lifecycle : RunLifecycleStatus
  workflowName : Option String
  deploymentId : Option String
  specVersion : Option Nat
  deriving DecidableEq, Repr

/-- The sequence is written only when the application consumed a slot. -/
def EventTxn.persist (txn : EventTxn) (storedSequence : Nat) : RunStore :=
  if txn.eventSequence = storedSequence then txn.store
  else { txn.store with eventSequence := txn.eventSequence }

/-- `storage.transaction`: a thrown error rolls the store back. -/
def transaction {α : Type} (store : RunStore) (body : Except Thrown (α × RunStore)) : RunStore :=
  match body with
  | .ok (_, store) => store
  | .error _ => store

/-- The success that a call of `applyEvent` has answered. -/
def eventSuccess (call : Except Thrown (ApplyEventOutcome × RunStore)) : Option ApplyEventSuccess :=
  match call with
  | .ok (.ok success, _) => some success
  | _ => none

theorem eventSuccess_eq_some {call : Except Thrown (ApplyEventOutcome × RunStore)} {success : ApplyEventSuccess} :
    eventSuccess call = some success ↔ ∃ after, call = .ok (.ok success, after) := by
  constructor
  · intro accepts
    unfold eventSuccess at accepts
    split at accepts
    · cases accepts
      exact ⟨_, rfl⟩
    · cases accepts
  · rintro ⟨after, rfl⟩
    rfl

namespace WorkflowRunDO
variable (W : WorldContract)

def runExpired (runId : String) (tombstone : RunTombstone) : ApplyEventOutcome :=
  failure .runExpired s!"Workflow run \"{runId}\" expired at {toISOString tombstone.expiredAt}"

/-- The retention markers of the hooks an outcome indexes or releases. -/
def putHookReferences (success : ApplyEventSuccess) (store : RunStore) : RunStore :=
  let references := (success.hookToIndex.map fun hook => ⟨hook.hookId, hook.token⟩).toList ++
    success.releasedHooks
  references.foldl RunStore.putHookMarker store

/-- A terminal run of a cell with retention gets its cleanup record in the same transaction. -/
def scheduleTerminalRetention (retentionMs : Nat) (success : ApplyEventSuccess) (store : RunStore) :
    Except Thrown (ApplyEventSuccess × RunStore) :=
  match success.run with
  | none => .ok (success, store)
  | some run =>
    if 0 < retentionMs ∧ isTerminalWorkflowRunStatus run.status ∧ store.cleanup = none then do
      let dueAt ← retentionDeadline (run.completedAt.getD 0) retentionMs run.runId
      let run ← parseWith "WorkflowRunSchema" W.workflowRunSchema { run with expiredAt := some dueAt }
      .ok ({ success with run := some run },
        { store with
          run := some run
          cleanup := some (cleanupRecord run dueAt .terminalRetention)
          alarm := some dueAt })
    else .ok (success, store)

/-- A terminal run starts its terminal cleanup. -/
def startTerminalCleanup (now : Nat) (success : ApplyEventSuccess) (store : RunStore) : RunStore :=
  match success.run with
  | none => store
  | some run =>
    if isTerminalWorkflowRunStatus run.status then
      { store with
        terminalCleanup := store.terminalCleanup.or (some
          { runId := run.runId, phase := .hooks, generation := 0, attempts := 0
            lastError := none, lastAttemptAt := none })
        alarm := some (now + 1) }
    else store

/-- A run created by this version keeps its queue claims in its own cell. -/
def recordClaimScope (success : ApplyEventSuccess) (store : RunStore) : RunStore :=
  if success.runCreated.isSome then { store with queueClaimScope := some "run" } else store

def setPublicationDeadline (now : Nat) (success : ApplyEventSuccess) : ApplyEventSuccess :=
  if success.run.isSome then
    { success with indexPublicationExpiresAt := some (now + MAX_RUN_INDEX_PUBLICATION_LIFETIME_MS) }
  else success

/-- What the cell persists around a successful event application. -/
def commitOutcome (request : ApplyEventRequest) (now storedSequence : Nat)
    (success : ApplyEventSuccess) (txn : EventTxn) : Except Thrown (ApplyEventOutcome × RunStore) := do
  let store := putHookReferences success (recordClaimScope success (txn.persist storedSequence))
  let (success, store) ← scheduleTerminalRetention W
    ((request.cleanup.map (·.retentionMs)).getD 0) success store
  let store := startTerminalCleanup now success store
  .ok (finalizeEventPage W store (.ok (setPublicationDeadline now success)) request.params, store)

/-- `WorkflowRunDO.applyEvent` of the cell named `runId`. A refusal returns from
inside the transaction, so what was written before it would be committed. -/
def applyEvent (runId : String) (now : Nat) (request : ApplyEventRequest) (store : RunStore) :
    Except Thrown (ApplyEventOutcome × RunStore) := do
  let request ← parseApplyEventRequest W request
  if request.runId ≠ runId then
    .error (.typeError s!"applyEvent runId \"{request.runId}\" does not match durable object \"{runId}\"")
  else do
    checkCleanup request.cleanup
    match store.tombstoneFrom now with
    | some tombstone => .ok (runExpired request.runId tombstone, store)
    | none => do
      let (outcome, txn) ← CelldWorld.applyEvent W true { request with now }
        { store, eventSequence := store.eventSequence }
      match outcome with
      | .fail failure => .ok (.fail failure, txn.store)
      | .ok success => commitOutcome W request now store.eventSequence success txn

/-- `WorkflowRunDO.applyEvent` over a store that defers its terminal cleanup or does not. -/
def applyEventDeferring (deferTerminalCleanup : Bool) (runId : String) (now : Nat)
    (request : ApplyEventRequest) (store : RunStore) :
    Except Thrown (ApplyEventOutcome × RunStore) := do
  let request ← parseApplyEventRequest W request
  if request.runId ≠ runId then
    .error (.typeError s!"applyEvent runId \"{request.runId}\" does not match durable object \"{runId}\"")
  else do
    checkCleanup request.cleanup
    match store.tombstoneFrom now with
    | some tombstone => .ok (runExpired request.runId tombstone, store)
    | none => do
      let (outcome, txn) ← CelldWorld.applyEvent W deferTerminalCleanup { request with now }
        { store, eventSequence := store.eventSequence }
      match outcome with
      | .fail failure => .ok (.fail failure, txn.store)
      | .ok success => commitOutcome W request now store.eventSequence success txn

theorem applyEvent_deferring {W : WorldContract} {runId : String} {now : Nat} {request : ApplyEventRequest}
    {store : RunStore} :
    applyEvent W runId now request store = applyEventDeferring W true runId now request store :=
  rfl

/-- Resolve an ambiguous hook creation: committed, or its exact event claim ID is fenced. -/
def resolveHookTokenClaim (now : Nat) (hookId token claimId : String) (store : RunStore) :
    Bool × RunStore :=
  if (store.tombstoneFrom now).isSome then (false, store)
  else if store.hooks[hookId]?.any (fun hook => hook.token = token) then (true, store)
  else (false, { store with hookClaimCancelled :=
    store.hookClaimCancelled.insert claimId ⟨hookId, some token, now⟩ })

/-- Resolve a stale shard claim: the live hook, or both event claim IDs are fenced. -/
def resolveExpiredHookClaim (now : Nat) (hookId claimId : String) (token : Option String)
    (store : RunStore) : Except Thrown (Option Hook × RunStore) :=
  if hookId = "" ∨ claimId = "" then
    .error (.typeError "world-celld expired hook claim resolution is invalid")
  else if (store.tombstoneFrom now).isSome then .ok (none, store)
  else if store.isTerminal then .ok (none, store)
  else match store.hooks[hookId]?.filter (fun hook => token.all (hook.token = ·)) with
    | some hook => .ok (some hook, store)
    | none => .ok (none, fenceHookClaim store claimId ⟨hookId, token, now⟩)

/-- Read-only twin of `resolveExpiredHookClaim` for index repair. -/
def getCommittedHook (now : Nat) (hookId : String) (token : Option String) (store : RunStore) :
    Except Thrown (Option Hook) :=
  if hookId = "" then .error (.typeError "world-celld committed hook lookup is invalid")
  else if (store.tombstoneFrom now).isSome ∨ store.run = none ∨ store.isTerminal then .ok none
  else .ok (store.hooks[hookId]?.filter (fun hook => token.all (hook.token = ·)))

/-- The single authoritative lifecycle answer. -/
def getLifecycleStatus (now : Nat) (store : RunStore) : RunLifecycleStatus :=
  if (store.tombstoneFrom now).isSome then .expired
  else match store.run with
    | none => .missing
    | some run => if isTerminalWorkflowRunStatus run.status then .terminal else .active

def describeForceClaimVictim (now : Nat) (store : RunStore) : ForceClaimVictim :=
  match getLifecycleStatus now store, store.run with
  | .active, some run => ⟨.active, some run.workflowName, some run.deploymentId, some run.specVersion⟩
  | .terminal, some run =>
      ⟨.terminal, some run.workflowName, some run.deploymentId, some run.specVersion⟩
  | lifecycle, _ => ⟨lifecycle, none, none, none⟩

/-- Journal another run's takeover of one of this run's hooks. -/
def forceDisposeHook (runId : String) (now : Nat) (hookId token : String) (claimedBy : HookTokenOwner)
    (store : RunStore) : Except Thrown (Bool × RunStore) :=
  if hookId = "" ∨ token = "" ∨ claimedBy.runId = "" ∨ claimedBy.hookId = "" then
    .error (.typeError "world-celld forced hook disposal is invalid")
  else if (store.tombstoneFrom now).isSome then .ok (false, store)
  else do
    let (journaled, txn) ← applyForcedHookDisposal W runId now hookId token claimedBy
      { store, eventSequence := store.eventSequence }
    .ok (journaled, txn.persist store.eventSequence)

/-- Decide a pending forced takeover by this run: journaled, or fenced. -/
def resolveForcedHookClaim (now : Nat) (request : ForcedClaimRequest) (store : RunStore) :
    Except Thrown (ForcedClaimResolution × RunStore) :=
  if request.hookId = "" ∨ request.token = "" ∨ request.claimId = "" ∨
      request.victim.runId = "" ∨ request.victim.hookId = "" then
    .error (.typeError "world-celld forced hook claim resolution is invalid")
  else if (store.tombstoneFrom now).isSome then .ok ({ journaled := false, hook := none }, store)
  else .ok (CelldWorld.resolveForcedHookClaim store request now)

/-- `getRun`: the stored run, unless it is expired. -/
def getRun (now : Nat) (store : RunStore) : Except RunTombstone (Option WorkflowRun) :=
  match store.tombstoneFrom now with
  | some tombstone => .error tombstone
  | none => .ok store.run

end WorkflowRunDO

end CelldWorld
