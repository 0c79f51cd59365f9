import CelldWorld.RunCell

namespace CelldWorld

def HOOK_MARKER_PAGE_SIZE : Nat := 64
def TERMINAL_HOOK_PAGE_SIZE : Nat := 64
def TERMINAL_WAIT_PAGE_SIZE : Nat := 128
def PAYLOAD_DELETE_BATCH : Nat := 128
def CLEANUP_RETRY_MAX_MS : Nat := 60 * 60 * 1000

inductive EnforceRetentionState
  | missing | notDue | scheduled | expired
  deriving DecidableEq, Repr

structure EnforceRetentionRequest extends ScheduleCleanupRequest where
  scheduledTime : Nat
  deriving DecidableEq, Repr

structure EnforceRetentionResult where
  state : EnforceRetentionState
  cleanup : Option CleanupRecord
  deriving DecidableEq, Repr

/-- One storage key of a run cell. -/
inductive StoreKey
  | attrEvent (id : String) | event (id : String) | eventSequence | hook (id : String)
  | hookClaimCancelled (id : String) | hookCreated (key : Nat × String) | hookEvent (id : String)
  | hookForced (id : String) | hookReleased (id : String) | hookResume (id : String)
  | queueClaimScope | queueClaim (id : String) | queuePayload (id : String) | cleanup
  | hookMarker (key : String × String) | tombstone | run
  | step (id : String) | stepCreated (key : Nat × String) | terminalCleanup | wait (id : String)
  deriving DecidableEq, Repr

namespace RunStore

/-- Every key of the cell, prefix by prefix in the byte order of the prefixes. -/
def keys (store : RunStore) : List StoreKey :=
  let single {α : Type} (value : Option α) (key : StoreKey) := if value.isSome then [key] else []
  store.attrEvent.keys.map .attrEvent ++ store.events.keys.map .event ++
  (if store.eventSequence = 0 then [] else [.eventSequence]) ++ store.hooks.keys.map .hook ++
  store.hookClaimCancelled.keys.map .hookClaimCancelled ++
  store.hookCreated.keys.map .hookCreated ++ store.hookEvent.keys.map .hookEvent ++
  store.hookForced.keys.map .hookForced ++ store.hookReleased.keys.map .hookReleased ++
  store.hookResume.keys.map .hookResume ++ single store.queueClaimScope .queueClaimScope ++
  store.queueClaims.keys.map .queueClaim ++ store.queuePayloads.keys.map .queuePayload ++
  single store.cleanup .cleanup ++ store.hookMarkers.keys.map .hookMarker ++
  single store.tombstone .tombstone ++ single store.run .run ++ store.steps.keys.map .step ++
  store.stepCreated.keys.map .stepCreated ++ single store.terminalCleanup .terminalCleanup ++
  store.waits.keys.map .wait

def delete (store : RunStore) : StoreKey → RunStore
  | .attrEvent id => { store with attrEvent := store.attrEvent.erase id }
  | .event id => { store with events := store.events.erase id }
  | .eventSequence => { store with eventSequence := 0 }
  | .hook id => { store with hooks := store.hooks.erase id }
  | .hookClaimCancelled id => { store with hookClaimCancelled := store.hookClaimCancelled.erase id }
  | .hookCreated key => { store with hookCreated := store.hookCreated.erase key }
  | .hookEvent id => { store with hookEvent := store.hookEvent.erase id }
  | .hookForced id => { store with hookForced := store.hookForced.erase id }
  | .hookReleased id => { store with hookReleased := store.hookReleased.erase id }
  | .hookResume id => { store with hookResume := store.hookResume.erase id }
  | .queueClaimScope => { store with queueClaimScope := none }
  | .queueClaim id => { store with queueClaims := store.queueClaims.erase id }
  | .queuePayload id => { store with queuePayloads := store.queuePayloads.erase id }
  | .cleanup => { store with cleanup := none }
  | .hookMarker key => { store with hookMarkers := store.hookMarkers.erase key }
  | .tombstone => { store with tombstone := none }
  | .run => { store with run := none }
  | .step id => { store with steps := store.steps.erase id }
  | .stepCreated key => { store with stepCreated := store.stepCreated.erase key }
  | .terminalCleanup => { store with terminalCleanup := none }
  | .wait id => { store with waits := store.waits.erase id }

def deleteAll (store : RunStore) (keys : List StoreKey) : RunStore := keys.foldl delete store

end RunStore

namespace WorkflowRunDO
variable (W : WorldContract)

/-- Schedule an existing terminal run, used for opt-in backfills. -/
def scheduleCleanup (now : Nat) (request : ScheduleCleanupRequest) (store : RunStore) :
    Except Thrown (Option CleanupRecord × RunStore) := do
  validateCleanupRequest request false
  match store.cleanup, store.tombstone, store.run with
  | some existing, _, _ => .ok (some existing, store)
  | none, some _, _ | none, none, none => .ok (none, store)
  | none, none, some current =>
    if isTerminalWorkflowRunStatus current.status = false then .ok (none, store)
    else do
      let dueAt ← retentionDeadline (current.completedAt.getD 0) request.retentionMs current.runId
      let run ← parseWith "WorkflowRunSchema" W.workflowRunSchema { current with expiredAt := some dueAt }
      let cleanup := cleanupRecord run dueAt .manual
      .ok (some cleanup,
        { store with
          run := some run
          cleanup := some cleanup
          alarm := some (if store.terminalCleanup.isSome ∨ dueAt ≤ now then now + 1 else dueAt) })

/-- The cleanup record that a due maximum age leaves, if it changes it at all. -/
def maximumAgeRecord (run : WorkflowRun) (dueAt : Nat) : Option CleanupRecord → Option CleanupRecord
  | none => some (cleanupRecord run dueAt .maximumAge)
  | some cleanup =>
    if cleanup.phase = .retained ∧ dueAt < cleanup.dueAt then
      let terminal := isTerminalWorkflowRunStatus run.status
      some
        { cleanup with
          status := some run.status
          completedAt := if terminal then run.completedAt else none
          terminalStatus := if terminal then some run.status else none
          reason := some .maximumAge
          dueAt
          generation := cleanup.generation + 1 }
    else none

/-- Store a due maximum age in the cleanup record and the run. -/
def applyMaximumAge (run : WorkflowRun) (dueAt : Nat) (store : RunStore) :
    Except Thrown (Option CleanupRecord × RunStore) :=
  match maximumAgeRecord run dueAt store.cleanup with
  | none => .ok (store.cleanup, store)
  | some cleanup => do
    let run ← parseWith "WorkflowRunSchema" W.workflowRunSchema { run with expiredAt := some dueAt }
    .ok (some cleanup, { store with run := some run, cleanup := some cleanup })

/-- The transaction of `enforceRetention`: the fleet-wide maximum age of one run. -/
def enforceRetention (now : Nat) (request : EnforceRetentionRequest) (store : RunStore) :
    Except Thrown (EnforceRetentionResult × RunStore) := do
  validateCleanupRequest request.toScheduleCleanupRequest false
  if MAX_SAFE_INTEGER < request.scheduledTime then
    .error (.error "world-celld retention scheduledTime must be a non-negative safe integer")
  else match store.tombstone, store.run with
  | some tombstone, _ => .ok (⟨.expired, some tombstone.cleanup⟩, store)
  | none, none => .ok (⟨.missing, none⟩, store)
  | none, some run => do
    let dueAt ← retentionDeadline run.createdAt request.retentionMs run.runId
    if request.scheduledTime < dueAt then .ok (⟨.notDue, none⟩, store)
    else do
      let (cleanup, store) ← applyMaximumAge W run dueAt store
      let state := if cleanup.any (·.dueAt ≤ now) then .expired else .scheduled
      .ok (⟨state, cleanup⟩, { store with alarm := some (now + 1) })

/-- The stored run with its expiry time, if there is a stored run. -/
def expireRun (expiredAt : Nat) : Option WorkflowRun → Except Thrown (Option WorkflowRun)
  | none => .ok none
  | some run => do
    let run ← parseWith "WorkflowRunSchema" W.workflowRunSchema { run with expiredAt := some expiredAt }
    .ok (some run)

/-- The transaction of `cleanupNow` that makes an existing record due. -/
def expireCleanupNow (now : Nat) (store : RunStore) : Except Thrown RunStore :=
  match store.cleanup with
  | none => .ok store
  | some cleanup =>
    if cleanup.phase = .tombstoned then .ok store
    else do
      let run ← expireRun W now store.run
      .ok { store with
        run
        cleanup := some { cleanup with dueAt := now, generation := cleanup.generation + 1 }
        alarm := some (now + 1) }

/-- `rearmCleanup` touches the alarm only. -/
def rearmCleanup (now : Nat) (store : RunStore) : RunStore :=
  match store.terminalCleanup, store.cleanup with
  | some _, _ => { store with alarm := some (now + 1) }
  | none, none => { store with alarm := none }
  | none, some cleanup =>
    if cleanup.phase = .tombstoned then { store with alarm := none }
    else { store with alarm := some (max (now + 1) cleanup.dueAt) }

/-- Is the stored record still the one a page was started for? -/
def sameCleanup (store : RunStore) (expected : CleanupRecord) : Bool :=
  store.cleanup.any fun cleanup =>
    cleanup.phase = expected.phase ∧ cleanup.generation = expected.generation

/-- Commit a page of the cleanup state machine, unless another pass advanced the record. -/
def commitCleanupPage (expected : CleanupRecord) (update : CleanupRecord → CleanupRecord)
    (alarm : Nat) (keys : List StoreKey) (store : RunStore) : RunStore :=
  if sameCleanup store expected then
    { store.deleteAll keys with
      cleanup := store.cleanup.map fun cleanup =>
        { update cleanup with
          generation := cleanup.generation + 1, attempts := 0, lastError := none }
      alarm := some alarm }
  else store

/-- The step from `retained` once the record is due. -/
def startCleanup (now : Nat) (expected : CleanupRecord) : RunStore → RunStore :=
  commitCleanupPage expected ({ · with phase := .index }) (now + 1) []

/-- The commit of `deleteIndexPage`, after the indexes of the page were released. -/
def deleteIndexPage (now : Nat) (expected : CleanupRecord) (markers : List (String × String))
    (more : Bool) : RunStore → RunStore :=
  commitCleanupPage expected
    (fun cleanup => { cleanup with phase := if more then .index else .streams })
    (now + 1) (markers.map .hookMarker)

/-- The commit of `deleteStreamPage`, with the registry's cumulative count. -/
def deleteStreamPage (now : Nat) (expected : CleanupRecord) (deleted : Nat) (done : Bool) :
    RunStore → RunStore :=
  commitCleanupPage expected
    (fun cleanup =>
      { cleanup with deletedStreams := deleted, phase := if done then .queues else .streams })
    (now + 1) []

/-- The commit of `deleteQueuePage`, after the payload objects of the page were deleted. -/
def deleteQueuePage (now : Nat) (expected : CleanupRecord) (page : List String) (more : Bool) :
    RunStore → RunStore :=
  commitCleanupPage expected
    (fun cleanup =>
      { cleanup with
        deletedQueuePayloads := cleanup.deletedQueuePayloads + page.length
        phase := if more then .queues else .payload })
    (now + 1) (page.map .queuePayload)

/-- `deletePayloadBatch`: delete a page of keys, or write the tombstone and finish. -/
def deletePayloadBatch (now : Nat) (store : RunStore) : RunStore :=
  match store.cleanup with
  | none => store
  | some cleanup =>
    if cleanup.phase ≠ .payload then store
    else
      let keys := ((store.keys.take (PAYLOAD_DELETE_BATCH + 3)).filter
        fun key => key ≠ .cleanup ∧ key ≠ .tombstone).take PAYLOAD_DELETE_BATCH
      if keys ≠ [] then
        { store.deleteAll keys with
          tombstone := some (cleanupTombstone cleanup now)
          cleanup := some
            { cleanup with
              deletedPayloadKeys := cleanup.deletedPayloadKeys + keys.length
              generation := cleanup.generation + 1
              lastError := none }
          alarm := some (now + 1) }
      else
        { store with
          tombstone := some (cleanupTombstone
            { cleanup with
              phase := .tombstoned, generation := cleanup.generation + 1, attempts := 0
              lastError := none, tombstonedAt := some now } now)
          cleanup := none
          alarm := none }

/-- The delay before a failed page is tried again. -/
def cleanupRetryDelay (attempts : Nat) : Nat :=
  min CLEANUP_RETRY_MAX_MS (1000 * Nat.pow 2 (min (attempts - 1) 12))

def recordCleanupFailure (now : Nat) (error : String) (expected : CleanupRecord)
    (store : RunStore) : RunStore :=
  match store.cleanup with
  | none => store
  | some cleanup =>
    if sameCleanup store expected = false ∨ cleanup.phase = .tombstoned then store
    else
      { store with
        cleanup := some
          { cleanup with
            generation := cleanup.generation + 1
            attempts := cleanup.attempts + 1
            lastError := some error
            lastAttemptAt := some now }
        alarm := some (now + cleanupRetryDelay (cleanup.attempts + 1)) }

/-- Is the stored terminal record still the one a page was started for? -/
def sameTerminalCleanup (store : RunStore) (expected : TerminalCleanupRecord) : Bool :=
  store.terminalCleanup.any fun cleanup =>
    cleanup.phase = expected.phase ∧ cleanup.generation = expected.generation

/-- The keys of a hook entity and its creation index entry. -/
def hookKeys (hook : Hook) : List StoreKey :=
  [.hook hook.hookId, .hookCreated (hook.createdAt, hook.hookId)]

/-- The end of terminal cleanup: its record goes and retention gets the alarm back. -/
def endTerminalCleanup (now : Nat) (store : RunStore) : RunStore :=
  { store with
    terminalCleanup := none
    alarm := match store.cleanup with
      | some retention =>
        if retention.phase = .tombstoned then none else some (max (now + 1) retention.dueAt)
      | none => none }

/-- The commit of `completeSmallTerminalCleanup`; `none` when the waits need paging. -/
def completeSmallTerminalCleanup (now : Nat) (expected : TerminalCleanupRecord) (hooks : List Hook)
    (markers : List (String × String)) (store : RunStore) : Option RunStore :=
  if sameTerminalCleanup store expected = false then some store
  else if TERMINAL_WAIT_PAGE_SIZE < store.waits.size then none
  else some (endTerminalCleanup now (store.deleteAll
    (hooks.flatMap hookKeys ++ markers.map .hookMarker ++ store.waits.keys.map .wait)))

/-- Commit a page of the terminal cleanup that keeps its record. -/
def commitTerminalPage (now : Nat) (expected : TerminalCleanupRecord) (next : TerminalCleanupPhase)
    (keys : List StoreKey) (store : RunStore) : RunStore :=
  if sameTerminalCleanup store expected then
    { store.deleteAll keys with
      terminalCleanup := store.terminalCleanup.map fun cleanup =>
        { cleanup with
          phase := next, generation := cleanup.generation + 1, attempts := 0, lastError := none }
      alarm := some (now + 1) }
  else store

def deleteTerminalHookPage (now : Nat) (expected : TerminalCleanupRecord) (page : List Hook)
    (more : Bool) : RunStore → RunStore :=
  commitTerminalPage now expected (if more then .hooks else .markers) (page.flatMap hookKeys)

def deleteTerminalHookMarkerPage (now : Nat) (expected : TerminalCleanupRecord)
    (page : List (String × String)) (more : Bool) : RunStore → RunStore :=
  commitTerminalPage now expected (if more then .markers else .waits) (page.map .hookMarker)

def deleteTerminalWaitPage (now : Nat) (expected : TerminalCleanupRecord) (store : RunStore) :
    RunStore :=
  let keys := (store.waits.keys.take TERMINAL_WAIT_PAGE_SIZE).map StoreKey.wait
  if sameTerminalCleanup store expected = false then store
  else if TERMINAL_WAIT_PAGE_SIZE < store.waits.size then
    commitTerminalPage now expected expected.phase keys store
  else endTerminalCleanup now (store.deleteAll keys)

def recordTerminalCleanupFailure (now : Nat) (error : String) (expected : TerminalCleanupRecord)
    (store : RunStore) : RunStore :=
  match store.terminalCleanup with
  | none => store
  | some cleanup =>
    if sameTerminalCleanup store expected = false then store
    else
      { store with
        terminalCleanup := some
          { cleanup with
            generation := cleanup.generation + 1
            attempts := cleanup.attempts + 1
            lastError := some error
            lastAttemptAt := some now }
        alarm := some (now + cleanupRetryDelay (cleanup.attempts + 1)) }

end WorkflowRunDO

end CelldWorld
