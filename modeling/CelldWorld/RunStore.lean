import CelldWorld.WorldContract

namespace CelldWorld

def MAX_FLEET_RPC_TIMEOUT_MS : Nat := 5 * 60 * 1000
def FLEET_IDEMPOTENT_ATTEMPTS : Nat := 3
def FLEET_RETRY_BACKOFF_MAX_MS : Nat := 900
def MAX_IDEMPOTENT_RPC_LIFETIME_MS : Nat :=
  FLEET_IDEMPOTENT_ATTEMPTS * MAX_FLEET_RPC_TIMEOUT_MS + FLEET_RETRY_BACKOFF_MAX_MS
def MAX_RUN_INDEX_PUBLICATION_LIFETIME_MS : Nat :=
  MAX_FLEET_RPC_TIMEOUT_MS + MAX_IDEMPOTENT_RPC_LIFETIME_MS
def HOOK_CLAIM_LEASE_MS : Nat :=
  (FLEET_IDEMPOTENT_ATTEMPTS * 2 + 1) * MAX_FLEET_RPC_TIMEOUT_MS + FLEET_RETRY_BACKOFF_MAX_MS * 2
def HOOK_TAKEOVER_SETTLE_MS : Nat := MAX_FLEET_RPC_TIMEOUT_MS
def LIFECYCLE_COMPACTION_BATCH : Nat := 128
def LIFECYCLE_COMPACTION_RETRY_MS : Nat := 1000
def MAX_DATE_MS : Nat := 8640000000000000
def MAX_SAFE_INTEGER : Nat := 9007199254740991

structure HookForceClaim where
  token : String
  claimedBy : HookTokenOwner
  deriving DecidableEq, Repr

structure HookResumeClaim where
  hookId : String
  eventId : String
  payloadDigest : Option String
  deriving DecidableEq, Repr

/-- A hook whose token and ID index entries may have to be released. -/
structure HookIndexReference where
  hookId : String
  token : String
  deriving DecidableEq, Repr

/-- The value under `hookclaimcancelled:`, a fenced event claim ID. -/
structure HookClaimCancellation where
  hookId : String
  token : Option String
  canceledAt : Nat
  deriving DecidableEq, Repr

inductive CleanupPhase
  | retained | index | streams | queues | payload | tombstoned
  deriving DecidableEq, Repr

inductive CleanupReason
  | terminalRetention | maximumAge | manual
  deriving DecidableEq, Repr

structure CleanupRecord where
  runId : String
  workflowName : String
  createdAt : Nat
  status : Option RunStatus
  completedAt : Option Nat
  terminalStatus : Option RunStatus
  reason : Option CleanupReason
  dueAt : Nat
  phase : CleanupPhase
  generation : Nat
  attempts : Nat
  lastError : Option String
  lastAttemptAt : Option Nat
  tombstonedAt : Option Nat
  deletedPayloadKeys : Nat
  deletedStreams : Nat
  deletedQueuePayloads : Nat
  deriving DecidableEq, Repr

structure RunTombstone where
  runId : String
  status : Option RunStatus
  completedAt : Option Nat
  terminalStatus : Option RunStatus
  expiredAt : Nat
  tombstonedAt : Nat
  cleanup : CleanupRecord
  deriving DecidableEq, Repr

inductive TerminalCleanupPhase
  | hooks | markers | waits
  deriving DecidableEq, Repr

structure TerminalCleanupRecord where
  runId : String
  phase : TerminalCleanupPhase
  generation : Nat
  attempts : Nat
  lastError : Option String
  lastAttemptAt : Option Nat
  deriving DecidableEq, Repr

/-- An object-store body that retention must remove with its run. -/
structure QueuePayloadRegistration where
  messageId : String
  key : String
  orphanExpiresAt : Nat
  deriving DecidableEq, Repr

structure InflightClaim where
  messageId : String
  expiresAt : Nat
  retryAt : Option Nat := none
  deriving DecidableEq, Repr

structure QueueMessageReservation where
  messageId : String
  expiresAt : Nat
  /-- Absent on older records, whose broker publication was implicitly confirmed. -/
  publicationPending : Bool := false
  deriving DecidableEq, Repr

/-- The run-scoped equivalent of a claim cell's reservation and in-flight claim. -/
structure RunQueueClaimState where
  reservation : Option QueueMessageReservation := none
  claim : Option InflightClaim := none
  deriving DecidableEq, Repr

/-- The storage of one run cell, one field per key or key prefix, and its alarm. -/
@[ext]
structure RunStore where
  /-- `run` -/
  run : Option WorkflowRun := none
  /-- `event_sequence`, zero while the key is absent -/
  eventSequence : Nat := 0
  /-- `event:` -/
  events : KeyMap Event := ∅
  /-- `step:` -/
  steps : KeyMap Step := ∅
  /-- `stepcreated:` -/
  stepCreated : CreationMap String := ∅
  /-- `hook:` -/
  hooks : KeyMap Hook := ∅
  /-- `hookcreated:` -/
  hookCreated : CreationMap String := ∅
  /-- `hookevent:` -/
  hookEvent : KeyMap String := ∅
  /-- `hookreleased:` -/
  hookReleased : KeyMap HookIndexReference := ∅
  /-- `hookclaimcancelled:` -/
  hookClaimCancelled : KeyMap HookClaimCancellation := ∅
  /-- `hookresume:` -/
  hookResume : KeyMap HookResumeClaim := ∅
  /-- `hookforced:` -/
  hookForced : KeyMap HookForceClaim := ∅
  /-- `attrevent:` -/
  attrEvent : KeyMap String := ∅
  /-- `wait:` -/
  waits : KeyMap Wait := ∅
  /-- `retention:hook:` -/
  hookMarkers : ReferenceMap HookIndexReference := ∅
  /-- `retention:cleanup` -/
  cleanup : Option CleanupRecord := none
  /-- `retention:tombstone` -/
  tombstone : Option RunTombstone := none
  /-- `terminal:cleanup` -/
  terminalCleanup : Option TerminalCleanupRecord := none
  /-- `queue-claim-scope` -/
  queueClaimScope : Option String := none
  /-- `queue-claim:` -/
  queueClaims : KeyMap RunQueueClaimState := ∅
  /-- `queue-payload:` -/
  queuePayloads : KeyMap QueuePayloadRegistration := ∅
  alarm : Option Nat := none

namespace RunStore
variable (store : RunStore)

def putRun (run : WorkflowRun) : RunStore := { store with run := some run }

def putStep (id : String) (step : Step) : RunStore := { store with steps := store.steps.insert id step }

def putStepCreated (step : Step) : RunStore :=
  { store with stepCreated := store.stepCreated.insert (step.createdAt, step.stepId) step.stepId }

def putWait (id : String) (wait : Wait) : RunStore := { store with waits := store.waits.insert id wait }

/-- Store a hook with its creation index entry. -/
def putHook (hook : Hook) : RunStore :=
  { store with
    hooks := store.hooks.insert hook.hookId hook
    hookCreated := store.hookCreated.insert (hook.createdAt, hook.hookId) hook.hookId }

def putHookEvent (hookId eventId : String) : RunStore :=
  { store with hookEvent := store.hookEvent.insert hookId eventId }

/-- Delete a hook with its creation index entry and leave its release marker. -/
def releaseHook (hookId : String) (hook : Hook) : RunStore :=
  { store with
    hooks := store.hooks.erase hookId
    hookCreated := store.hookCreated.erase (hook.createdAt, hook.hookId)
    hookReleased := store.hookReleased.insert hook.hookId ⟨hook.hookId, hook.token⟩ }

def putHookForced (hookId : String) (claim : HookForceClaim) : RunStore :=
  { store with hookForced := store.hookForced.insert hookId claim }

/-- Leave the marker of a workflow-authored `attr_set`, if it has one. -/
def markAttribute (marker : Option String) (eventId : String) : RunStore :=
  { store with
    attrEvent := match marker with
      | some key => store.attrEvent.insert key eventId
      | none => store.attrEvent }

def putHookMarker (reference : HookIndexReference) : RunStore :=
  { store with hookMarkers := store.hookMarkers.insert (reference.hookId, reference.token) reference }

end RunStore

end CelldWorld
