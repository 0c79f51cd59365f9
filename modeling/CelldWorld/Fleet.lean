import CelldWorld.CellRuns
import CelldWorld.HookTokenStore

namespace CelldWorld

/-- A run cell with, as a history variable, every event it has journaled. -/
structure RunCell where
  store : RunStore := {}
  history : List Event := []

/-- Which shard stores a token or a hook ID. -/
structure Routing where
  hookTokenShardName : String → String
  hookIdShardName : String → String

/-- All cells of a fleet: the run cells and the shards of both hook indexes, by name. -/
structure Fleet where
  now : Nat := 0
  cells : String → RunCell := fun _ => {}
  tokens : String → HookTokenStore := fun _ => {}
  hookIds : String → HookIdStore := fun _ => {}

/-- `HookReservation.claimId`, the event claim ID of a reservation. -/
def eventClaimId (tokenClaimId : Option String) (hookIdClaimId : String) : String :=
  tokenClaimId.getD "-" ++ ":" ++ hookIdClaimId

/-- The operations of a run cell's retention and cleanup. -/
def CellOp.isMaintenance : CellOp → Bool
  | .scheduleCleanup _ | .enforceRetention _ | .expireCleanupNow | .rearmCleanup
  | .executeCleanup .. | .recordCleanupFailure .. | .executeTerminalCleanup ..
  | .recordTerminalCleanupFailure .. => true
  | _ => false

/-- A read or a transaction of a run cell, by the type of its answer. -/
inductive RunCall : Type → Type
  | applyEvent (request : ApplyEventRequest) : RunCall (Except Thrown ApplyEventOutcome)
  | resolveHookTokenClaim (hookId token claimId : String) : RunCall Bool
  | resolveExpiredHookClaim (hookId claimId : String) (token : Option String) :
      RunCall (Except Thrown (Option Hook))
  | resolveForcedHookClaim (request : ForcedClaimRequest) : RunCall (Except Thrown ForcedClaimResolution)
  | forceDisposeHook (hookId token : String) (claimedBy : HookTokenOwner) : RunCall (Except Thrown Bool)
  | getCommittedHook (hookId : String) (token : Option String) : RunCall (Except Thrown (Option Hook))
  | getLifecycleStatus : RunCall RunLifecycleStatus
  | describeForceClaimVictim : RunCall ForceClaimVictim
  | maintain (op : CellOp) : RunCall Unit

/-- A read or a transaction of a token shard: the shard of the token, or a named one. -/
inductive TokenCall : Type → Type
  | read (shard : String) : TokenCall HookTokenStore
  | reserve (token : String) (owner : HookTokenOwner) (proposedClaimId : String)
      (expired : Option HookClaim) (committed : Option Hook) : TokenCall ReserveStep
  | recordTakeover (token : String) (indexed : Hook) (takeOver : Bool) (owner : HookTokenOwner)
      (proposedClaimId : String) (victimRunning : Bool) (claimedFrom : HookClaimedFrom) :
      TokenCall (Option HookTakeover)
  | dropTakeover (token : String) (intent : HookTakeover) : TokenCall Unit
  | repointRecord (token : String) (intent : HookTakeover) (hook : Option Hook) : TokenCall Bool
  | preemptClaim (token : String) (observed : HookClaim) (hook : Option Hook) : TokenCall Bool
  | finalize (token : String) (hook : Hook) (owner : HookTokenOwner) (claimId : Option String)
      (active : Bool) : TokenCall (Except Thrown Bool)
  | releaseClaim (token : String) (owner : HookTokenOwner) (claimId : String) : TokenCall Unit
  | releaseBatch (shard : String) (hooks : List (String × HookTokenOwner)) (runEnded : Bool) :
      TokenCall (Except Thrown Nat)
  | publishCommittedClaim (token : String) (observed : HookClaim) (hook : Hook) :
      TokenCall (Option Hook × Bool)
  | withdraw (token : String) (owner : HookTokenOwner) : TokenCall Unit
  | startAlarm (shard : String) (clears : Bool) : TokenCall (Option Nat)
  | compactClaims (shard : String) (now : Nat) (page : List CompactedClaim) :
      TokenCall (List (String × HookTokenOwner))
  | compactRetained (shard : String) (now : Nat) (page : List ((Nat × String) × String)) : TokenCall Unit
  | dropStaleTakeovers (shard : String) (stale : List ((Nat × String) × String)) : TokenCall Unit
  | rearm (shard : String) (more : Bool) (nexts : List (Option Nat)) (clearedWhileRunning : Bool) :
      TokenCall Unit
  | retryAlarm (shard : String) : TokenCall Unit

/-- A read or a transaction of a hook-ID shard. -/
inductive HookIdCall : Type → Type
  | read (shard : String) : HookIdCall HookIdStore
  | reserve (hookId : String) (owner : HookTokenOwner) (proposedClaimId : String)
      (expired : Option HookClaim) (committed : Option Hook) : HookIdCall ReserveStep
  | publish (hookId : String) (hook : Hook) (owner : HookTokenOwner) (claimId : Option String) :
      HookIdCall (Except Thrown Unit)
  | releaseClaim (hookId : String) (owner : HookTokenOwner) (claimId : String) : HookIdCall Unit
  | releaseBatch (shard : String) (hooks : List (String × HookTokenOwner)) : HookIdCall (Except Thrown Nat)
  | publishCommittedClaim (hookId : String) (observed : HookClaim) (hook : Hook) :
      HookIdCall (Option Hook × Bool)
  | withdraw (hookId : String) (owner : HookTokenOwner) : HookIdCall Unit
  | compactClaims (shard : String) (now : Nat) (page : List CompactedClaim) (more : Bool) :
      HookIdCall (List (String × HookTokenOwner))
  | retryAlarm (shard : String) : HookIdCall Unit

/-- A step without a cell: a reading of the clock, the passing of time, or a claim ID. -/
inductive LocalCall : Type → Type
  | now : LocalCall Nat
  | elapse (ms : Nat) : LocalCall Unit
  | randomUUID : LocalCall String

/-- One atomic step of a party. -/
inductive FleetOp (β : Type)
  | here (call : LocalCall β)
  | run (runId : String) (call : RunCall β)
  | tokens (call : TokenCall β)
  | hookIds (call : HookIdCall β)

/-- The transaction of a call, or none for a read. -/
def RunCall.op {β : Type} : RunCall β → Option CellOp
  | .applyEvent request => some (.applyEvent request)
  | .resolveHookTokenClaim hookId token claimId => some (.resolveHookTokenClaim hookId token claimId)
  | .resolveExpiredHookClaim hookId claimId token => some (.resolveExpiredHookClaim hookId claimId token)
  | .resolveForcedHookClaim request => some (.resolveForcedHookClaim request)
  | .forceDisposeHook hookId token claimedBy => some (.forceDisposeHook hookId token claimedBy)
  | .maintain op => if op.isMaintenance then some op else none
  | _ => none

def RunCall.answer (W : WorldContract) (runId : String) (now : Nat) (store : RunStore) {β : Type} :
    RunCall β → β
  | .applyEvent request => (WorkflowRunDO.applyEvent W runId now request store).map (·.1)
  | .resolveHookTokenClaim hookId token claimId =>
      (WorkflowRunDO.resolveHookTokenClaim now hookId token claimId store).1
  | .resolveExpiredHookClaim hookId claimId token =>
      (WorkflowRunDO.resolveExpiredHookClaim now hookId claimId token store).map (·.1)
  | .resolveForcedHookClaim request => (WorkflowRunDO.resolveForcedHookClaim now request store).map (·.1)
  | .forceDisposeHook hookId token claimedBy =>
      (WorkflowRunDO.forceDisposeHook W runId now hookId token claimedBy store).map (·.1)
  | .getCommittedHook hookId token => WorkflowRunDO.getCommittedHook now hookId token store
  | .getLifecycleStatus => WorkflowRunDO.getLifecycleStatus now store
  | .describeForceClaimVictim => WorkflowRunDO.describeForceClaimVictim now store
  | .maintain _ => ()

namespace Fleet

def setTokens (fleet : Fleet) (shard : String) (store : HookTokenStore) : Fleet :=
  { fleet with tokens := fun name => if name = shard then store else fleet.tokens name }

def setHookIds (fleet : Fleet) (shard : String) (store : HookIdStore) : Fleet :=
  { fleet with hookIds := fun name => if name = shard then store else fleet.hookIds name }

variable (W : WorldContract) (route : Routing)

/-- One transaction of a run cell. -/
def runCell (runId : String) (op : CellOp) (fleet : Fleet) : Fleet :=
  let cell := fleet.cells runId
  let after := op.run W runId fleet.now cell.store
  { fleet with cells := fun id => if id = runId then
      { store := after, history := cell.history ++ appended W cell.store after }
    else fleet.cells id }

def callRun (fleet : Fleet) (runId : String) {β : Type} (call : RunCall β) : β × Fleet :=
  (call.answer W runId fleet.now (fleet.cells runId).store, match call.op with
    | some op => fleet.runCell W runId op
    | none => fleet)

def callTokens (fleet : Fleet) {β : Type} : TokenCall β → β × Fleet
  | .read shard => (fleet.tokens shard, fleet)
  | .reserve token owner proposedClaimId expired committed =>
    let shard := route.hookTokenShardName token
    let (step, store) := HookTokenDO.reserve (fleet.tokens shard) token owner proposedClaimId expired
      committed fleet.now
    (step, fleet.setTokens shard store)
  | .recordTakeover token indexed takeOver owner proposedClaimId victimRunning claimedFrom =>
    let shard := route.hookTokenShardName token
    let (intent, store) := HookTokenDO.recordTakeover (fleet.tokens shard) token indexed takeOver owner
      proposedClaimId victimRunning claimedFrom fleet.now
    (intent, fleet.setTokens shard store)
  | .dropTakeover token intent =>
    let shard := route.hookTokenShardName token
    ((), fleet.setTokens shard (HookTokenDO.dropTakeover (fleet.tokens shard) token intent))
  | .repointRecord token intent hook =>
    let shard := route.hookTokenShardName token
    let (written, store) := HookTokenDO.repointRecord (fleet.tokens shard) token intent hook
    (written, fleet.setTokens shard store)
  | .preemptClaim token observed hook =>
    let shard := route.hookTokenShardName token
    let (published, store) := HookTokenDO.preemptClaim (fleet.tokens shard) token observed hook
    (published, fleet.setTokens shard store)
  | .finalize token hook owner claimId active =>
    let shard := route.hookTokenShardName token
    match HookTokenDO.finalize (fleet.tokens shard) token hook owner claimId active fleet.now with
    | .ok (stored, store) => (.ok stored, fleet.setTokens shard store)
    | .error thrown => (.error thrown, fleet)
  | .releaseClaim token owner claimId =>
    let shard := route.hookTokenShardName token
    let store := fleet.tokens shard
    ((), fleet.setTokens shard
      (HookTokenDO.withIndex store (store.toIndexStore.releaseClaim token owner claimId)))
  | .releaseBatch shard hooks runEnded =>
    match HookTokenDO.releaseBatch (fleet.tokens shard) hooks runEnded fleet.now with
    | .ok (deleted, store) => (.ok deleted, fleet.setTokens shard store)
    | .error thrown => (.error thrown, fleet)
  | .publishCommittedClaim token observed hook =>
    let shard := route.hookTokenShardName token
    let store := fleet.tokens shard
    let (published, index) := store.toIndexStore.publishCommittedClaim token observed hook
    (published, fleet.setTokens shard (HookTokenDO.withIndex store index))
  | .withdraw token owner =>
    let shard := route.hookTokenShardName token
    let store := fleet.tokens shard
    ((), fleet.setTokens shard (HookTokenDO.withIndex store (store.toIndexStore.withdraw token owner)))
  | .startAlarm shard clears =>
    let store := fleet.tokens shard
    let alarm := if clears then none else store.alarm
    (alarm, fleet.setTokens shard { store with alarm })
  | .compactClaims shard now page =>
    let store := fleet.tokens shard
    (store.toIndexStore.publishedClaims now page,
      fleet.setTokens shard (HookTokenDO.withIndex store (store.toIndexStore.compactClaims now page)))
  | .compactRetained shard now page =>
    ((), fleet.setTokens shard (HookTokenDO.compactRetained (fleet.tokens shard) now page))
  | .dropStaleTakeovers shard stale =>
    ((), fleet.setTokens shard (HookTokenDO.dropStaleTakeovers (fleet.tokens shard) stale))
  | .rearm shard more nexts clearedWhileRunning =>
    ((), fleet.setTokens shard
      (HookTokenDO.rearm (fleet.tokens shard) more nexts clearedWhileRunning fleet.now))
  | .retryAlarm shard =>
    ((), fleet.setTokens shard
      { fleet.tokens shard with alarm := some (fleet.now + LIFECYCLE_COMPACTION_RETRY_MS) })

def callHookIds (fleet : Fleet) {β : Type} : HookIdCall β → β × Fleet
  | .read shard => (fleet.hookIds shard, fleet)
  | .reserve hookId owner proposedClaimId expired committed =>
    let shard := route.hookIdShardName hookId
    let (step, store) := HookIdDO.reserve hookId owner proposedClaimId expired committed fleet.now
      (fleet.hookIds shard)
    (step, fleet.setHookIds shard store)
  | .publish hookId hook owner claimId =>
    let shard := route.hookIdShardName hookId
    match (fleet.hookIds shard).publishRecord s!"Hook id {hookId}" hookId hook owner claimId fleet.now with
    | .ok store => (.ok (), fleet.setHookIds shard store)
    | .error thrown => (.error thrown, fleet)
  | .releaseClaim hookId owner claimId =>
    let shard := route.hookIdShardName hookId
    ((), fleet.setHookIds shard ((fleet.hookIds shard).releaseClaim hookId owner claimId))
  | .releaseBatch shard hooks =>
    match HookIdDO.releaseBatch hooks (fleet.hookIds shard) with
    | .ok (deleted, store) => (.ok deleted, fleet.setHookIds shard store)
    | .error thrown => (.error thrown, fleet)
  | .publishCommittedClaim hookId observed hook =>
    let shard := route.hookIdShardName hookId
    let (published, store) := (fleet.hookIds shard).publishCommittedClaim hookId observed hook
    (published, fleet.setHookIds shard store)
  | .withdraw hookId owner =>
    let shard := route.hookIdShardName hookId
    ((), fleet.setHookIds shard ((fleet.hookIds shard).withdraw hookId owner))
  | .compactClaims shard now page more =>
    ((fleet.hookIds shard).publishedClaims now page,
      fleet.setHookIds shard (HookIdDO.compactClaims now page more (fleet.hookIds shard)))
  | .retryAlarm shard =>
    ((), fleet.setHookIds shard
      { fleet.hookIds shard with alarm := some (fleet.now + LIFECYCLE_COMPACTION_RETRY_MS) })

/-- `choice` is the claim ID that `crypto.randomUUID` returns. -/
def callLocal (fleet : Fleet) (choice : String) {β : Type} : LocalCall β → β × Fleet
  | .now => (fleet.now, fleet)
  | .elapse ms => ((), { fleet with now := fleet.now + ms })
  | .randomUUID => (choice, fleet)

/-- One operation. The environment chooses the claim IDs. -/
def exec {β : Type} (op : FleetOp β) (choice : String) (fleet : Fleet) : Option (β × Fleet) :=
  some (match op with
    | .here call => fleet.callLocal choice call
    | .run runId call => fleet.callRun W runId call
    | .tokens call => fleet.callTokens route call
    | .hookIds call => fleet.callHookIds route call)

end Fleet

end CelldWorld
