import CelldWorld.HookShards

namespace CelldWorld
open Interleaving

def HOOK_RELEASE_BATCH : Nat := 64
def MAX_FORCED_HOOK_ADMISSIONS : Nat := 4
def MAX_FORCED_HOOK_WAITS : Nat := 6
def FORCED_HOOK_WAIT_MS : Nat := 10

/-- `tokenClaimId` is the claim in the token shard, which the owner of a stored record has not. -/
structure HookReservation where
  claimId : String
  tokenClaimId : Option String
  hookIdClaimId : String
  takeover : Bool
  deriving DecidableEq, Repr

inductive HookReservationResult
  | admitted (reservation : HookReservation) (claimedFrom : Option HookClaimedFrom)
  | refused (holder : HookTokenOwner) (forceRefusedReason : Option ForceRefusedReason) (pending : Bool)
  deriving DecidableEq, Repr

structure HookAdmission where
  token : String
  owner : HookTokenOwner
  reservation : HookReservation
  deriving DecidableEq, Repr

/-- A call that an idempotent route makes again only while no answer has come back. -/
def fleetRoute {α : Type} (callee : FleetProg α) : Nat → FleetProg α
  | 0 => callee.remote
  | attempts + 1 => .rpc callee.attempt fun
    | .ok answer => .ofExcept answer
    | .error _ => fleetRoute callee attempts

def idempotent {α : Type} (callee : FleetProg α) : FleetProg α :=
  fleetRoute callee (FLEET_IDEMPOTENT_ATTEMPTS - 1)

/-- The operation on one page of values after another. -/
def inBatches {α : Type} [DecidableEq α] (operation : List α → FleetProg Nat) : Nat → List α → FleetProg Nat
  | 0, _ => pure 0
  | batches + 1, values =>
    if values = [] then pure 0
    else do
      let deleted ← operation (values.take HOOK_RELEASE_BATCH)
      let rest ← inBatches operation batches (values.drop HOOK_RELEASE_BATCH)
      pure (deleted + rest)

namespace WorkflowIndex
variable (W : WorldContract) (route : Routing)

/-- Release the hooks of a run, shard by shard. -/
def releaseHooks (runId : String) (hooks : List HookIndexReference) (runEnded : Bool) : FleetProg Nat := do
  let tokens := (hooks.map fun hook => route.hookTokenShardName hook.token).eraseDups.map fun shard =>
    let released := (hooks.filter fun hook => route.hookTokenShardName hook.token = shard).map fun hook =>
      (hook.token, (⟨runId, hook.hookId⟩ : HookTokenOwner))
    inBatches (fun batch => (HookTokenDO.releaseTokens shard batch runEnded).remote) released.length released
  let hookIds := (hooks.map fun hook => route.hookIdShardName hook.hookId).eraseDups.map fun shard =>
    let released := (hooks.filter fun hook => route.hookIdShardName hook.hookId = shard).map fun hook =>
      (hook.hookId, (⟨runId, hook.hookId⟩ : HookTokenOwner))
    inBatches (fun batch => (HookIdDO.releaseHookIds shard batch).remote) released.length released
  let deleted ← Prog.forkAll (tokens ++ hookIds)
  let deleted ← Prog.ofExcept (deleted.mapM id)
  pure (deleted.foldl (· + ·) 0)

/-- The token part of a reservation: forced, with or without preemption, or unforced. -/
def reserveTokenClaim (token : String) (owner : HookTokenOwner) (proposedClaimId : String)
    (force : Option Bool) (passes : Nat) : FleetProg HookForceClaimResult :=
  match force with
  | some preempt => (HookTokenDO.forceReserve W route token owner proposedClaimId preempt passes).remote
  | none => do
    match ← (HookTokenDO.reserveToken route token owner proposedClaimId passes).remote with
    | .claimed claimId => pure (.claimed claimId none)
    | .held holder => pure (.held holder false none)

/-- Give back the token part of a reservation. -/
def releaseTokenClaim (token : String) (owner : HookTokenOwner) (tokenClaimId : Option String)
    (takeover : Bool) : FleetProg Unit :=
  if takeover then do
    let _ ← (HookTokenDO.settleTakeover route token (some ⟨owner, tokenClaimId⟩) none).remote
  else match tokenClaimId with
    | some claimId => (HookTokenDO.releaseClaim token owner claimId).remote
    | none => pure ()

/-- The hook-ID part of a reservation, after its token part. -/
def reserveHookIdClaim (token : String) (owner : HookTokenOwner) (tokenClaimId : Option String)
    (claimedFrom : Option HookClaimedFrom) (sharedClaimId : String) (passes : Nat) :
    FleetProg HookReservationResult := do
  let reserved ← ((HookIdDO.reserveHookId route owner.hookId owner sharedClaimId passes).remote).attempt
  match reserved with
  | .error thrown => do
    let _ ← Prog.forkAll [releaseTokenClaim route token owner tokenClaimId claimedFrom.isSome,
      (HookIdDO.releaseClaim owner.hookId owner sharedClaimId).remote]
    .throw thrown
  | .ok (.held holder) => do
    releaseTokenClaim route token owner tokenClaimId claimedFrom.isSome
    pure (.refused holder none false)
  | .ok (.claimed claimId) =>
    pure (.admitted ⟨eventClaimId tokenClaimId claimId, tokenClaimId, claimId, claimedFrom.isSome⟩ claimedFrom)

/-- Both parts share one claim ID where the token part has one. -/
def reserveHook (token : String) (owner : HookTokenOwner) (force : Option Bool) (passes : Nat) :
    FleetProg HookReservationResult := do
  let proposedClaimId ← Prog.perform (.here .randomUUID)
  match ← reserveTokenClaim W route token owner proposedClaimId force passes with
  | .claimed claimId claimedFrom => reserveHookIdClaim route token owner (some claimId) claimedFrom claimId passes
  | .held holder pending forceRefusedReason =>
    if holder ≠ owner then pure (.refused holder forceRefusedReason pending)
    else reserveHookIdClaim route token owner none none proposedClaimId passes

def completeHookTakeover (token hookId : String) (hook : Hook) (owner : HookTokenOwner)
    (reservation : HookReservation) : FleetProg Unit := do
  let settled ← (HookTokenDO.settleTakeover route token
    (some ⟨owner, reservation.tokenClaimId⟩) (some hook)).remote
  if settled = some owner then do
    let _ ← (HookIdDO.publish route hookId hook owner (some reservation.hookIdClaimId)).remote
  else (HookIdDO.releaseClaim hookId owner reservation.hookIdClaimId).remote

def settleHookTakeover (token : String) (claimer : Option HookTokenOwner) :
    FleetProg (Option HookTokenOwner) :=
  (HookTokenDO.settleTakeover route token (claimer.map fun claimer => ⟨claimer, none⟩) none).remote

def finalizeHookIndexes (token hookId : String) (hook : Hook) (owner : HookTokenOwner)
    (reservation : Option HookReservation) : FleetProg Unit := do
  let stored ← (HookTokenDO.finalizeToken route token hook owner (reservation.bind (·.tokenClaimId))).remote
  if stored then do
    let _ ← (HookIdDO.publish route hookId hook owner (reservation.map (·.hookIdClaimId))).remote

def releaseHookReservation (token : String) (owner : HookTokenOwner) (reservation : HookReservation) :
    FleetProg Unit := do
  let released ← Prog.forkAll [releaseTokenClaim route token owner reservation.tokenClaimId reservation.takeover,
    (HookIdDO.releaseClaim owner.hookId owner reservation.hookIdClaimId).remote]
  let _ ← Prog.ofExcept (released.mapM id)

end WorkflowIndex

section Client
variable (W : WorldContract) (route : Routing)

/-- The router's `applyEvent`: the index releases of a committed event inside the fleet,
and whether they are done. -/
def applyEventRoute (request : ApplyEventRequest) : FleetProg (ApplyEventOutcome × Bool) := do
  let outcome ← callRunChecked request.runId (.applyEvent request)
  match outcome with
  | .fail _ => pure (outcome, false)
  | .ok success =>
    if success.releasedHooks = [] then pure (outcome, false)
    else do
      let released ← (WorkflowIndex.releaseHooks route request.runId success.releasedHooks false).attempt
      pure (outcome, released.toOption.isSome)

/-- A forced creation whose call failed: who holds the token decides what its hook-ID claim becomes. -/
def settleAmbiguousTakeover (admission : HookAdmission) : FleetProg Unit := do
  let settled ← idempotent (WorkflowIndex.settleHookTakeover route admission.token (some admission.owner))
  if settled = some admission.owner then do
    match ← idempotent (HookTokenDO.get route admission.token) with
    | some hook =>
      idempotent (WorkflowIndex.completeHookTakeover route admission.token admission.owner.hookId hook
        admission.owner admission.reservation)
    | none => pure ()
  else idempotent (WorkflowIndex.releaseHookReservation route admission.token admission.owner
    admission.reservation)

/-- A creation whose call failed: it has committed, or its reservation is fenced and released. -/
def resolveAmbiguousCreation (admission : HookAdmission) (thrown : Thrown) : FleetProg Unit :=
  if admission.reservation.takeover then do
    let _ ← (settleAmbiguousTakeover route admission).attempt
  else do
    let resolution ← (callRun admission.owner.runId (.resolveHookTokenClaim admission.owner.hookId admission.token
      admission.reservation.claimId)).attempt
    match resolution with
    | .error _ => .throw thrown
    | .ok true => pure ()
    | .ok false =>
      idempotent (WorkflowIndex.releaseHookReservation route admission.token admission.owner
        admission.reservation)

/-- The index writes after a committed event. -/
def publishHookIndexes (admission : Option HookAdmission) (hookToIndex : Option Hook) : FleetProg Unit :=
  match hookToIndex, admission with
  | some hook, some admission =>
    if admission.reservation.takeover then
      idempotent (WorkflowIndex.completeHookTakeover route hook.token hook.hookId
      hook (hookOwner hook) admission.reservation)
    else idempotent (WorkflowIndex.finalizeHookIndexes route hook.token hook.hookId hook (hookOwner hook)
      (some admission.reservation))
  | some hook, none =>
    idempotent (WorkflowIndex.finalizeHookIndexes route hook.token hook.hookId hook (hookOwner hook) none)
  | none, some admission =>
    idempotent (WorkflowIndex.releaseHookReservation route admission.token admission.owner admission.reservation)
  | none, none => pure ()

/-- What a client sends to the run cell, and under which admission. -/
structure HookRequest where
  request : ApplyEventRequest
  admission : Option HookAdmission

/-- The admission of one attempt; none where another creation is waited for. -/
def admitEvent (request : ApplyEventRequest) (waits passes : Nat) : FleetProg (Option HookRequest) :=
  match request.data.data with
  | .hookCreated hookId eventData => do
    let owner : HookTokenOwner := ⟨request.runId, hookId⟩
    let force := if eventData.force = some true then some (decide (MAX_FORCED_HOOK_WAITS ≤ waits)) else none
    match ← idempotent (WorkflowIndex.reserveHook W route eventData.token owner force passes) with
    | .refused _ _ true => pure none
    | .refused holder forceRefusedReason false =>
      pure (some ⟨{ request with tokenHolder := some holder, forceRefusedReason }, none⟩)
    | .admitted reservation claimedFrom =>
      pure (some ⟨{ request with tokenHolder := none, hookClaimId := some reservation.claimId, claimedFrom },
        some ⟨eventData.token, owner, reservation⟩⟩)
  | _ => pure (some ⟨request, none⟩)

def isForced (request : ApplyEventRequest) : Bool :=
  match request.data.data with
  | .hookCreated _ eventData => eventData.force = some true
  | _ => false

/-- A takeover that refuses a creation is settled before the refusal is thrown. -/
def reportRefusal (failure : ApplyEventFailure) : FleetProg ApplyEventSuccess := do
  if failure.code = .hookForceClaimed then do
    let _ ← (idempotent (WorkflowIndex.settleHookTakeover route (failure.token.getD "")
      failure.claimedBy)).attempt
  .throw (.error failure.message)

/-- `events.create` of a parsed event. `request` carries the event alone, without an admission. -/
def createEvent (request : ApplyEventRequest) : Nat → Nat → Nat → FleetProg ApplyEventSuccess
  | 0, _, _ => .throw .outOfPasses
  | passes + 1, waits, admissions => do
    match ← admitEvent W route request waits passes with
    | none => do
      Prog.perform (.here (.elapse (FORCED_HOOK_WAIT_MS * 2 ^ min waits 4)))
      createEvent request passes (waits + 1) admissions
    | some sent => do
      let answered ← ((applyEventRoute route sent.request).remote).attempt
      match answered with
      | .error thrown => do
        if let some admission := sent.admission then resolveAmbiguousCreation route admission thrown
        .throw thrown
      | .ok (.ok success, released) => do
        publishHookIndexes route sent.admission success.hookToIndex
        if success.releasedHooks ≠ [] ∧ released = false then do
          let _ ← idempotent (WorkflowIndex.releaseHooks route request.runId success.releasedHooks false)
        pure success
      | .ok (.fail failure, _) => do
        if let some admission := sent.admission then
          idempotent (WorkflowIndex.releaseHookReservation route admission.token admission.owner
            admission.reservation)
        if isForced request ∧ failure.code = .hookClaimCancelled ∧
          admissions + 1 < MAX_FORCED_HOOK_ADMISSIONS then
          createEvent request passes 0 (admissions + 1)
        else reportRefusal route failure

end Client

/-- What a party of the fleet sets out to do. -/
inductive HookTask
  | createEvent (runId : String) (data : CreateEventRequest) (params : Option CreateEventParams)
      (cleanup : Option ScheduleCleanupRequest) (passes : Nat)
  | getHookByToken (token : String)
  | getHookById (hookId : String)
  | settleHookTakeover (token : String) (claimer : Option HookTokenOwner)
  | releaseHookIndexes (runId : String) (hooks : List HookIndexReference) (runEnded : Bool)
  | tokenAlarm (shard : String) (clears : Bool)
  | hookIdAlarm (shard : String)
  | maintain (runId : String) (op : CellOp)
  | elapse (ms : Nat)

def HookTask.program (W : WorldContract) (route : Routing) : HookTask → FleetProg Unit
  | .createEvent runId data params cleanup passes => do
    let _ ← CelldWorld.createEvent W route { runId, data, params, cleanup } passes 0 0
  | .getHookByToken token => do
    let _ ← idempotent (HookTokenDO.get route token)
  | .getHookById hookId => do
    let _ ← idempotent (HookIdDO.get route hookId)
  | .settleHookTakeover token claimer => do
    let _ ← idempotent (WorkflowIndex.settleHookTakeover route token claimer)
  | .releaseHookIndexes runId hooks runEnded => do
    let _ ← WorkflowIndex.releaseHooks route runId hooks runEnded
  | .tokenAlarm shard clears => HookTokenDO.alarm route shard clears
  | .hookIdAlarm shard => HookIdDO.alarm shard
  | .maintain runId op => callRun runId (.maintain op)
  | .elapse ms => .perform (.here (.elapse ms))

/-- Any number of parties, each of which may stop or lose a call at any point. -/
def hookFleet (W : WorldContract) (route : Routing) : System FleetOp HookTask Thrown String Fleet where
  exec := Fleet.exec W route
  program := HookTask.program W route
  spawns _ := true
  admits _ _ _ := true

end CelldWorld
