import CelldWorld.Fleet
import CelldWorld.Library.Interleaving

namespace CelldWorld
open Interleaving

abbrev FleetProg := Prog FleetOp Thrown

/-! The methods of the hook-index shards as programs: local transactions between calls
to run cells. A loop of the source takes the number of passes it may still make. -/

def Thrown.outOfPasses : Thrown := .error "the loop has not ended yet"

def currentTime : FleetProg Nat := .perform (.here .now)

/-- A call to the cell of a run. -/
def callRun {β : Type} (runId : String) (call : RunCall β) : FleetProg β :=
  .remote (.perform (.run runId call))

/-- A call to the cell of a run that may throw there. -/
def callRunChecked {β : Type} (runId : String) (call : RunCall (Except Thrown β)) : FleetProg β :=
  .remote do
    let answer ← Prog.perform (.run runId call)
    .ofExcept answer

def runIsActive (runId : String) : FleetProg Bool := do
  let status ← callRun runId .getLifecycleStatus
  pure (status = .active)

/-- Resolve a stale shard reservation in its authoritative event writer. -/
def resolveExpiredHookClaim (owner : HookTokenOwner) (claimId : String) (token : Option String) :
    FleetProg (Option Hook) :=
  callRunChecked owner.runId (.resolveExpiredHookClaim owner.hookId claimId token)

/-- Read-only owner check used by index repair; unlike the resolver it never fences. -/
def getCommittedHook (owner : HookTokenOwner) (token : Option String) : FleetProg (Option Hook) :=
  callRunChecked owner.runId (.getCommittedHook owner.hookId token)

/-- Re-ask the owner after a repair write and withdraw the record of a disposed hook. -/
def confirmRepublished (withdraw : FleetProg Unit) (owner : HookTokenOwner) (token : Option String) :
    FleetProg Bool := do
  match ← getCommittedHook owner token with
  | some _ => pure true
  | none => do
    withdraw
    pure false

/-- Publish the record for a claim whose hook committed in its run but whose creating
client stopped before finalizing. -/
def publishCommittedClaim (observe : FleetProg (Option HookClaim))
    (publish : HookClaim → Hook → FleetProg (Option Hook × Bool)) (withdraw : HookTokenOwner → FleetProg Unit)
    (token : Option String) : FleetProg (Option Hook) := do
  match ← observe with
  | none => pure none
  | some observed =>
    match ← getCommittedHook observed.owner token with
    | none => pure none
    | some hook => do
      let (raw, written) ← publish observed hook
      if written then do
        let confirmed ← confirmRepublished (withdraw observed.owner) observed.owner token
        pure (if confirmed then some hook else none)
      else pure raw

/-- The resolutions that one compaction page needs, each from the owner's cell. -/
def resolveClaims (claims : KeyMap HookClaim) (tokenOf : String → Option String) (now : Nat)
    (page : List ((Nat × String) × ClaimDeadline)) : FleetProg (List CompactedClaim) := do
  let answers ← Prog.forkAll (page.map fun entry =>
    match claims[entry.2.name]? with
    | none => pure none
    | some claim =>
      if claim.claimId ≠ entry.2.claimId ∨ now < claim.expiresAt then pure none
      else resolveExpiredHookClaim claim.owner claim.claimId (tokenOf entry.2.name))
  let answers ← Prog.ofExcept (answers.mapM id)
  pure ((page.zip answers).map fun (entry, committed) => ⟨entry.1, entry.2, claims[entry.2.name]?, committed⟩)

/-- Confirm every record that a compaction page published. -/
def confirmAll (withdraw : String → HookTokenOwner → FleetProg Unit) (tokenOf : String → Option String) :
    List (String × HookTokenOwner) → FleetProg Unit
  | [] => pure ()
  | (name, owner) :: rest => do
    let _ ← confirmRepublished (withdraw name owner) owner (tokenOf name)
    confirmAll withdraw tokenOf rest

/-- What comes after the transaction of a reservation. -/
def ReserveStep.resume (settles retries : FleetProg HookClaimResult) : ReserveStep → FleetProg HookClaimResult
  | .done result => pure result
  | .settle => settles
  | .again => retries

namespace HookIdDO
variable (route : Routing)

/-- The answer of `get`: the record of an active run. -/
def serveHook : Option Hook → FleetProg (Option Hook)
  | none => pure none
  | some hook => do
    let active ← runIsActive hook.runId
    pure (if active then some hook else none)

def readShard (hookId : String) : FleetProg HookIdStore :=
  .perform (.hookIds (.read (route.hookIdShardName hookId)))

def withdraw (hookId : String) (owner : HookTokenOwner) : FleetProg Unit :=
  .perform (.hookIds (.withdraw hookId owner))

def get (hookId : String) : FleetProg (Option Hook) := do
  let store ← readShard route hookId
  let raw ← match store.records[hookId]? with
    | some indexed => pure (some indexed)
    | none =>
      CelldWorld.publishCommittedClaim ((fun store => store.claims[hookId]?) <$> readShard route hookId)
        (fun observed hook => .perform (.hookIds (.publishCommittedClaim hookId observed hook)))
        (withdraw hookId) none
  serveHook raw

/-- `HookIdDO.reserve` -/
def reserveHookId (hookId : String) (owner : HookTokenOwner) (proposedClaimId : String) :
    Nat → FleetProg HookClaimResult
  | 0 => .throw .outOfPasses
  | passes + 1 => do
    let store ← readShard route hookId
    let now ← currentTime
    let expired := store.claims[hookId]?.filter (·.expiresAt ≤ now)
    let committed ← match expired with
      | some claim => resolveExpiredHookClaim claim.owner claim.claimId none
      | none => pure none
    let step ← Prog.perform (.hookIds (.reserve hookId owner proposedClaimId expired committed))
    step.resume (reserveHookId hookId owner proposedClaimId passes)
      (reserveHookId hookId owner proposedClaimId passes)

def releaseHookIds (shard : String) (hooks : List (String × HookTokenOwner)) : FleetProg Nat := do
  if hooks = [] then pure 0
  else do
    let released ← Prog.perform (.hookIds (.releaseBatch shard hooks))
    .ofExcept released

def publish (hookId : String) (hook : Hook) (owner : HookTokenOwner) (claimId : Option String) :
    FleetProg Bool := do
  let active ← runIsActive owner.runId
  if active = false then do
    let _ ← releaseHookIds (route.hookIdShardName hookId) [(hookId, owner)]
    pure false
  else do
    let published ← Prog.perform (.hookIds (.publish hookId hook owner claimId))
    .ofExcept published
    pure true

def releaseClaim (hookId : String) (owner : HookTokenOwner) (claimId : String) : FleetProg Unit :=
  .perform (.hookIds (.releaseClaim hookId owner claimId))

/-- `HookIdDO.compactClaims` -/
def compactAll (shard : String) : FleetProg Unit := do
  let now ← currentTime
  let store ← Prog.perform (.hookIds (.read shard))
  let due := dueClaims store now
  let page ← resolveClaims store.claims (fun _ => none) now (due.take LIFECYCLE_COMPACTION_BATCH)
  let published ← Prog.perform (.hookIds (.compactClaims shard now page
    (LIFECYCLE_COMPACTION_BATCH < due.length)))
  confirmAll withdraw (fun _ => none) published

def alarm (shard : String) : FleetProg Unit := do
  match ← (compactAll shard).attempt with
  | .ok _ => pure ()
  | .error _ => Prog.perform (.hookIds (.retryAlarm shard))

end HookIdDO

namespace HookTokenDO
variable (W : WorldContract) (route : Routing)

def readShard (token : String) : FleetProg HookTokenStore :=
  .perform (.tokens (.read (route.hookTokenShardName token)))

def withdraw (token : String) (owner : HookTokenOwner) : FleetProg Unit :=
  .perform (.tokens (.withdraw token owner))

/-- The answer of `get`: a retained record, or that of an active run. -/
def serveHook : Option Hook → FleetProg (Option Hook)
  | none => pure none
  | some hook => do
    let now ← currentTime
    if retentionAhead hook now then pure (some hook)
    else do
      let active ← runIsActive hook.runId
      pure (if active then some hook else none)

def get (token : String) : FleetProg (Option Hook) := do
  let store ← readShard route token
  let raw ← match store.records[token]? with
    | some indexed => pure (some indexed)
    | none =>
      CelldWorld.publishCommittedClaim ((fun store => store.claims[token]?) <$> readShard route token)
        (fun observed hook => .perform (.tokens (.publishCommittedClaim token observed hook)))
        (withdraw token) (some token)
  serveHook raw

/-- `WorkflowRunDO.forceDisposeHook`. Nobody waits for its release of the hook ID. -/
def forceDisposeHook (victim : HookTokenOwner) (token : String) (claimedBy : HookTokenOwner) :
    FleetProg Bool :=
  Prog.remote do
    let disposed ← Prog.perform (.run victim.runId (.forceDisposeHook victim.hookId token claimedBy))
    let journaled ← Prog.ofExcept disposed
    (HookIdDO.releaseHookIds (route.hookIdShardName victim.hookId) [(victim.hookId, victim)]).discard
    pure journaled

/-- The claimer's `hook_created` is journaled: dispose the victim, then re-point the
record. Every step is idempotent, so any settler may repeat it. -/
def rollForward (token : String) (intent : HookTakeover) (hook : Option Hook) : FleetProg Unit := do
  if intent.victimRunning then do
    let _ ← forceDisposeHook route intent.victim token intent.claimer
  let written ← Prog.perform (.tokens (.repointRecord token intent hook))
  if written then do
    let _ ← confirmRepublished (withdraw token intent.claimer) intent.claimer (some token)

/-- What a settler knows of the intent: its claimer, and maybe its claim ID. -/
structure TakeoverMatch where
  claimer : HookTokenOwner
  claimId : Option String
  deriving DecidableEq, Repr

def TakeoverMatch.matches (known : TakeoverMatch) (intent : HookTakeover) : Bool :=
  intent.claimer = known.claimer && known.claimId.all (· = intent.claimId)

/-- Decide the pending takeover of `token` from the claimer's log: roll it forward if its
`hook_created` is journaled, otherwise fence the claimer and drop the intent. With the
claimer's own report `committedHook` its cell is not asked. -/
def settleTakeover (token : String) (known : Option TakeoverMatch) (committedHook : Option Hook) :
    FleetProg (Option HookTokenOwner) := do
  let store ← readShard route token
  match store.takeovers[token]?.filter fun intent => known.all (·.matches intent) with
  | some intent => do
    let resolution ← match committedHook.filter fun _ =>
        (known.bind (·.claimId)) = some intent.claimId with
      | some hook => pure ⟨true, some hook⟩
      | none => callRunChecked intent.claimer.runId (.resolveForcedHookClaim
          { hookId := intent.claimer.hookId, token, claimId := intent.claimId, victim := intent.victim })
    if resolution.journaled then rollForward route token intent resolution.hook
    else Prog.perform (.tokens (.dropTakeover token intent))
  | none => pure ()
  let settled ← readShard route token
  pure (settled.records[token]?.map hookOwner)

/-- `HookTokenDO.reserve` -/
def reserveToken (token : String) (owner : HookTokenOwner) (proposedClaimId : String) :
    Nat → FleetProg HookClaimResult
  | 0 => .throw .outOfPasses
  | passes + 1 => do
    let store ← readShard route token
    let now ← currentTime
    let expired := store.claims[token]?.filter (·.expiresAt ≤ now)
    let committed ← match expired with
      | some claim => resolveExpiredHookClaim claim.owner claim.claimId (some token)
      | none => pure none
    let step ← Prog.perform (.tokens (.reserve token owner proposedClaimId expired committed))
    step.resume (do
      let _ ← settleTakeover route token none none
      reserveToken token owner proposedClaimId passes) (reserveToken token owner proposedClaimId passes)

/-- Fence another hook's in-flight creation, publishing it instead if it already committed. -/
def preempt (token : String) (observed : HookClaim) : FleetProg Unit := do
  let hook ← resolveExpiredHookClaim observed.owner observed.claimId (some token)
  let published ← Prog.perform (.tokens (.preemptClaim token observed hook))
  if published then do
    let _ ← confirmRepublished (withdraw token observed.owner) observed.owner (some token)

/-- Reserve for a forced creation: a live holder is taken over through a durable intent,
another hook's creation in flight is waited for, or with `preempt` fenced. -/
def forceReserve (token : String) (owner : HookTokenOwner) (proposedClaimId : String) (preempts : Bool) :
    Nat → FleetProg HookForceClaimResult
  | 0 => .throw .outOfPasses
  | passes + 1 => do
    let store ← readShard route token
    match store.takeovers[token]? with
    | some pending =>
      if pending.claimer = owner then pure (.claimed pending.claimId (some pending.claimedFrom))
      else do
        let now ← currentTime
        if preempts = false ∧ now < pending.expiresAt then pure (.held pending.claimer true none)
        else do
          let _ ← settleTakeover route token none none
          forceReserve token owner proposedClaimId preempts passes
    | none =>
      match store.records[token]? with
      | none =>
        match store.claims[token]?.filter (·.owner ≠ owner) with
        | some claim => do
          let now ← currentTime
          if preempts = false ∧ now < claim.expiresAt then pure (.held claim.owner true none)
          else do
            preempt token claim
            forceReserve token owner proposedClaimId preempts passes
        | none => do
          match ← reserveToken route token owner proposedClaimId passes with
          | .claimed claimId => pure (.claimed claimId none)
          | .held holder =>
            if holder = owner then pure (.held holder false none)
            else forceReserve token owner proposedClaimId preempts passes
      | some indexed =>
        let victim := hookOwner indexed
        if victim = owner then pure (.held owner false none)
        else do
          let described ← callRun victim.runId .describeForceClaimVictim
          let victimRunning : Bool := described.lifecycle = .active
          if victimRunning ∧ described.specVersion.getD W.specVersionLegacy <
              W.specVersionSupportsHookForceClaim then
            pure (.held victim false (some .victimSpecVersion))
          else do
            let now ← currentTime
            let claimedFrom : HookClaimedFrom :=
              if victimRunning then
                ⟨victim.runId, victim.hookId, described.workflowName, described.deploymentId,
                  described.specVersion⟩
              else ⟨victim.runId, victim.hookId, none, none, none⟩
            let intent ← Prog.perform (.tokens (.recordTakeover token indexed
              (victimRunning || retentionAhead indexed now) owner proposedClaimId victimRunning claimedFrom))
            match intent with
            | some intent => pure (.claimed intent.claimId (some claimedFrom))
            | none => forceReserve token owner proposedClaimId preempts passes

def releaseTokens (shard : String) (hooks : List (String × HookTokenOwner)) (runEnded : Bool) :
    FleetProg Nat := do
  if hooks = [] then pure 0
  else do
    let released ← Prog.perform (.tokens (.releaseBatch shard hooks runEnded))
    .ofExcept released

/-- `HookTokenDO.finalize` -/
def finalizeToken (token : String) (hook : Hook) (owner : HookTokenOwner) (claimId : Option String) :
    FleetProg Bool := do
  let active ← runIsActive owner.runId
  let now ← currentTime
  if active = false ∧ retentionAhead hook now = false then do
    let _ ← releaseTokens (route.hookTokenShardName token) [(token, owner)] false
    pure false
  else do
    let stored ← Prog.perform (.tokens (.finalize token hook owner claimId active))
    .ofExcept stored

def releaseClaim (token : String) (owner : HookTokenOwner) (claimId : String) : FleetProg Unit :=
  .perform (.tokens (.releaseClaim token owner claimId))

/-- `HookTokenDO.compactClaims` -/
def compactAll (shard : String) (store : HookTokenStore) (now : Nat)
    (page : List ((Nat × String) × ClaimDeadline)) : FleetProg Unit := do
  let page ← resolveClaims store.claims some now page
  let published ← Prog.perform (.tokens (.compactClaims shard now page))
  confirmAll withdraw some published

/-- `compactTakeovers`: every due takeover is settled on its own, and a failure is
thrown only after all of them. -/
def compactTakeovers (shard : String) (page : List ((Nat × String) × String)) : FleetProg Unit := do
  if page = [] then pure ()
  else do
    let store ← Prog.perform (.tokens (.read shard))
    let stale := staleTakeovers store page
    if stale ≠ [] then Prog.perform (.tokens (.dropStaleTakeovers shard stale))
    let settled ← Prog.forkAll ((page.filter (· ∉ stale)).map fun entry =>
      settleTakeover route entry.2 none none)
    let _ ← Prog.ofExcept (settled.mapM id)

def alarmPass (shard : String) (clears : Bool) : FleetProg Unit := do
  let now ← currentTime
  let firing ← Prog.perform (.tokens (.startAlarm shard clears))
  let store ← Prog.perform (.tokens (.read shard))
  let claims := scanDeadlines store.claimDeadlines now
  let retained := scanDeadlines store.retainedDeadlines now
  let takeovers := scanDeadlines store.takeoverDeadlines now
  let observed ← Prog.perform (.tokens (.read shard))
  compactAll shard observed now claims.due
  if retained.due ≠ [] then Prog.perform (.tokens (.compactRetained shard now retained.due))
  compactTakeovers route shard takeovers.due
  Prog.perform (.tokens (.rearm shard (claims.more || retained.more || takeovers.more)
    [claims.next, retained.next, takeovers.next] firing.isNone))

/-- The alarm of a token shard. `clears` tells whether the runtime clears the alarm
before it runs the handler. -/
def alarm (shard : String) (clears : Bool) : FleetProg Unit := do
  match ← (alarmPass route shard clears).attempt with
  | .ok _ => pure ()
  | .error _ => Prog.perform (.tokens (.retryAlarm shard))

end HookTokenDO

end CelldWorld
