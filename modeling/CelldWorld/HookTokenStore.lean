import CelldWorld.HookIndexStore

namespace CelldWorld

/-- A token kept past its run's end under `tokenRetentionUntil`. -/
structure RetainedToken where
  owner : HookTokenOwner
  untilMs : Nat
  deadlineKey : Nat × String
  deriving DecidableEq, Repr

/-- A forced creation taking the token from `victim`. The record keeps naming the
victim until the claimer's `hook_created` is journaled and the victim is disposed. -/
structure HookTakeover where
  claimer : HookTokenOwner
  claimId : String
  victim : HookTokenOwner
  victimRunning : Bool
  claimedFrom : HookClaimedFrom
  expiresAt : Nat
  deadlineKey : Nat × String
  deriving DecidableEq, Repr

/-- The storage of one token shard. -/
structure HookTokenStore extends IndexStore where
  retained : KeyMap RetainedToken := ∅
  takeovers : KeyMap HookTakeover := ∅
  retainedDeadlines : DeadlineMap String := ∅
  takeoverDeadlines : DeadlineMap String := ∅

/-- What a forced reservation is answered. -/
inductive HookForceClaimResult
  | claimed (claimId : String) (takeover : Option HookClaimedFrom)
  | held (holder : HookTokenOwner) (pending : Bool) (forceRefusedReason : Option ForceRefusedReason)
  deriving DecidableEq, Repr

/-- One alarm pass over a deadline prefix: what is due, whether more than a page is
due, and when the rest falls due. -/
structure DeadlineScan (ν : Type) where
  due : List ((Nat × String) × ν)
  more : Bool
  next : Option Nat

def scanDeadlines {ν : Type} (deadlines : DeadlineMap ν) (now : Nat) : DeadlineScan ν :=
  let listed := deadlines.toList.take (LIFECYCLE_COMPACTION_BATCH + 1)
  let due := listed.takeWhile (·.1.1 ≤ now)
  { due := due.take LIFECYCLE_COMPACTION_BATCH
    more := LIFECYCLE_COMPACTION_BATCH < due.length
    next := (listed.drop due.length).head?.map (·.1.1) }

namespace HookTokenDO

def MAX_RELEASE_BATCH : Nat := 64

variable (store : HookTokenStore)

/-- Apply a write of the shared part of the storage. -/
def withIndex (index : IndexStore) : HookTokenStore := { store with toIndexStore := index }

def dropRetained (token : String) (retained : RetainedToken) : HookTokenStore :=
  { store with
    retained := store.retained.erase token
    retainedDeadlines := store.retainedDeadlines.erase retained.deadlineKey }

/-- Write the retained marker and its deadline; the caller arms the alarm. -/
def markRetained (token : String) (owner : HookTokenOwner) (untilMs : Nat) : HookTokenStore :=
  { store with
    retained := store.retained.insert token ⟨owner, untilMs, (untilMs, token)⟩
    retainedDeadlines := store.retainedDeadlines.insert (untilMs, token) token }

def retain (token : String) (owner : HookTokenOwner) (untilMs : Nat) : HookTokenStore :=
  let marked := markRetained store token owner untilMs
  withIndex marked (marked.toIndexStore.armAtMost untilMs)

/-- Drop a finished run's record once its retention passed; `none` while it still holds. -/
def freeExpiredRetention (token : String) (now : Nat) : Option HookTokenStore :=
  match store.records[token]?, store.retained[token]? with
  | some indexed, some retained =>
    if now < retained.untilMs ∨ store.takeovers[token]?.isSome ∨ hookOwner indexed ≠ retained.owner then none
    else some (dropRetained (withIndex store (store.toIndexStore.dropRecord token)) token retained)
  | _, _ => none

/-- The claim branch of `HookTokenDO.reserve`, on a token without record and takeover. -/
def reserveClaim (token : String) (owner : HookTokenOwner) (proposedClaimId : String)
    (expired : Option HookClaim) (committed : Option Hook) (now : Nat) : ReserveStep × IndexStore :=
  match store.claims[token]? with
  | none => (.done (.claimed proposedClaimId), store.toIndexStore.putClaim token owner proposedClaimId now)
  | some existing =>
    if existing.expiresAt ≤ now then
      if expired.all (fun seen => seen.claimId ≠ existing.claimId ∨ seen.expiresAt ≠ existing.expiresAt) then
        (.again, store.toIndexStore)
      else if committed.isSome then
        (.done (if existing.owner = owner then .claimed existing.claimId else .held existing.owner),
          store.toIndexStore.renewClaim token existing now)
      else (.done (.claimed proposedClaimId),
        (store.toIndexStore.dropClaim token existing).putClaim token owner proposedClaimId now)
    else if existing.owner ≠ owner then (.done (.held existing.owner), store.toIndexStore)
    else (.done (.claimed existing.claimId), store.toIndexStore)

/-- The transaction of `HookTokenDO.reserve`. A live takeover holds the token like an
in-flight claim; an abandoned one is settled first. -/
def reserve (token : String) (owner : HookTokenOwner) (proposedClaimId : String)
    (expired : Option HookClaim) (committed : Option Hook) (now : Nat) : ReserveStep × HookTokenStore :=
  match store.records[token]?, freeExpiredRetention store token now with
  | some indexed, none => (.done (.held (hookOwner indexed)), store)
  | _, freed =>
    let current := freed.getD store
    match current.takeovers[token]? with
    | some pending =>
      if pending.claimer ≠ owner ∧ now < pending.expiresAt then (.done (.held pending.claimer), current)
      else (.settle, current)
    | none =>
      let (step, index) := reserveClaim current token owner proposedClaimId expired committed now
      (step, withIndex current index)

/-- The transaction of `HookTokenDO.forceReserve`: the intent to take the token over, or,
where the victim's run has ended and retains nothing, its record is dropped. -/
def recordTakeover (token : String) (indexed : Hook) (takeOver : Bool) (owner : HookTokenOwner)
    (proposedClaimId : String) (victimRunning : Bool) (claimedFrom : HookClaimedFrom) (now : Nat) :
    Option HookTakeover × HookTokenStore :=
  if store.records[token]? ≠ some indexed ∨ store.takeovers[token]?.isSome then (none, store)
  else if takeOver = false then
    let dropped := withIndex store (store.toIndexStore.dropRecord token)
    (none, match store.retained[token]? with
      | some retained => dropRetained dropped token retained
      | none => dropped)
  else
    let expiresAt := now + HOOK_TAKEOVER_SETTLE_MS
    let takeover : HookTakeover :=
      { claimer := owner, claimId := proposedClaimId, victim := hookOwner indexed, victimRunning
        claimedFrom, expiresAt, deadlineKey := (expiresAt, token) }
    (some takeover, withIndex { store with
      takeovers := store.takeovers.insert token takeover
      takeoverDeadlines := store.takeoverDeadlines.insert (expiresAt, token) token }
      (store.toIndexStore.armAtMost expiresAt))

/-- Is the intent still the pending takeover of the token? -/
def isPending (token : String) (intent : HookTakeover) : Bool :=
  store.takeovers[token]?.any fun pending => pending.claimId = intent.claimId

/-- The transaction of `settleTakeover` for a creation that was not journaled. The
victim's retained record is scheduled again. -/
def dropTakeover (token : String) (intent : HookTakeover) : HookTokenStore :=
  if isPending store token intent = false then store
  else
    let dropped := { store with
      takeovers := store.takeovers.erase token
      takeoverDeadlines := store.takeoverDeadlines.erase intent.deadlineKey }
    match store.retained[token]? with
    | some retained => withIndex
        { dropped with retainedDeadlines := dropped.retainedDeadlines.insert retained.deadlineKey token }
        (store.toIndexStore.armAtMost retained.untilMs)
    | none => dropped

/-- The transaction of `rollForward`: the record is re-pointed to the claimer's hook, or
dropped where nobody holds the token any more. -/
def repointRecord (token : String) (intent : HookTakeover) (hook : Option Hook) : Bool × HookTokenStore :=
  if isPending store token intent = false then (false, store)
  else
    let index := match hook with
      | some hook => store.toIndexStore.putRecord token hook
      | none => store.toIndexStore.dropRecord token
    let settled := withIndex { store with
      takeovers := store.takeovers.erase token
      takeoverDeadlines := store.takeoverDeadlines.erase intent.deadlineKey } index
    (hook.isSome, match store.retained[token]? with
      | some retained => dropRetained settled token retained
      | none => settled)

/-- The transaction of `preemptClaim`; true when it published the hook. -/
def preemptClaim (token : String) (observed : HookClaim) (hook : Option Hook) : Bool × HookTokenStore :=
  match store.claims[token]? with
  | some current =>
    if current.claimId = observed.claimId then
      let published := match hook with
        | some hook => store.toIndexStore.putRecord token hook
        | none => store.toIndexStore
      (hook.isSome, withIndex store (published.dropClaim token current))
    else (false, store)
  | none => (false, store)

/-- The transaction of `finalize`. An ended run's record is written with its retention. -/
def finalize (token : String) (hook : Hook) (owner : HookTokenOwner) (claimId : Option String)
    (active : Bool) (now : Nat) : Except Thrown (Bool × HookTokenStore) := do
  let index ← store.toIndexStore.publishRecord s!"Hook token {token}" token hook owner claimId now
  let published := withIndex store index
  .ok (true, match active, hook.tokenRetentionUntil with
    | false, some untilMs => retain published token owner untilMs
    | _, _ => published)

/-- One hook of `releaseBatch`. A hook of an ended run keeps its record while its token
is retained. -/
def releaseHook (runEnded : Bool) (now : Nat) (token : String) (owner : HookTokenOwner) : HookTokenStore :=
  let claimless := store.toIndexStore.dropOwnClaim token owner
  match store.records[token]? with
  | some hook =>
    if hookOwner hook = owner then
      match runEnded && retentionAhead hook now, store.retained[token]? with
      | true, none => retain (withIndex store claimless) token owner (hook.tokenRetentionUntil.getD 0)
      | true, some _ => withIndex store claimless
      | false, some retained => dropRetained (withIndex store (claimless.dropRecord token)) token retained
      | false, none => withIndex store (claimless.dropRecord token)
    else withIndex store claimless
  | none => withIndex store claimless

/-- The transaction of `HookTokenDO.releaseBatch`. -/
def releaseBatch (hooks : List (String × HookTokenOwner)) (runEnded : Bool) (now : Nat) :
    Except Thrown (Nat × HookTokenStore) :=
  if MAX_RELEASE_BATCH < hooks.length then .error (.error "Hook token release batch is too large")
  else
    let after := hooks.foldl (fun current hook => releaseHook current runEnded now hook.1 hook.2) store
    .ok (store.toIndexStore.deleted after.toIndexStore, after)

/-- The transaction of `compactRetained`. -/
def compactRetained (now : Nat) (page : List ((Nat × String) × String)) : HookTokenStore :=
  page.foldl (fun current item =>
    let freed := if (store.retained[item.2]?.any fun retained => retained.deadlineKey = item.1) then
        (freeExpiredRetention current item.2 now).getD current
      else current
    { freed with retainedDeadlines := freed.retainedDeadlines.erase item.1 }) store

/-- The due takeover deadlines that belong to no pending takeover any more. -/
def staleTakeovers (page : List ((Nat × String) × String)) : List ((Nat × String) × String) :=
  page.filter fun item => store.takeovers[item.2]?.all fun intent => intent.deadlineKey ≠ item.1

def dropStaleTakeovers (stale : List ((Nat × String) × String)) : HookTokenStore :=
  { store with
    takeoverDeadlines := stale.foldl (fun deadlines item => deadlines.erase item.1) store.takeoverDeadlines }

/-- Schedule the next pass from this pass's scans. The running alarm may read as unset;
a deadline written meanwhile has then armed it and is kept when sooner. -/
def rearm (more : Bool) (nexts : List (Option Nat)) (clearedWhileRunning : Bool) (now : Nat) :
    HookTokenStore :=
  if more then { store with alarm := some (now + 1) }
  else
    let candidates := if clearedWhileRunning then store.alarm :: nexts
      else [store.claimDeadlines.toList.head?.map (·.1.1), store.retainedDeadlines.toList.head?.map (·.1.1),
        store.takeoverDeadlines.toList.head?.map (·.1.1)]
    { store with alarm := (candidates.filterMap id).min?.map fun next => max (now + 1) next }

end HookTokenDO

end CelldWorld
