import CelldWorld.Retention

namespace CelldWorld

/-- A reservation of a token or of a hook ID until its hook is created. -/
structure HookClaim where
  owner : HookTokenOwner
  claimId : String
  reservedAt : Nat
  expiresAt : Nat
  deadlineKey : Nat × String
  deriving DecidableEq, Repr

/-- Storage under a deadline prefix. Its keys carry the due time, then the token or hook ID. -/
abbrev DeadlineMap (ν : Type) := CreationMap ν

/-- `name` is the token in a token shard and the hook ID in a hook-ID shard. -/
structure ClaimDeadline where
  name : String
  claimId : String
  expiresAt : Nat
  deriving DecidableEq, Repr

/-- What a token shard and a hook-ID shard both store. Records are kept parsed. -/
structure IndexStore where
  records : KeyMap Hook := ∅
  claims : KeyMap HookClaim := ∅
  claimDeadlines : DeadlineMap ClaimDeadline := ∅
  alarm : Option Nat := none

def hookOwner (hook : Hook) : HookTokenOwner := ⟨hook.runId, hook.hookId⟩

/-- True while a hook's token outlives its run under `tokenRetentionUntil`. -/
def retentionAhead (hook : Hook) (now : Nat) : Bool :=
  hook.tokenRetentionUntil.any (now < ·)

/-- The answer of a reservation. -/
inductive HookClaimResult
  | claimed (claimId : String)
  | held (holder : HookTokenOwner)
  deriving DecidableEq, Repr

/-- The outcome of one pass of the reservation loop. -/
inductive ReserveStep
  | done (result : HookClaimResult)
  | settle
  | again
  deriving DecidableEq, Repr

/-- One due deadline with the claim observed before its owner was asked, and the answer. -/
structure CompactedClaim where
  deadline : Nat × String
  item : ClaimDeadline
  observed : Option HookClaim
  committed : Option Hook
  deriving DecidableEq, Repr

namespace IndexStore
variable (store : IndexStore)

def armAtMost (time : Nat) : IndexStore :=
  if store.alarm.all (time < ·) then { store with alarm := some time } else store

/-- Store a claim with its lease, its deadline and the alarm for it. -/
def putClaim (name : String) (owner : HookTokenOwner) (claimId : String) (now : Nat) : IndexStore :=
  let expiresAt := now + HOOK_CLAIM_LEASE_MS
  { store with
    claims := store.claims.insert name ⟨owner, claimId, now, expiresAt, (expiresAt, name)⟩
    claimDeadlines := store.claimDeadlines.insert (expiresAt, name) ⟨name, claimId, expiresAt⟩ }
    |>.armAtMost expiresAt

def dropClaim (name : String) (claim : HookClaim) : IndexStore :=
  { store with
    claims := store.claims.erase name
    claimDeadlines := store.claimDeadlines.erase claim.deadlineKey }

def renewClaim (name : String) (claim : HookClaim) (now : Nat) : IndexStore :=
  let expiresAt := now + HOOK_CLAIM_LEASE_MS
  { store with
    claims := store.claims.insert name { claim with expiresAt, deadlineKey := (expiresAt, name) }
    claimDeadlines := (store.claimDeadlines.erase claim.deadlineKey).insert (expiresAt, name)
      ⟨name, claim.claimId, expiresAt⟩ }
    |>.armAtMost expiresAt

def putRecord (name : String) (hook : Hook) : IndexStore :=
  { store with records := store.records.insert name hook }

def dropRecord (name : String) : IndexStore :=
  { store with records := store.records.erase name }

def releaseClaim (name : String) (owner : HookTokenOwner) (claimId : String) : IndexStore :=
  match store.claims[name]? with
  | some claim => if claim.owner = owner ∧ claim.claimId = claimId then store.dropClaim name claim else store
  | none => store

/-- The checks and writes that publish a record. `label` names the key in the errors. -/
def publishRecord (label name : String) (hook : Hook) (owner : HookTokenOwner) (claimId : Option String)
    (now : Nat) : Except Thrown IndexStore :=
  if store.records[name]?.any (fun indexed => hookOwner indexed ≠ owner) then
    .error (.error s!"{label} is owned by another hook")
  else match store.claims[name]? with
  | some claim =>
    if claim.expiresAt ≤ now then .error (.error s!"{label} reservation expired")
    else if claim.owner ≠ owner ∨ some claim.claimId ≠ claimId then
      .error (.error s!"{label} is reserved by another hook")
    else .ok ((store.putRecord name hook).dropClaim name claim)
  | none =>
    if store.records[name]? = none then .error (.error s!"{label} has no active reservation")
    else .ok (store.putRecord name hook)

/-- The transaction of `publishCommittedClaim`: the record now stored, and whether this
call wrote it. -/
def publishCommittedClaim (name : String) (observed : HookClaim) (hook : Hook) :
    (Option Hook × Bool) × IndexStore :=
  match store.records[name]?, store.claims[name]? with
  | some indexed, _ => ((some indexed, false), store)
  | none, some claim =>
    if claim.claimId = observed.claimId then
      ((some hook, true), (store.putRecord name hook).dropClaim name claim)
    else ((none, false), store)
  | none, none => ((none, false), store)

/-- The transaction of `confirmRepublished`. -/
def withdraw (name : String) (owner : HookTokenOwner) : IndexStore :=
  if store.records[name]?.any (fun indexed => hookOwner indexed = owner) then store.dropRecord name else store

/-- Drop the claim of one owner. -/
def dropOwnClaim (name : String) (owner : HookTokenOwner) : IndexStore :=
  match store.claims[name]? with
  | some claim => if claim.owner = owner then store.dropClaim name claim else store
  | none => store

/-- Drop the record and the claim of one owner. -/
def release (name : String) (owner : HookTokenOwner) : IndexStore :=
  (store.withdraw name owner).dropOwnClaim name owner

/-- Is the claim of a due deadline still the one it was written for, and due? -/
def deadlineApplies (item : ClaimDeadline) (now : Nat) : Bool :=
  store.claims[item.name]?.any fun claim => claim.claimId = item.claimId ∧ claim.expiresAt ≤ now

/-- One item of a compaction page, decided on the claims `before` the page. -/
def compactClaim (before : IndexStore) (now : Nat) (page : CompactedClaim) : IndexStore :=
  if before.deadlineApplies page.item now then
    match before.claims[page.item.name]?, page.observed with
    | some claim, some observed =>
      if claim.claimId = observed.claimId ∧ claim.expiresAt = observed.expiresAt then
        let published := match page.committed with
          | some hook => store.putRecord page.item.name hook
          | none => store
        { published with
          claims := published.claims.erase page.item.name
          claimDeadlines := published.claimDeadlines.erase page.deadline }
      else store
    | _, _ => store
  else { store with claimDeadlines := store.claimDeadlines.erase page.deadline }

/-- The transaction of `compactClaims`, with the hooks it published. -/
def compactClaims (now : Nat) (page : List CompactedClaim) : IndexStore :=
  page.foldl (fun current item => current.compactClaim store now item) store

/-- The records that a compaction page publishes. -/
def publishedClaims (now : Nat) (page : List CompactedClaim) : List (String × HookTokenOwner) :=
  page.filterMap fun item =>
    match store.claims[item.item.name]?, item.observed, item.committed with
    | some claim, some observed, some _ =>
      if store.deadlineApplies item.item now ∧ claim.claimId = observed.claimId ∧
          claim.expiresAt = observed.expiresAt then some (item.item.name, claim.owner) else none
    | _, _, _ => none

/-- How many records and claims one transaction deleted. -/
def deleted (after : IndexStore) : Nat :=
  (store.records.size - after.records.size) + (store.claims.size - after.claims.size)

end IndexStore

/-- A hook-ID shard stores nothing else. -/
abbrev HookIdStore := IndexStore

namespace HookIdDO

/-- The transaction of `HookIdDO.reserve`. A claim of the same owner under another
claim ID is replaced. -/
def reserve (hookId : String) (owner : HookTokenOwner) (proposedClaimId : String)
    (expired : Option HookClaim) (committed : Option Hook) (now : Nat) (store : HookIdStore) :
    ReserveStep × HookIdStore :=
  match store.records[hookId]?, store.claims[hookId]? with
  | some indexed, _ => (.done (.held (hookOwner indexed)), store)
  | none, none => (.done (.claimed proposedClaimId), store.putClaim hookId owner proposedClaimId now)
  | none, some existing =>
    if existing.expiresAt ≤ now then
      if expired.all (fun seen => seen.claimId ≠ existing.claimId ∨ seen.expiresAt ≠ existing.expiresAt) then
        (.again, store)
      else if committed.isSome then
        (.done (if existing.owner = owner then .claimed existing.claimId else .held existing.owner),
          store.renewClaim hookId existing now)
      else (.done (.claimed proposedClaimId),
        (store.dropClaim hookId existing).putClaim hookId owner proposedClaimId now)
    else if existing.owner ≠ owner then (.done (.held existing.owner), store)
    else if existing.claimId ≠ proposedClaimId then
      (.done (.claimed proposedClaimId),
        ({ store with claimDeadlines := store.claimDeadlines.erase existing.deadlineKey }).putClaim
          hookId owner proposedClaimId now)
    else (.done (.claimed existing.claimId), store)

def MAX_RELEASE_BATCH : Nat := 64

/-- The transaction of `HookIdDO.releaseBatch`. -/
def releaseBatch (hooks : List (String × HookTokenOwner)) (store : HookIdStore) :
    Except Thrown (Nat × HookIdStore) :=
  if MAX_RELEASE_BATCH < hooks.length then .error (.error "Hook id release batch is too large")
  else
    let after := hooks.foldl (fun current hook => current.release hook.1 hook.2) store
    .ok (store.deleted after, after)

/-- The due deadlines of one alarm, one more than a page if there are more. -/
def dueClaims (store : HookIdStore) (now : Nat) : List ((Nat × String) × ClaimDeadline) :=
  (store.claimDeadlines.toList.filter (·.1.1 ≤ now)).take (LIFECYCLE_COMPACTION_BATCH + 1)

/-- The transaction of `HookIdDO.compactClaims`, which also sets the next alarm. -/
def compactClaims (now : Nat) (page : List CompactedClaim) (more : Bool) (store : HookIdStore) :
    HookIdStore :=
  let compacted := store.compactClaims now page
  if more then { compacted with alarm := some (now + 1) }
  else { compacted with
    alarm := compacted.claimDeadlines.toList.head?.map fun next => max (now + 1) next.2.expiresAt }

end HookIdDO

end CelldWorld
