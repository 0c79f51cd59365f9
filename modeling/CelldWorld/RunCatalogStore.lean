import CelldWorld.HookTokenStore

namespace CelldWorld

def CATALOG_FENCE_GRACE_MS : Nat := MAX_RUN_INDEX_PUBLICATION_LIFETIME_MS

structure CatalogExpiryFence where
  expiredAt : Nat
  compactAt : Nat
  deriving DecidableEq, Repr

structure CatalogExpiryGc where
  runId : String
  compactAt : Nat
  deriving DecidableEq, Repr

/-- The storage of one shard of the run catalog. -/
structure RunCatalogStore where
  /-- `run:` and `runall:`, by their whole keys -/
  entries : KeyMap String := ∅
  /-- `catalog-keys:` -/
  catalogKeys : KeyMap (String × String) := ∅
  /-- `expired:` -/
  expired : KeyMap CatalogExpiryFence := ∅
  /-- `expiry-gc:` -/
  expiryGc : DeadlineMap CatalogExpiryGc := ∅
  alarm : Option Nat := none

namespace RunCatalogDO

/-- The groups of `/^run:(.+):(\d{13}):/`, whose first one is greedy. -/
def matchRunKey (key : String) : Option (String × String) :=
  let lineEnd (c : Char) : Bool := c = '\n' || c = '\r' || c.toNat = 0x2028 || c.toNat = 0x2029
  if key.toList.take 4 ≠ ['r', 'u', 'n', ':'] then none
  else
    let rest := key.toList.drop 4
    let created (length : Nat) := (rest.drop (length + 1)).take 13
    let length := (List.range rest.length).reverse.find? fun length =>
      0 < length && (rest.take length).all (fun c => !lineEnd c) && rest[length]? = some ':' &&
        (created length).length = 13 && (created length).all Char.isDigit && rest[length + 14]? = some ':'
    length.map fun length => (String.ofList (rest.take length), String.ofList (created length))

def canonicalCatalogKeys (runId : String) (keys : List String) : Except Thrown (String × String) :=
  match keys with
  | [workflowKey, globalKey] =>
    match matchRunKey workflowKey with
    | none => .error (.error "Run catalog commit requires the canonical run key pair")
    | some (workflowName, created) =>
      if workflowKey.endsWith s!":{runId}" = false ∨ workflowKey ≠ s!"run:{workflowName}:{created}:{runId}" ∨
          globalKey ≠ s!"runall:{created}:{runId}" then
        .error (.error "Run catalog commit requires the canonical run key pair")
      else .ok (workflowKey, globalKey)
  | _ => .error (.error "Run catalog commit requires exactly two string keys")

/-- Publish the metadata of a run under both of its keys, unless its expiry is fenced or
the lease of the publication has run out. -/
def upsertRun (runId : String) (keys : List String) (serializedMetadata : String)
    (publicationExpiresAt now : Nat) (store : RunCatalogStore) : Except Thrown (Bool × RunCatalogStore) := do
  let canonicalKeys ← canonicalCatalogKeys runId keys
  if store.expired[runId]?.isSome then .ok (false, store)
  else if MAX_SAFE_INTEGER < publicationExpiresAt ∨ publicationExpiresAt ≤ now ∨
      now + MAX_RUN_INDEX_PUBLICATION_LIFETIME_MS < publicationExpiresAt then .ok (false, store)
  else if store.entries[canonicalKeys.1]? = some serializedMetadata ∧
      store.entries[canonicalKeys.2]? = some serializedMetadata ∧
      store.catalogKeys[runId]? = some canonicalKeys then .ok (true, store)
  else .ok (true, { store with
    entries := (store.entries.insert canonicalKeys.1 serializedMetadata).insert canonicalKeys.2 serializedMetadata
    catalogKeys := store.catalogKeys.insert runId canonicalKeys })

/-- Compare-and-delete one rejected retention discovery candidate. -/
def deleteStaleGlobalRun (runId key expectedValue : String) (store : RunCatalogStore) :
    Except Thrown (Bool × RunCatalogStore) :=
  if key.startsWith "runall:" = false ∨ key.endsWith s!":{runId}" = false then
    .error (.error "Stale run catalog deletion requires the exact global run key")
  else if store.entries[key]? ≠ some expectedValue then .ok (false, store)
  else .ok (true, { store with entries := store.entries.erase key })

def armAtMost (at_ : Nat) (store : RunCatalogStore) : RunCatalogStore :=
  if store.alarm.all (at_ < ·) then { store with alarm := some at_ } else store

/-- Delete the stored keys of an expired run and fence it until its leases have run out. -/
def expireRun (runId : String) (expiredAt now : Nat) (store : RunCatalogStore) :
    Except Thrown (Nat × RunCatalogStore) :=
  match store.catalogKeys[runId]? with
  | none => .ok (0, store)
  | some storedKeys => do
    let canonicalKeys ← canonicalCatalogKeys runId [storedKeys.1, storedKeys.2]
    let compactAt := (store.expired[runId]?.map (·.compactAt)).getD (now + CATALOG_FENCE_GRACE_MS)
    let fenced := armAtMost compactAt { store with
      expired := store.expired.insert runId ⟨expiredAt, compactAt⟩
      expiryGc := store.expiryGc.insert (compactAt, runId) ⟨runId, compactAt⟩ }
    let deleted := [canonicalKeys.1, canonicalKeys.2].countP fun key => fenced.entries[key]?.isSome
    .ok (deleted, { fenced with
      entries := (fenced.entries.erase canonicalKeys.1).erase canonicalKeys.2
      catalogKeys := fenced.catalogKeys.erase runId })

/-- The alarm: delete a page of the fences that are due. -/
def compactExpiryFences (now : Nat) (store : RunCatalogStore) : RunCatalogStore :=
  let scan := scanDeadlines store.expiryGc now
  let markers := scan.due.filter fun (_, item) =>
    store.expired[item.runId]?.any fun marker => marker.compactAt = item.compactAt
  let expiryGc := scan.due.foldl (fun gc (key, _) => gc.erase key) store.expiryGc
  { store with
    expiryGc
    expired := markers.foldl (fun expired (_, item) => expired.erase item.runId) store.expired
    alarm := if scan.more then some (now + 1)
      else (expiryGc.toList.head?.map fun (_, item) => max (now + 1) item.compactAt) }

end RunCatalogDO

end CelldWorld
