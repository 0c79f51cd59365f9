import CelldWorld.CatalogExpiry
import CelldWorld.CatalogList
import CelldWorld.QueueEnvelope

namespace CelldWorld

/-- Stable FNV-1a routing hash. -/
def stableIndexHash (value : String) : UInt32 :=
  value.toUTF8.data.toList.foldl (fun hash byte => (hash ^^^ byte.toUInt32) * 0x01000193) 0x811c9dc5

def runCatalogShardName (runId : String) : String :=
  catalogShardName ((stableIndexHash runId).toNat % RUN_CATALOG_SHARDS)

/-- A time as its keys carry it, padded to thirteen digits. -/
def pad (ms : Nat) : String := String.ofList (List.leftpad 13 '0' (toString ms).toList)

/-- The two catalog keys of a run. -/
def runKeys (run : WorkflowRun) : List String :=
  [s!"run:{run.workflowName}:{pad run.createdAt}:{run.runId}", s!"runall:{pad run.createdAt}:{run.runId}"]

def expiredKey (runId : String) : String := "expired:" ++ runId
def catalogKeysKey (runId : String) : String := "catalog-keys:" ++ encodeURIComponent runId
def expiryGcKey (runId : String) (compactAt : Nat) : String :=
  "expiry-gc:" ++ pad compactAt ++ ":" ++ encodeURIComponent runId

/-- A value that the storage of a catalog shard holds. -/
inductive CatalogRecord
  | metadata (serialized : String)
  | catalogKeys (keys : String × String)
  | expired (fence : CatalogExpiryFence)
  | expiryGc (item : CatalogExpiryGc)
  deriving DecidableEq, Repr

/-- The prefixes of the internal records of a shard. -/
def internalPrefixes : List String := ["expired:", "expiry-gc:", "catalog-keys:"]

/-- Is this the key of an internal record? -/
def isInternalKey (name : String) : Bool := internalPrefixes.any fun start => start.toList.isPrefixOf name.toList

namespace RunCatalogStore
variable (store : RunCatalogStore)

/-- The internal records of a shard, under their whole keys. -/
def internalRecords : List (String × CatalogRecord) :=
  (store.catalogKeys.toList.map fun (runId, keys) => (catalogKeysKey runId, .catalogKeys keys)) ++
  (store.expired.toList.map fun (runId, fence) => (expiredKey runId, .expired fence)) ++
  store.expiryGc.toList.map fun ((compactAt, runId), item) => (expiryGcKey runId compactAt, .expiryGc item)

/-- Every record of a shard under its whole key. -/
def records : KeyMap CatalogRecord :=
  store.internalRecords.foldl (fun records (key, record) => records.insert key record)
    (store.entries.map fun _ serialized => .metadata serialized)

end RunCatalogStore

/-- A map of keys as storage lists it. -/
def KeyMap.storage {ν : Type} (map : KeyMap ν) : CatalogStorage ν where
  records := map.toList.insertionSort fun left right => encode left.1 ≤ encode right.1
  sorted := by
    have total : Std.Total fun left right : String × ν => encode left.1 ≤ encode right.1 :=
      ⟨fun _ _ => le_total ..⟩
    have trans : IsTrans (String × ν) fun left right => encode left.1 ≤ encode right.1 := ⟨fun _ _ _ => le_trans⟩
    have distinct : map.toList.Pairwise fun left right => left.1 ≠ right.1 :=
      Std.ExtTreeMap.distinct_keys_toList.imp fun {left right} different same =>
        different (Std.LawfulEqCmp.compare_eq_iff_eq.mpr same)
    have names := (List.perm_insertionSort (fun left right => encode left.1 ≤ encode right.1)
      map.toList).pairwise_iff
      (fun different same => different same.symm) |>.mpr distinct
    refine ((List.pairwise_insertionSort _ map.toList).and names).imp fun {left right} both => ?_
    exact lt_of_le_of_ne both.1 fun same => both.2 (encode_injective same)

theorem KeyMap.mem_storage {ν : Type} {map : KeyMap ν} {key : String} {value : ν} :
    (key, value) ∈ map.storage.records ↔ map[key]? = some value :=
  (List.perm_insertionSort _ _).mem_iff.trans Std.ExtTreeMap.mem_toList_iff_getElem?_eq_some

namespace RunCatalogStore
variable {store : RunCatalogStore}

/-- The internal records lie under the internal prefixes. -/
theorem internalRecords_key {key : String} {record : CatalogRecord}
    (member : (key, record) ∈ store.internalRecords) :
    isInternalKey key = true := by
  unfold internalRecords at member
  simp only [List.mem_append, List.mem_map, Prod.mk.injEq] at member
  rcases member with (⟨entry, -, rfl, -⟩ | ⟨entry, -, rfl, -⟩) | ⟨entry, -, rfl, -⟩
  · simp [isInternalKey, internalPrefixes, catalogKeysKey]
  · simp [isInternalKey, internalPrefixes, expiredKey]
  · simp [isInternalKey, internalPrefixes, expiryGcKey]

/-- Under a public key a shard holds the metadata of a run, if anything. -/
theorem records_public {key : String} (visible : isInternalKey key = false) :
    store.records[key]? = store.entries[key]?.map .metadata := by
  have others : ∀ entry ∈ store.internalRecords, entry.1 ≠ key := by
    rintro ⟨other, record⟩ member rfl
    rw [internalRecords_key member] at visible
    cases visible
  have inserted (records : KeyMap CatalogRecord) (entries : List (String × CatalogRecord))
      (others : ∀ entry ∈ entries, entry.1 ≠ key) :
      (entries.foldl (fun records (key, record) => records.insert key record) records)[key]? = records[key]? := by
    induction entries generalizing records with
    | nil => rfl
    | cons entry entries ih =>
      rw [List.foldl_cons, ih _ fun other member => others other (.tail _ member)]
      exact Std.ExtTreeMap.getElem?_insert.trans (if_neg (by simpa using others entry (.head _)))
  unfold records
  rw [inserted _ _ others, Std.ExtTreeMap.getElem?_map]

end RunCatalogStore

/-- The shards of the run catalog, by name. -/
abbrev CatalogFleet := String → RunCatalogStore

def CatalogFleet.put (fleet : CatalogFleet) (name : String) (store : RunCatalogStore) : CatalogFleet :=
  fun other => if other = name then store else fleet other

/-- One call of a catalog shard. -/
inductive CatalogOp
  | commitRun (run : WorkflowRun) (serializedMetadata : String) (publicationExpiresAt : Nat)
  | expireRun (runId : String) (expiredAt : Nat)
  | deleteStaleGlobalRun (sourceShard runId key expectedValue : String)
  | alarm (name : String)

/-- The fleet after a call, which an index routes to the shard of its run. -/
def CatalogOp.run (now : Nat) (fleet : CatalogFleet) : CatalogOp → CatalogFleet
  | .commitRun run serializedMetadata publicationExpiresAt =>
    let name := runCatalogShardName run.runId
    match RunCatalogDO.upsertRun run.runId (runKeys run) serializedMetadata publicationExpiresAt
      now (fleet name) with
    | .ok (_, store) => fleet.put name store
    | .error _ => fleet
  | .expireRun runId expiredAt =>
    let name := runCatalogShardName runId
    match RunCatalogDO.expireRun runId expiredAt now (fleet name) with
    | .ok (_, store) => fleet.put name store
    | .error _ => fleet
  | .deleteStaleGlobalRun sourceShard runId key expectedValue =>
    match RunCatalogDO.deleteStaleGlobalRun runId key expectedValue (fleet sourceShard) with
    | .ok (_, store) => fleet.put sourceShard store
    | .error _ => fleet
  | .alarm name => fleet.put name (RunCatalogDO.compactExpiryFences now (fleet name))

/-- The fleets that the calls of an index reach, at any times. -/
inductive FleetReach : CatalogFleet → Prop
  | start : FleetReach fun _ => {}
  | next {fleet : CatalogFleet} (now : Nat) (op : CatalogOp) (reach : FleetReach fleet) :
      FleetReach (op.run now fleet)

namespace RunCatalogDO

theorem matchRunKey_created {key workflowName created : String}
    (found : matchRunKey key = some (workflowName, created)) :
    created.toList.length = 13 := by
  unfold matchRunKey at found
  simp only at found
  split at found
  · cases found
  obtain ⟨length, position, groups⟩ := Option.map_eq_some_iff.mp found
  have holds := List.find?_some position
  simp only [Prod.mk.injEq] at groups
  rw [← groups.2, String.toList_ofList]
  simp only [Bool.and_eq_true, decide_eq_true_eq] at holds
  exact holds.1.1.2

/-- The canonical keys spell the workflow name, the creation time and the run ID. -/
theorem canonicalCatalogKeys_ok {runId : String} {keys : List String} {canonicalKeys : String × String}
    (canonical : canonicalCatalogKeys runId keys = .ok canonicalKeys) :
    ∃ workflowName created, matchRunKey canonicalKeys.1 = some (workflowName, created) ∧
      keys = [canonicalKeys.1, canonicalKeys.2] ∧
      canonicalKeys.1.toList = "run:".toList ++ workflowName.toList ++ ':' :: created.toList ++
        ':' :: runId.toList ∧
      canonicalKeys.2.toList = "runall:".toList ++ created.toList ++ ':' :: runId.toList := by
  unfold canonicalCatalogKeys at canonical
  split at canonical
  · split at canonical
    · cases canonical
    rename_i workflowName created found
    split at canonical
    · cases canonical
    rename_i spelled
    simp only [not_or, ne_eq, not_not] at spelled
    cases canonical
    refine ⟨workflowName, created, found, rfl, ?_, ?_⟩
    · rw [spelled.2.1]
      simp [toString]
    · rw [spelled.2.2]
      simp [toString]
  · cases canonical

/-- A catalog key belongs to one run. -/
theorem canonicalCatalogKeys_runId {runId other key : String} {keys keys' : List String}
    {canonicalKeys canonicalKeys' : String × String}
    (canonical : canonicalCatalogKeys runId keys = .ok canonicalKeys)
    (canonical' : canonicalCatalogKeys other keys' = .ok canonicalKeys')
    (mine : key = canonicalKeys.1 ∨ key = canonicalKeys.2)
    (theirs : key = canonicalKeys'.1 ∨ key = canonicalKeys'.2) :
    runId = other := by
  obtain ⟨workflowName, created, found, -, workflowKey, globalKey⟩ := canonicalCatalogKeys_ok canonical
  obtain ⟨workflowName', created', found', -, workflowKey', globalKey'⟩ := canonicalCatalogKeys_ok canonical'
  have long := matchRunKey_created found
  have long' := matchRunKey_created found'
  rcases mine with rfl | rfl <;> rcases theirs with same | same
  · rw [same, found'] at found
    cases found
    rw [same, workflowKey'] at workflowKey
    exact String.toList_inj.mp (by simpa using workflowKey.symm)
  · rw [same, globalKey'] at workflowKey
    simp at workflowKey
  · rw [same, workflowKey'] at globalKey
    simp at globalKey
  · rw [same, globalKey'] at globalKey
    simp only [List.append_assoc, List.append_cancel_left_eq] at globalKey
    have spelled := (List.append_inj globalKey (long'.trans long.symm)).2
    exact String.toList_inj.mp (by simpa using spelled.symm)

variable {store after : RunCatalogStore} {now : Nat}

/-- A stored publication has its metadata under both keys of the run. -/
theorem upsertRun_entries {runId serializedMetadata : String} {keys : List String}
    {publicationExpiresAt : Nat} {stored : Bool}
    (call : upsertRun runId keys serializedMetadata publicationExpiresAt now store = .ok (stored, after)) :
    ∃ canonicalKeys, canonicalCatalogKeys runId keys = .ok canonicalKeys ∧
      (stored = false ∧ after = store ∨ stored = true ∧ ∀ key, after.entries[key]? =
        if key = canonicalKeys.1 ∨ key = canonicalKeys.2 then some serializedMetadata
          else store.entries[key]?) := by
  unfold upsertRun at call
  obtain ⟨canonicalKeys, canonical, call⟩ := bind_ok.mp call
  refine ⟨canonicalKeys, canonical, ?_⟩
  split at call
  · cases call
    exact .inl ⟨rfl, rfl⟩
  split at call
  · cases call
    exact .inl ⟨rfl, rfl⟩
  split at call
  · rename_i replayed
    cases call
    refine .inr ⟨rfl, fun key => ?_⟩
    split
    · rename_i mine
      rcases mine with rfl | rfl
      · exact replayed.1
      · exact replayed.2.1
    · rfl
  · cases call
    refine .inr ⟨rfl, fun key => ?_⟩
    simp only [Std.ExtTreeMap.getElem?_insert, Std.LawfulEqCmp.compare_eq_iff_eq]
    grind

theorem getElem?_erase_some {ν : Type} {map : KeyMap ν} {erased key : String} {value : ν}
    (found : (map.erase erased)[key]? = some value) : map[key]? = some value := by
  rw [Std.ExtTreeMap.getElem?_erase] at found
  split at found
  · cases found
  · exact found

theorem expireRun_entries {runId : String} {expiredAt deleted : Nat}
    (call : expireRun runId expiredAt now store = .ok (deleted, after)) {key value : String}
    (found : after.entries[key]? = some value) : store.entries[key]? = some value := by
  unfold expireRun at call
  split at call
  · cases call
    exact found
  · obtain ⟨canonicalKeys, -, call⟩ := bind_ok.mp call
    cases call
    have fenced := getElem?_erase_some (getElem?_erase_some found)
    unfold armAtMost at fenced
    split at fenced <;> exact fenced

theorem deleteStaleGlobalRun_entries {runId other expected : String} {deleted : Bool}
    (call : deleteStaleGlobalRun runId other expected store = .ok (deleted, after)) {key value : String}
    (found : after.entries[key]? = some value) : store.entries[key]? = some value := by
  unfold deleteStaleGlobalRun at call
  split at call
  · cases call
  split at call
  · cases call
    exact found
  · cases call
    exact getElem?_erase_some found

end RunCatalogDO

/-- Every entry of the shard is under a canonical key of a run that is routed to it. -/
def RunCatalogStore.Routed (name : String) (store : RunCatalogStore) : Prop :=
  ∀ key value : String, store.entries[key]? = some value → ∃ runId keys canonicalKeys,
    RunCatalogDO.canonicalCatalogKeys runId keys = .ok canonicalKeys ∧
      (key = canonicalKeys.1 ∨ key = canonicalKeys.2) ∧ runCatalogShardName runId = name

theorem CatalogFleet.put_routed {fleet : CatalogFleet} {name : String} {store : RunCatalogStore}
    (routed : ∀ name, (fleet name).Routed name) (new : store.Routed name) :
    ∀ other, (fleet.put name store other).Routed other := by
  intro other
  unfold CatalogFleet.put
  split
  · rename_i same
    exact same ▸ new
  · exact routed other

theorem FleetReach.routed {fleet : CatalogFleet} (reach : FleetReach fleet) :
    ∀ name, (fleet name).Routed name := by
  induction reach with
  | start => exact fun name key value found => by simp at found
  | @next fleet now op _ ih =>
    cases op with
    | commitRun run serializedMetadata publicationExpiresAt =>
      simp only [CatalogOp.run]
      cases call : RunCatalogDO.upsertRun run.runId (runKeys run) serializedMetadata publicationExpiresAt now
          (fleet (runCatalogShardName run.runId)) with
      | error => exact ih
      | ok answer =>
        refine CatalogFleet.put_routed ih fun key value found => ?_
        obtain ⟨canonicalKeys, canonical, ⟨-, same⟩ | ⟨-, entries⟩⟩ := RunCatalogDO.upsertRun_entries call
        · exact ih _ key value (same ▸ found)
        · rw [entries] at found
          split at found
          · rename_i mine
            exact ⟨run.runId, _, canonicalKeys, canonical, mine, rfl⟩
          · exact ih _ key value found
    | expireRun runId expiredAt =>
      simp only [CatalogOp.run]
      cases call : RunCatalogDO.expireRun runId expiredAt now (fleet (runCatalogShardName runId)) with
      | error => exact ih
      | ok answer =>
        exact CatalogFleet.put_routed ih fun key value found =>
          ih _ key value (RunCatalogDO.expireRun_entries call found)
    | deleteStaleGlobalRun sourceShard runId key expectedValue =>
      simp only [CatalogOp.run]
      cases call : RunCatalogDO.deleteStaleGlobalRun runId key expectedValue (fleet sourceShard) with
      | error => exact ih
      | ok answer =>
        exact CatalogFleet.put_routed ih fun key value found =>
          ih _ key value (RunCatalogDO.deleteStaleGlobalRun_entries call found)
    | alarm name => exact CatalogFleet.put_routed ih fun key value found => ih _ key value found

/-- The storage of every shard. -/
def CatalogFleet.storage (fleet : CatalogFleet) (name : String) : CatalogStorage CatalogRecord :=
  (fleet name).records.storage

theorem allRunCatalogShardNames_nodup : allRunCatalogShardNames.Nodup := by
  decide

/-- The index never puts a public key into two shards. -/
theorem FleetReach.distinct {fleet : CatalogFleet} (reach : FleetReach fleet) :
    DistinctNames fleet.storage fun name => !isInternalKey name := by
  unfold DistinctNames catalogEntries
  rw [List.filter_flatMap, List.map_flatMap, List.nodup_flatMap]
  constructor
  · intro name _
    have names : (((fleet.storage name).records).map Prod.fst).Nodup :=
      List.pairwise_map.mpr ((fleet.storage name).sorted.imp fun {left right} less same => by
        rw [same] at less
        exact lt_irrefl _ less)
    refine names.sublist ?_
    rw [List.filter_map, List.map_map]
    exact List.filter_sublist.map _
  · refine allRunCatalogShardNames_nodup.imp fun {left right} different => ?_
    intro key inLeft inRight
    have routed {name : String} (member : key ∈ (((fleet.storage name).records.map fun (key, value) =>
        (⟨key, value, name⟩ : CatalogEntry CatalogRecord)).filter fun entry =>
          !isInternalKey entry.name).map (·.name)) :
        ∃ runId keys canonicalKeys, RunCatalogDO.canonicalCatalogKeys runId keys = .ok canonicalKeys ∧
          (key = canonicalKeys.1 ∨ key = canonicalKeys.2) ∧ runCatalogShardName runId = name := by
      obtain ⟨entry, kept, rfl⟩ := List.mem_map.mp member
      obtain ⟨listed, visible⟩ := List.mem_filter.mp kept
      obtain ⟨record, stored, rfl⟩ := List.mem_map.mp listed
      have found := KeyMap.mem_storage.mp (show (record.1, record.2) ∈ _ from stored)
      rw [RunCatalogStore.records_public (by simpa using visible)] at found
      obtain ⟨value, entry, -⟩ := Option.map_eq_some_iff.mp found
      exact reach.routed name record.1 value entry
    obtain ⟨runId, keys, canonicalKeys, canonical, mine, rfl⟩ := routed inLeft
    obtain ⟨other, keys', canonicalKeys', canonical', theirs, rfl⟩ := routed inRight
    exact different (congrArg runCatalogShardName
      (RunCatalogDO.canonicalCatalogKeys_runId canonical canonical' mine theirs))

/-- No internal record lies under the prefix of the listing. -/
def CatalogListOptions.isPublic (options : CatalogListOptions) : Bool :=
  let keyPrefix := ((truthy options.keyPrefix).getD "run").toList
  internalPrefixes.all fun start => !start.toList.isPrefixOf keyPrefix && !keyPrefix.isPrefixOf start.toList

theorem CatalogListOptions.admits_public {options : CatalogListOptions} (isPublic : options.isPublic = true)
    (name : String) (admitted : options.admits name = true) : (!isInternalKey name) = true := by
  have under := List.isPrefixOf_iff_prefix.mp ((Bool.and_eq_true _ _).mp admitted).1
  rw [Bool.not_eq_true', Bool.eq_false_iff]
  intro internal
  obtain ⟨start, member, starts⟩ := List.any_eq_true.mp internal
  have apart := List.all_eq_true.mp isPublic start member
  simp only [Bool.and_eq_true, Bool.not_eq_true', ← Bool.not_eq_true, List.isPrefixOf_iff_prefix] at apart
  rcases List.prefix_or_prefix_of_prefix under (List.isPrefixOf_iff_prefix.mp starts) with shorter | longer
  · exact apart.2 shorter
  · exact apart.1 longer

/-- The public entries of all shards that a listing matches. -/
def publicEntries {α : Type} (shards : String → CatalogStorage α) (options : CatalogListOptions) :
    List (CatalogEntry α) :=
  (catalogEntries shards).filter fun entry => !isInternalKey entry.name && options.admits entry.name

theorem publicEntries_eq {α : Type} {shards : String → CatalogStorage α} {options : CatalogListOptions}
    (isPublic : options.isPublic = true) :
    publicEntries shards options = (catalogEntries shards).filter fun entry => options.admits entry.name := by
  refine List.filter_congr fun entry _ => ?_
  cases admitted : options.admits entry.name with
  | false => exact Bool.and_false _
  | true => rw [CatalogListOptions.admits_public isPublic _ admitted, Bool.and_true]

/-- The merged list is the beginning of the union of all shards under a public prefix, in
byte order, and its cursors lead through the union as long as no public key is in two
shards, which the index sees to. -/
theorem catalogList_union {α : Type} :
    (∀ (shards : String → CatalogStorage α) (options : CatalogListOptions), options.isPublic = true →
      (∃ rest, ((listRuns shards options).keys ++ rest).Perm (publicEntries shards options) ∧
        ((listRuns shards options).keys ++ rest).Pairwise options.ordered ∧
        (listRuns shards options).keys.length =
          min (pageLimit 1000 options.limit) (publicEntries shards options).length ∧
        ((listRuns shards options).listComplete = true ↔ rest = [])) ∧
      (∀ entry ∈ (listRuns shards options).keys, isInternalKey entry.name = false) ∧
      (DistinctNames shards (fun name => !isInternalKey name) → ∀ fuel,
        (publicEntries shards options).length < fuel →
        ∃ entries, followRuns shards fuel options = some entries ∧ entries.Perm (publicEntries shards options) ∧
          entries.Pairwise options.before)) ∧
    ∀ fleet, FleetReach fleet → DistinctNames fleet.storage fun name => !isInternalKey name := by
  refine ⟨fun shards options isPublic => ?_, fun fleet reach => reach.distinct⟩
  have perm := @catalogOrder_perm α shards options
  rw [← publicEntries_eq isPublic] at perm
  rw [listRuns_eq]
  generalize pageLimit 1000 options.limit = limit
  refine ⟨⟨(catalogOrder shards options).drop limit, ?_, ?_, ?_, ?_⟩, ?_, ?_⟩
  · rw [List.take_append_drop]
    exact perm
  · rw [List.take_append_drop]
    exact catalogOrder_sorted
  · rw [List.length_take, perm.length_eq]
  · simp only [decide_eq_true_eq, List.drop_eq_nil_iff]
  · intro entry member
    have listed := perm.mem_iff.mp (List.mem_of_mem_take member)
    simpa using ((Bool.and_eq_true _ _).mp (List.mem_filter.mp listed).2).1
  · intro distinct fuel enough
    have within := CatalogListOptions.admits_public isPublic
    exact ⟨_, followRuns_eq distinct within (by rwa [perm.length_eq]), perm, catalogOrder_strict distinct within⟩

/-- A shard with a single record. -/
def CatalogStorage.single (name : String) : CatalogStorage Unit := ⟨[(name, ())], List.pairwise_singleton _ _⟩

/-- A run as its creation leaves it. -/
def WorkflowRun.pending (runId workflowName : String) (createdAt : Nat) : WorkflowRun where
  runId
  deploymentId := "deployment"
  workflowName
  specVersion := 1
  executionContext := none
  attributes := []
  encryptionPublicKey := none
  input := .string "input"
  status := .pending
  output := none
  error := none
  startedAt := none
  completedAt := none
  createdAt
  updatedAt := createdAt
  expiredAt := none

/-- The fleet after the publication of one run. -/
def CatalogFleet.published : CatalogFleet :=
  CatalogOp.run 1 (fun _ => {}) (.commitRun (.pending "run" "workflow" 1) "metadata" 2)

/-- Its two keys are visited. -/
theorem catalogList_union_published : ∃ entries, followRuns CatalogFleet.published.storage 3 {} = some entries ∧
    entries.length = 2 := by
  have reach : FleetReach CatalogFleet.published := .next 1 _ .start
  have few : (publicEntries CatalogFleet.published.storage {}).length = 2 := by decide +kernel
  have union := @catalogList_union CatalogRecord
  have listed := (union.1 CatalogFleet.published.storage {} (by decide +kernel)).2.2 (union.2 _ reach) 3
    (by rw [few]; decide)
  obtain ⟨entries, followed, perm, -⟩ := listed
  exact ⟨entries, followed, perm.length_eq.trans few⟩

/-- An internal prefix lists internal records, a limit below one lists an entry, a reversed
cursor beyond the end lists past the end, and a key in every shard is visited once. -/
theorem catalogList_notUnion :
    ((listRuns (fun _ => .single "expired:run") { keyPrefix := some "expired:" }).keys.any fun entry =>
      isInternalKey entry.name) = true ∧
    (listRuns (fun _ => .single "runall:1") { limit := some 0 }).keys.length = 1 ∧
    ((listRuns (fun _ => .single "runall:2")
      { cursor := some "runall:3", endKey := some "runall:1", reverse := true }).keys.any fun entry =>
        decide (encode "runall:1" < encode entry.name)) = true ∧
    (followRuns (fun _ => .single "runall:1") 17 { limit := some 1 }).map List.length = some 1 ∧
    (publicEntries (fun _ => .single "runall:1") { limit := some 1 }).length = 16 := by
  decide +kernel

end CelldWorld
