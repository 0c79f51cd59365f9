import CelldWorld.CatalogFleet
import CelldWorld.RunList

namespace CelldWorld

/-- Catalog metadata for a run. -/
structure RunIndexMetadata where
  runId : String
  createdAt : Nat
  status : RunStatus
  deriving DecidableEq, Repr

/-- `JSON.stringify` and `JSON.parse` of the metadata. -/
structure MetadataCodec where
  stringify : RunIndexMetadata → String
  parse : String → RunIndexMetadata

def MetadataCodec.runIndexMetadata (codec : MetadataCodec) (run : WorkflowRun) : String :=
  codec.stringify ⟨run.runId, run.createdAt, run.status⟩

theorem runCatalogShardName_mem (runId : String) : runCatalogShardName runId ∈ allRunCatalogShardNames := by
  unfold runCatalogShardName allRunCatalogShardNames
  exact List.mem_map_of_mem (List.mem_range.mpr (Nat.mod_lt _ (by decide)))

/-- The catalog contents that publications build, with the snapshots that were stored. -/
inductive CommitReach (codec : MetadataCodec) : List WorkflowRun → CatalogFleet → Prop
  | start : CommitReach codec [] fun _ => {}
  | stored {committed : List WorkflowRun} {fleet : CatalogFleet} {run : WorkflowRun} {store : RunCatalogStore}
      {publicationExpiresAt now : Nat} (reach : CommitReach codec committed fleet)
      (call : RunCatalogDO.upsertRun run.runId (runKeys run) (codec.runIndexMetadata run) publicationExpiresAt now
        (fleet (runCatalogShardName run.runId)) = .ok (true, store)) :
      CommitReach codec (run :: committed) (fleet.put (runCatalogShardName run.runId) store)
  | refused {committed : List WorkflowRun} {fleet : CatalogFleet} {run : WorkflowRun} {store : RunCatalogStore}
      {publicationExpiresAt now : Nat} (reach : CommitReach codec committed fleet)
      (call : RunCatalogDO.upsertRun run.runId (runKeys run) (codec.runIndexMetadata run) publicationExpiresAt now
        (fleet (runCatalogShardName run.runId)) = .ok (false, store)) :
      CommitReach codec committed (fleet.put (runCatalogShardName run.runId) store)

/-- The parsed entry of a listing; only metadata lie under the public prefixes. -/
def MetadataCodec.entry (codec : MetadataCodec) (entry : CatalogEntry CatalogRecord) : RunIndexEntry :=
  match entry.value with
  | .metadata serialized => ⟨entry.name, (codec.parse serialized).runId, (codec.parse serialized).status⟩
  | _ => ⟨entry.name, "", .pending⟩

/-- A listing over the shards of a fleet and the authoritative runs of its cells. -/
def CatalogFleet.dependencies (fleet : CatalogFleet) (codec : MetadataCodec)
    (readRun : String → Option WorkflowRun) :
    RunListDependencies where
  listRuns _ options :=
    let page := CelldWorld.listRuns fleet.storage
      { keyPrefix := some options.keyPrefix, cursor := options.cursor, limit := some options.limit
        reverse := options.reverse }
    ⟨page.keys.map codec.entry, page.listComplete, page.cursor⟩
  readRun := readRun

namespace RunListDependencies
variable (deps : RunListDependencies)

/-- Follow the cursors of a listing until there is no more; `none` if the pages, or the
`fuel` for the scan of one of them, were not enough. -/
def followPages (fuel : Nat) : Nat → RunListRequest → Option (List RunListPage)
  | 0, _ => none
  | pages + 1, request =>
    (deps.listRunsPage request fuel).bind fun page =>
      if page.hasMore then
        (followPages fuel pages { request with cursor := page.cursor }).map (page :: ·)
      else some [page]

end RunListDependencies

/-- The published snapshot is an earlier answer of the cell that now holds the run. -/
def PublishedRun (W : WorldContract) (clock : Nat → Nat → Prop) (snapshot current : WorkflowRun) : Prop :=
  ∃ earlier now before history request success after later,
    CellReach W snapshot.runId clock earlier before history ∧ clock earlier now ∧
    WorkflowRunDO.applyEvent W snapshot.runId now request before = .ok (.ok success, after) ∧
    success.run = some snapshot ∧ CellPath W snapshot.runId after later ∧ later.run = some current

namespace PublishedRun
variable {W : WorldContract} {clock : Nat → Nat → Prop} {snapshot current : WorkflowRun}

theorem published (published : PublishedRun W clock snapshot current) {entry : RunIndexEntry}
    (same : entry.runId = snapshot.runId) (status : entry.status = snapshot.status) :
    Published W clock entry current := by
  unfold PublishedRun at published
  rw [← same] at published
  obtain ⟨earlier, now, before, history, request, success, after, later, reach, tick, call, carried,
    path, holds⟩ := published
  exact ⟨earlier, now, before, history, request, success, after, snapshot, later, reach, tick, call, carried,
    status.symm, path, holds⟩

/-- A run keeps the identity that its publication carries. -/
theorem sameIdentity (published : PublishedRun W clock snapshot current) : SameIdentity snapshot current := by
  obtain ⟨earlier, now, before, history, request, success, after, later, reach, tick, call, carried,
    path, holds⟩ := published
  have stored := WorkflowRunDO.applyEvent_publishes call carried
  have reached := CellReach.next (.applyEvent request) reach tick
  have same : CellOp.run W snapshot.runId now (.applyEvent request) before = after := by
    rw [CellOp.run, call]
    rfl
  rw [same] at reached
  have cleans := fun before => (((logState_invariant W snapshot.runId clock).reach reached).1 before).1
  rcases (path.carries (SameIdentity.carried W) stored cleans).2 with ⟨run, found, identity⟩ | ⟨gone, -⟩
  · obtain rfl := Option.some.inj (found.symm.trans holds)
    exact identity
  · cases gone.symm.trans holds

end PublishedRun

namespace RunListRequest
variable (request : RunListRequest)

/-- The key of a run in the part of the catalog that a request scans. -/
def scanKey (run : WorkflowRun) : String :=
  if (truthy request.workflowName).isSome then s!"run:{run.workflowName}:{pad run.createdAt}:{run.runId}"
  else s!"runall:{pad run.createdAt}:{run.runId}"

/-- The prefix that a request scans. -/
def scanPrefix : String :=
  match truthy request.workflowName with
  | some workflowName => s!"run:{workflowName}:"
  | none => "runall:"

/-- The run is asked for: it has the requested workflow name and one of the requested
statuses, if these are given. -/
def wants (run : WorkflowRun) : Bool := request.workflowName.all (· = run.workflowName) && request.wantsStatus run

/-- One run comes before another one in the order of their keys. -/
def runBefore (left right : WorkflowRun) : Prop :=
  if request.sortOrder = .desc then encode (request.scanKey right) < encode (request.scanKey left)
  else encode (request.scanKey left) < encode (request.scanKey right)

/-- The runs that the pages list are those asked for, each once and in order, and a page
has more exactly when a later one lists a run. -/
structure Exact (existing : WorkflowRun → Prop) (pages : List RunListPage) : Prop where
  listed : ∀ run, run ∈ (pages.flatMap (·.data)).map (·.run) ↔ existing run ∧ request.wants run = true
  once : ((pages.flatMap (·.data)).map (·.run.runId)).Nodup
  inOrder : ((pages.flatMap (·.data)).map (·.run)).Pairwise request.runBefore
  hasMore : ∀ page rest, page :: rest <:+ pages → (page.hasMore = true ↔ rest.flatMap (·.data) ≠ [])

end RunListRequest

/-- The catalog serves pages of an order, which goes on after any of its entries. -/
structure RunListDependencies.Serves (deps : RunListDependencies) (request : RunListRequest)
    (order : Option String → List RunIndexEntry) : Prop where
  page : ∀ calls cursor, ∃ size, 0 < size ∧ deps.catalogPage request calls cursor =
    { keys := (order cursor).take size
      listComplete := decide ((order cursor).length ≤ size)
      cursor := if (order cursor).length ≤ size then none else ((order cursor).take size).getLast?.map (·.name) }
  beyond : ∀ cursor front entry back, order cursor = front ++ entry :: back → order (some entry.name) = back

namespace RunListDependencies
variable {deps : RunListDependencies} {request : RunListRequest} {order : Option String → List RunIndexEntry}

/-- The matches that a listing has beyond a cursor. -/
def found (deps : RunListDependencies) (request : RunListRequest) (order : Option String → List RunIndexEntry)
    (cursor : Option String) : List RunMatch :=
  (order cursor).filterMap (deps.resolve request.statuses)

/-- A scan finds the first matches of the order, one more than the limit. -/
theorem Serves.scan (serves : deps.Serves request order) {fuel calls : Nat} {cursor : Option String}
    {matched : List RunMatch} (enough : (order cursor).length < fuel)
    (bounded : matched.length ≤ request.limit + 1) :
    deps.scan (fun _ => false) request fuel calls cursor matched =
      some ((matched ++ deps.found request order cursor).take (request.limit + 1)) := by
  induction fuel generalizing calls cursor matched with
  | zero => omega
  | succ fuel ih =>
    obtain ⟨size, positive, page⟩ := serves.page calls cursor
    rw [RunListDependencies.scan, page]
    simp only
    by_cases none_ : order cursor = []
    · rw [if_pos (by rw [none_, List.take_nil])]
      simp only [found, none_, List.filterMap_nil, List.append_nil, List.take_of_length_le bounded]
    have nonempty : (order cursor).take size ≠ [] := by
      intro nothing
      rcases List.take_eq_nil_iff.mp nothing with zero | empty
      · omega
      · exact none_ empty
    have kept : ((order cursor).take size).filter (fun _ => !false) = (order cursor).take size :=
      List.filter_eq_self.mpr fun _ _ => rfl
    rw [if_neg nonempty, kept, verify_eq (Nat.le_refl _) bounded]
    have whole : deps.found request order cursor =
      ((order cursor).take size).filterMap (deps.resolve request.statuses) ++
        ((order cursor).drop size).filterMap (deps.resolve request.statuses) := by
      rw [← List.filterMap_append, List.take_append_drop]
      rfl
    rw [whole, ← List.append_assoc]
    generalize page' : ((order cursor).take size).filterMap (deps.resolve request.statuses) = first
    by_cases complete : (order cursor).length ≤ size
    · rw [if_neg (by simp [complete]), List.drop_of_length_le complete, List.filterMap_nil, List.append_nil]
    by_cases full : ((matched ++ first).take (request.limit + 1)).length ≤ request.limit
    · obtain ⟨last, ends⟩ : ∃ last, ((order cursor).take size).getLast? = some last :=
        ⟨_, List.getLast?_eq_some_getLast nonempty⟩
      obtain ⟨front, taken⟩ := List.getLast?_eq_some_iff.mp ends
      have rest : order (some last.name) = (order cursor).drop size := serves.beyond cursor front last _ (by
        rw [List.append_cons front, ← taken, List.take_append_drop])
      have short : (matched ++ first).length ≤ request.limit + 1 := by
        rw [List.length_take] at full
        omega
      rw [if_pos ⟨full, by simpa using complete⟩, if_neg complete, ends, Option.map_some, Option.some_or,
        ih (by rw [rest, List.length_drop]; omega) (List.length_take_le _ _),
        List.take_of_length_le short, found, rest]
    · rw [List.length_take] at full
      have long : request.limit + 1 ≤ (matched ++ first).length :=
        Nat.le_trans (Nat.lt_of_not_le full) (Nat.min_le_right ..)
      rw [if_neg fun holds => full (List.length_take ▸ holds.1), List.take_append_of_le_length long]

/-- The prefilter never skips a run that a request wants. -/
def Prefilters (deps : RunListDependencies) (request : RunListRequest) : Prop :=
  ∀ calls cursor, ∀ entry ∈ (deps.catalogPage request calls cursor).keys,
    prefiltered request.statuses entry = true →
    deps.resolve request.statuses entry = none

/-- A page lists the first matches beyond its cursor and knows whether there are more. -/
theorem Serves.listRunsPage (serves : deps.Serves request order) (prefilters : deps.Prefilters request)
    {fuel : Nat}
    (enough : (order request.cursor).length < fuel) :
    deps.listRunsPage request fuel = some
      { data := ((deps.found request order request.cursor).take request.limit).map fun found =>
          ⟨found.run, request.resolveData⟩
        cursor := if request.limit < (deps.found request order request.cursor).length then
          ((deps.found request order request.cursor).take request.limit).getLast?.map (·.key) else none
        hasMore := decide (request.limit < (deps.found request order request.cursor).length) } := by
  unfold RunListDependencies.listRunsPage listWith
  rw [scan_eq prefilters (Nat.zero_le _), serves.scan enough (Nat.zero_le _), List.nil_append, Option.map_some]
  generalize deps.found request order request.cursor = matched
  have more : (request.limit < (matched.take (request.limit + 1)).length) = (request.limit < matched.length) := by
    rw [List.length_take]
    exact propext ⟨fun less => by omega, fun less => by omega⟩
  have first : (matched.take (request.limit + 1)).take request.limit = matched.take request.limit := by
    rw [List.take_take, Nat.min_eq_left (Nat.le_succ _)]
  simp only [more, first, decide_eq_true_eq]

theorem resolve_key {statuses : Option (List RunStatus)} {entry : RunIndexEntry} {matched : RunMatch}
    (resolved : deps.resolve statuses entry = some matched) : matched.key = entry.name := by
  unfold RunListDependencies.resolve at resolved
  obtain ⟨run, -, resolved⟩ := Option.bind_eq_some_iff.mp resolved
  split at resolved
  · cases resolved
    rfl
  · cases resolved

/-- The matches beyond the last one of a page are the rest of the matches. -/
theorem Serves.found_beyond (serves : deps.Serves request order) {cursor : Option String} {count : Nat}
    {last : RunMatch}
    (page : ((deps.found request order cursor).take count).getLast? = some last) :
    deps.found request order (some last.key) = (deps.found request order cursor).drop count := by
  obtain ⟨front, taken⟩ := List.getLast?_eq_some_iff.mp page
  have whole : deps.found request order cursor =
      front ++ last :: (deps.found request order cursor).drop count := by
    rw [List.append_cons front, ← taken, List.take_append_drop]
  generalize (deps.found request order cursor).drop count = rest at whole
  obtain ⟨before, after, split_, -, beyond⟩ := List.filterMap_eq_append_iff.mp whole
  obtain ⟨skipped, entry, back, rfl, none_, matched, rfl⟩ := List.filterMap_eq_cons_iff.mp beyond
  rw [resolve_key matched, found,
    serves.beyond cursor (before ++ skipped) entry back (by rw [split_, List.append_assoc])]

/-- Following the cursors lists every match once. -/
theorem Serves.followPages (serves : deps.Serves request order) (prefilters : deps.Prefilters request)
    (some_ : 1 ≤ request.limit) {fuel pages : Nat} {cursor : Option String}
    (enough : ∀ cursor, (order cursor).length < fuel) (many : (deps.found request order cursor).length < pages) :
    ∃ listed, deps.followPages fuel pages { request with cursor } = some listed ∧
      (listed.flatMap (·.data)).map (·.run) = (deps.found request order cursor).map (·.run) ∧
      ∀ page rest, page :: rest <:+ listed → (page.hasMore = true ↔ rest.flatMap (·.data) ≠ []) := by
  induction pages generalizing cursor with
  | zero => omega
  | succ pages ih =>
    have serves' : deps.Serves { request with cursor } order := ⟨serves.page, serves.beyond⟩
    have page := serves'.listRunsPage prefilters (enough cursor)
    have same : deps.found { request with cursor } order cursor = deps.found request order cursor := rfl
    simp only [same] at page
    rw [RunListDependencies.followPages, page, Option.bind_some]
    by_cases more : request.limit < (deps.found request order cursor).length
    · have nonempty : (deps.found request order cursor).take request.limit ≠ [] := by
        intro nothing
        rcases List.take_eq_nil_iff.mp nothing with zero | empty
        · omega
        · rw [empty] at more
          exact Nat.not_lt_zero _ more
      have ends := List.getLast?_eq_some_getLast nonempty
      have beyond := serves.found_beyond ends
      generalize ((deps.found request order cursor).take request.limit).getLast nonempty = last at ends beyond
      obtain ⟨listed, followed, runs, suffixes⟩ := @ih (some last.key) (by rw [beyond, List.length_drop]; omega)
      rw [if_pos (decide_eq_true more), if_pos more, ends, Option.map_some, followed, Option.map_some]
      have later : listed.flatMap (·.data) ≠ [] := by
        intro nothing
        rw [nothing, beyond, List.map_nil] at runs
        have drained := congrArg List.length runs
        rw [List.length_map, List.length_drop, List.length_nil] at drained
        omega
      refine ⟨_, rfl, ?_, fun page rest suffix => ?_⟩
      · have whole := congrArg (List.map RunMatch.run)
          (List.take_append_drop request.limit (deps.found request order cursor))
        rw [List.map_append] at whole
        rw [List.flatMap_cons, List.map_append, runs, beyond, List.map_map]
        exact whole
      · rcases List.suffix_cons_iff.mp suffix with same | later'
        · cases same
          exact ⟨fun _ => later, fun _ => decide_eq_true more⟩
        · exact suffixes page rest later'
    · rw [if_neg (by simpa using more), if_neg more]
      have all : (deps.found request order cursor).take request.limit = deps.found request order cursor :=
        List.take_of_length_le (Nat.not_lt.mp more)
      refine ⟨_, rfl, ?_, fun page rest suffix => ?_⟩
      · simp [all]
      · rcases List.suffix_cons_iff.mp suffix with same | nothing
        · cases same
          simpa using more
        · cases List.suffix_nil.mp nothing

end RunListDependencies

/-- What publications have built: each entry is of a stored snapshot, and each stored
snapshot has its canonical keys in the shard of its run. -/
structure CatalogFleet.Built (codec : MetadataCodec) (committed : List WorkflowRun) (fleet : CatalogFleet) :
    Prop where
  entry : ∀ (name key value : String), (fleet name).entries[key]? = some value → ∃ run ∈ committed,
    runCatalogShardName run.runId = name ∧ key ∈ runKeys run ∧ value = codec.runIndexMetadata run
  stored : ∀ run ∈ committed, ∀ key ∈ runKeys run,
    ((fleet (runCatalogShardName run.runId)).entries[key]?).isSome = true
  canonical : ∀ run ∈ committed, ∃ canonicalKeys,
    RunCatalogDO.canonicalCatalogKeys run.runId (runKeys run) = .ok canonicalKeys

namespace CommitReach
variable {codec : MetadataCodec} {committed : List WorkflowRun} {fleet : CatalogFleet}

theorem fleetReach (reach : CommitReach codec committed fleet) : FleetReach fleet := by
  induction reach with
  | start => exact .start
  | @stored committed fleet run store publicationExpiresAt now _ call ih =>
    have next := FleetReach.next now (.commitRun run (codec.runIndexMetadata run) publicationExpiresAt) ih
    simpa only [CatalogOp.run, call] using next
  | @refused committed fleet run store publicationExpiresAt now _ call ih =>
    have next := FleetReach.next now (.commitRun run (codec.runIndexMetadata run) publicationExpiresAt) ih
    simpa only [CatalogOp.run, call] using next

theorem built (reach : CommitReach codec committed fleet) : fleet.Built codec committed := by
  induction reach with
  | start =>
    constructor
    · intro name key value found
      simp at found
    · intro run member
      cases member
    · intro run member
      cases member
  | @stored committed fleet run store publicationExpiresAt now _ call ih =>
    obtain ⟨canonicalKeys, canonical, ⟨wrong, -⟩ | ⟨-, entries⟩⟩ := RunCatalogDO.upsertRun_entries call
    · cases wrong
    obtain ⟨-, -, -, keys, -⟩ := RunCatalogDO.canonicalCatalogKeys_ok canonical
    have mine (key : String) : (key = canonicalKeys.1 ∨ key = canonicalKeys.2) ↔ key ∈ runKeys run := by
      rw [keys, List.mem_cons, List.mem_singleton]
    simp only [mine] at entries
    refine ⟨fun name key value found => ?_, fun other member key listed => ?_, fun other member => ?_⟩
    · unfold CatalogFleet.put at found
      split at found
      · rename_i here
        subst here
        rw [entries] at found
        split at found
        · cases found
          exact ⟨run, .head _, rfl, ‹_›, rfl⟩
        · obtain ⟨other, member, rest⟩ := ih.entry _ _ _ found
          exact ⟨other, .tail _ member, rest⟩
      · obtain ⟨other, member, rest⟩ := ih.entry _ _ _ found
        exact ⟨other, .tail _ member, rest⟩
    · unfold CatalogFleet.put
      split
      · rename_i here
        rw [entries]
        split
        · rfl
        · rcases List.mem_cons.mp member with rfl | earlier
          · contradiction
          · exact here ▸ ih.stored other earlier key listed
      · rename_i elsewhere
        rcases List.mem_cons.mp member with rfl | earlier
        · exact absurd rfl elsewhere
        · exact ih.stored other earlier key listed
    · rcases List.mem_cons.mp member with rfl | earlier
      · exact ⟨_, canonical⟩
      · exact ih.canonical other earlier
  | @refused committed fleet run store publicationExpiresAt now _ call ih =>
    obtain ⟨-, -, ⟨-, rfl⟩ | ⟨wrong, -⟩⟩ := RunCatalogDO.upsertRun_entries call
    · have same : fleet.put (runCatalogShardName run.runId) (fleet (runCatalogShardName run.runId)) = fleet := by
        funext name
        unfold CatalogFleet.put
        split
        · rename_i here
          rw [here]
        · rfl
      rwa [same]
    · cases wrong

end CommitReach

namespace RunListRequest
variable {request : RunListRequest} {run : WorkflowRun}

theorem scanKey_mem : request.scanKey run ∈ runKeys run := by
  unfold scanKey runKeys
  split
  · exact .head _
  · exact .tail _ (.head _)

/-- Of the two keys of a run only one lies in the part of the catalog that is scanned. -/
theorem eq_scanKey {key : String} (listed : key ∈ runKeys run)
    (under : request.scanPrefix.toList <+: key.toList) :
    key = request.scanKey run := by
  obtain ⟨rest, spelled⟩ := under
  unfold scanPrefix at spelled
  unfold scanKey
  simp only [runKeys, List.mem_cons, List.not_mem_nil, or_false] at listed
  cases given : truthy request.workflowName with
  | none =>
    rw [given] at spelled
    rcases listed with rfl | rfl
    · simp [toString] at spelled
    · rfl
  | some workflowName =>
    rw [given] at spelled
    rcases listed with rfl | rfl
    · rfl
    · simp [toString] at spelled

end RunListRequest

/-- The catalog listing of a request from a cursor on. -/
def RunListRequest.options (request : RunListRequest) (cursor : Option String) : CatalogListOptions where
  keyPrefix := some request.scanPrefix
  cursor
  limit := some (min MAX_RUN_LIST_LIMIT (max 50 request.limit) : Nat)
  reverse := request.sortOrder = .desc

/-- The entries of a fleet that a request scans, in order. -/
def CatalogFleet.scanned (fleet : CatalogFleet) (codec : MetadataCodec) (request : RunListRequest)
    (cursor : Option String) : List RunIndexEntry :=
  (catalogOrder fleet.storage (request.options cursor)).map codec.entry

namespace RunListRequest
variable {request : RunListRequest}

theorem options_listPrefix (cursor : Option String) :
    (truthy (request.options cursor).keyPrefix).getD "run" = request.scanPrefix := by
  have nonempty : request.scanPrefix ≠ "" := by
    unfold scanPrefix
    split
    · intro same
      have spelled := congrArg String.toList same
      simp [toString] at spelled
    · decide
  simp only [options, truthy, Option.filter_some, decide_eq_true nonempty, if_true, Option.getD_some]

theorem options_public (cursor : Option String) : (request.options cursor).isPublic = true := by
  unfold CatalogListOptions.isPublic
  rw [options_listPrefix]
  unfold scanPrefix
  cases truthy request.workflowName with
  | none => decide
  | some workflowName => simp [internalPrefixes, toString, List.isPrefixOf]

theorem options_admits {name : String} (cursor : Option String)
    (admitted : (request.options cursor).admits name = true) :
    request.scanPrefix.toList <+: name.toList := by
  have under := ((Bool.and_eq_true _ _).mp admitted).1
  rw [options_listPrefix] at under
  exact List.isPrefixOf_iff_prefix.mp under

theorem options_admits_none {name : String} (under : request.scanPrefix.toList <+: name.toList) :
    (request.options none).admits name = true := by
  unfold CatalogListOptions.admits
  rw [options_listPrefix, List.isPrefixOf_iff_prefix.mpr under]
  simp [options]

end RunListRequest

namespace MetadataCodec
variable {codec : MetadataCodec} {run : WorkflowRun}

/-- The codec reads back the metadata of a run. -/
def Reads (codec : MetadataCodec) (run : WorkflowRun) : Prop :=
  codec.parse (codec.runIndexMetadata run) = ⟨run.runId, run.createdAt, run.status⟩

instance : Decidable (codec.Reads run) := by
  unfold Reads
  infer_instance

@[simp]
theorem entry_name (entry : CatalogEntry CatalogRecord) : (codec.entry entry).name = entry.name := by
  unfold MetadataCodec.entry
  split <;> rfl

end MetadataCodec

namespace CommitReach
variable {codec : MetadataCodec} {committed : List WorkflowRun} {fleet : CatalogFleet}

/-- A fleet serves the scan of a request page by page. -/
theorem serves (reach : CommitReach codec committed fleet) (readRun : String → Option WorkflowRun)
    (request : RunListRequest) :
    (fleet.dependencies codec readRun).Serves request (fleet.scanned codec request) := by
  constructor
  · intro calls cursor
    have size := (pageLimit_bounds (request.options cursor).limit (show 1 ≤ 1000 by decide)).1
    refine ⟨_, size, ?_⟩
    have asked : (fleet.dependencies codec readRun).catalogPage request calls cursor =
        let page := listRuns fleet.storage (request.options cursor)
        ⟨page.keys.map codec.entry, page.listComplete, page.cursor⟩ := rfl
    rw [asked, listRuns_eq]
    simp only [CatalogFleet.scanned, List.length_map, ← List.map_take, List.getLast?_map, Option.map_map,
      Function.comp_def, MetadataCodec.entry_name, decide_eq_true_eq]
  · intro cursor front entry back split_
    obtain ⟨left, right, whole, -, rest⟩ := List.map_eq_append_iff.mp split_
    obtain ⟨last, beyond, rfl, rfl, rfl⟩ := List.map_eq_cons_iff.mp rest
    have within := CatalogListOptions.admits_public (@RunListRequest.options_public request cursor)
    have ends : ((catalogOrder fleet.storage (request.options cursor)).take (left.length + 1)).getLast? =
        some last := by
      rw [whole, List.append_cons, List.take_left' (by simp), List.getLast?_concat]
    have after := (catalogOrder_cursor reach.fleetReach.distinct within ends).2
    rw [MetadataCodec.entry_name, CatalogFleet.scanned]
    have dropped : (catalogOrder fleet.storage (request.options cursor)).drop (left.length + 1) = beyond := by
      rw [whole, ← List.drop_drop, List.drop_left]
      rfl
    rw [← dropped, ← after]
    rfl

/-- An entry that is scanned is the snapshot of a committed run under the key of the scan. -/
theorem scanned_entry (reach : CommitReach codec committed fleet) {request : RunListRequest}
    {cursor : Option String}
    {entry : RunIndexEntry} (member : entry ∈ fleet.scanned codec request cursor) :
    ∃ snapshot ∈ committed, entry.name = request.scanKey snapshot ∧
      (request.options cursor).admits entry.name = true ∧
      (codec.Reads snapshot → entry.runId = snapshot.runId ∧ entry.status = snapshot.status) := by
  obtain ⟨listed, ordered, rfl⟩ := List.mem_map.mp member
  obtain ⟨held, admitted⟩ := List.mem_filter.mp (catalogOrder_perm.mem_iff.mp ordered)
  obtain ⟨shard, -, inShard⟩ := List.mem_flatMap.mp held
  obtain ⟨⟨key, record⟩, stored, rfl⟩ := List.mem_map.mp inShard
  have visible := CatalogListOptions.admits_public (RunListRequest.options_public cursor) _ admitted
  have found := KeyMap.mem_storage.mp stored
  rw [RunCatalogStore.records_public (by simpa using visible)] at found
  obtain ⟨serialized, kept, rfl⟩ := Option.map_eq_some_iff.mp found
  obtain ⟨snapshot, committed, -, ofRun, rfl⟩ := reach.built.entry shard key serialized kept
  have spelled := RunListRequest.eq_scanKey ofRun (RunListRequest.options_admits cursor admitted)
  refine ⟨snapshot, committed, spelled, admitted, fun reads => ?_⟩
  unfold MetadataCodec.Reads at reads
  simp only [MetadataCodec.entry, reads, and_self]

/-- The key of a committed run is scanned when it lies under the prefix of the request. -/
theorem entry_scanned (reach : CommitReach codec committed fleet) {request : RunListRequest} {run : WorkflowRun}
    (member : run ∈ committed) (under : request.scanPrefix.toList <+: (request.scanKey run).toList) :
    ∃ entry ∈ fleet.scanned codec request none, entry.name = request.scanKey run := by
  obtain ⟨serialized, kept⟩ := Option.isSome_iff_exists.mp
    (reach.built.stored run member _ (request.scanKey_mem))
  have admitted := RunListRequest.options_admits_none under
  have visible := CatalogListOptions.admits_public (RunListRequest.options_public none) _ admitted
  have stored := @RunCatalogStore.records_public (fleet (runCatalogShardName run.runId)) _
    (by simpa using visible)
  rw [kept] at stored
  have shard := runCatalogShardName_mem run.runId
  have held : (⟨request.scanKey run, .metadata serialized, runCatalogShardName run.runId⟩ :
    CatalogEntry CatalogRecord) ∈
      catalogEntries fleet.storage :=
    List.mem_flatMap.mpr ⟨runCatalogShardName run.runId, shard,
      List.mem_map_of_mem (KeyMap.mem_storage.mpr stored)⟩
  have ordered := catalogOrder_perm.mem_iff.mpr (List.mem_filter.mpr ⟨held, admitted⟩)
  exact ⟨_, List.mem_map_of_mem ordered, MetadataCodec.entry_name _⟩

/-- Two committed runs with one key are of one run ID. -/
theorem runId_of_scanKey (reach : CommitReach codec committed fleet) {request : RunListRequest}
    {left right : WorkflowRun} (inLeft : left ∈ committed) (inRight : right ∈ committed)
    (same : request.scanKey left = request.scanKey right) : left.runId = right.runId := by
  obtain ⟨keys, canonical⟩ := reach.built.canonical left inLeft
  obtain ⟨keys', canonical'⟩ := reach.built.canonical right inRight
  obtain ⟨-, -, -, pair, -⟩ := RunCatalogDO.canonicalCatalogKeys_ok canonical
  obtain ⟨-, -, -, pair', -⟩ := RunCatalogDO.canonicalCatalogKeys_ok canonical'
  have mine : request.scanKey left ∈ runKeys left := RunListRequest.scanKey_mem
  have theirs : request.scanKey right ∈ runKeys right := RunListRequest.scanKey_mem
  rw [pair, List.mem_cons, List.mem_singleton] at mine
  rw [pair', List.mem_cons, List.mem_singleton, ← same] at theirs
  exact RunCatalogDO.canonicalCatalogKeys_runId canonical canonical' mine theirs

/-- Everything scanned is in strict order of the keys. -/
theorem scanned_before (reach : CommitReach codec committed fleet) (request : RunListRequest)
    (cursor : Option String) :
    (fleet.scanned codec request cursor).Pairwise fun left right =>
      if request.sortOrder = .desc then encode right.name < encode left.name
        else encode left.name < encode right.name := by
  have within := CatalogListOptions.admits_public (@RunListRequest.options_public request cursor)
  refine List.pairwise_map.mpr
    ((catalogOrder_strict reach.fleetReach.distinct within).imp fun {left right} before => ?_)
  simpa [CatalogListOptions.before, RunListRequest.options] using before

end CommitReach

/-- A catalog of published runs, whose metadata are read back, over the cells that hold
these runs now. -/
structure Catalogued (W : WorldContract) (clock : Nat → Nat → Prop) (codec : MetadataCodec)
    (readRun : String → Option WorkflowRun) (committed : List WorkflowRun) (fleet : CatalogFleet) : Prop where
  reach : CommitReach codec committed fleet
  reads : ∀ run ∈ committed, codec.Reads run
  published : ∀ snapshot ∈ committed, ∀ current, readRun snapshot.runId = some current →
    PublishedRun W clock snapshot current

/-- The run exists, unexpired, and was published. -/
def Existing (readRun : String → Option WorkflowRun) (committed : List WorkflowRun) (run : WorkflowRun) : Prop :=
  ∃ snapshot ∈ committed, readRun snapshot.runId = some run

theorem SameIdentity.scanKey {earlier later : WorkflowRun} (same : SameIdentity earlier later)
    (request : RunListRequest) : request.scanKey earlier = request.scanKey later := by
  unfold RunListRequest.scanKey
  rw [same.runId, same.workflowName, same.createdAt]

namespace RunListRequest

/-- No run in a requested status has a key under the scanned prefix when its workflow name
is not the requested one. -/
def NamesApart (request : RunListRequest) (existing : WorkflowRun → Prop) : Prop :=
  ∀ run, existing run → request.wantsStatus run = true →
    request.scanPrefix.toList <+: (request.scanKey run).toList →
    request.workflowName.all (· = run.workflowName) = true

/-- A run that is asked for has its key under the prefix. -/
theorem scanKey_under {request : RunListRequest} {run : WorkflowRun}
    (named : request.workflowName.all (· = run.workflowName) = true) :
    request.scanPrefix.toList <+: (request.scanKey run).toList := by
  unfold scanPrefix scanKey
  cases given : truthy request.workflowName with
  | none => exact ⟨_, by simp [toString, String.toList_append]; rfl⟩
  | some workflowName =>
    obtain ⟨asked, -⟩ := Option.filter_eq_some_iff.mp given
    rw [asked, Option.all_some, decide_eq_true_eq] at named
    subst named
    exact ⟨_, by simp [toString, String.toList_append]; rfl⟩

end RunListRequest

namespace Catalogued
variable {W : WorldContract} {clock : Nat → Nat → Prop} {codec : MetadataCodec}
    {readRun : String → Option WorkflowRun}
  {committed : List WorkflowRun} {fleet : CatalogFleet} {request : RunListRequest}

/-- The stale statuses of a catalog skip no run that is wanted. -/
theorem prefilters (catalogued : Catalogued W clock codec readRun committed fleet) (request : RunListRequest) :
    (fleet.dependencies codec readRun).Prefilters request := by
  intro calls cursor entry member skipped
  obtain ⟨size, -, page⟩ := (catalogued.reach.serves readRun request).page calls cursor
  rw [page] at member
  obtain ⟨snapshot, among, -, -, reads⟩ := catalogued.reach.scanned_entry (List.mem_of_mem_take member)
  obtain ⟨runId, status⟩ := reads (catalogued.reads snapshot among)
  exact prefiltered_sound (fun current read =>
    (catalogued.published snapshot among current (runId ▸ read)).published runId status) skipped

/-- A match is an existing run in a requested status under its own key. -/
theorem found (catalogued : Catalogued W clock codec readRun committed fleet) {cursor : Option String}
    {matched : RunMatch}
    (member : matched ∈ (fleet.dependencies codec readRun).found request (fleet.scanned codec request) cursor) :
    Existing readRun committed matched.run ∧ request.wantsStatus matched.run = true ∧
      matched.key = request.scanKey matched.run ∧ request.scanPrefix.toList <+: matched.key.toList := by
  obtain ⟨entry, listed, resolved⟩ := List.mem_filterMap.mp member
  obtain ⟨snapshot, among, key, admitted, reads⟩ := catalogued.reach.scanned_entry listed
  unfold RunListDependencies.resolve at resolved
  obtain ⟨run, read, resolved⟩ := Option.bind_eq_some_iff.mp resolved
  split at resolved
  · rename_i wanted
    cases resolved
    rw [(reads (catalogued.reads snapshot among)).1] at read
    have same := (catalogued.published snapshot among run read).sameIdentity
    exact ⟨⟨snapshot, among, read⟩, wanted, key.trans (same.scanKey request),
      RunListRequest.options_admits cursor admitted⟩
  · cases resolved

/-- The matches of a request are the existing runs in a requested status whose keys lie
under the scanned prefix. -/
theorem mem_found (catalogued : Catalogued W clock codec readRun committed fleet) (run : WorkflowRun) :
    run ∈ ((fleet.dependencies codec readRun).found request (fleet.scanned codec request) none).map (·.run) ↔
      Existing readRun committed run ∧ request.wantsStatus run = true ∧
        request.scanPrefix.toList <+: (request.scanKey run).toList := by
  constructor
  · intro listed
    obtain ⟨matched, member, rfl⟩ := List.mem_map.mp listed
    obtain ⟨existing, wanted, key, under⟩ := catalogued.found member
    exact ⟨existing, wanted, key ▸ under⟩
  · rintro ⟨⟨snapshot, among, read⟩, wanted, under⟩
    have same := (catalogued.published snapshot among run read).sameIdentity
    rw [← same.scanKey request] at under
    obtain ⟨entry, listed, key⟩ := catalogued.reach.entry_scanned among under
    obtain ⟨other, among', key', -, reads⟩ := catalogued.reach.scanned_entry listed
    have sameId := catalogued.reach.runId_of_scanKey among among' (key.symm.trans key')
    have ofRun := (reads (catalogued.reads other among')).1.trans sameId.symm
    refine List.mem_map.mpr ⟨⟨entry.name, run⟩, List.mem_filterMap.mpr ⟨entry, listed, ?_⟩, rfl⟩
    unfold RunListDependencies.resolve
    rw [show (fleet.dependencies codec readRun).readRun entry.runId =
      some run from ofRun ▸ read, Option.bind_some]
    exact if_pos wanted

/-- The matches come in strict order of their keys. -/
theorem found_before (catalogued : Catalogued W clock codec readRun committed fleet) (request : RunListRequest)
    (cursor : Option String) :
    (((fleet.dependencies codec readRun).found request (fleet.scanned codec request) cursor).map (·.run)).Pairwise
      request.runBefore := by
  have ordered := catalogued.reach.scanned_before request cursor
  have keys : ((fleet.dependencies codec readRun).found request (fleet.scanned codec request) cursor).Pairwise
      fun left right => if request.sortOrder = .desc then encode right.key < encode left.key
        else encode left.key < encode right.key := by
    refine List.pairwise_filterMap.mpr (ordered.imp fun before matched resolved matched' resolved' => ?_)
    rw [RunListDependencies.resolve_key resolved, RunListDependencies.resolve_key resolved']
    exact before
  refine List.pairwise_map.mpr (keys.imp_of_mem fun inLeft inRight before => ?_)
  unfold RunListRequest.runBefore
  rw [← (catalogued.found inLeft).2.2.1, ← (catalogued.found inRight).2.2.1]
  exact before

/-- No run comes before itself, so none is listed twice. -/
theorem found_once (catalogued : Catalogued W clock codec readRun committed fleet) (request : RunListRequest)
    (cursor : Option String) :
    (((fleet.dependencies codec readRun).found request (fleet.scanned codec request) cursor).map
      (·.run.runId)).Nodup := by
  have ordered := List.pairwise_map.mp (catalogued.found_before request cursor)
  refine List.pairwise_map.mpr (ordered.imp_of_mem fun {left right} inLeft inRight before sameId => ?_)
  obtain ⟨⟨snapshot, among, read⟩, -⟩ := catalogued.found inLeft
  obtain ⟨⟨other, among', read'⟩, -⟩ := catalogued.found inRight
  have identity := (catalogued.published snapshot among _ read).sameIdentity
  have identity' := (catalogued.published other among' _ read').sameIdentity
  rw [← identity.runId, sameId, identity'.runId, read'] at read
  rw [Option.some.inj read] at before
  unfold RunListRequest.runBefore at before
  split at before <;> exact lt_irrefl _ before

/-- Following the cursors lists the existing runs in a requested status whose keys lie
under the scanned prefix. -/
theorem listing (catalogued : Catalogued W clock codec readRun committed fleet) (request : RunListRequest)
    (some_ : 1 ≤ request.limit) :
    ∃ enough, ∀ fuel pages, enough ≤ fuel → enough ≤ pages → ∃ listed,
      (fleet.dependencies codec readRun).followPages fuel pages { request with cursor := none } = some listed ∧
      (∀ run, run ∈ (listed.flatMap (·.data)).map (·.run) ↔ Existing readRun committed run ∧
        request.wantsStatus run = true ∧ request.scanPrefix.toList <+: (request.scanKey run).toList) ∧
      ((listed.flatMap (·.data)).map (·.run.runId)).Nodup ∧
      ((listed.flatMap (·.data)).map (·.run)).Pairwise request.runBefore ∧
      ∀ page rest, page :: rest <:+ listed → (page.hasMore = true ↔ rest.flatMap (·.data) ≠ []) := by
  have short (cursor : Option String) :
      (fleet.scanned codec request cursor).length ≤ (catalogEntries fleet.storage).length := by
    rw [CatalogFleet.scanned, List.length_map, catalogOrder_perm.length_eq]
    exact List.length_filter_le _ _
  refine ⟨(catalogEntries fleet.storage).length + 1, fun fuel pages enough many => ?_⟩
  have few : ((fleet.dependencies codec readRun).found request (fleet.scanned codec request) none).length <
      pages :=
    Nat.lt_of_le_of_lt (List.length_filterMap_le ..) (Nat.lt_of_lt_of_le (Nat.lt_succ_of_le (short none)) many)
  obtain ⟨listed, followed, runs, suffixes⟩ := (catalogued.reach.serves readRun request).followPages
    (catalogued.prefilters request) some_
      (fun cursor => Nat.lt_of_lt_of_le (Nat.lt_succ_of_le (short cursor)) enough) few
  refine ⟨listed, followed, fun run => ?_, ?_, ?_, suffixes⟩
  · rw [runs]
    exact catalogued.mem_found run
  · have once := catalogued.found_once request none
    have ids := congrArg (List.map WorkflowRun.runId) runs
    simp only [List.map_map, Function.comp_def] at ids
    rwa [ids]
  · rw [runs]
    exact catalogued.found_before request none

end Catalogued

/-- Following the cursors of a listing ends. The pages list the existing runs that are
asked for, each once and in the order of their keys, and announce more exactly when there
is more, if and only if no run in a requested status has a key under the scanned prefix
while its workflow name is another one. -/
theorem runListing_exact_iff {W : WorldContract} {clock : Nat → Nat → Prop} {codec : MetadataCodec}
    {readRun : String → Option WorkflowRun} {committed : List WorkflowRun} {fleet : CatalogFleet}
    (catalogued : Catalogued W clock codec readRun committed fleet) (request : RunListRequest)
    (some_ : 1 ≤ request.limit) :
    ∃ enough, ∀ fuel pages, enough ≤ fuel → enough ≤ pages → ∃ listed,
      (fleet.dependencies codec readRun).followPages fuel pages { request with cursor := none } = some listed ∧
      (request.Exact (Existing readRun committed) listed ↔ request.NamesApart (Existing readRun committed)) := by
  obtain ⟨enough, follows⟩ := catalogued.listing request some_
  refine ⟨enough, fun fuel pages scans many => ?_⟩
  obtain ⟨listed, followed, members, once, inOrder, suffixes⟩ := follows fuel pages scans many
  refine ⟨listed, followed, fun exact_ run existing wanted under => ?_, fun apart =>
    ⟨fun run => ?_, once, inOrder, suffixes⟩⟩
  · have found := (members run).mpr ⟨existing, wanted, under⟩
    rw [exact_.listed] at found
    exact ((Bool.and_eq_true _ _).mp found.2).1
  · rw [members, RunListRequest.wants, Bool.and_eq_true]
    constructor
    · rintro ⟨existing, wanted, under⟩
      exact ⟨existing, apart run existing wanted under, wanted⟩
    · rintro ⟨existing, named, wanted⟩
      exact ⟨existing, wanted, RunListRequest.scanKey_under named⟩

/-- JSON of metadata without escapes, for creation times in the first second of the epoch. -/
def MetadataCodec.json : MetadataCodec where
  stringify metadata := "\x7b\"runId\":\"" ++ metadata.runId ++ "\",\"createdAt\":\"1970-01-01T00:00:00." ++
    String.ofList (List.leftpad 3 '0' (toString metadata.createdAt).toList) ++ "Z\",\"status\":\"" ++
    metadata.status.name ++ "\"\x7d"
  parse serialized :=
    let fields := serialized.toList.splitOn '"'
    let created := ((fields[7]?.getD []).drop 20).take 3
    { runId := String.ofList (fields[3]?.getD [])
      createdAt := created.foldl (fun ms digit => 10 * ms + (digit.toNat - 48)) 0
      status := ([.pending, .running, .completed, .failed].find? fun status : RunStatus =>
        status.name.toList = fields[11]?.getD []).getD .cancelled }

/-- A run that has just been started. -/
def WorkflowRun.started (workflowName : String) : WorkflowRun :=
  { WorkflowRun.pending "run" workflowName 1 with specVersion := 5, status := .running, startedAt := some 1 }

/-- The cells of a fleet with these runs. -/
def WorkflowRun.cells (runs : List WorkflowRun) (runId : String) : Option WorkflowRun :=
  runs.find? (·.runId = runId)

/-- The fleet after the publication of a run. -/
def CatalogFleet.publishing (run : WorkflowRun) (fleet : CatalogFleet) : CatalogFleet :=
  CatalogOp.run 1 fleet (.commitRun run (MetadataCodec.json.runIndexMetadata run) 2)

/-- A run that its cell has just answered is published. -/
theorem PublishedRun.answered {W : WorldContract} {snapshot : WorkflowRun} {request : ApplyEventRequest}
    {now : Nat}
    (answer : (eventSuccess (WorkflowRunDO.applyEvent W snapshot.runId now request {})).bind
      (·.run) = some snapshot) :
    PublishedRun W (· ≤ ·) snapshot snapshot := by
  obtain ⟨success, accepts, carried⟩ := Option.bind_eq_some_iff.mp answer
  obtain ⟨after, call⟩ := eventSuccess_eq_some.mp accepts
  exact ⟨0, now, {}, [], request, success, after, after, .start 0, Nat.zero_le now, call, carried, .start,
    WorkflowRunDO.applyEvent_publishes call carried⟩

section Publications
variable {W : WorldContract} {readRun : String → Option WorkflowRun} {committed : List WorkflowRun}
    {fleet : CatalogFleet}

theorem Catalogued.start : Catalogued W (· ≤ ·) .json readRun [] fun _ => {} where
  reach := .start
  reads _ member := absurd member List.not_mem_nil
  published _ member := absurd member List.not_mem_nil

/-- A stored publication of a run that its cell has just answered extends a catalog. -/
theorem Catalogued.publishing {run : WorkflowRun} {request : ApplyEventRequest} {now : Nat}
    (catalogued : Catalogued W (· ≤ ·) .json readRun committed fleet)
    (stored : (RunCatalogDO.upsertRun run.runId (runKeys run) (MetadataCodec.json.runIndexMetadata run) 2 1
      (fleet (runCatalogShardName run.runId))).toOption.map Prod.fst = some true)
    (reads : MetadataCodec.json.Reads run) (held : readRun run.runId = some run)
    (answer : (eventSuccess (WorkflowRunDO.applyEvent W run.runId now request {})).bind (·.run) = some run) :
    Catalogued W (· ≤ ·) .json readRun (run :: committed) (fleet.publishing run) := by
  refine ⟨?_, fun other member => ?_, fun snapshot member current read => ?_⟩
  · unfold CatalogFleet.publishing
    simp only [CatalogOp.run]
    cases call : RunCatalogDO.upsertRun run.runId (runKeys run) (MetadataCodec.json.runIndexMetadata run) 2 1
        (fleet (runCatalogShardName run.runId)) with
    | error thrown =>
      rw [call] at stored
      cases stored
    | ok answer =>
      obtain ⟨told, store⟩ := answer
      rw [call] at stored
      cases stored
      exact .stored catalogued.reach call
  · rcases List.mem_cons.mp member with rfl | earlier
    · exact reads
    · exact catalogued.reads other earlier
  · rcases List.mem_cons.mp member with rfl | earlier
    · obtain rfl := Option.some.inj (held.symm.trans read)
      exact .answered answer
    · exact catalogued.published snapshot earlier current read

end Publications

/-- Two runs of one workflow, listed by pages of one run each. -/
theorem runListing_exact_iff_started :
    let first := WorkflowRun.started "workflow"
    let second := { WorkflowRun.started "workflow" with runId := "second" }
    let fleet := CatalogFleet.publishing second (CatalogFleet.publishing first fun _ => {})
    let request : RunListRequest := { workflowName := some "workflow", limit := 1 }
    ∃ enough, ∀ fuel pages, enough ≤ fuel → enough ≤ pages → ∃ listed,
      (fleet.dependencies .json (WorkflowRun.cells [first, second])).followPages fuel pages
        request = some listed ∧
      request.Exact (Existing (WorkflowRun.cells [first, second]) [second, first]) listed := by
  intro first second fleet request
  have published : Catalogued .unary (· ≤ ·) .json (WorkflowRun.cells [first, second]) [first] _ :=
    @Catalogued.publishing _ _ _ _ _ (.starting "workflow") 1 .start (by decide +kernel) (by decide +kernel)
      (by decide +kernel) (by decide +kernel)
  have catalogued : Catalogued .unary (· ≤ ·) .json (WorkflowRun.cells [first, second]) [second, first] fleet :=
    @Catalogued.publishing _ _ _ _ _ { ApplyEventRequest.starting "workflow" with runId := "second" } 1 published
      (by decide +kernel) (by decide +kernel) (by decide +kernel) (by decide +kernel)
  obtain ⟨enough, follows⟩ := runListing_exact_iff catalogued request (Nat.le_refl 1)
  refine ⟨enough, fun fuel pages scans many => ?_⟩
  obtain ⟨listed, followed, exact_iff⟩ := follows fuel pages scans many
  refine ⟨listed, followed, exact_iff.mpr ?_⟩
  rintro run ⟨snapshot, member, held⟩ - -
  have found : run ∈ [first, second] := List.mem_of_find?_eq_some held
  simp only [List.mem_cons, List.not_mem_nil, or_false] at found
  rcases found with rfl | rfl
  · rfl
  · rfl

/-- The listing of the workflow "a" has a run of the workflow "a:b". -/
theorem runListing_notExact :
    Catalogued .unary (· ≤ ·) .json (WorkflowRun.cells [.started "a:b"]) [.started "a:b"]
      (CatalogFleet.publishing (.started "a:b") fun _ => {}) ∧
    ∃ enough, ∀ fuel pages, enough ≤ fuel → enough ≤ pages → ∃ listed,
      ((CatalogFleet.publishing (.started "a:b") fun _ => {}).dependencies .json
        (WorkflowRun.cells [.started "a:b"])).followPages fuel pages { workflowName := some "a", limit := 1 } =
        some listed ∧
      ¬ RunListRequest.Exact { workflowName := some "a", limit := 1 }
        (Existing (WorkflowRun.cells [.started "a:b"]) [.started "a:b"]) listed := by
  have catalogued := @Catalogued.publishing .unary (WorkflowRun.cells [.started "a:b"]) [] (fun _ => {})
    (.started "a:b") (.starting "a:b") 1 .start (by decide +kernel) (by decide +kernel) (by decide +kernel)
    (by decide +kernel)
  refine ⟨catalogued, ?_⟩
  obtain ⟨enough, follows⟩ := catalogued.listing { workflowName := some "a", limit := 1 } (Nat.le_refl 1)
  refine ⟨enough, fun fuel pages scans many => ?_⟩
  obtain ⟨listed, followed, members, -⟩ := follows fuel pages scans many
  refine ⟨listed, followed, fun exact_ => ?_⟩
  have present := (members (.started "a:b")).mpr
    ⟨⟨.started "a:b", .head _, rfl⟩, rfl, List.isPrefixOf_iff_prefix.mp (by decide +kernel)⟩
  rw [exact_.listed] at present
  exact absurd present.2 (by decide)

end CelldWorld
