import CelldWorld.RunStatus

namespace CelldWorld

def RUN_LIST_CONCURRENCY : Nat := 8
def MAX_RUN_LIST_LIMIT : Nat := 1000

structure RunListRequest where
  workflowName : Option String := none
  statuses : Option (List RunStatus) := none
  limit : Nat
  cursor : Option String := none
  sortOrder : SortOrder := .asc
  /-- `resolveData`: false strips run input and output from the returned page. -/
  resolveData : Bool := true

/-- The run has one of the requested statuses. -/
def RunListRequest.wantsStatus (request : RunListRequest) (run : WorkflowRun) : Bool :=
  request.statuses.all (·.contains run.status)

/-- A key of the run catalog with its metadata. -/
structure RunIndexEntry where
  name : String
  runId : String
  status : RunStatus

structure IndexListOptions where
  keyPrefix : String
  limit : Nat
  cursor : Option String
  reverse : Bool

structure IndexListPage where
  keys : List RunIndexEntry
  listComplete : Bool
  cursor : Option String

/-- A listed run; `stripRunData` sends it without its input and output. -/
structure ListedRun where
  run : WorkflowRun
  resolved : Bool

structure RunListPage where
  data : List ListedRun
  cursor : Option String
  hasMore : Bool

structure RunListDependencies where
  /-- The answer of the catalog to the n-th call of one listing. -/
  listRuns : Nat → IndexListOptions → IndexListPage
  /-- The authoritative run, or none when it does not exist or has expired. -/
  readRun : String → Option WorkflowRun

/-- May this catalog status exclude a run from a request for one status? -/
def indexStatusExcludes (indexed : RunStatus) (requested : Option RunStatus) : Bool :=
  match requested with
  | none => false
  | some requested =>
    if indexed = requested then false
    else isTerminalWorkflowRunStatus indexed || requested = .pending

/-- The prefilter of a listing: no requested status is possible any more. -/
def prefiltered (statuses : Option (List RunStatus)) (entry : RunIndexEntry) : Bool :=
  statuses.any fun statuses => statuses.all fun status => indexStatusExcludes entry.status (some status)

structure RunMatch where
  key : String
  run : WorkflowRun

namespace RunListDependencies
variable (deps : RunListDependencies)

/-- Read a candidate and keep it if its current status was requested. -/
def resolve (statuses : Option (List RunStatus)) (entry : RunIndexEntry) : Option RunMatch :=
  (deps.readRun entry.runId).bind fun run =>
    if statuses.all (·.contains run.status) then some ⟨entry.name, run⟩ else none

/-- The batched reads of one page, until the candidates or the wanted matches run out. -/
def verify (statuses : Option (List RunStatus)) (limit : Nat) :
    Nat → List RunIndexEntry → List RunMatch → List RunMatch
  | 0, _, found => found
  | fuel + 1, candidates, found =>
    if candidates = [] ∨ limit < found.length then found
    else
      let size := min RUN_LIST_CONCURRENCY (limit + 1 - found.length)
      verify statuses limit fuel (candidates.drop size)
        (found ++ (candidates.take size).filterMap (deps.resolve statuses))

/-- The next catalog page of a scan. -/
def catalogPage (request : RunListRequest) (calls : Nat) (cursor : Option String) : IndexListPage :=
  deps.listRuns calls
    { keyPrefix := match truthy request.workflowName with
        | some workflowName => s!"run:{workflowName}:"
        | none => "runall:"
      limit := min MAX_RUN_LIST_LIMIT (max 50 request.limit)
      cursor
      reverse := request.sortOrder = .desc }

/-- The scan over catalog pages; `none` if `fuel` pages were not enough. -/
def scan (skips : RunIndexEntry → Bool) (request : RunListRequest) :
    Nat → Nat → Option String → List RunMatch → Option (List RunMatch)
  | 0, _, _, _ => none
  | fuel + 1, calls, cursor, found =>
    let page := deps.catalogPage request calls cursor
    if page.keys = [] then some found
    else
      let candidates := page.keys.filter fun entry => !skips entry
      let found := deps.verify request.statuses request.limit candidates.length candidates found
      if found.length ≤ request.limit ∧ page.listComplete = false then
        scan skips request fuel (calls + 1) (page.cursor.or (page.keys.getLast?.map (·.name))) found
      else some found

/-- The page that a scan with the given prefilter returns. -/
def listWith (skips : RunIndexEntry → Bool) (request : RunListRequest) (fuel : Nat) : Option RunListPage :=
  (deps.scan skips request fuel 0 request.cursor []).map fun found =>
    let hasMore := decide (request.limit < found.length)
    let page := found.take request.limit
    { data := page.map fun found => ⟨found.run, request.resolveData⟩
      cursor := if hasMore then page.getLast?.map (·.key) else none
      hasMore }

/-- `listRunsPage` -/
def listRunsPage (request : RunListRequest) (fuel : Nat) : Option RunListPage :=
  deps.listWith (prefiltered request.statuses) request fuel

/-- The entries on the next `pages` pages of the catalog, as long as it announces more. -/
def catalogEntries (request : RunListRequest) : Nat → Nat → Option String → List RunIndexEntry
  | 0, _, _ => []
  | pages + 1, calls, cursor =>
    let page := deps.catalogPage request calls cursor
    if page.keys = [] ∨ page.listComplete then page.keys
    else page.keys ++ catalogEntries request pages (calls + 1) (page.cursor.or (page.keys.getLast?.map (·.name)))

/-- The catalog announces no page after the next `pages` ones. -/
def catalogEnds (request : RunListRequest) : Nat → Nat → Option String → Bool
  | 0, _, _ => false
  | pages + 1, calls, cursor =>
    let page := deps.catalogPage request calls cursor
    page.keys = [] || page.listComplete ||
      catalogEnds request pages (calls + 1) (page.cursor.or (page.keys.getLast?.map (·.name)))

/-- The current runs behind the entries of the next `pages` pages that are in a requested
status, whatever status the catalog has for them. -/
def requestedRuns (request : RunListRequest) (pages : Nat) : List WorkflowRun :=
  (deps.catalogEntries request pages 0 request.cursor).filterMap fun entry =>
    (deps.readRun entry.runId).filter request.wantsStatus

end RunListDependencies

/-- An older status excludes only what a run can no longer be. -/
theorem indexStatusExcludes_sound {earlier later : WorkflowRun} {requested : RunStatus}
    (advances : Advances earlier later)
    (excluded : indexStatusExcludes earlier.status (some requested) = true) : later.status ≠ requested := by
  unfold indexStatusExcludes at excluded
  simp only at excluded
  split at excluded
  · cases excluded
  rename_i different
  rintro rfl
  rcases Bool.or_eq_true _ _ |>.mp excluded with terminal | pending
  · exact different (advances.frozen terminal).1.symm
  · have forward := advances.status
    rw [of_decide_eq_true pending] at forward different
    cases status : earlier.status <;> simp_all [RunStatus.rank]

section Listing
variable {deps : RunListDependencies} {statuses : Option (List RunStatus)} {limit : Nat}

/-- The batches find the first matches of the candidates, one more than the limit. -/
theorem RunListDependencies.verify_eq {fuel : Nat} {candidates : List RunIndexEntry} {found : List RunMatch}
    (enough : candidates.length ≤ fuel) (bounded : found.length ≤ limit + 1) :
    deps.verify statuses limit fuel candidates found =
      (found ++ candidates.filterMap (deps.resolve statuses)).take (limit + 1) := by
  induction fuel generalizing candidates found with
  | zero =>
    obtain rfl := List.length_eq_zero_iff.mp (Nat.le_zero.mp enough)
    rw [verify, List.filterMap_nil, List.append_nil, List.take_of_length_le bounded]
  | succ fuel ih =>
    rw [verify]
    split
    · rename_i stops
      rcases stops with rfl | full
      · rw [List.filterMap_nil, List.append_nil, List.take_of_length_le bounded]
      · rw [List.take_append_of_le_length (by omega), List.take_of_length_le bounded]
    · rename_i goesOn
      simp only [not_or, Nat.not_lt] at goesOn
      obtain ⟨some_left, room⟩ := goesOn
      simp only
      generalize size_def : min RUN_LIST_CONCURRENCY (limit + 1 - found.length) = size
      have positive : 0 < size := by
        simp only [RUN_LIST_CONCURRENCY] at size_def
        omega
      have length_pos := List.length_pos_iff.mpr some_left
      have batch : ((candidates.take size).filterMap (deps.resolve statuses)).length ≤ size :=
        Nat.le_trans (List.length_filterMap_le _ _) (List.length_take_le _ _)
      rw [ih (by rw [List.length_drop]; omega) (by rw [List.length_append]; omega), List.append_assoc,
        ← List.filterMap_append, List.take_append_drop]

theorem filterMap_filter_of_none {α β : Type} {skips : α → Bool} {resolve : α → Option β} {entries : List α}
    (skipped : ∀ entry ∈ entries, skips entry = true → resolve entry = none) :
    (entries.filter fun entry => !skips entry).filterMap resolve = entries.filterMap resolve := by
  induction entries with
  | nil => rfl
  | cons entry entries ih =>
    have rest := ih fun other member => skipped other (.tail _ member)
    cases skip : skips entry with
    | true => simp [skip, rest, skipped entry (.head _) skip]
    | false => simp [skip, rest, List.filterMap_cons]

theorem nothingSkipped {α β : Type} (resolve : α → Option β) (entries : List α) :
    ∀ entry ∈ entries, (fun _ : α => false) entry = true → resolve entry = none :=
  fun _ _ skip => nomatch skip

/-- A prefilter that only skips entries which do not match changes nothing. -/
theorem RunListDependencies.scan_eq {skips : RunIndexEntry → Bool} {request : RunListRequest}
    (skipped : ∀ calls cursor, ∀ entry ∈ (deps.catalogPage request calls cursor).keys, skips entry = true →
      deps.resolve request.statuses entry = none) {fuel calls : Nat} {cursor : Option String}
    {found : List RunMatch} (bounded : found.length ≤ request.limit + 1) :
    deps.scan skips request fuel calls cursor found =
      deps.scan (fun _ => false) request fuel calls cursor found := by
  induction fuel generalizing calls cursor found with
  | zero => rfl
  | succ fuel ih =>
    rw [scan, scan]
    simp only
    by_cases done : (deps.catalogPage request calls cursor).keys = []
    · rw [if_pos done, if_pos done]
    have same := filterMap_filter_of_none
      fun entry (member : entry ∈ (deps.catalogPage request calls cursor).keys) =>
      skipped _ _ entry member
    have all := filterMap_filter_of_none
      (nothingSkipped (deps.resolve request.statuses) (deps.catalogPage request calls cursor).keys)
    rw [if_neg done, if_neg done, verify_eq (Nat.le_refl _) bounded, verify_eq (Nat.le_refl _) bounded,
      same, all]
    split
    · exact ih (List.length_take_le _ _)
    · rfl

/-- A scan that ends has the first matches of all entries that the catalog announces. -/
theorem RunListDependencies.scan_matches {request : RunListRequest} {fuel calls pages : Nat}
    {cursor : Option String} {found matched : List RunMatch} (bounded : found.length ≤ request.limit + 1)
    (scanned : deps.scan (fun _ => false) request fuel calls cursor found = some matched)
    (covers : fuel ≤ pages) :
    matched = (found ++ (deps.catalogEntries request pages calls cursor).filterMap
      (deps.resolve request.statuses)).take (request.limit + 1) := by
  induction fuel generalizing calls cursor found pages with
  | zero => cases scanned
  | succ fuel ih =>
    obtain ⟨pages, rfl⟩ := Nat.exists_eq_add_of_lt covers
    rw [show fuel + pages + 1 = (fuel + pages) + 1 from rfl, catalogEntries]
    rw [scan] at scanned
    simp only at scanned ⊢
    by_cases done : (deps.catalogPage request calls cursor).keys = []
    · rw [if_pos done] at scanned
      obtain rfl := Option.some.inj scanned
      rw [if_pos (.inl done), done, List.filterMap_nil, List.append_nil, List.take_of_length_le bounded]
    have all := filterMap_filter_of_none
      (nothingSkipped (deps.resolve request.statuses) (deps.catalogPage request calls cursor).keys)
    rw [if_neg done, verify_eq (Nat.le_refl _) bounded, all] at scanned
    by_cases complete : (deps.catalogPage request calls cursor).listComplete = true
    · rw [if_neg (by rw [complete]; exact fun goesOn => nomatch goesOn.2)] at scanned
      rw [if_pos (.inr complete)]
      exact (Option.some.inj scanned).symm
    · rw [if_neg (not_or.mpr ⟨done, complete⟩), List.filterMap_append, ← List.append_assoc]
      split at scanned
      · -- The page has not filled the list, so it kept every match.
        rename_i goesOn
        have kept := goesOn.1
        rw [List.length_take] at kept
        rw [List.take_of_length_le (by omega)] at scanned
        exact ih (by omega) scanned (Nat.le_add_right _ _)
      · rename_i full
        have fills := mt (fun short => And.intro short (Bool.eq_false_iff.mpr complete)) full
        rw [List.length_take] at fills
        exact (Option.some.inj scanned).symm.trans (List.take_append_of_le_length (by omega)).symm

/-- A scan over a catalog that comes to an end ends with it. -/
theorem RunListDependencies.scan_isSome {skips : RunIndexEntry → Bool} {request : RunListRequest}
    {fuel calls : Nat}
    {cursor : Option String} {found : List RunMatch} (ends : deps.catalogEnds request fuel calls cursor = true) :
    (deps.scan skips request fuel calls cursor found).isSome = true := by
  induction fuel generalizing calls cursor found with
  | zero => cases ends
  | succ fuel ih =>
    rw [scan]
    simp only
    split
    · rfl
    · rename_i more
      split
      · rename_i goesOn
        rw [catalogEnds] at ends
        simp only [more, goesOn.2, decide_false, Bool.false_or] at ends
        exact ih ends
      · rfl

/-- The pages of a longer walk start with those of a shorter one. -/
theorem RunListDependencies.catalogEntries_initial {request : RunListRequest} {pages longer calls : Nat}
    {cursor : Option String} (covers : pages ≤ longer) :
    deps.catalogEntries request pages calls cursor <+: deps.catalogEntries request longer calls cursor := by
  induction pages generalizing longer calls cursor with
  | zero => exact List.nil_prefix
  | succ pages ih =>
    obtain ⟨more, rfl⟩ := Nat.exists_eq_add_of_lt covers
    rw [catalogEntries, show pages + more + 1 = (pages + more) + 1 from rfl, catalogEntries]
    split
    · exact List.prefix_refl _
    · exact (List.prefix_append_right_inj _).mpr (ih (Nat.le_add_right _ _))

/-- The matches among the entries of a catalog are its requested runs. -/
theorem RunListDependencies.matched_runs (request : RunListRequest) (pages : Nat) :
    ((deps.catalogEntries request pages 0 request.cursor).filterMap (deps.resolve request.statuses)).map (·.run) =
      deps.requestedRuns request pages := by
  rw [requestedRuns, List.map_filterMap]
  refine List.filterMap_congr fun entry _ => ?_
  unfold resolve
  cases deps.readRun entry.runId with
  | none => rfl
  | some run =>
    rw [Option.bind_some, Option.filter_some]
    unfold RunListRequest.wantsStatus
    split <;> rfl

/-- Without a prefilter a page has the first requested runs of the catalog, and announces
more exactly when there are more. -/
theorem RunListDependencies.listWith_page {request : RunListRequest} {fuel pages : Nat} {page : RunListPage}
    (listed : deps.listWith (fun _ => false) request fuel = some page) (covers : fuel ≤ pages) :
    page.data = ((deps.requestedRuns request pages).take request.limit).map (⟨·, request.resolveData⟩) ∧
    page.hasMore = decide (request.limit < (deps.requestedRuns request pages).length) := by
  obtain ⟨matched, scanned, rfl⟩ := Option.map_eq_some_iff.mp listed
  have first := scan_matches (Nat.zero_le _) scanned covers
  rw [List.nil_append] at first
  rw [← matched_runs, first]
  constructor
  · rw [List.take_take, Nat.min_eq_left (Nat.le_succ _), ← List.map_take, List.map_map]
    rfl
  · rw [List.length_take, List.length_map]
    exact decide_eq_decide.mpr (by omega)

/-- A requested run whose entry the catalog announces is on the page, or the page is full
and announces more. -/
theorem RunListDependencies.listWith_lists {request : RunListRequest} {fuel pages : Nat} {page : RunListPage}
    {entry : RunIndexEntry} {run : WorkflowRun} (listed : deps.listWith (fun _ => false) request fuel = some page)
    (announced : entry ∈ deps.catalogEntries request pages 0 request.cursor)
    (read : deps.readRun entry.runId = some run) (wanted : request.wantsStatus run = true) :
    ⟨run, request.resolveData⟩ ∈ page.data ∨ page.hasMore = true ∧ page.data.length = request.limit := by
  obtain ⟨data, more⟩ := listWith_page listed (Nat.le_add_left fuel pages)
  have among := (catalogEntries_initial (Nat.le_add_right pages fuel)).subset announced
  have requested : run ∈ deps.requestedRuns request (pages + fuel) :=
    List.mem_filterMap.mpr ⟨entry, among, by rw [read, Option.filter_some, if_pos wanted]⟩
  by_cases fits : (deps.requestedRuns request (pages + fuel)).length ≤ request.limit
  · rw [List.take_of_length_le fits] at data
    exact .inl (data ▸ List.mem_map_of_mem requested)
  · refine .inr ⟨more.trans (decide_eq_true (Nat.lt_of_not_le fits)), ?_⟩
    rw [data, List.length_map, List.length_take]
    omega

end Listing

/-- The catalog has indexed the run under the status of some earlier answer of its cell. -/
def Published (W : WorldContract) (clock : Nat → Nat → Prop) (entry : RunIndexEntry)
    (current : WorkflowRun) : Prop :=
  ∃ earlier now before history request success after answered later,
    CellReach W entry.runId clock earlier before history ∧ clock earlier now ∧
    WorkflowRunDO.applyEvent W entry.runId now request before = .ok (.ok success, after) ∧
    success.run = some answered ∧ answered.status = entry.status ∧
    CellPath W entry.runId after later ∧ later.run = some current

theorem Published.advances {W : WorldContract} {clock : Nat → Nat → Prop} {entry : RunIndexEntry}
    {current : WorkflowRun} (published : Published W clock entry current) :
    ∃ earlier, earlier.status = entry.status ∧ Advances earlier current := by
  obtain ⟨earlier, now, before, history, request, success, after, answered, later, reach, tick, call,
    carried, status, path, holds⟩ := published
  have stored := WorkflowRunDO.applyEvent_publishes call carried
  have reached := CellReach.next (.applyEvent request) reach tick
  have same : CellOp.run W entry.runId now (.applyEvent request) before = after := by
    rw [CellOp.run, call]
    rfl
  rw [same] at reached
  have cleans := fun before => (((logState_invariant W entry.runId clock).reach reached).1 before).1
  rcases (path.advances stored cleans).2 with ⟨run, found, advances⟩ | ⟨gone, -⟩
  · obtain rfl := Option.some.inj (found.symm.trans holds)
    exact ⟨answered, status, advances⟩
  · cases gone.symm.trans holds

/-- A run that the prefilter skips is in no requested status. -/
theorem prefiltered_sound {W : WorldContract} {clock : Nat → Nat → Prop} {deps : RunListDependencies}
    {statuses : Option (List RunStatus)} {entry : RunIndexEntry}
    (published : ∀ current, deps.readRun entry.runId = some current → Published W clock entry current)
    (skipped : prefiltered statuses entry = true) : deps.resolve statuses entry = none := by
  unfold RunListDependencies.resolve
  cases read : deps.readRun entry.runId with
  | none => rfl
  | some current =>
    obtain ⟨earlier, status, advances⟩ := (published current read).advances
    unfold prefiltered at skipped
    cases statuses with
    | none => cases skipped
    | some statuses =>
      simp only [Option.any_some, List.all_eq_true] at skipped
      have absent : current.status ∉ statuses := by
        intro requested
        have excluded := skipped current.status requested
        rw [← status] at excluded
        exact indexStatusExcludes_sound advances excluded rfl
      simp [absent]

/-- An entry with a status that the cell has answered once is published, whatever has
happened to the run since. -/
theorem Published.answered {W : WorldContract} {entry : RunIndexEntry} {current : WorkflowRun}
    {request : ApplyEventRequest}
    {now : Nat} {later : RunStore}
    (answer : ((eventSuccess (WorkflowRunDO.applyEvent W entry.runId now request {})).bind (·.run)).map
      (·.status) =
      some entry.status)
    (path : CellPath W entry.runId (CellOp.run W entry.runId now (.applyEvent request) {}) later)
    (holds : later.run = some current) : Published W (· ≤ ·) entry current := by
  obtain ⟨answered, told, status⟩ := Option.map_eq_some_iff.mp answer
  obtain ⟨success, accepts, carried⟩ := Option.bind_eq_some_iff.mp told
  obtain ⟨after, call⟩ := eventSuccess_eq_some.mp accepts
  rw [CellOp.run, call] at path
  exact ⟨0, now, {}, [], request, success, after, answered, later, .start 0, Nat.zero_le now,
    call, carried, status,
    path, holds⟩

/-- The status of a run is monotone, and a listing that uses statuses published earlier,
late or out of order loses no run: its page has the first runs of the catalog that are
now in a requested status, and a run it leaves out comes after a full page. -/
theorem runStatus_monotone_listing_sound {W : WorldContract} {clock : Nat → Nat → Prop} :
    (∀ runId now store history later run run', CellReach W runId clock now store history →
      CellPath W runId store later → store.run = some run → later.run = some run' →
      run.status.rank ≤ run'.status.rank ∧
      (isTerminalWorkflowRunStatus run.status = true →
        run'.status = run.status ∧ run'.output = run.output ∧ run'.error = run.error ∧
          run'.completedAt = run.completedAt) ∧
      ∀ requested, indexStatusExcludes run.status (some requested) = true → run'.status ≠ requested) ∧
    (∀ (deps : RunListDependencies) (request : RunListRequest) (fuel : Nat),
      (∀ calls options, ∀ entry ∈ (deps.listRuns calls options).keys, ∀ current,
        deps.readRun entry.runId = some current → Published W clock entry current) →
      deps.listRunsPage request fuel = deps.listWith (fun _ => false) request fuel ∧
      (deps.catalogEnds request fuel 0 request.cursor = true → (deps.listRunsPage request fuel).isSome = true) ∧
      ∀ page, deps.listRunsPage request fuel = some page →
        (∀ pages, fuel ≤ pages →
          page.data = ((deps.requestedRuns request pages).take request.limit).map (⟨·, request.resolveData⟩) ∧
          page.hasMore = decide (request.limit < (deps.requestedRuns request pages).length)) ∧
        ∀ pages entry run, entry ∈ deps.catalogEntries request pages 0 request.cursor →
          deps.readRun entry.runId = some run → request.wantsStatus run = true →
          ⟨run, request.resolveData⟩ ∈ page.data ∨ page.hasMore = true ∧ page.data.length = request.limit) := by
  refine ⟨fun runId now store history later run run' reach path stored holds => ?_,
    fun deps request fuel published => ?_⟩
  · have cleans := fun before => (((logState_invariant W runId clock).reach reach).1 before).1
    rcases (path.advances stored cleans).2 with ⟨found, same, advances⟩ | ⟨gone, -⟩
    · obtain rfl := Option.some.inj (same.symm.trans holds)
      exact ⟨advances.status, advances.frozen, fun requested => indexStatusExcludes_sound advances⟩
    · cases gone.symm.trans holds
  · have unfiltered : deps.listRunsPage request fuel = deps.listWith (fun _ => false) request fuel := by
      unfold RunListDependencies.listRunsPage RunListDependencies.listWith
      rw [RunListDependencies.scan_eq (fun calls cursor entry member => prefiltered_sound
        (published calls _ entry member)) (Nat.zero_le _)]
    refine ⟨unfiltered, fun ends => ?_, fun page listed => ?_⟩
    · rw [unfiltered, RunListDependencies.listWith, Option.isSome_map]
      exact RunListDependencies.scan_isSome ends
    · rw [unfiltered] at listed
      exact ⟨fun pages => RunListDependencies.listWith_page listed,
        fun pages entry run => RunListDependencies.listWith_lists listed⟩

/-- The request that starts a run of a workflow. -/
def ApplyEventRequest.starting (workflowName : String) : ApplyEventRequest where
  runId := "run"
  data :=
    { specVersion := none
      data := .runStarted (some
        { deploymentId := some "deployment"
          workflowName := some workflowName
          input := some (.string "input")
          executionContext := none
          attributes := none
          allowReservedAttributes := none
          encryptionPublicKey := none }) }

/-- The request that completes a run. -/
def ApplyEventRequest.completing : ApplyEventRequest where
  runId := "run"
  data := { specVersion := none, data := .runCompleted none }

/-- The cell of a run that has been started and completed. -/
def RunStore.completing : RunStore :=
  CellOp.run .unary "run" 2 (.applyEvent .completing)
    (CellOp.run .unary "run" 1 (.applyEvent (.starting "workflow")) {})

/-- A catalog that still has the run under the status of its start. -/
def RunListDependencies.behind : RunListDependencies where
  listRuns _ _ := ⟨[⟨"runall:1:run", "run", .running⟩], true, none⟩
  readRun runId := if runId = "run" then RunStore.completing.run else none

/-- The completed run is listed from its old entry. -/
theorem runStatus_monotone_listing_sound_started :
    let started := CellOp.run .unary "run" 1 (.applyEvent (.starting "workflow")) {}
    let request : RunListRequest := { statuses := some [.completed], limit := 1 }
    (∀ later run run', CellPath .unary "run" started later → started.run = some run → later.run = some run' →
      run.status.rank ≤ run'.status.rank) ∧
    ∃ page run, RunListDependencies.behind.listRunsPage request 1 = some page ∧
      RunStore.completing.run = some run ∧ page.data = [⟨run, true⟩] ∧ page.hasMore = false := by
  obtain ⟨monotone, listing⟩ := @runStatus_monotone_listing_sound .unary (· ≤ ·)
  refine ⟨fun later run run' path stored holds =>
    (monotone "run" 1 _ _ later run run' (.next _ (.start 0) (Nat.zero_le 1)) path stored holds).1, ?_⟩
  obtain ⟨-, isSome, contents⟩ := listing .behind { statuses := some [.completed], limit := 1 } 1
    fun calls options entry member current read => by
      cases List.mem_singleton.mp member
      exact .answered (by decide +kernel) (.next (.applyEvent .completing) .start) read
  obtain ⟨page, listed⟩ := Option.isSome_iff_exists.mp (isSome (by decide +kernel))
  obtain ⟨run, completed⟩ :=
    Option.isSome_iff_exists.mp (show RunStore.completing.run.isSome = true by decide +kernel)
  obtain ⟨data, hasMore⟩ := (contents page listed).1 1 (Nat.le_refl 1)
  have requested : RunListDependencies.behind.requestedRuns { statuses := some [.completed], limit := 1 } 1 =
      RunStore.completing.run.toList := by decide +kernel
  rw [requested, completed] at data hasMore
  exact ⟨page, run, listed, completed, data, hasMore⟩

end CelldWorld
