import Mathlib.Data.Rat.Floor
import CelldWorld.RunList

namespace CelldWorld

/-- A JavaScript number. -/
inductive JsNumber
  | finite (value : Rat)
  | infinity
  | negativeInfinity
  | nan
  deriving DecidableEq

namespace JsNumber

/-- The integer of which `Number.isSafeInteger` is true. -/
def safeInteger : JsNumber → Option Int
  | .finite value => if value.isInt ∧ value.num.natAbs ≤ MAX_SAFE_INTEGER then some value.num else none
  | _ => none

/-- The integer, if it is safe and between 1 and a maximum. -/
def between (maximum : Nat) (number : JsNumber) : Option Nat :=
  (number.safeInteger.filter fun value : Int => 1 ≤ value ∧ value ≤ maximum).map Int.toNat

/-- `count <= limit` -/
def reaches (count : Nat) : JsNumber → Bool
  | .finite value => (count : Rat) ≤ value
  | .infinity => true
  | .negativeInfinity | .nan => false

/-- `count > limit` -/
def exceeded (count : Nat) : JsNumber → Bool
  | .finite value => value < (count : Rat)
  | .negativeInfinity => true
  | .infinity | .nan => false

/-- How many elements `slice(offset, offset + Math.min(8, limit + 1 - count))` takes at most. -/
def batchSize (count : Nat) : JsNumber → Nat
  | .finite value => (min (RUN_LIST_CONCURRENCY : Rat) (value + 1 - count)).floor.toNat
  | .infinity => RUN_LIST_CONCURRENCY
  | .negativeInfinity | .nan => 0

/-- `Math.min(1000, Math.max(50, limit))` -/
def clamped : JsNumber → JsNumber
  | .finite value => .finite (min (MAX_RUN_LIST_LIMIT : Rat) (max 50 value))
  | .infinity => .finite MAX_RUN_LIST_LIMIT
  | .negativeInfinity => .finite 50
  | .nan => .nan

/-- `slice(0, limit)`, which rounds towards zero and counts a negative limit from the end. -/
def firsts {α : Type} (list : List α) : JsNumber → List α
  | .finite value =>
    let index := value.num.tdiv value.den
    if 0 ≤ index then list.take index.toNat else list.take (list.length + index).toNat
  | .infinity => list
  | .negativeInfinity | .nan => []

end JsNumber

inductive ResolveData
  | none | all
  deriving DecidableEq, Repr

structure ListWorkflowRunsParams where
  workflowName : Option String := none
  status : Option (RunStatus ⊕ List RunStatus) := none
  /-- `pagination.limit` -/
  limit : Option JsNumber := none
  /-- `pagination.cursor` -/
  cursor : Option String := none
  /-- `pagination.sortOrder` -/
  sortOrder : Option SortOrder := none
  resolveData : Option ResolveData := none

/-- A run list request as the client makes it, with fields that may be undefined. -/
structure ClientRunListRequest where
  workflowName : Option String
  statuses : Option (List RunStatus)
  limit : JsNumber
  cursor : Option String
  sortOrder : Option SortOrder
  resolveData : Option ResolveData

def ListWorkflowRunsParams.request (params : ListWorkflowRunsParams) : ClientRunListRequest where
  workflowName := params.workflowName
  statuses := params.status.map fun
    | .inl status => [status]
    | .inr statuses => statuses
  limit := params.limit.getD (.finite 20)
  cursor := params.cursor
  sortOrder := params.sortOrder
  resolveData := params.resolveData

/-- A value as the RPC codec carries it. -/
inductive RpcValue
  | undefined | null
  | number (value : JsNumber)
  | string (value : String)
  | array (items : List RpcValue)
  | record (fields : List (String × RpcValue))

namespace RpcValue

/-- `compact` -/
def compact : RpcValue → RpcValue
  | .record fields => .record (fields.map fun
    | (name, .null) => (name, .undefined)
    | field => field)
  | value => value

/-- A scalar that went through JSON, which has no undefined value and no infinite number. -/
def throughJson : RpcValue → RpcValue
  | .undefined | .number .infinity | .number .negativeInfinity | .number .nan => .null
  | value => value

/-- An object of scalars and of arrays of scalars on the other side of the wire. -/
def received : RpcValue → RpcValue
  | .record fields => .record (fields.filterMap fun
    | (_, .undefined) => none
    | (name, .array items) => some (name, .array (items.map throughJson))
    | (name, value) => some (name, value.throughJson))
  | value => value.throughJson

/-- The value of a property. -/
def get (name : String) : RpcValue → RpcValue
  | .record fields => (fields.lookup name).getD .undefined
  | _ => .undefined

def ofString (value : Option String) : RpcValue := (value.map .string).getD .undefined

end RpcValue

def SortOrder.name : SortOrder → String
  | .asc => "asc"
  | .desc => "desc"

def ResolveData.name : ResolveData → String
  | .none => "none"
  | .all => "all"

def RpcValue.ofStatuses (statuses : List RunStatus) :
    RpcValue := .array (statuses.map fun status => .string status.name)

def ClientRunListRequest.fields (request : ClientRunListRequest) : List (String × RpcValue) :=
  [("workflowName", .ofString request.workflowName),
    ("statuses", (request.statuses.map .ofStatuses).getD .undefined),
    ("limit", .number request.limit),
    ("cursor", .ofString request.cursor),
    ("sortOrder", .ofString (request.sortOrder.map (·.name))),
    ("resolveData", .ofString (request.resolveData.map (·.name)))]

def ClientRunListRequest.value (request : ClientRunListRequest) : RpcValue := .record request.fields

namespace IndexValidation

def invalid {α : Type} (message : String) : Except Thrown α :=
  .error (.error s!"invalid index RPC arguments: {message}")

def nonEmptyString (value : RpcValue) (name : String) : Except Thrown String :=
  match value with
  | .string text => if text = "" then invalid s!"{name} must be a non-empty string" else .ok text
  | _ => invalid s!"{name} must be a non-empty string"

def stringValue (value : RpcValue) (name : String) : Except Thrown String :=
  match value with
  | .string text => .ok text
  | _ => invalid s!"{name} must be a string"

/-- A property that is parsed when it is not undefined. -/
def optional {α : Type} (value : RpcValue) (parse : RpcValue → Except Thrown α) : Except Thrown (Option α) :=
  match value with
  | .undefined => .ok none
  | value => (parse value).map some

def RUN_STATUSES : List RunStatus := [.pending, .running, .completed, .failed, .cancelled]

/-- The element of a set of texts that a value is. -/
def oneOf {α : Type} (set : List α) (name : α → String) : RpcValue → Option α
  | .string text => set.find? fun element => name element = text
  | _ => none

def statusesValue : RpcValue → Except Thrown (List RunStatus)
  | .array (item :: items) =>
    match (item :: items).mapM (oneOf RUN_STATUSES RunStatus.name) with
    | some statuses => .ok statuses
    | none => invalid "request.statuses must be a non-empty array of run statuses"
  | _ => invalid "request.statuses must be a non-empty array of run statuses"

def limitValue (value : RpcValue) : Except Thrown Nat :=
  match value with
  | .number number =>
    match number.between MAX_RUN_LIST_LIMIT with
    | some limit => .ok limit
    | none => invalid s!"request.limit must be an integer between 1 and {MAX_RUN_LIST_LIMIT}"
  | _ => invalid s!"request.limit must be an integer between 1 and {MAX_RUN_LIST_LIMIT}"

def sortOrderValue (value : RpcValue) : Except Thrown SortOrder :=
  match oneOf [.asc, .desc] SortOrder.name value with
  | some sortOrder => .ok sortOrder
  | none => invalid "request.sortOrder must be 'asc' or 'desc'"

def resolveDataValue (value : RpcValue) : Except Thrown ResolveData :=
  match oneOf [.none, .all] ResolveData.name value with
  | some resolveData => .ok resolveData
  | none => invalid "request.resolveData must be 'none' or 'all'"

/-- The checks of the router on a run list request. -/
def runListRequest (value : RpcValue) : Except Thrown RunListRequest :=
  match value with
  | .record fields => do
    let value := RpcValue.record fields
    let limit ← limitValue (value.get "limit")
    let workflowName ← optional (value.get "workflowName") fun value =>
      nonEmptyString value "request.workflowName"
    let cursor ← optional (value.get "cursor") fun value => stringValue value "request.cursor"
    let statuses ← optional (value.get "statuses") statusesValue
    let sortOrder ← optional (value.get "sortOrder") sortOrderValue
    let resolveData ← optional (value.get "resolveData") resolveDataValue
    .ok { workflowName, statuses, limit, cursor, sortOrder := sortOrder.getD .asc, resolveData :=
      resolveData ≠ some .none }
  | _ => invalid "run list request must be an object"

/-- `validateIndexRequest` for `runs.list-resolved` -/
def listResolvedArgs (args : List RpcValue) : Except Thrown RunListRequest :=
  match args with
  | [value] => runListRequest value
  | _ => invalid "expected 1 argument(s)"

end IndexValidation

/-- `filterData` for the input and the output of a run. -/
def ListedRun.filterData (resolveData : Option ResolveData) (run : ListedRun) : ListedRun :=
  if resolveData = some .none then { run with resolved := false } else run

def stripRunData (run : ListedRun) : ListedRun := { run with resolved := false }

/-- The errors of `runs.get`. -/
inductive RunsGetError
  | workflowRunNotFound (runId : String)
  | runExpired (tombstone : RunTombstone)
  | other (thrown : Thrown)

/-- What both ways to list runs read: the catalog, and the cells of the runs. -/
structure RunListWorld where
  /-- The answer of the catalog to the n-th call of one listing. -/
  listRuns : Nat → IndexListOptions → IndexListPage
  cells : String → RunStore
  now : Nat
  /-- `WorkflowRunSchema.parse` of a compacted run -/
  parseRun : ListedRun → Except Thrown ListedRun

namespace RunListWorld
variable (world : RunListWorld)

/-- `readRun` of the router -/
def readRun (runId : String) : Option WorkflowRun :=
  match WorkflowRunDO.getRun world.now (world.cells runId) with
  | .ok value => value
  | .error _ => none

/-- `runs.list-resolved` of the router -/
def listResolvedRuns (args : List RpcValue) (fuel : Nat) : Option (Except Thrown RunListPage) :=
  match IndexValidation.listResolvedArgs args with
  | .error thrown => some (.error thrown)
  | .ok request => (RunListDependencies.listRunsPage ⟨world.listRuns, world.readRun⟩ request fuel).map .ok

/-- `runs.get` without parameters -/
def runsGet (runId : String) : Except RunsGetError ListedRun :=
  match WorkflowRunDO.getRun world.now (world.cells runId) with
  | .error tombstone => .error (.runExpired tombstone)
  | .ok none => .error (.workflowRunNotFound runId)
  | .ok (some run) => (world.parseRun ⟨run, true⟩).mapError .other

/-- `readRun` of the client -/
def clientReadRun (runId : String) : Except Thrown (Option ListedRun) :=
  match world.runsGet runId with
  | .ok run => .ok (some run)
  | .error (.workflowRunNotFound _) | .error (.runExpired _) => .ok none
  | .error (.other thrown) => .error thrown

/-- Read a candidate and keep it if its current status was requested. -/
def clientResolve (statuses : Option (List RunStatus)) (entry : RunIndexEntry) :
    Except Thrown (Option (String × ListedRun)) := do
  let run ← world.clientReadRun entry.runId
  .ok (run.bind fun run => if statuses.all (·.contains run.run.status) then some (entry.name, run) else none)

/-- The batched reads of one page on the client. -/
def clientVerify (request : ClientRunListRequest) :
    Nat → List RunIndexEntry → List (String × ListedRun) → Except Thrown (List (String × ListedRun))
  | 0, _, found => .ok found
  | fuel + 1, candidates, found =>
    if candidates = [] ∨ request.limit.reaches found.length = false then .ok found
    else do
      let size := request.limit.batchSize found.length
      let resolved ← (candidates.take size).mapM (world.clientResolve request.statuses)
      clientVerify request fuel (candidates.drop size) (found ++ resolved.reduceOption)

/-- The next catalog page of the client, whose limit the router checks. -/
def clientCatalogPage (request : ClientRunListRequest) (calls : Nat) (cursor : Option String) :
    Except Thrown IndexListPage :=
  match request.limit.clamped.between 1000 with
  | none => IndexValidation.invalid "options.limit must be an integer between 1 and 1000"
  | some limit => .ok (world.listRuns calls
      { keyPrefix := match truthy request.workflowName with
          | some workflowName => s!"run:{workflowName}:"
          | none => "runall:"
        limit
        cursor
        reverse := request.sortOrder = some .desc })

def clientScan (request : ClientRunListRequest) :
    Nat → Nat → Option String → List (String × ListedRun) → Option (Except Thrown (List (String × ListedRun)))
  | 0, _, _, _ => none
  | fuel + 1, calls, cursor, found =>
    match world.clientCatalogPage request calls cursor with
    | .error thrown => some (.error thrown)
    | .ok page =>
      if page.keys = [] then some (.ok found)
      else
        let candidates := page.keys.filter fun entry => !prefiltered request.statuses entry
        match world.clientVerify request candidates.length candidates found with
        | .error thrown => some (.error thrown)
        | .ok found =>
          if request.limit.reaches found.length ∧ page.listComplete = false then
            clientScan request fuel (calls + 1) (page.cursor.or (page.keys.getLast?.map (·.name))) found
          else some (.ok found)

/-- `listRunsPage` on the client -/
def clientListRunsPage (request : ClientRunListRequest) (fuel : Nat) : Option (Except Thrown RunListPage) :=
  let scanned := if request.limit.reaches 0 then
    world.clientScan request fuel 0 request.cursor [] else some (.ok [])
  scanned.map fun answer => answer.map fun found =>
    let hasMore := request.limit.exceeded found.length
    let page := request.limit.firsts found
    { data := page.map fun (_, run) => if request.resolveData = some .none then stripRunData run else run
      cursor := if hasMore then page.getLast?.map Prod.fst else none
      hasMore }

/-- `runs.list`, in a world whose index offers `listResolvedRuns` or does not. -/
def runsList (offers : Bool) (params : ListWorkflowRunsParams) (fuel : Nat) :
    Option (Except Thrown RunListPage) :=
  let request := params.request
  if offers ∧ (request.limit.between MAX_RUN_LIST_LIMIT).isSome then
    (world.listResolvedRuns [request.value.compact.received] fuel).map fun answer => do
      let fleetPage ← answer
      let data ← fleetPage.data.mapM fun run => (world.parseRun run).map (·.filterData params.resolveData)
      .ok { data, cursor := fleetPage.cursor, hasMore := fleetPage.hasMore }
  else world.clientListRunsPage request fuel

end RunListWorld

namespace RpcValue

/-- A property on the other side of the wire. -/
def property : RpcValue → RpcValue
  | .null => .undefined
  | .undefined => .undefined
  | .array items => .array (items.map throughJson)
  | value => value.throughJson

/-- The properties of a compacted object arrive one by one. -/
theorem get_received {fields : List (String × RpcValue)} (distinct : (fields.map Prod.fst).Nodup)
    (name : String) :
    (RpcValue.record fields).compact.received.get name = ((fields.lookup name).map property).getD .undefined := by
  induction fields with
  | nil => rfl
  | cons field fields ih =>
    obtain ⟨key, value⟩ := field
    obtain ⟨absent, distinct⟩ := List.nodup_cons.mp distinct
    have rest := ih distinct
    unfold compact received get at rest ⊢
    by_cases here : name = key
    · subst here
      have later : fields.lookup name = none := List.lookup_eq_none_iff.mpr fun other member => by
        simpa using fun same => absent (List.mem_map.mpr ⟨other, member, same.symm⟩)
      rw [later] at rest
      simp only [List.lookup_cons_self, Option.map_some, Option.getD_some]
      cases value with
      | undefined => exact rest
      | null => exact rest
      | number value => simp [property]
      | string value => simp [property]
      | array items => simp [property]
      | record fields => simp [property]
    · have other : (name == key) = false := by simpa using here
      simp only [List.lookup_cons, other]
      rw [← rest]
      cases value <;> simp [List.lookup_cons, other]

@[simp]
theorem property_ofString (value : Option String) : (ofString value).property = ofString value := by
  cases value <;> rfl

end RpcValue

namespace JsNumber

/-- A safe integer up to a maximum is a natural number. -/
theorem between_eq_some {maximum limit : Nat} {number : JsNumber} (within : number.between maximum = some limit) :
    number = .finite (limit : Rat) ∧ 1 ≤ limit ∧ limit ≤ maximum := by
  obtain ⟨integer, safe, rfl⟩ := Option.map_eq_some_iff.mp within
  obtain ⟨safe, bounds⟩ := Option.filter_eq_some_iff.mp safe
  obtain ⟨positive, least⟩ := of_decide_eq_true bounds
  unfold safeInteger at safe
  split at safe
  · rename_i value _
    split at safe
    · rename_i whole
      cases safe
      refine ⟨congrArg _ ?_, by omega, by omega⟩
      have cast : ((value.num.toNat : Int) : Rat) = value := by
        rw [Int.toNat_of_nonneg (by omega)]
        exact (Rat.eq_num_of_isInt whole.1).symm
      exact_mod_cast cast.symm
    · cases safe
  · cases safe

end JsNumber

namespace IndexValidation

/-- A property that is parsed as it was sent. -/
theorem optional_sent {α : Type} {parse : RpcValue → Except Thrown α} {send : α → String}
    (parses : ∀ value, parse (.string (send value)) = .ok value) (value : Option α) :
    optional (.ofString (value.map send)) parse = .ok value := by
  cases value with
  | none => rfl
  | some value =>
    change (parse (.string (send value))).map some = .ok (some value)
    rw [parses]
    rfl

theorem oneOf_status (status : RunStatus) :
    oneOf RUN_STATUSES RunStatus.name (.string status.name) = some status := by
  cases status <;> rfl

theorem oneOf_sortOrder (sortOrder : SortOrder) :
    oneOf [.asc, .desc] SortOrder.name (.string sortOrder.name) = some sortOrder := by
  cases sortOrder <;> rfl

theorem oneOf_resolveData (resolveData : ResolveData) :
    oneOf [.none, .all] ResolveData.name (.string resolveData.name) = some resolveData := by
  cases resolveData <;> rfl

theorem mapM_oneOf (statuses : List RunStatus) :
    (statuses.map fun status => RpcValue.string status.name).mapM (oneOf RUN_STATUSES RunStatus.name) =
      some statuses := by
  induction statuses with
  | nil => rfl
  | cons status statuses ih =>
    rw [List.map_cons, List.mapM_cons, ih, oneOf_status]
    rfl

theorem statusesValue_ofStatuses (statuses : List RunStatus) : statusesValue (.ofStatuses statuses) =
    if statuses = [] then invalid "request.statuses must be a non-empty array of run statuses"
      else .ok statuses := by
  cases statuses with
  | nil => rfl
  | cons status statuses =>
    have names := mapM_oneOf (status :: statuses)
    rw [List.map_cons] at names
    simp only [RpcValue.ofStatuses, List.map_cons, statusesValue, names, reduceCtorEq, if_false]

/-- The router accepts a request whose limit is in its range, unless the workflow name or
the list of statuses is empty. -/
theorem runListRequest_value {request : ClientRunListRequest} {limit : Nat}
    (within : request.limit.between MAX_RUN_LIST_LIMIT = some limit) :
    runListRequest request.value.compact.received =
      if request.workflowName = some "" then invalid "request.workflowName must be a non-empty string"
      else if request.statuses = some [] then invalid "request.statuses must be a non-empty array of run statuses"
      else .ok
        { workflowName := request.workflowName, statuses := request.statuses, limit, cursor := request.cursor
          sortOrder := request.sortOrder.getD .asc, resolveData := request.resolveData ≠ some .none } := by
  obtain ⟨natural, -, -⟩ := JsNumber.between_eq_some within
  have property := RpcValue.get_received
    (show (request.fields.map Prod.fst).Nodup by simp [ClientRunListRequest.fields])
  have field (name : String) (value : RpcValue) (sent : request.fields.lookup name = some value)
      (scalar : value.property = value) : (RpcValue.record request.fields).compact.received.get name = value := by
    rw [property, sent, Option.map_some, Option.getD_some, scalar]
  have workflowName := field "workflowName" (.ofString request.workflowName) rfl (RpcValue.property_ofString _)
  have cursor := field "cursor" (.ofString request.cursor) rfl (RpcValue.property_ofString _)
  have sortOrder := field "sortOrder" (.ofString _) rfl (RpcValue.property_ofString _)
  have resolveData := field "resolveData" (.ofString _) rfl (RpcValue.property_ofString _)
  have limit_ := field "limit" (.number request.limit) rfl (by rw [natural]; rfl)
  have statuses := field "statuses" ((request.statuses.map RpcValue.ofStatuses).getD RpcValue.undefined) rfl (by
    cases request.statuses with
    | none => rfl
    | some statuses => simp [RpcValue.ofStatuses, RpcValue.property, RpcValue.throughJson])
  have shape : ∃ fields, (RpcValue.record request.fields).compact.received = .record fields := ⟨_, rfl⟩
  unfold ClientRunListRequest.value
  obtain ⟨fields, shape⟩ := shape
  rw [shape] at workflowName cursor sortOrder resolveData limit_ statuses ⊢
  have limited : limitValue (.number request.limit) = .ok limit := by
    simp only [limitValue, within]
  have ordered := optional_sent (fun sortOrder => show sortOrderValue (.string sortOrder.name) = .ok sortOrder by
    simp only [sortOrderValue, oneOf_sortOrder]) request.sortOrder
  have resolved := optional_sent (fun resolveData =>
    show resolveDataValue (.string resolveData.name) = .ok resolveData by
    simp only [resolveDataValue, oneOf_resolveData]) request.resolveData
  have bounded := @optional_sent String (fun value => stringValue value "request.cursor") id
    (fun _ => rfl) request.cursor
  rw [Option.map_id_fun, id] at bounded
  simp only [runListRequest, workflowName, cursor, sortOrder, resolveData, limit_, statuses,
    limited, ordered, resolved,
    bounded, bind, Except.bind]
  have named : optional (.ofString request.workflowName)
    (fun value => nonEmptyString value "request.workflowName") =
      if request.workflowName = some "" then invalid "request.workflowName must be a non-empty string"
      else .ok request.workflowName := by
    cases request.workflowName with
    | none => rfl
    | some workflowName =>
      change (nonEmptyString (.string workflowName) "request.workflowName").map some = _
      simp only [nonEmptyString, Option.some.injEq]
      split <;> rfl
  have listed : optional ((request.statuses.map RpcValue.ofStatuses).getD RpcValue.undefined) statusesValue =
      if request.statuses = some [] then invalid "request.statuses must be a non-empty array of run statuses"
      else .ok request.statuses := by
    cases request.statuses with
    | none => rfl
    | some statuses =>
      change (statusesValue (.ofStatuses statuses)).map some = _
      rw [statusesValue_ofStatuses]
      simp only [Option.some.injEq]
      split <;> rfl
  rw [named, listed]
  by_cases empty : request.workflowName = some ""
  · rw [if_pos empty, if_pos empty]
    rfl
  · rw [if_neg empty, if_neg empty]
    by_cases none_ : request.statuses = some []
    · rw [if_pos none_, if_pos none_]
      rfl
    · rw [if_neg none_, if_neg none_]

end IndexValidation

namespace JsNumber
variable {limit count : Nat}

theorem between_natural {maximum : Nat} (some_ : 1 ≤ limit) (fits : limit ≤ maximum)
    (safe : maximum ≤ MAX_SAFE_INTEGER) :
    (finite limit).between maximum = some limit := by
  have integer : (finite limit).safeInteger = some (limit : Int) := by
    have whole : ((limit : Rat)).isInt = true := by simp [Rat.isInt]
    have bounded : ((limit : Rat)).num.natAbs ≤ MAX_SAFE_INTEGER := by
      simp only [Rat.num_natCast, Int.natAbs_natCast]
      exact Nat.le_trans fits safe
    exact (if_pos ⟨whole, bounded⟩).trans (congrArg some (Rat.num_natCast limit))
  rw [between, integer, Option.filter_some, if_pos (by simp; omega), Option.map_some, Int.toNat_natCast]

theorem reaches_natural : (finite limit).reaches count = decide (count ≤ limit) := by
  simp [reaches]

theorem exceeded_natural : (finite limit).exceeded count = decide (limit < count) := by
  simp [exceeded]

theorem batchSize_natural (room : count ≤ limit) :
    (finite limit).batchSize count = min RUN_LIST_CONCURRENCY (limit + 1 - count) := by
  have cast : min (RUN_LIST_CONCURRENCY : Rat) ((limit : Rat) + 1 - count) =
      ((min RUN_LIST_CONCURRENCY (limit + 1 - count) : Nat) : Rat) := by
    rw [Nat.cast_min, Nat.cast_sub (Nat.le_succ_of_le room), Nat.cast_succ]
  rw [batchSize, cast, ← Int.cast_natCast, Rat.floor_intCast, Int.toNat_natCast]

theorem firsts_natural {α : Type} (list : List α) : (finite limit).firsts list = list.take limit := by
  simp [firsts]

theorem clamped_natural : (finite limit).clamped.between 1000 = some (min MAX_RUN_LIST_LIMIT (max 50 limit)) := by
  have cast : min (MAX_RUN_LIST_LIMIT : Rat) (max 50 (limit : Rat)) =
      ((min MAX_RUN_LIST_LIMIT (max 50 limit) : Nat) : Rat) := by
    push_cast
    rfl
  have small : (min MAX_RUN_LIST_LIMIT (max 50 limit)) ≤ 1000 := Nat.min_le_left ..
  have some_ : 1 ≤ min MAX_RUN_LIST_LIMIT (max 50 limit) := by
    unfold MAX_RUN_LIST_LIMIT
    omega
  rw [clamped, cast, between_natural some_ small (by decide)]

end JsNumber

/-- The request of the fleet for a request of the client with a whole limit. -/
def ClientRunListRequest.parsed (request : ClientRunListRequest) (limit : Nat) : RunListRequest where
  workflowName := request.workflowName
  statuses := request.statuses
  limit
  cursor := request.cursor
  sortOrder := request.sortOrder.getD .asc
  resolveData := request.resolveData ≠ some .none

/-- A match as the client holds it. -/
def RunMatch.listed (found : RunMatch) : String × ListedRun := (found.key, ⟨found.run, true⟩)

namespace RunListWorld
variable {world : RunListWorld}

/-- The dependencies of a listing in the router. -/
def dependencies (world : RunListWorld) : RunListDependencies := ⟨world.listRuns, world.readRun⟩

/-- The schema accepts the runs that the cells hold, with and without their data. -/
def Parses (world : RunListWorld) : Prop :=
  ∀ runId run, world.readRun runId = some run → ∀ resolved, world.parseRun ⟨run, resolved⟩ = .ok ⟨run, resolved⟩

theorem clientReadRun_eq (parses : world.Parses) (runId : String) :
    world.clientReadRun runId = .ok ((world.readRun runId).map (⟨·, true⟩)) := by
  have parsed := parses runId
  unfold clientReadRun runsGet
  unfold readRun at parsed ⊢
  cases answer : WorkflowRunDO.getRun world.now (world.cells runId) with
  | error tombstone => rfl
  | ok value =>
    cases value with
    | none => rfl
    | some run =>
      rw [answer] at parsed
      simp only [parsed run rfl true]
      rfl

theorem clientResolve_eq (parses : world.Parses) (statuses : Option (List RunStatus)) (entry : RunIndexEntry) :
    world.clientResolve statuses entry =
      .ok ((world.dependencies.resolve statuses entry).map RunMatch.listed) := by
  unfold clientResolve RunListDependencies.resolve
  rw [clientReadRun_eq parses]
  change Except.ok _ = Except.ok _
  change _ = Except.ok (((world.readRun entry.runId).bind _).map _)
  cases world.readRun entry.runId with
  | none => rfl
  | some run =>
    simp only [Option.map_some, Option.bind_some]
    split <;> rfl

/-- The client's batches are those of the router. -/
theorem clientVerify_eq (parses : world.Parses) {request : ClientRunListRequest} {limit : Nat}
    (whole : request.limit = .finite limit) {fuel : Nat} {candidates : List RunIndexEntry}
    {found : List RunMatch} :
    world.clientVerify request fuel candidates (found.map RunMatch.listed) =
      .ok ((world.dependencies.verify request.statuses limit fuel candidates found).map RunMatch.listed) := by
  induction fuel generalizing candidates found with
  | zero => rfl
  | succ fuel ih =>
    rw [clientVerify, RunListDependencies.verify, whole, JsNumber.reaches_natural, List.length_map]
    simp only [decide_eq_false_iff_not, Nat.not_le]
    split
    · rfl
    · rename_i goesOn
      simp only [not_or, Nat.not_lt] at goesOn
      rw [JsNumber.batchSize_natural goesOn.2]
      generalize min RUN_LIST_CONCURRENCY (limit + 1 - found.length) = size
      have resolved : (candidates.take size).mapM (world.clientResolve request.statuses) =
          .ok ((candidates.take size).map fun entry =>
            (world.dependencies.resolve request.statuses entry).map RunMatch.listed) := by
        rw [funext (clientResolve_eq parses request.statuses)]
        exact List.mapM_pure
      rw [resolved]
      change world.clientVerify request fuel _ _ = _
      have matched : ((candidates.take size).map fun entry =>
          (world.dependencies.resolve request.statuses entry).map RunMatch.listed).reduceOption =
          ((candidates.take size).filterMap (world.dependencies.resolve request.statuses)).map
            RunMatch.listed := by
        change List.filterMap id _ = _
        rw [List.filterMap_map, List.map_filterMap]
        rfl
      rw [matched, ← List.map_append]
      exact ih

theorem clientCatalogPage_eq {request : ClientRunListRequest} {limit : Nat}
    (whole : request.limit = .finite limit)
    (calls : Nat) (cursor : Option String) : world.clientCatalogPage request calls cursor =
      .ok (world.dependencies.catalogPage (request.parsed limit) calls cursor) := by
  have order : (request.sortOrder = some .desc) = (request.sortOrder.getD .asc = .desc) := by
    cases request.sortOrder with
    | none => simp
    | some sortOrder => simp
  unfold clientCatalogPage RunListDependencies.catalogPage
  rw [whole, JsNumber.clamped_natural]
  simp only [ClientRunListRequest.parsed, order]
  rfl

theorem clientScan_eq (parses : world.Parses) {request : ClientRunListRequest} {limit : Nat}
    (whole : request.limit = .finite limit) {fuel calls : Nat} {cursor : Option String} {found : List RunMatch} :
    world.clientScan request fuel calls cursor (found.map RunMatch.listed) =
      (world.dependencies.scan (prefiltered request.statuses) (request.parsed limit) fuel calls cursor found).map
        fun found => .ok (found.map RunMatch.listed) := by
  induction fuel generalizing calls cursor found with
  | zero => rfl
  | succ fuel ih =>
    rw [clientScan, RunListDependencies.scan, clientCatalogPage_eq whole]
    simp only
    generalize world.dependencies.catalogPage (request.parsed limit) calls cursor = page
    by_cases none_ : page.keys = []
    · rw [if_pos none_, if_pos none_]
      rfl
    · rw [if_neg none_, if_neg none_, clientVerify_eq parses whole]
      simp only [whole, JsNumber.reaches_natural, decide_eq_true_eq, List.length_map]
      simp only [show (request.parsed limit).statuses = request.statuses from rfl,
        show (request.parsed limit).limit = limit from rfl]
      generalize world.dependencies.verify request.statuses limit _ _ found = found
      by_cases more : found.length ≤ limit ∧ page.listComplete = false
      · rw [if_pos more, if_pos more]
        exact ih
      · rw [if_neg more, if_neg more]
        rfl

/-- The client lists what the router would list for it. -/
theorem clientListRunsPage_eq (parses : world.Parses) {request : ClientRunListRequest} {limit : Nat}
    (whole : request.limit = .finite limit) (fuel : Nat) : world.clientListRunsPage request fuel =
      (world.dependencies.listRunsPage (request.parsed limit) fuel).map .ok := by
  unfold clientListRunsPage RunListDependencies.listRunsPage RunListDependencies.listWith
  rw [whole]
  simp only [JsNumber.reaches_natural, Nat.zero_le, decide_true, if_true, JsNumber.exceeded_natural,
    JsNumber.firsts_natural]
  have scanned := @clientScan_eq world parses request limit whole fuel 0 request.cursor []
  rw [List.map_nil] at scanned
  rw [scanned, Option.map_map, Option.map_map]
  change Option.map _ (world.dependencies.scan (prefiltered request.statuses) (request.parsed limit) fuel 0
    request.cursor []) = _
  refine congrArg (fun answer => Option.map answer _) (funext fun found => ?_)
  have stripped (matched : RunMatch) : (if request.resolveData = some .none then stripRunData matched.listed.2
      else matched.listed.2) = ⟨matched.run, (request.parsed limit).resolveData⟩ := by
    unfold ClientRunListRequest.parsed
    split <;> simp_all [stripRunData, RunMatch.listed]
  simp only [Function.comp_apply, Except.map, List.length_map, ← List.map_take, List.map_map, Function.comp_def,
    stripped, List.getLast?_map, Option.map_map]
  rfl

end RunListWorld

namespace RunListDependencies
variable {deps : RunListDependencies}

/-- The run of a match was read from its cell. -/
def Reads (deps : RunListDependencies) (found : List RunMatch) : Prop :=
  ∀ matched ∈ found, ∃ runId, deps.readRun runId = some matched.run

theorem Reads.resolved {statuses : Option (List RunStatus)} (entries : List RunIndexEntry) :
    deps.Reads (entries.filterMap (deps.resolve statuses)) := by
  intro matched member
  obtain ⟨entry, -, resolved⟩ := List.mem_filterMap.mp member
  obtain ⟨run, read, resolved⟩ := Option.bind_eq_some_iff.mp resolved
  split at resolved
  · cases resolved
    exact ⟨entry.runId, read⟩
  · cases resolved

theorem Reads.verify {statuses : Option (List RunStatus)} {limit fuel : Nat} {candidates : List RunIndexEntry}
    {found : List RunMatch} (reads : deps.Reads found) :
    deps.Reads (deps.verify statuses limit fuel candidates found) := by
  induction fuel generalizing candidates found with
  | zero => exact reads
  | succ fuel ih =>
    rw [RunListDependencies.verify]
    split
    · exact reads
    · exact ih fun matched member => (List.mem_append.mp member).elim (reads matched) (Reads.resolved _ matched)

theorem Reads.scan {skips : RunIndexEntry → Bool} {request : RunListRequest} {fuel calls : Nat}
    {cursor : Option String}
    {found matches_ : List RunMatch} (reads : deps.Reads found)
    (scanned : deps.scan skips request fuel calls cursor found = some matches_) : deps.Reads matches_ := by
  induction fuel generalizing calls cursor found with
  | zero => cases scanned
  | succ fuel ih =>
    rw [RunListDependencies.scan] at scanned
    simp only at scanned
    split at scanned
    · cases scanned
      exact reads
    · split at scanned
      · exact ih reads.verify scanned
      · cases scanned
        exact reads.verify

/-- Every listed run was read from its cell. -/
theorem listRunsPage_read {request : RunListRequest} {fuel : Nat} {page : RunListPage}
    (answer : deps.listRunsPage request fuel = some page) :
    ∀ listed ∈ page.data, (∃ runId, deps.readRun runId = some listed.run) ∧
      listed.resolved = request.resolveData := by
  intro listed member
  obtain ⟨found, scanned, rfl⟩ := Option.map_eq_some_iff.mp answer
  obtain ⟨matched, first, rfl⟩ := List.mem_map.mp member
  have none_ : deps.Reads [] := fun _ member => by cases member
  exact ⟨none_.scan scanned matched (List.mem_of_mem_take first), rfl⟩

end RunListDependencies

theorem mapM_eq_self {α : Type} {parse : α → Except Thrown α} {items : List α}
    (same : ∀ item ∈ items, parse item = .ok item) : items.mapM parse = .ok items := by
  induction items with
  | nil => rfl
  | cons item items ih =>
    rw [List.mapM_cons, same item (.head _), ih fun other member => same other (.tail _ member)]
    rfl

namespace RunListWorld
variable {world : RunListWorld}

/-- The fleet answers what the client would list, or rejects an empty name or an empty list
of statuses. -/
theorem runsList_offered (parses : world.Parses) {params : ListWorkflowRunsParams} {limit : Nat}
    (within : params.request.limit.between MAX_RUN_LIST_LIMIT = some limit) (fuel : Nat) :
    world.runsList true params fuel =
      if params.workflowName = some "" then
        some (IndexValidation.invalid "request.workflowName must be a non-empty string")
      else if params.request.statuses = some [] then
        some (IndexValidation.invalid "request.statuses must be a non-empty array of run statuses")
      else world.clientListRunsPage params.request fuel := by
  have whole := (JsNumber.between_eq_some within).1
  unfold runsList listResolvedRuns IndexValidation.listResolvedArgs
  simp only [within, Option.isSome_some, and_self, if_true]
  rw [IndexValidation.runListRequest_value within]
  by_cases unnamed : params.workflowName = some ""
  · rw [if_pos unnamed, if_pos (show params.request.workflowName = some "" from unnamed)]
    rfl
  rw [if_neg unnamed, if_neg (show ¬ params.request.workflowName = some "" from unnamed)]
  by_cases none_ : params.request.statuses = some []
  · rw [if_pos none_, if_pos none_]
    rfl
  rw [if_neg none_, if_neg none_, clientListRunsPage_eq parses whole]
  change Option.map _ (Option.map _ (world.dependencies.listRunsPage (params.request.parsed limit) fuel)) = _
  rw [Option.map_map]
  cases answer : world.dependencies.listRunsPage (params.request.parsed limit) fuel with
  | none => rfl
  | some page =>
    have received : page.data.mapM (fun run => (world.parseRun run).map (·.filterData params.resolveData)) =
        .ok page.data := by
      refine mapM_eq_self fun listed member => ?_
      obtain ⟨⟨runId, read⟩, resolved⟩ := RunListDependencies.listRunsPage_read answer listed member
      obtain ⟨run, kept⟩ := listed
      rw [parses runId run read kept]
      change kept = decide (params.resolveData ≠ some .none) at resolved
      simp only [Except.map, ListedRun.filterData, resolved]
      split <;> simp_all
    simp only [Option.map_some, Function.comp_apply, bind, Except.bind, received]

end RunListWorld

/-- The two ways to list runs agree if and only if the request stays on the client or names
neither the empty workflow name nor an empty list of statuses. -/
theorem runsList_agree_iff {world : RunListWorld} (parses : world.Parses) (params : ListWorkflowRunsParams)
    (fuel : Nat) :
    world.runsList true params fuel = world.runsList false params fuel ↔
      ((params.request.limit.between MAX_RUN_LIST_LIMIT).isSome = true →
        params.workflowName ≠ some "" ∧ params.status ≠ some (.inr [])) := by
  have client : world.runsList false params fuel = world.clientListRunsPage params.request fuel := by
    unfold RunListWorld.runsList
    simp
  have statuses : params.request.statuses = some [] ↔ params.status = some (.inr []) := by
    unfold ListWorkflowRunsParams.request
    cases params.status with
    | none => simp
    | some status => cases status <;> simp
  rw [client]
  cases within : params.request.limit.between MAX_RUN_LIST_LIMIT with
  | none =>
    unfold RunListWorld.runsList
    simp [within]
  | some limit =>
    have answers : ∀ thrown, some (.error thrown) ≠ world.clientListRunsPage params.request fuel := by
      intro thrown same
      rw [RunListWorld.clientListRunsPage_eq parses (JsNumber.between_eq_some within).1] at same
      obtain ⟨page, -, wrong⟩ := Option.map_eq_some_iff.mp same.symm
      cases wrong
    rw [RunListWorld.runsList_offered parses within]
    by_cases unnamed : params.workflowName = some ""
    · rw [if_pos unnamed]
      exact ⟨fun same => absurd same (answers _), fun holds => absurd unnamed (holds rfl).1⟩
    by_cases none_ : params.status = some (.inr [])
    · rw [if_neg unnamed, if_pos (statuses.mpr none_)]
      exact ⟨fun same => absurd same (answers _), fun holds => absurd none_ (holds rfl).2⟩
    rw [if_neg unnamed, if_neg fun empty => none_ (statuses.mp empty)]
    exact ⟨fun _ _ => ⟨unnamed, none_⟩, fun _ => rfl⟩

/-- A world with one started run, whose schema keeps every run. -/
def RunListWorld.started : RunListWorld where
  listRuns _ options := ⟨[⟨options.keyPrefix ++ "0000000000001:run", "run", .pending⟩], true, none⟩
  cells _ := CellOp.run .unary "run" 1 (.resilientStart "run" "deployment" "workflow" (.string "input")) {}
  now := 1
  parseRun := .ok

theorem runsList_agree_iff_started :
    RunListWorld.started.runsList true { workflowName := some "workflow" } 1 =
      RunListWorld.started.runsList false { workflowName := some "workflow" } 1 :=
  (runsList_agree_iff (fun _ _ _ _ => rfl) { workflowName := some "workflow" } 1).mpr fun _ => ⟨by decide, nofun⟩

/-- The client answers a request for no status with an empty page, and one for the empty
name with the runs of every workflow; the fleet rejects both. -/
theorem runsList_disagree : RunListWorld.started.Parses ∧
    RunListWorld.started.runsList true { status := some (.inr []) } 1 =
      some (IndexValidation.invalid "request.statuses must be a non-empty array of run statuses") ∧
    RunListWorld.started.runsList false { status := some (.inr []) } 1 = some (.ok ⟨[], none, false⟩) ∧
    RunListWorld.started.runsList true { workflowName := some "" } 1 =
      some (IndexValidation.invalid "request.workflowName must be a non-empty string") ∧
    ∃ page, RunListWorld.started.runsList false { workflowName := some "" } 1 = some (.ok page) ∧
      page.data.length = 1 := by
  have parses : RunListWorld.started.Parses := fun _ _ _ _ => rfl
  have within : (JsNumber.finite 20).between MAX_RUN_LIST_LIMIT = some 20 := by decide +kernel
  have whole := (JsNumber.between_eq_some within).1
  refine ⟨parses, ?_, ?_, ?_, ?_⟩
  · exact @RunListWorld.runsList_offered _ parses { status := some (.inr []) } 20 within 1
  · exact @RunListWorld.clientListRunsPage_eq _ parses
      (ListWorkflowRunsParams.request { status := some (.inr []) }) 20 whole 1
  · exact @RunListWorld.runsList_offered _ parses { workflowName := some "" } 20 within 1
  · exact ⟨_, @RunListWorld.clientListRunsPage_eq _ parses
      (ListWorkflowRunsParams.request { workflowName := some "" }) 20
      whole 1, by decide +kernel⟩

end CelldWorld
