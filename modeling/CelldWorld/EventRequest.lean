import CelldWorld.RunStore

namespace CelldWorld

structure ScheduleCleanupRequest where
  retentionMs : Nat
  deriving DecidableEq, Repr

structure ApplyEventRequest where
  runId : String
  data : CreateEventRequest
  params : Option CreateEventParams := none
  /-- Current holder of the hook token (`hook_created` only). -/
  tokenHolder : Option HookTokenOwner := none
  /-- The event claim ID of the reservation, fenced on ambiguous delivery. -/
  hookClaimId : Option String := none
  /-- Forced `hook_created` only: the hook whose token is taken over. -/
  claimedFrom : Option HookClaimedFrom := none
  forceRefusedReason : Option ForceRefusedReason := none
  cleanup : Option ScheduleCleanupRequest := none
  deriving DecidableEq, Repr

/-- A string that JavaScript takes as true. -/
def truthy (text : Option String) : Option String := text.filter (· ≠ "")

theorem truthy_eq_some {text : Option String} {value : String} :
    truthy text = some value ↔ text = some value ∧ value ≠ "" := by
  simp only [truthy, Option.filter_eq_some_iff, decide_eq_true_eq]

def CreateEvent.isHookCreated : CreateEvent → Bool
  | .hookCreated .. => true
  | _ => false

/-- The checks of `parseApplyEventRequest` that a typed request can still fail. -/
def parseApplyEventRequest (W : WorldContract) (request : ApplyEventRequest) :
    Except Thrown ApplyEventRequest :=
  if request.runId = "" then
    .error (.typeError "applyEvent runId must be a non-empty string")
  else if W.createEventSchema request.data = false then
    .error (.schemaError "CreateEventSchema")
  else if request.tokenHolder.any (fun holder => holder.runId = "" ∨ holder.hookId = "") then
    .error (.typeError "applyEvent tokenHolder must contain non-empty runId and hookId strings")
  else if request.hookClaimId = some "" then
    .error (.typeError "applyEvent hookClaimId must be a non-empty string")
  else if request.claimedFrom.any (fun claimed =>
      W.hookClaimedFromSchema claimed = false ∨ claimed.runId = "" ∨ claimed.hookId = "") then
    .error (.typeError "applyEvent claimedFrom must name a run and a hook")
  else if (request.claimedFrom.isSome ∨ request.forceRefusedReason.isSome) ∧
      request.data.data.isHookCreated = false then
    .error (.typeError "applyEvent force-claim fields apply only to hook_created")
  else .ok request

/-- Parsing checks a request and never rewrites it. -/
theorem parseApplyEventRequest_ok {W : WorldContract} {request parsed : ApplyEventRequest}
    (run : parseApplyEventRequest W request = .ok parsed) : parsed = request := by
  unfold parseApplyEventRequest at run
  repeat' split at run
  all_goals first | exact (Except.ok.inj run).symm | cases run

/-- A parsed request has passed the schema of events. -/
theorem parseApplyEventRequest_schema {W : WorldContract} {request parsed : ApplyEventRequest}
    (run : parseApplyEventRequest W request = .ok parsed) : W.createEventSchema request.data = true := by
  unfold parseApplyEventRequest at run
  split at run
  · cases run
  split at run
  · cases run
  · rename_i valid
    simpa using valid

inductive ApplyEventErrorCode
  | runNotFound | stepNotFound | hookNotFound | hookForceClaimed | waitNotFound
  | entityConflict | hookClaimCancelled | runExpired | tooEarly | runNotSupported
  deriving DecidableEq, Repr

structure ApplyEventFailure where
  code : ApplyEventErrorCode
  message : String
  /-- `TOO_EARLY` only. -/
  retryAfterSeconds : Option Nat := none
  /-- `RUN_NOT_SUPPORTED` only. -/
  runSpecVersion : Option Nat := none
  /-- `HOOK_FORCE_CLAIMED` only. -/
  token : Option String := none
  /-- `HOOK_FORCE_CLAIMED` only. -/
  claimedBy : Option HookTokenOwner := none
  deriving DecidableEq, Repr

structure RunCreatedInfo where
  workflowName : String
  createdAt : Nat
  deriving DecidableEq, Repr

/-- Events preloaded into a response, with their pagination metadata. -/
structure EventPage where
  events : List Event
  cursor : Option String
  hasMore : Bool
  deriving DecidableEq, Repr

structure ApplyEventSuccess where
  /-- Absent for idempotent replays that record no new event. -/
  event : Option Event := none
  run : Option WorkflowRun := none
  step : Option Step := none
  hook : Option Hook := none
  wait : Option Wait := none
  stepCreated : Bool := false
  releasedHooks : List HookIndexReference := []
  runCreated : Option RunCreatedInfo := none
  hookToIndex : Option Hook := none
  page : Option EventPage := none
  maxEvents : Option Nat := none
  indexPublicationExpiresAt : Option Nat := none
  replayRun : Option WorkflowRun := none
  deriving DecidableEq, Repr

inductive ApplyEventOutcome
  | ok (success : ApplyEventSuccess)
  | fail (failure : ApplyEventFailure)
  deriving DecidableEq, Repr

/-- `failure`: a structured refusal without extra fields. -/
def failure (code : ApplyEventErrorCode) (message : String) : ApplyEventOutcome :=
  .fail { code, message }

inductive SortOrder
  | asc | desc
  deriving DecidableEq, Repr

/-- `store.list` over one prefix, then the page arithmetic of `listByPrefix`. -/
def listByPrefix {ν : Type} (entries : KeyMap ν) (limit : Nat) (cursor : Option String)
    (sortOrder : SortOrder) (getId : ν → String) : List ν × Option String × Bool :=
  let listed : List (String × ν) := match sortOrder with
    | .asc => entries.toList.filter fun entry => (truthy cursor).all (· < entry.1)
    | .desc => (entries.toList.filter fun entry => (truthy cursor).all (entry.1 < ·)).reverse
  let values := (listed.take (limit + 1)).map (·.2)
  let hasMore := decide (limit < values.length)
  let data := values.take limit
  (data, if hasMore then data.getLast?.map getId else none, hasMore)

def listEventPage (events : KeyMap Event) (limit : Nat) (cursor : Option String) : EventPage :=
  let (data, next, hasMore) := listByPrefix events limit cursor .asc Event.eventId
  { events := data, cursor := next, hasMore }

end CelldWorld
