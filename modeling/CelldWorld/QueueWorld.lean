import CelldWorld.CellOps
import CelldWorld.QueueEnvelope
import CelldWorld.RetentionPasses

namespace CelldWorld

structure QueuePayloadOrphan where
  messageId : String
  runId : String
  key : String
  expiresAt : Nat
  deriving DecidableEq, Repr

structure QueuePayloadOrphanState extends QueuePayloadOrphan where
  generation : Nat
  deleting : Bool
  deriving DecidableEq, Repr

namespace WorkflowRunDO

def scheduleQueuePayloadOrphan (orphan : QueuePayloadOrphan) (existing : Option QueuePayloadOrphanState) :
    Except Thrown (Option QueuePayloadOrphanState) :=
  if orphan.messageId = "" ∨ orphan.runId = "" ∨ orphan.key = "" ∨ MAX_SAFE_INTEGER < orphan.expiresAt then
    .error (.typeError "world-celld queue payload orphan is invalid")
  else if existing.any (·.messageId ≠ orphan.messageId) then
    .error (.error "world-celld queue payload orphan identity mismatch")
  else if existing.any (·.deleting) then
    .error (.error "world-celld queue payload orphan deletion is in progress")
  else .ok (some { orphan with
    expiresAt := max ((existing.map (·.expiresAt)).getD 0) orphan.expiresAt
    generation := (existing.map (·.generation)).getD 0 + 1
    deleting := false })

def cancelQueuePayloadOrphan (messageId : String) (existing : Option QueuePayloadOrphanState) :
    Except Thrown (Option QueuePayloadOrphanState) :=
  if messageId = "" then
    .error (.typeError "world-celld queue payload orphan messageId must be a non-empty string")
  else .ok (existing.filter (·.messageId ≠ messageId))

/-- The first transaction of the orphan alarm: what is due is marked before it is deleted. -/
def leaseQueuePayloadOrphan (now : Nat) (existing : Option QueuePayloadOrphanState) :
    Option QueuePayloadOrphanState × Option QueuePayloadOrphanState :=
  match existing with
  | none => (none, none)
  | some current =>
    if now < current.expiresAt then (none, existing)
    else if current.deleting then (existing, existing)
    else
      let next := { current with generation := current.generation + 1, deleting := true }
      (some next, some next)

/-- The last transaction of the orphan alarm. -/
def finishQueuePayloadOrphan (leased : QueuePayloadOrphanState) (existing : Option QueuePayloadOrphanState) :
    Option QueuePayloadOrphanState :=
  existing.filter fun current =>
    current.messageId ≠ leased.messageId ∨ current.generation ≠ leased.generation ∨ current.deleting = false

end WorkflowRunDO

/-- A body in object storage, with its metadata. -/
structure QueuePayload where
  body : String
  runId : String
  messageId : String
  deriving DecidableEq, Repr

/-- A message that the broker accepted. -/
structure QueueCopy where
  envelope : NativeQueueEnvelope
  deliverableAt : Nat
  attempts : Nat := 0
  acked : Bool := false
  deriving DecidableEq, Repr

inductive ClaimScope
  | cell | run
  deriving DecidableEq, Repr

/-- What a reservation was answered. -/
structure QueueReservationAnswer where
  envelope : NativeQueueEnvelope
  site : QueueClaimSite
  answer : RunQueueReservation
  deriving DecidableEq, Repr

/-- Everything that queue messages touch: run cells, claim cells and orphan cells by name,
the payload objects, the broker, and what each router isolate remembers. -/
structure QueueWorld where
  now : Nat := 0
  /-- Message IDs of the requests made so far. -/
  requested : List String := []
  /-- What the reservations so far were answered, newest first. -/
  reservations : List QueueReservationAnswer := []
  runs : String → RunStore := fun _ => {}
  claims : String → QueueCell := fun _ => {}
  orphans : String → Option QueuePayloadOrphanState := fun _ => none
  payloads : String → Option QueuePayload := fun _ => none
  copies : List QueueCopy := []
  /-- `runClaimScopes` of each isolate, oldest entry first. -/
  runClaimScopes : Nat → List (String × ClaimScope) := fun _ => []

/-- What a callback answered, with what its body says of the delay of a suspension. -/
structure QueueCallback where
  status : Nat
  timeoutSeconds : Except Thrown (Option Nat)

structure QueueCallbackRequest where
  url : String
  queueName : String
  messageId : String
  attempt : Nat
  callbackSecret : Option String
  body : Option String
  deriving DecidableEq, Repr

inductive QueueSendAnswer
  | sent (messageId : String)
  | publicationPending
  | runExpired (message : String)
  | badRequest (error : Thrown)
  | payloadTooLarge
  | misconfigured
  | failed (error : Thrown)
  deriving DecidableEq, Repr

/-- Who deletes payload objects. -/
inductive PayloadDeletion
  | enqueue | delivery | retention
  | orphan (messageId : String)
  deriving DecidableEq, Repr

/-- Who publishes an envelope: the router for a request whose clock it read at `now`, or
the consumer for the copy that it received at `now`. -/
inductive QueuePublisher
  | router (now : Nat)
  | consumer (copy now : Nat)
  deriving DecidableEq, Repr

/-- One operation of the routers, the consumer, the cells and their environment. -/
inductive QueueEffect : Type → Type
  | request (messageId : String) : QueueEffect Unit
  | respond (messageId : String) (answer : QueueSendAnswer) : QueueEffect Unit
  | now : QueueEffect Nat
  /-- `Date.now()`, read after a claim was refused. -/
  | nowAfterRefusal (site : QueueClaimSite) (messageId : String) (retryAt : Option Nat) : QueueEffect Nat
  | runClaimScope (isolate : Nat) (runId : String) : QueueEffect (Option ClaimScope)
  | rememberRunClaimScope (isolate : Nat) (runId : String) (scope : ClaimScope) : QueueEffect Unit
  | reserve (site : QueueClaimSite) (envelope : NativeQueueEnvelope) (expiresAt : Nat) :
      QueueEffect (Except Thrown RunQueueReservation)
  | confirmPublication (site : QueueClaimSite) (messageId : String) (expiresAt : Nat) :
      QueueEffect (Except Thrown Unit)
  | claim (site : QueueClaimSite) (messageId : String) (staleMs : Nat) : QueueEffect (Except Thrown RunQueueClaim)
  | hold (site : QueueClaimSite) (messageId : String) (retryAt expiresAt : Nat)
      (reservationExpiresAt : Option Nat) :
      QueueEffect (Except Thrown Bool)
  | release (site : QueueClaimSite) (messageId : String) : QueueEffect (Except Thrown Unit)
  | complete (site : QueueClaimSite) (messageId : String) : QueueEffect (Except Thrown Unit)
  | abandonReservation (site : QueueClaimSite) (messageId : String) : QueueEffect (Except Thrown Unit)
  | expireQueueClaims (claimName : String) : QueueEffect Unit
  | getQueueAdmission (runId : String) : QueueEffect QueueAdmission
  | getRun (runId : String) : QueueEffect (Except RunTombstone (Option WorkflowRun))
  | registerQueuePayload (runId : String) (registration : QueuePayloadRegistration) :
      QueueEffect (Except Thrown QueueAdmission)
  | finalizeQueuePayload (runId messageId : String) : QueueEffect (Except Thrown QueueAdmission)
  | unregisterQueuePayload (runId messageId : String) : QueueEffect (Except Thrown Unit)
  | scheduleQueuePayloadOrphan (orphan : QueuePayloadOrphan) : QueueEffect (Except Thrown Unit)
  | cancelQueuePayloadOrphan (messageId : String) : QueueEffect (Except Thrown Unit)
  | leaseQueuePayloadOrphan (messageId : String) : QueueEffect (Option QueuePayloadOrphanState)
  | finishQueuePayloadOrphan (leased : QueuePayloadOrphanState) : QueueEffect Unit
  | writePayload (key : String) (payload : QueuePayload) : QueueEffect Unit
  | readPayload (key : String) : QueueEffect (Option String)
  | deletePayloads (deletion : PayloadDeletion) (keys : List String) : QueueEffect Unit
  | fetch (request : QueueCallbackRequest) : QueueEffect QueueCallback
  | send (publisher : QueuePublisher) (envelope : NativeQueueEnvelope) (delaySeconds : Nat) :
      QueueEffect (Except Thrown Unit)
  | receive (copy : Nat) : QueueEffect (NativeQueueEnvelope × Nat × Nat)
  | ack (copy : Nat) : QueueEffect Unit
  | retry (copy delaySeconds : Nat) : QueueEffect Unit
  /-- What an alarm in the phase `queues` reads: the cleanup record and a page of registrations. -/
  | queuePage (runId : String) :
      QueueEffect (Option (CleanupRecord × List (String × QueuePayloadRegistration) × Bool))
  /-- Any other transaction of a run cell. -/
  | runCell (runId : String) (op : CellOp) : QueueEffect Unit
  /-- Time passes. -/
  | clock (now : Nat) : QueueEffect Unit
  /-- An isolate is replaced. -/
  | restart (isolate : Nat) : QueueEffect Unit

/-- What the environment decides about an operation. -/
structure QueueChoice where
  callback : QueueCallback := { status := 500, timeoutSeconds := .ok none }
  /-- The broker rejects a message. -/
  rejected : Option Thrown := none

def MAX_REMEMBERED_RUN_CLAIM_SCOPES : Nat := 4096

/-- How long the broker keeps a message after it becomes deliverable. -/
def QUEUE_BROKER_RETENTION_MS : Nat := 4 * 24 * 60 * 60 * 1000

namespace QueueWorld
variable (world : QueueWorld)

def atRun {α : Type} (runId : String) (body : RunStore → Except Thrown (α × RunStore)) :
    Except Thrown α × QueueWorld :=
  match body (world.runs runId) with
  | .error error => (.error error, world)
  | .ok (answer, store) => (.ok answer, { world with runs := Function.update world.runs runId store })

def atCell {α : Type} (claimName : String) (body : QueueCell → Except Thrown (α × QueueCell)) :
    Except Thrown α × QueueWorld :=
  match body (world.claims claimName) with
  | .error error => (.error error, world)
  | .ok (answer, cell) => (.ok answer, { world with claims := Function.update world.claims claimName cell })

def atOrphan (messageId : String)
    (body : Option QueuePayloadOrphanState → Except Thrown (Option QueuePayloadOrphanState)) :
    Except Thrown Unit × QueueWorld :=
  match body (world.orphans messageId) with
  | .error error => (.error error, world)
  | .ok orphan => (.ok (), { world with orphans := Function.update world.orphans messageId orphan })

/-- Record what a reservation was answered. -/
def reserved (envelope : NativeQueueEnvelope) (site : QueueClaimSite) :
    Except Thrown RunQueueReservation × QueueWorld → Except Thrown RunQueueReservation × QueueWorld
  | (.ok answer, world) =>
    (.ok answer, { world with reservations := { envelope, site, answer } :: world.reservations })
  | (.error error, world) => (.error error, world)

/-- A transaction that answers nothing. -/
def unit {σ : Type} (body : σ → Except Thrown σ) (store : σ) : Except Thrown (Unit × σ) :=
  (body store).map fun after => ((), after)

end QueueWorld

namespace QueueEffect
open WorkflowRunDO QueueWorld

/-- The answer to an operation and what it leaves, unless it cannot happen. -/
def exec (W : WorldContract) {α : Type} (op : QueueEffect α) (choice : QueueChoice) (world : QueueWorld) :
    Option (α × QueueWorld) :=
  match op with
  | .request messageId =>
    -- A request carries an ID that no other request has carried.
    if messageId ∈ world.requested then none
    else some ((), { world with requested := messageId :: world.requested })
  | .respond _ _ => some ((), world)
  | .now => some (world.now, world)
  | .nowAfterRefusal _ _ _ => some (world.now, world)
  | .runClaimScope isolate runId => some ((world.runClaimScopes isolate).lookup runId, world)
  | .rememberRunClaimScope isolate runId scope =>
    let remembered := world.runClaimScopes isolate
    if (remembered.lookup runId).isSome then some ((), world)
    else
      let kept := if MAX_REMEMBERED_RUN_CLAIM_SCOPES ≤ remembered.length then remembered.tail else remembered
      some ((), { world with
        runClaimScopes := Function.update world.runClaimScopes isolate (kept ++ [(runId, scope)]) })
  | .reserve (.cell claimName) envelope expiresAt =>
    some (reserved envelope (.cell claimName) (world.atCell claimName fun cell =>
      (reserveQueueMessage world.now envelope.messageId expiresAt true cell).map
        fun ((admitted, messageId, pending), cell) => (.run admitted messageId pending, cell)))
  | .reserve (.run runId claimName) envelope expiresAt =>
    some (reserved envelope (.run runId claimName) (world.atRun runId (reserveRunQueueMessage world.now
      { claimName, messageId := envelope.messageId, expiresAt, publicationPending := true })))
  | .confirmPublication (.cell claimName) messageId expiresAt =>
    some (world.atCell claimName (unit (confirmQueueMessagePublication messageId expiresAt)))
  | .confirmPublication (.run runId claimName) messageId expiresAt =>
    some (world.atRun runId (unit (confirmRunQueueMessagePublication claimName messageId expiresAt)))
  | .claim (.cell claimName) messageId staleMs =>
    some (world.atCell claimName fun cell =>
      (claimInflight world.now messageId staleMs cell).map
        fun ((claimed, retryAt), cell) => (.answered claimed retryAt, cell))
  | .claim (.run runId claimName) messageId staleMs =>
    some (world.atRun runId (claimRunQueueMessage world.now claimName messageId staleMs))
  | .hold (.cell claimName) messageId retryAt expiresAt reservationExpiresAt =>
    some (world.atCell claimName (holdInflight messageId retryAt expiresAt reservationExpiresAt))
  | .hold (.run runId claimName) messageId retryAt expiresAt reservationExpiresAt =>
    some (world.atRun runId
      (holdRunQueueMessage { claimName, messageId, retryAt, expiresAt, reservationExpiresAt }))
  | .release (.cell claimName) messageId =>
    some (world.atCell claimName fun cell => .ok ((), releaseInflight (some messageId) cell))
  | .release (.run runId claimName) messageId =>
    some (world.atRun runId (unit (releaseRunQueueMessage claimName messageId)))
  | .complete (.cell claimName) messageId =>
    some (world.atCell claimName (unit (completeQueueMessage messageId)))
  | .complete (.run runId claimName) messageId =>
    some (world.atRun runId (unit (completeRunQueueMessage claimName messageId)))
  | .abandonReservation (.cell claimName) messageId =>
    some (world.atCell claimName (unit (abandonQueueMessageReservation messageId)))
  | .abandonReservation (.run runId claimName) messageId =>
    some (world.atRun runId (unit (abandonRunQueueMessageReservation claimName messageId)))
  | .expireQueueClaims claimName =>
    let cell := world.claims claimName
    match cell.alarm.filter (· ≤ world.now) with
    | none => none
    | some _ => some ((), { world with
        claims := Function.update world.claims claimName (WorkflowRunDO.expireQueueClaims world.now cell) })
  | .getQueueAdmission runId => some (WorkflowRunDO.getQueueAdmission world.now (world.runs runId), world)
  | .getRun runId => some (WorkflowRunDO.getRun world.now (world.runs runId), world)
  | .registerQueuePayload runId registration =>
    some (world.atRun runId (WorkflowRunDO.registerQueuePayload world.now registration))
  | .finalizeQueuePayload runId messageId =>
    some (WorkflowRunDO.finalizeQueuePayload world.now messageId (world.runs runId), world)
  | .unregisterQueuePayload runId messageId =>
    some (world.atRun runId (unit (WorkflowRunDO.unregisterQueuePayload messageId)))
  | .scheduleQueuePayloadOrphan orphan =>
    some (world.atOrphan orphan.messageId (WorkflowRunDO.scheduleQueuePayloadOrphan orphan))
  | .cancelQueuePayloadOrphan messageId =>
    some (world.atOrphan messageId (WorkflowRunDO.cancelQueuePayloadOrphan messageId))
  | .leaseQueuePayloadOrphan messageId =>
    let (leased, orphan) := WorkflowRunDO.leaseQueuePayloadOrphan world.now (world.orphans messageId)
    some (leased, { world with orphans := Function.update world.orphans messageId orphan })
  | .finishQueuePayloadOrphan leased =>
    let orphan := WorkflowRunDO.finishQueuePayloadOrphan leased (world.orphans leased.messageId)
    some ((), { world with orphans := Function.update world.orphans leased.messageId orphan })
  | .writePayload key payload =>
    some ((), { world with payloads := Function.update world.payloads key (some payload) })
  | .readPayload key => some ((world.payloads key).map (·.body), world)
  | .deletePayloads _ keys =>
    some ((), { world with payloads := fun key => if key ∈ keys then none else world.payloads key })
  | .fetch _ => some (choice.callback, world)
  | .send _ envelope delaySeconds =>
    match choice.rejected with
    | some error => some (.error error, world)
    | none => some (.ok (), { world with
        copies := world.copies ++ [{ envelope, deliverableAt := world.now + delaySeconds * 1000 }] })
  | .receive copy =>
    match world.copies[copy]? with
    | none => none
    | some message =>
      -- The broker drops a message four days after it becomes deliverable.
      if message.acked = false ∧ message.deliverableAt ≤ world.now ∧
          world.now < message.deliverableAt + QUEUE_BROKER_RETENTION_MS then
        some ((message.envelope, message.attempts + 1, world.now), { world with
          copies := world.copies.set copy { message with attempts := message.attempts + 1 } })
      else none
  | .ack copy =>
    match world.copies[copy]? with
    | none => none
    | some message => some ((), { world with copies := world.copies.set copy { message with acked := true } })
  | .retry _ _ => some ((), world)
  | .queuePage runId =>
    let store := world.runs runId
    match store.cleanup.filter (·.phase = .queues) with
    | none => some (none, world)
    | some cleanup =>
      some (some (cleanup, store.queuePayloads.toList.take QUEUE_PAYLOADS_PER_CLEANUP_PAGE,
        QUEUE_PAYLOADS_PER_CLEANUP_PAGE < store.queuePayloads.size), world)
  | .runCell runId op =>
    let store := op.run W runId world.now (world.runs runId)
    some ((), { world with runs := Function.update world.runs runId store })
  | .clock later => some ((), { world with now := max world.now later })
  | .restart isolate =>
    some ((), { world with runClaimScopes := Function.update world.runClaimScopes isolate [] })

end QueueEffect

/-- What the claim at a site keeps. -/
def QueueWorld.kept (world : QueueWorld) : QueueClaimSite → RunQueueClaimState
  | .cell claimName => (world.claims claimName).kept
  | .run runId claimName => (world.runs runId).queueClaim claimName

end CelldWorld
