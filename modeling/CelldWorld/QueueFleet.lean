import CelldWorld.QueueConsumer
import CelldWorld.Library.Guarantee

namespace CelldWorld

open Interleaving QueueProgram

variable (C : QueueContract) (env : QueueWorkerEnv)

def isInlineRunBody (body : String) : Bool :=
  utf16Length body ≤ MAX_INLINE_RUN_BODY_BYTES && body.utf8ByteSize ≤ MAX_INLINE_RUN_BODY_BYTES &&
    C.withoutUserData body

/-- A message that the router has checked: its inline body, where the body of a run goes,
and the deadline of its reservation. -/
structure QueueRequest where
  envelope : NativeQueueEnvelope
  body : String
  options : NativeQueueSendOptions
  now : Nat

namespace QueueRequest
variable (request : QueueRequest)

def reservationExpiresAt : Nat :=
  max request.now (request.envelope.notBefore.getD request.now) + QUEUE_RESERVATION_GRACE_MS

/-- Small bodies without user data stay inline. -/
def inlineRunBody : Bool := request.envelope.runId.isSome && isInlineRunBody C request.body

/-- The rest move to the fleet bucket, so that run retention can delete them. -/
def payloadKey : Option String :=
  (truthy request.envelope.runId).bind fun runId =>
    if request.inlineRunBody C then none else some (queuePayloadObjectKey runId request.envelope.messageId)

/-- The envelope that the broker gets. -/
def brokerEnvelope : NativeQueueEnvelope :=
  match request.payloadKey C with
  | some key => { request.envelope with payloadKey := some key, body := none }
  | none => request.envelope

end QueueRequest

/-- The checks of the router before anything is done. -/
def validateQueueSend (input : NativeQueueEnvelope) (options : NativeQueueSendOptions) :
    Except Thrown (NativeQueueEnvelope × String × NativeQueueSendOptions) := do
  let envelope ← validateNativeQueueEnvelope input
  let options ← validateNativeQueueSendOptions options
  match envelope.body, envelope.payloadKey with
  | some body, none => .ok (envelope, body, options)
  | _, _ => .error (.typeError "queue send requires an inline body")

variable (request : QueueRequest)

/-- Register the body of a run, write it, and make sure that the run is still there. An
answer ends the request. -/
def offloadPayload (claim : Option QueueClaimSite) (runId key : String) :
    QueueProgram (Option QueueSendAnswer) := do
  let messageId := request.envelope.messageId
  let expiresAt := request.reservationExpiresAt
  if env.WORKFLOW_QUEUE_PAYLOADS = false then
    withClaim claim (.abandonReservation · messageId)
    return some .misconfigured
  else
    match ← call (.registerQueuePayload runId { messageId, key, orphanExpiresAt := expiresAt }) with
    | .refused message =>
      withClaim claim (.complete · messageId)
      return some (.runExpired message)
    | .ok =>
      match ← (call (.scheduleQueuePayloadOrphan { messageId, runId, key, expiresAt })).attempt with
      | .error error =>
        call (.unregisterQueuePayload runId messageId)
        .throw error
      | .ok _ =>
        ask (.writePayload key { body := request.body, runId, messageId })
        match ← call (.finalizeQueuePayload runId messageId) with
        | .ok => return none
        | .refused message =>
          ask (.deletePayloads .enqueue [key])
          call (.unregisterQueuePayload runId messageId)
          call (.cancelQueuePayloadOrphan messageId)
          withClaim claim (.complete · messageId)
          return some (.runExpired message)

/-- The body of a run that has one to offload. -/
def storePayload (claim : Option QueueClaimSite) : QueueProgram (Option QueueSendAnswer) :=
  match truthy request.envelope.runId, request.payloadKey C with
  | some runId, some key => offloadPayload env request claim runId key
  | _, _ => pure none

/-- Publish an admitted message and confirm its reservation. -/
def publishMessage (claim : Option QueueClaimSite) (brokerEnvelope : NativeQueueEnvelope)
    (admission : Except Thrown QueueAdmission) : QueueProgram QueueSendAnswer := do
  let messageId := request.envelope.messageId
  match ← .ofExcept admission with
  | .refused message =>
    withClaim claim (.complete · messageId)
    return .runExpired message
  | .ok =>
    match ← storePayload C env request claim with
    | some answer => return answer
    | none =>
      call (.send (.router request.now) brokerEnvelope (request.options.delaySeconds.getD 0))
      withClaim claim (.confirmPublication · messageId request.reservationExpiresAt)
      return .sent messageId

/-- A failed publication must not make the next caller's retry look successful solely
because it finds this message's reservation. -/
def abandoned (claim : Option QueueClaimSite) (error : Thrown) : QueueProgram QueueSendAnswer := do
  let _ ← (withClaim claim (.abandonReservation · request.envelope.messageId)).attempt
  return .failed error

/-- `publishMessage`, with a failure answered. -/
def publishOrAbandon (claim : Option QueueClaimSite) (brokerEnvelope : NativeQueueEnvelope)
    (admission : Except Thrown QueueAdmission) : QueueProgram QueueSendAnswer := do
  match ← (publishMessage C env request claim brokerEnvelope admission).attempt with
  | .ok answer => return answer
  | .error error => abandoned request claim error

/-- What the publication of an admitted message does. -/
def QueueEffect.publishes {α : Type} : QueueEffect α → Prop
  | .registerQueuePayload .. | .unregisterQueuePayload .. | .scheduleQueuePayloadOrphan
    _ | .cancelQueuePayloadOrphan _ |
    .writePayload .. | .finalizeQueuePayload .. | .deletePayloads .enqueue _ | .send (.router _) .. |
    .confirmPublication .. | .complete .. | .abandonReservation .. => True
  | _ => False

theorem abandoned_only {claim : Option QueueClaimSite} {error : Thrown} :
    (abandoned request claim error).Only QueueEffect.publishes :=
  .bind (Prog.Only.attempt (withClaim_only fun _ => trivial)) fun _ => trivial

theorem publishOrAbandon_only {claim : Option QueueClaimSite} {brokerEnvelope : NativeQueueEnvelope}
    {admission : Except Thrown QueueAdmission} :
    (publishOrAbandon C env request claim brokerEnvelope admission).Only QueueEffect.publishes := by
  have offloads {runId key : String} :
      (offloadPayload env request claim runId key).Only QueueEffect.publishes := by
    unfold offloadPayload
    simp only
    split
    · exact .bind (withClaim_only fun _ => trivial) fun _ => trivial
    refine .bind (.remote ⟨trivial, fun _ => .ofExcept⟩) fun registered => ?_
    split
    · exact .bind (withClaim_only fun _ => trivial) fun _ => trivial
    refine .bind (Prog.Only.attempt (.remote ⟨trivial, fun _ => .ofExcept⟩)) fun scheduled => ?_
    split
    · exact .bind (.remote ⟨trivial, fun _ => .ofExcept⟩) fun _ => trivial
    refine .bind (.remote ⟨trivial, fun _ => trivial⟩) fun _ =>
      .bind (.remote ⟨trivial, fun _ => .ofExcept⟩) fun finalized => ?_
    split
    · trivial
    refine .bind (.remote ⟨trivial, fun _ => trivial⟩) fun _ =>
      .bind (.remote ⟨trivial, fun _ => .ofExcept⟩) fun _ => ?_
    exact .bind (.remote ⟨trivial, fun _ => .ofExcept⟩) fun _ =>
      .bind (withClaim_only fun _ => trivial) fun _ => trivial
  have publishes : (publishMessage C env request claim brokerEnvelope admission).Only QueueEffect.publishes := by
    unfold publishMessage
    refine .bind .ofExcept fun admission => ?_
    split
    · exact .bind (withClaim_only fun _ => trivial) fun _ => trivial
    refine .bind ?_ fun stored => ?_
    · unfold storePayload
      split
      · exact offloads
      · trivial
    split
    · trivial
    · exact .bind (.remote ⟨trivial, fun _ => .ofExcept⟩) fun _ =>
        .bind (withClaim_only fun _ => trivial) fun _ => trivial
  unfold publishOrAbandon
  refine .bind publishes.attempt fun published => ?_
  split
  · trivial
  · exact abandoned_only request

/-- What the reservation of a key answers. -/
def reservedMessage (site : QueueClaimSite) (brokerEnvelope : NativeQueueEnvelope)
    (admission : Except Thrown QueueAdmission)
    (admitted : Bool) (messageId : String) (publicationPending : Bool) : QueueProgram QueueSendAnswer :=
  if admitted then publishOrAbandon C env request (some site) brokerEnvelope admission
  else if publicationPending then pure .publicationPending
  else pure (.sent messageId)

/-- A reservation in the claim cell of the key, with the read-only expiry check alongside. -/
def reserveInCell (claimName : String) (admission : QueueProgram QueueAdmission) : QueueProgram QueueSendAnswer :=
  .fork admission (call (.reserve (.cell claimName) request.envelope (request.now + QUEUE_PUBLICATION_LEASE_MS)))
    fun admission reserved => match reserved with
      | .ok (.run admitted messageId pending) =>
        reservedMessage C env request (.cell claimName) (request.brokerEnvelope C) admission
          admitted messageId pending
      | .ok _ => pure .misconfigured
      | .error error => abandoned request (some (.cell claimName)) error

/-- A keyed message of a run asks its run cell first, unless this isolate already knows
that the run keeps its claims in claim cells. -/
def reserveInRun (isolate : Nat) (runId claimName : String) : QueueProgram QueueSendAnswer := do
  match ← (call (.reserve (.run runId claimName) request.envelope
    (request.now + QUEUE_PUBLICATION_LEASE_MS))).attempt with
  | .error error => abandoned request (some (.run runId claimName)) error
  | .ok (.refused message) => return .runExpired message
  | .ok .cell =>
    .perform (.rememberRunClaimScope isolate runId .cell)
    reserveInCell C env request claimName (pure .ok)
  | .ok (.run admitted messageId pending) =>
    .perform (.rememberRunClaimScope isolate runId .run)
    reservedMessage C env request (.run runId claimName)
      { request.brokerEnvelope C with claimScope := some "run" }
      (.ok .ok) admitted messageId pending

/-- The run cell answers whether the run of an inline body has expired. -/
def inlineAdmission : QueueProgram QueueAdmission :=
  match truthy request.envelope.runId with
  | some runId => if request.inlineRunBody C then ask (.getQueueAdmission runId) else pure .ok
  | none => pure .ok

/-- A message that has an idempotency key. -/
def sendKeyed (isolate : Nat) (idempotencyKey : String) : QueueProgram QueueSendAnswer :=
  let claimName := queueClaimName request.envelope.queueName idempotencyKey
  match truthy request.envelope.runId with
  | none => reserveInCell C env request claimName (inlineAdmission C request)
  | some runId => do
    match ← .perform (.runClaimScope isolate runId) with
    | some .cell => reserveInCell C env request claimName (inlineAdmission C request)
    | _ => reserveInRun C env request isolate runId claimName

/-- `queue send`. -/
def queueSend (isolate : Nat) (input : NativeQueueEnvelope) (options : NativeQueueSendOptions) :
    QueueProgram QueueSendAnswer :=
  if env.WORKFLOW_QUEUE = false then pure .misconfigured
  else match validateQueueSend input options with
  | .error error => pure (.badRequest error)
  | .ok (envelope, body, options) => do
    let sized : QueueRequest := { envelope, body, options, now := 0 }
    -- Sized with the claim scope a run-scoped claim may add.
    if NATIVE_QUEUE_MAX_MESSAGE_BYTES <
      C.encodedBytes { sized.brokerEnvelope C with claimScope := some "run" } then
      return .payloadTooLarge
    else
      let now ← .perform .now
      let request : QueueRequest := { envelope, body, options, now }
      match truthy envelope.idempotencyKey with
      | some idempotencyKey => sendKeyed C env request isolate idempotencyKey
      | none =>
        let admission ← (inlineAdmission C request).attempt
        publishOrAbandon C env request none (request.brokerEnvelope C) admission

/-- The alarm of an orphan cell. -/
def orphanAlarm (messageId : String) : QueueProgram Unit := do
  match ← .perform (.leaseQueuePayloadOrphan messageId) with
  | none => pure ()
  | some leased =>
    if env.WORKFLOW_QUEUE_PAYLOADS = false ∨ env.WORKFLOW_DB = false then
      .throw (.error "world-celld queue orphan cleanup is missing required bindings")
    else
      ask (.deletePayloads (.orphan messageId) [leased.key])
      call (.unregisterQueuePayload leased.runId leased.messageId)
      .perform (.finishQueuePayloadOrphan leased)

/-- The objects of a page of registrations, if it has any. -/
def deletePageObjects (keys : List String) : QueueProgram Unit :=
  if keys = [] then pure () else ask (.deletePayloads .retention keys)

/-- `deleteQueuePage`: an alarm of the retention cleanup in the phase `queues`. -/
def deleteQueuePage (runId : String) : QueueProgram Unit := do
  match ← .perform (.queuePage runId) with
  | none => pure ()
  | some (cleanup, page, more) =>
    if env.WORKFLOW_QUEUE_PAYLOADS = false then
      .throw (.error "world-celld retention missing binding WORKFLOW_QUEUE_PAYLOADS")
    else
      deletePageObjects (page.map (·.2.key))
      .perform (.runCell runId (.executeCleanup cleanup (.queues (page.map (·.1)) more)))

/-- How an effect of the consumer is performed, for a copy that it received at `now`. -/
def consumerEffect (copy receivedAt : Nat) : {β : Type} → ConsumerEffect β → QueueProgram β
  | _, .now => .perform .now
  | _, .send envelope delaySeconds => (call (.send (.consumer copy receivedAt) envelope delaySeconds)).attempt
  | _, .deliver secret envelope attempt =>
    (Prog.remote (deliverQueueMessage C env (some secret) envelope attempt)).attempt
  | _, .ack => .perform (.ack copy)
  | _, .retry delaySeconds => .perform (.retry copy delaySeconds)

/-- The broker hands a copy to the consumer. -/
def consumeCopy (consumer : QueueConsumerEnv) (copy : Nat) : QueueProgram Unit := do
  let (envelope, attempts, receivedAt) ← .perform (.receive copy)
  (consume { body := some envelope, attempts } consumer).handle (consumerEffect C env copy receivedAt)

/-- A request, from the message ID that its caller made up to the answer. -/
def requestQueueSend (isolate : Nat) (input : NativeQueueEnvelope) (options : NativeQueueSendOptions) :
    QueueProgram Unit := do
  .perform (.request input.messageId)
  let answer ← queueSend C env isolate input options
  .perform (.respond input.messageId answer)

/-- What a party can set out to do. -/
inductive QueueTask
  | send (env : QueueWorkerEnv) (isolate : Nat) (envelope : NativeQueueEnvelope)
      (options : NativeQueueSendOptions)
  | consume (env : QueueWorkerEnv) (consumer : QueueConsumerEnv) (copy : Nat)
  | orphanAlarm (env : QueueWorkerEnv) (messageId : String)
  | claimAlarm (claimName : String)
  | deleteQueuePage (env : QueueWorkerEnv) (runId : String)
  | runCell (runId : String) (op : CellOp)
  | restart (isolate : Nat)
  | clock (now : Nat)

def QueueTask.program : QueueTask → QueueProgram Unit
  | .send env isolate envelope options => requestQueueSend C env isolate envelope options
  | .consume env consumer copy => consumeCopy C env consumer copy
  | .orphanAlarm env messageId => CelldWorld.orphanAlarm env messageId
  | .claimAlarm claimName => .perform (.expireQueueClaims claimName)
  | .deleteQueuePage env runId => CelldWorld.deleteQueuePage env runId
  | .runCell runId op => .perform (.runCell runId op)
  | .restart isolate => .perform (.restart isolate)
  | .clock now => .perform (.clock now)

/-- A transaction of a run cell that no party above makes. -/
def CellOp.isOther : CellOp → Bool
  | .queue _ | .executeCleanup _ (.queues ..) => false
  | _ => true

/-- What a queue client sends: the fields that the router and the consumer add are absent. -/
def NativeQueueEnvelope.ofClient (envelope : NativeQueueEnvelope) : Bool :=
  envelope.claimScope.isNone && envelope.deliveryFailures.isNone && envelope.suspensionCount.isNone

def QueueTask.starts : QueueTask → Bool
  | .send _ _ envelope _ => envelope.ofClient
  | .runCell _ op => op.isOther
  | _ => true

variable (W : WorldContract)

/-- Routers, consumers, alarms and run cells at work, in the runs that `admits` allows. -/
def queueFleet (admits : QueueWorld → {β : Type} → QueueEffect β → Bool) :
    System QueueEffect QueueTask Thrown QueueChoice QueueWorld where
  exec op choice world := op.exec W choice world
  program := QueueTask.program C
  spawns := QueueTask.starts
  admits := admits

/-- Every run is admitted. -/
def anyRun : QueueWorld → {β : Type} → QueueEffect β → Bool
  | _, _, _ => true

@[simp] theorem queueFleet_exec {C : QueueContract} {W : WorldContract}
    {admits : QueueWorld → {β : Type} → QueueEffect β → Bool} {α : Type} {op : QueueEffect α}
    {choice : QueueChoice}
    {world : QueueWorld} : (queueFleet C W admits).exec op choice world = op.exec W choice world := rfl

/-- Nothing has happened yet, and nobody is at work. -/
def queueStart (world : QueueWorld) : Pool QueueEffect Thrown QueueWorld := { state := world, threads := [] }

end CelldWorld
