import CelldWorld.QueueWorld
import CelldWorld.Library.Traces

namespace CelldWorld

open Interleaving

/-- What the queue code asks of `JSON`, `URL` and `TextEncoder`. -/
structure QueueContract where
  /-- `parseDeploymentUrls` of a setting that is not empty. -/
  parseDeploymentUrls : String → Except Thrown (List (String × String))
  /-- `runInput?.deploymentId` of a parsed body. -/
  initialDeploymentId : String → Except Thrown (Option Value)
  /-- The body parses to a record without any of the fields that carry user data. -/
  withoutUserData : String → Bool
  /-- The bytes of an envelope that is encoded as JSON. -/
  encodedBytes : NativeQueueEnvelope → Nat

/-- A contract whose `JSON` finds nothing. -/
def QueueContract.plain : QueueContract where
  parseDeploymentUrls _ := .ok []
  initialDeploymentId _ := .ok none
  withoutUserData _ := true
  encodedBytes _ := 0

/-- The bindings and settings of the primary worker; a binding is there or missing. -/
structure QueueWorkerEnv where
  WORKFLOW_DB : Bool := true
  WORKFLOW_QUEUE : Bool := true
  WORKFLOW_QUEUE_PAYLOADS : Bool := true
  WORLD_SECRET : Option String := none
  WORKFLOW_CALLBACK_SECRET : Option String := none
  WORKFLOW_DEPLOYMENT_URLS : Option String := none
  deriving DecidableEq, Repr

inductive QueueDeliveryResult
  | complete
  | suspend (timeoutSeconds : Nat)
  | retry
  deriving DecidableEq, Repr

def PERMANENT_QUEUE_STATUSES : List Nat := [404, 409, 410, 422]

def QueueCallback.ok (callback : QueueCallback) : Bool := 200 ≤ callback.status && callback.status ≤ 299

abbrev QueueProgram (α : Type) := Prog QueueEffect Thrown α

namespace QueueProgram
variable {α : Type}

/-- A remote operation that may throw. -/
def call (op : QueueEffect (Except Thrown α)) : QueueProgram α :=
  .remote (.call op .ofExcept)

/-- A remote operation that only a lost call makes throw. -/
def ask (op : QueueEffect α) : QueueProgram α :=
  .remote (.perform op)

/-- The claim of a message that has one. -/
def withClaim (claim : Option QueueClaimSite) (op : QueueClaimSite → QueueEffect (Except Thrown Unit)) :
    QueueProgram Unit :=
  match claim with
  | none => pure ()
  | some site => call (op site)

end QueueProgram

open QueueProgram

variable (C : QueueContract) (env : QueueWorkerEnv)

/-- No setting, or an empty one, is no mapping. -/
def parseDeploymentUrls : Except Thrown (Option (List (String × String))) :=
  match truthy env.WORKFLOW_DEPLOYMENT_URLS with
  | none => .ok none
  | some setting => (C.parseDeploymentUrls setting).map some

def configuredDeploymentUrl (urls : List (String × String)) (deploymentId : String) : Except Thrown String :=
  match urls.lookup deploymentId with
  | none => .error (.error s!"world-celld: no callback URL configured for deployment {deploymentId}")
  | some url => .ok url

/-- The deployment that a message that precedes `run_created` carries in its body. -/
def initialDeployment (body : Option String) : QueueProgram (Option Value) :=
  match body with
  | none => .throw (.typeError "undefined is not valid JSON")
  | some body => .ofExcept (C.initialDeploymentId body)

/-- The deployment that a delivery is pinned to: the stored run is authoritative. -/
def pinnedDeployment (runId : String) (stored : Option WorkflowRun) (initialId : Option Value) :
    Except Thrown String :=
  let pinnedId := match stored with
    | some run => some (Value.string run.deploymentId)
    | none => initialId
  match pinnedId with
  | some (.string pinned) =>
    if pinned = "" then .error (.error s!"world-celld: no pinned deployment for run {runId}")
    else if stored.isSome ∧ initialId.isSome ∧ initialId ≠ pinnedId then
      .error (.error s!"world-celld: queue run deployment hints disagree for {runId}")
    else .ok pinned
  | _ => .error (.error s!"world-celld: no pinned deployment for run {runId}")

/-- Where a delivery goes. -/
def deliveryBaseUrl (deploymentUrls : Option (List (String × String))) (envelope : NativeQueueEnvelope)
    (body : Option String) : QueueProgram String :=
  match deploymentUrls, truthy envelope.runId with
  | some urls, some runId => do
    match ← ask (.getRun runId) with
    | .error _ => .throw (.error "world-celld: cannot route an expired run")
    | .ok stored =>
      let initialId ← initialDeployment C body
      let pinnedId ← .ofExcept (pinnedDeployment runId stored initialId)
      .ofExcept (configuredDeploymentUrl urls pinnedId)
  | _, _ => pure envelope.targetBaseUrl

/-- The object of a delivered message is gone: nothing is left to expire. -/
def unregisterPayload (envelope : NativeQueueEnvelope) : QueueProgram Unit :=
  match truthy envelope.runId with
  | none => pure ()
  | some runId => do
    call (.unregisterQueuePayload runId envelope.messageId)
    call (.cancelQueuePayloadOrphan envelope.messageId)

/-- A run-bearing body carried inline has no payload object for retention to delete, so
the run cell answers whether the run has expired. -/
def deliveryAdmission (envelope : NativeQueueEnvelope) : QueueProgram QueueAdmission :=
  match truthy envelope.runId with
  | some runId =>
    if truthy envelope.payloadKey = none ∧ envelope.claimScope ≠ some "run" then ask (.getQueueAdmission runId)
    else pure .ok
  | none => pure .ok

/-- What a refused claim means for the message. -/
def refusedDelivery (retryAt : Option Nat) (now : Nat) : QueueDeliveryResult :=
  match retryAt with
  | some retryAt => if now < retryAt then .suspend (max 1 ((retryAt - now + 999) / 1000)) else .complete
  | none => .complete

/-- Take the in-flight claim, with the admission of an inline body alongside. -/
def claimDelivery (envelope : NativeQueueEnvelope) :
    QueueProgram (QueueDeliveryResult ⊕ Except Thrown QueueAdmission) :=
  match deliveryQueueClaim envelope with
  | none => .inr <$> (deliveryAdmission envelope).attempt
  | some site =>
    .fork (deliveryAdmission envelope) (call (.claim site envelope.messageId QUEUE_CLAIM_STALE_MS))
      fun admission claimed => match claimed with
        | .error error => .throw error
        -- A run-scoped claim of an expired run: same outcome as a deleted body.
        | .ok .expired => pure (.inl .complete)
        | .ok (.answered true _) => pure (.inr admission)
        | .ok (.answered false retryAt) => do
          let now ← .perform (.nowAfterRefusal site envelope.messageId retryAt)
          return .inl (refusedDelivery retryAt now)

/-- The object of an acknowledged message is deleted. -/
def deletePayload (envelope : NativeQueueEnvelope) : QueueProgram Unit :=
  match truthy envelope.payloadKey with
  | none => pure ()
  | some key => do
    ask (.deletePayloads .delivery [key])
    unregisterPayload envelope

/-- The object of a suspended message stays for as long as its replacement may. -/
def extendPayload (envelope : NativeQueueEnvelope) (notBefore : Nat) : QueueProgram Unit :=
  match truthy envelope.payloadKey, truthy envelope.runId with
  | some key, some runId =>
    call (.scheduleQueuePayloadOrphan
      { messageId := envelope.messageId, runId, key, expiresAt := notBefore + QUEUE_ORPHAN_GRACE_MS })
  | _, _ => pure ()

/-- Park the claim of a suspended message. -/
def holdClaim (envelope : NativeQueueEnvelope) (notBefore : Nat) : QueueProgram Unit :=
  match deliveryQueueClaim envelope with
  | none => pure ()
  | some site =>
    (fun _ => ()) <$> call (.hold site envelope.messageId notBefore (notBefore + QUEUE_CLAIM_STALE_MS)
      (some (notBefore + QUEUE_ORPHAN_GRACE_MS)))

/-- A `503` with a delay. -/
def suspendDelivery (envelope : NativeQueueEnvelope) (callback : QueueCallback) :
    QueueProgram QueueDeliveryResult := do
  let timeoutSeconds ← .ofExcept callback.timeoutSeconds
  let now ← .perform .now
  match queueDelayDeadline now timeoutSeconds 1 QUEUE_CLAIM_STALE_MS with
  | none => .throw (.error "workflow queue suspension deadline is invalid")
  | some notBefore =>
    extendPayload envelope notBefore
    holdClaim envelope notBefore
    return .suspend (timeoutSeconds.getD 0)

/-- The callback, and what its answer means for the message. -/
def callDelivery (envelope : NativeQueueEnvelope) (attempt : Nat) (body : Option String) :
    QueueProgram QueueDeliveryResult := do
  let claim := deliveryQueueClaim envelope
  let deploymentUrls ← .ofExcept (parseDeploymentUrls C env)
  let targetBaseUrl ← deliveryBaseUrl C deploymentUrls envelope body
  let callback ← ask (.fetch
    { url := (targetBaseUrl.dropSuffix "/").toString ++ "/.well-known/workflow/v1/flow"
      queueName := envelope.queueName
      messageId := envelope.messageId
      attempt
      callbackSecret := truthy env.WORKFLOW_CALLBACK_SECRET
      body })
  if callback.ok ∨ (callback.status ∈ PERMANENT_QUEUE_STATUSES ∧
      (deploymentUrls = none ∨ truthy envelope.runId = none)) then do
    deletePayload envelope
    -- Do not acknowledge until cleanup and completion are durably accepted.
    withClaim claim (.complete · envelope.messageId)
    return .complete
  else if callback.status = 503 then suspendDelivery envelope callback
  else do
    withClaim claim (.release · envelope.messageId)
    return .retry

/-- A delivery that holds its claim, or needs none. -/
def handleDelivery (envelope : NativeQueueEnvelope) (attempt : Nat) (admission : Except Thrown QueueAdmission) :
    QueueProgram QueueDeliveryResult := do
  let claim := deliveryQueueClaim envelope
  match ← .ofExcept admission with
  | .refused _ =>
    withClaim claim (.complete · envelope.messageId)
    return .complete
  | .ok =>
    match truthy envelope.payloadKey with
    | none => callDelivery C env envelope attempt envelope.body
    | some key =>
      if env.WORKFLOW_QUEUE_PAYLOADS = false then
        .throw (.error "missing binding: WORKFLOW_QUEUE_PAYLOADS")
      else match ← ask (.readPayload key) with
      | none =>
        unregisterPayload envelope
        withClaim claim (.complete · envelope.messageId)
        return .complete
      | some body => callDelivery C env envelope attempt (some body)

/-- `deliverQueueMessage`, of an envelope and an attempt that are valid. -/
def deliverEnvelope (envelope : NativeQueueEnvelope) (attempt : Nat) : QueueProgram QueueDeliveryResult := do
  match ← claimDelivery envelope with
  | .inl result => return result
  | .inr admission =>
    match ← (handleDelivery C env envelope attempt admission).attempt with
    | .ok result => return result
    | .error error =>
      -- A failed read, callback, or cleanup must not turn into an acknowledgement.
      withClaim (deliveryQueueClaim envelope) (.release · envelope.messageId)
      .throw error

/-- Validate at the service boundary; callers cannot bypass auth via RPC. -/
def deliverQueueMessage (secret : Option String) (input : NativeQueueEnvelope) (attempt : Nat) :
    QueueProgram QueueDeliveryResult :=
  match truthy env.WORLD_SECRET with
  | none => .throw (.error "WORLD_SECRET is not configured")
  | some worldSecret =>
    if truthy secret ≠ some worldSecret then .throw (.error "Unauthorized Queue delivery")
    else match validateNativeQueueEnvelope input with
    | .error error => .throw error
    | .ok envelope =>
      if attempt < 1 ∨ MAX_SAFE_INTEGER < attempt then
        .throw (.typeError "queue delivery attempt must be a positive safe integer")
      else if env.WORKFLOW_DB = false then .throw (.error "missing binding: WORKFLOW_DB")
      else deliverEnvelope C env envelope attempt

/-- What a delivery does once it has its claim. -/
def QueueEffect.settles {α : Type} : QueueEffect α → Prop
  | .now | .fetch _ | .getRun _ | .readPayload _ | .deletePayloads .delivery _ | .unregisterQueuePayload .. |
    .scheduleQueuePayloadOrphan _ | .cancelQueuePayloadOrphan _ | .hold .. | .release .. | .complete .. => True
  | _ => False

section Kinds
variable {C : QueueContract} {env : QueueWorkerEnv} {envelope : NativeQueueEnvelope} {attempt : Nat}

theorem withClaim_only {kind : {β : Type} → QueueEffect β → Prop} {claim : Option QueueClaimSite}
    {op : QueueClaimSite → QueueEffect (Except Thrown Unit)} (holds : ∀ site, kind (op site)) :
    (withClaim claim op).Only @kind := by
  cases claim with
  | none => trivial
  | some site => exact .remote ⟨holds site, fun _ => .ofExcept⟩

theorem unregisterPayload_only : (unregisterPayload envelope).Only QueueEffect.settles := by
  unfold unregisterPayload
  split
  · trivial
  · exact .bind (.remote ⟨trivial, fun _ => .ofExcept⟩) fun _ => .remote ⟨trivial, fun _ => .ofExcept⟩

theorem deliveryBaseUrl_only {urls : Option (List (String × String))} {body : Option String} :
    (deliveryBaseUrl C urls envelope body).Only QueueEffect.settles := by
  unfold deliveryBaseUrl
  split
  · refine .bind (.remote ⟨trivial, fun _ => trivial⟩) fun stored => ?_
    split
    · trivial
    · refine .bind ?_ fun initialId => .bind .ofExcept fun pinnedId => .ofExcept
      unfold initialDeployment
      split
      · trivial
      · exact .ofExcept
  · trivial

theorem deletePayload_only : (deletePayload envelope).Only QueueEffect.settles := by
  unfold deletePayload
  split
  · trivial
  · exact .bind (.remote ⟨trivial, fun _ => trivial⟩) fun _ => unregisterPayload_only

theorem suspendDelivery_only {callback : QueueCallback} :
    (suspendDelivery envelope callback).Only QueueEffect.settles := by
  unfold suspendDelivery
  refine .bind .ofExcept fun timeoutSeconds => .bind ⟨trivial, fun _ => trivial⟩ fun now => ?_
  split
  · trivial
  rename_i notBefore _
  have extends_only : (extendPayload envelope notBefore).Only QueueEffect.settles := by
    unfold extendPayload
    split
    · exact .remote ⟨trivial, fun _ => .ofExcept⟩
    · trivial
  have holds_only : (holdClaim envelope notBefore).Only QueueEffect.settles := by
    unfold holdClaim
    split
    · trivial
    · exact .bind (.remote ⟨trivial, fun _ => .ofExcept⟩) fun _ => trivial
  exact .bind extends_only fun _ => .bind holds_only fun _ => trivial

theorem callDelivery_only {body : Option String} :
    (callDelivery C env envelope attempt body).Only QueueEffect.settles := by
  unfold callDelivery
  refine .bind .ofExcept fun urls => .bind deliveryBaseUrl_only fun url =>
    .bind (.remote ⟨trivial, fun _ => trivial⟩) fun callback => ?_
  have completes_only : (do
      deletePayload envelope
      withClaim (deliveryQueueClaim envelope) (.complete · envelope.messageId)
      return .complete : QueueProgram QueueDeliveryResult).Only QueueEffect.settles :=
    .bind deletePayload_only fun _ => .bind (withClaim_only fun _ => trivial) fun _ => trivial
  have retries_only : (do
      withClaim (deliveryQueueClaim envelope) (.release · envelope.messageId)
      return .retry : QueueProgram QueueDeliveryResult).Only QueueEffect.settles :=
    .bind (withClaim_only fun _ => trivial) fun _ => trivial
  split
  · exact completes_only
  · split
    · exact suspendDelivery_only
    · exact retries_only

theorem handleDelivery_only {admission : Except Thrown QueueAdmission} :
    (handleDelivery C env envelope attempt admission).Only QueueEffect.settles := by
  unfold handleDelivery
  refine .bind .ofExcept fun admission => ?_
  split
  · exact .bind (withClaim_only fun _ => trivial) fun _ => trivial
  · split
    · exact callDelivery_only
    · split
      · trivial
      · refine .bind (.remote ⟨trivial, fun _ => trivial⟩) fun payload => ?_
        split
        · exact .bind unregisterPayload_only fun _ => .bind (withClaim_only fun _ => trivial) fun _ => trivial
        · exact callDelivery_only


/-- What a delivery does. -/
def QueueEffect.delivers {α : Type} (op : QueueEffect α) : Prop :=
  op.settles ∨ match op with
    | .getQueueAdmission _ | .claim .. | .nowAfterRefusal .. => True
    | _ => False

theorem deliverQueueMessage_only {secret : Option String} {input : NativeQueueEnvelope} :
    (deliverQueueMessage C env secret input attempt).Only QueueEffect.delivers := by
  have admits (envelope : NativeQueueEnvelope) : (deliveryAdmission envelope).Only QueueEffect.delivers := by
    unfold deliveryAdmission
    split
    · split
      · exact .remote (.perform (.inr trivial))
      · trivial
    · trivial
  have claims (envelope : NativeQueueEnvelope) : (claimDelivery envelope).Only QueueEffect.delivers := by
    unfold claimDelivery
    split
    · exact .bind (admits envelope).attempt fun _ => trivial
    refine ⟨admits envelope, .remote ⟨.inr trivial, fun _ => .ofExcept⟩, fun admission claimed => ?_⟩
    rcases claimed with error | expired | ⟨_ | _, retryAt⟩
    · trivial
    · trivial
    · exact .bind (.perform (.inr trivial)) fun _ => trivial
    · trivial
  unfold deliverQueueMessage
  repeat' split
  all_goals first | trivial | skip
  rename_i envelope _ _ _
  unfold deliverEnvelope
  refine .bind (claims envelope) fun taken => ?_
  split
  · trivial
  refine .bind (handleDelivery_only.imp .inl).attempt fun handled => ?_
  split
  · trivial
  · have releases : (withClaim (deliveryQueueClaim envelope) (.release · envelope.messageId)).Only
        QueueEffect.settles :=
      withClaim_only fun _ => trivial
    exact .bind (releases.imp .inl) fun _ => trivial

end Kinds

end CelldWorld
