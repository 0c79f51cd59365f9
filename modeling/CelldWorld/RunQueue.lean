import CelldWorld.RunCell

namespace CelldWorld

def QUEUE_RESERVATION_GRACE_MS : Nat := 5 * 24 * 60 * 60 * 1000

/-- Does the run still take queue messages? -/
inductive QueueAdmission
  | ok
  | refused (message : String)
  deriving DecidableEq, Repr

/-- The enqueue-side answer of a run cell. `cell`: the run predates run-scoped claims. -/
inductive RunQueueReservation
  | refused (message : String)
  | cell
  | run (admitted : Bool) (messageId : String) (publicationPending : Bool)
  deriving DecidableEq, Repr

/-- The delivery-side answer of a run cell. -/
inductive RunQueueClaim
  | expired
  | answered (claimed : Bool) (retryAt : Option Nat)
  deriving DecidableEq, Repr

structure ReserveRunQueueRequest where
  claimName : String
  messageId : String
  expiresAt : Nat
  publicationPending : Bool
  deriving DecidableEq, Repr

structure HoldRunQueueRequest where
  claimName : String
  messageId : String
  retryAt : Nat
  expiresAt : Nat
  reservationExpiresAt : Option Nat
  deriving DecidableEq, Repr

def validRunQueueClaimName (claimName : String) : Bool :=
  claimName.startsWith "claim:"

namespace RunStore
variable (store : RunStore)

def putQueueClaim (claimName : String) (state : RunQueueClaimState) : RunStore :=
  { store with queueClaims := store.queueClaims.insert claimName state }

/-- Keep what is left of a claim state, or delete its key. -/
def keepQueueClaim (claimName : String) (state : RunQueueClaimState) : RunStore :=
  if state.reservation.isSome ∨ state.claim.isSome then store.putQueueClaim claimName state
  else { store with queueClaims := store.queueClaims.erase claimName }

def queueClaim (claimName : String) : RunQueueClaimState :=
  store.queueClaims[claimName]?.getD {}

end RunStore

namespace WorkflowRunDO
variable (now : Nat)

def queueRefusal (tombstone : RunTombstone) : String :=
  s!"Workflow run \"{tombstone.runId}\" expired at {toISOString tombstone.expiredAt}"

/-- Read-only admission for a message whose body travels inline. -/
def getQueueAdmission (store : RunStore) : QueueAdmission :=
  match store.tombstoneFrom now with
  | some tombstone => .refused (queueRefusal tombstone)
  | none => .ok

/-- Enqueue-side admission and idempotency reservation for a run-scoped claim. -/
def reserveRunQueueMessage (request : ReserveRunQueueRequest) (store : RunStore) :
    Except Thrown (RunQueueReservation × RunStore) :=
  if validRunQueueClaimName request.claimName = false ∨ request.messageId = "" ∨
      MAX_SAFE_INTEGER < request.expiresAt then
    .error (.typeError "world-celld run queue reservation is invalid")
  else match store.tombstoneFrom now with
  | some tombstone => .ok (.refused (queueRefusal tombstone), store)
  | none =>
    if store.queueClaimScope ≠ some "run" then .ok (.cell, store)
    else
      let state := store.queueClaim request.claimName
      match state.reservation.filter fun existing => now < existing.expiresAt ∧
          (existing.messageId ≠ request.messageId ∨ request.publicationPending) with
      | some existing => .ok (.run false existing.messageId existing.publicationPending, store)
      | none =>
        let reservation : QueueMessageReservation :=
          { messageId := request.messageId
            expiresAt := max ((state.reservation.map (·.expiresAt)).getD 0) request.expiresAt
            publicationPending := request.publicationPending }
        .ok (.run true request.messageId false,
          store.putQueueClaim request.claimName { state with reservation := some reservation })

def confirmRunQueueMessagePublication (claimName messageId : String) (expiresAt : Nat)
    (store : RunStore) : Except Thrown RunStore :=
  if validRunQueueClaimName claimName = false ∨ messageId = "" ∨ MAX_SAFE_INTEGER < expiresAt then
    .error (.typeError "world-celld run queue publication confirmation is invalid")
  else match store.queueClaims[claimName]? with
  | none => .ok store
  | some state =>
    match state.reservation.filter (·.messageId = messageId) with
    | none => .ok store
    | some reservation => .ok (store.putQueueClaim claimName { state with
        reservation := some { messageId, expiresAt := max reservation.expiresAt expiresAt } })

/-- A delivery proves the publication that its producer never confirmed. -/
def provePublication (messageId : String) (state : RunQueueClaimState) : RunQueueClaimState :=
  { state with reservation := state.reservation.map fun reservation =>
      if reservation.publicationPending ∧ reservation.messageId = messageId then
        { messageId, expiresAt := max reservation.expiresAt (now + QUEUE_RESERVATION_GRACE_MS) }
      else reservation }

/-- Delivery-side run expiry check and in-flight claim. -/
def claimRunQueueMessage (claimName messageId : String) (staleMs : Nat) (store : RunStore) :
    Except Thrown (RunQueueClaim × RunStore) :=
  if validRunQueueClaimName claimName = false ∨ messageId = "" ∨ staleMs = 0 ∨
      MAX_SAFE_INTEGER < staleMs then
    .error (.typeError "world-celld run queue claim is invalid")
  else if (store.tombstoneFrom now).isSome then .ok (.expired, store)
  else
    let read := store.queueClaim claimName
    let state := provePublication now messageId read
    let proved := if state = read then store else store.putQueueClaim claimName state
    let granted := store.putQueueClaim claimName
      { state with claim := some { messageId, expiresAt := now + staleMs } }
    match state.claim.filter (now < ·.expiresAt) with
    | none => .ok (.answered true none, granted)
    | some existing =>
      if existing.messageId ≠ messageId then .ok (.answered false none, proved)
      else if existing.retryAt.all (now < ·) then
        .ok (.answered false (some (existing.retryAt.getD existing.expiresAt)), proved)
      else .ok (.answered true none, granted)

/-- Park the claim of a suspended message until its redelivery. -/
def holdRunQueueMessage (request : HoldRunQueueRequest) (store : RunStore) :
    Except Thrown (Bool × RunStore) :=
  if validRunQueueClaimName request.claimName = false ∨ request.messageId = "" ∨
      MAX_SAFE_INTEGER < request.retryAt ∨ MAX_SAFE_INTEGER < request.expiresAt ∨
      request.reservationExpiresAt.any (MAX_SAFE_INTEGER < ·) then
    .error (.typeError "world-celld run queue claim hold is invalid")
  else
    let state := store.queueClaim request.claimName
    match state.claim.filter (·.messageId = request.messageId) with
    | none => .ok (false, store)
    | some existing => .ok (true, store.putQueueClaim request.claimName
        { claim := some { existing with
            retryAt := some request.retryAt
            expiresAt := max existing.expiresAt request.expiresAt }
          reservation := state.reservation.map fun reservation =>
            match request.reservationExpiresAt with
            | some expiresAt =>
              if reservation.messageId = request.messageId ∧ reservation.expiresAt < expiresAt then
                { reservation with expiresAt }
              else reservation
            | none => reservation })

def releaseRunQueueMessage (claimName messageId : String) (store : RunStore) :
    Except Thrown RunStore :=
  if validRunQueueClaimName claimName = false then
    .error (.typeError "world-celld run queue claim release is invalid")
  else match store.queueClaims[claimName]? with
  | none => .ok store
  | some state =>
    if state.claim.any (·.messageId = messageId) then
      .ok (store.keepQueueClaim claimName { state with claim := none })
    else .ok store

def completeRunQueueMessage (claimName messageId : String) (store : RunStore) :
    Except Thrown RunStore :=
  if validRunQueueClaimName claimName = false then
    .error (.typeError "world-celld run queue completion is invalid")
  else match store.queueClaims[claimName]? with
  | none => .ok store
  | some state => .ok (store.keepQueueClaim claimName
      { reservation := state.reservation.filter (·.messageId ≠ messageId)
        claim := state.claim.filter (·.messageId ≠ messageId) })

/-- Failed enqueue cleanup keeps a delivery the broker already accepted. -/
def abandonRunQueueMessageReservation (claimName messageId : String) (store : RunStore) :
    Except Thrown RunStore :=
  if validRunQueueClaimName claimName = false ∨ messageId = "" then
    .error (.typeError "world-celld run queue reservation abandonment is invalid")
  else match store.queueClaims[claimName]? with
  | none => .ok store
  | some state =>
    if state.reservation.any (·.messageId = messageId) then
      .ok (store.keepQueueClaim claimName { state with reservation := none })
    else .ok store

def registerQueuePayload (registration : QueuePayloadRegistration) (store : RunStore) :
    Except Thrown (QueueAdmission × RunStore) :=
  if registration.messageId = "" ∨ registration.key = "" ∨
      MAX_SAFE_INTEGER < registration.orphanExpiresAt then
    .error (.typeError "world-celld queue payload registration is invalid")
  else match store.tombstoneFrom now with
  | some tombstone => .ok (.refused (queueRefusal tombstone), store)
  | none => .ok (.ok, { store with
      queuePayloads := store.queuePayloads.insert registration.messageId registration })

def finalizeQueuePayload (messageId : String) (store : RunStore) : Except Thrown QueueAdmission :=
  if messageId = "" then
    .error (.typeError "world-celld queue payload messageId must be a non-empty string")
  else match store.tombstoneFrom now with
  | some tombstone => .ok (.refused (queueRefusal tombstone))
  | none =>
    if store.queuePayloads[messageId]?.isSome then .ok .ok
    else .ok (.refused "workflow queue payload registration was removed before publication")

def unregisterQueuePayload (messageId : String) (store : RunStore) : Except Thrown RunStore :=
  if messageId = "" then
    .error (.typeError "world-celld queue payload messageId must be a non-empty string")
  else .ok { store with queuePayloads := store.queuePayloads.erase messageId }

end WorkflowRunDO

/-- One transaction of the run's queue claims and payload registrations. -/
inductive QueueOp
  | reserve (request : ReserveRunQueueRequest)
  | confirmPublication (claimName messageId : String) (expiresAt : Nat)
  | claim (claimName messageId : String) (staleMs : Nat)
  | hold (request : HoldRunQueueRequest)
  | release (claimName messageId : String)
  | complete (claimName messageId : String)
  | abandonReservation (claimName messageId : String)
  | registerPayload (registration : QueuePayloadRegistration)
  | unregisterPayload (messageId : String)
  deriving DecidableEq, Repr

/-- The store after a transaction; a thrown error rolls it back. -/
def QueueOp.run (now : Nat) (op : QueueOp) (store : RunStore) : RunStore :=
  let unit (body : Except Thrown RunStore) := transaction store (body.map fun after => ((), after))
  match op with
  | .reserve request => transaction store (WorkflowRunDO.reserveRunQueueMessage now request store)
  | .confirmPublication claimName messageId expiresAt =>
      unit (WorkflowRunDO.confirmRunQueueMessagePublication claimName messageId expiresAt store)
  | .claim claimName messageId staleMs =>
      transaction store (WorkflowRunDO.claimRunQueueMessage now claimName messageId staleMs store)
  | .hold request => transaction store (WorkflowRunDO.holdRunQueueMessage request store)
  | .release claimName messageId =>
      unit (WorkflowRunDO.releaseRunQueueMessage claimName messageId store)
  | .complete claimName messageId =>
      unit (WorkflowRunDO.completeRunQueueMessage claimName messageId store)
  | .abandonReservation claimName messageId =>
      unit (WorkflowRunDO.abandonRunQueueMessageReservation claimName messageId store)
  | .registerPayload registration =>
      transaction store (WorkflowRunDO.registerQueuePayload now registration store)
  | .unregisterPayload messageId => unit (WorkflowRunDO.unregisterQueuePayload messageId store)

namespace QueueOp
variable {now : Nat} {store : RunStore}

/-- The two key prefixes that queue transactions write. -/
def Writes (before after : RunStore) : Prop :=
  ∃ queueClaims queuePayloads, after = { before with queueClaims, queuePayloads }

theorem Writes.refl : Writes store store := ⟨_, _, rfl⟩

theorem putQueueClaim_writes {claimName : String} {state : RunQueueClaimState} :
    Writes store (store.putQueueClaim claimName state) := ⟨_, _, rfl⟩

theorem keepQueueClaim_writes {claimName : String} {state : RunQueueClaimState} :
    Writes store (store.keepQueueClaim claimName state) := by
  unfold RunStore.keepQueueClaim
  split
  · exact putQueueClaim_writes
  · exact ⟨_, _, rfl⟩

theorem transaction_writes {α : Type} {body : Except Thrown (α × RunStore)}
    (writes : ∀ answer after, body = .ok (answer, after) → Writes store after) :
    Writes store (transaction store body) := by
  cases body with
  | error thrown => exact .refl
  | ok result => exact writes result.1 result.2 rfl

theorem unit_writes {body : Except Thrown RunStore}
    (writes : ∀ after, body = .ok after → Writes store after) :
    Writes store (transaction store (body.map fun after => ((), after))) := by
  cases body with
  | error thrown => exact .refl
  | ok after => exact writes after rfl

/-- A queue transaction touches claims and registrations only. -/
theorem run_writes (op : QueueOp) : Writes store (op.run now store) := by
  cases op with
  | reserve request =>
    refine transaction_writes fun answer after call => ?_
    unfold WorkflowRunDO.reserveRunQueueMessage at call
    split at call
    · cases call
    split at call
    · cases call
      exact .refl
    split at call
    · cases call
      exact .refl
    simp only at call
    split at call
    · cases call
      exact .refl
    · cases call
      exact putQueueClaim_writes
  | confirmPublication claimName messageId expiresAt =>
    refine unit_writes fun after call => ?_
    unfold WorkflowRunDO.confirmRunQueueMessagePublication at call
    repeat' split at call
    all_goals cases call
    · exact .refl
    · exact .refl
    · exact putQueueClaim_writes
  | claim claimName messageId staleMs =>
    refine transaction_writes fun answer after call => ?_
    unfold WorkflowRunDO.claimRunQueueMessage at call
    simp only at call
    repeat' split at call
    all_goals cases call
    · exact .refl
    · exact putQueueClaim_writes
    · exact .refl
    · exact putQueueClaim_writes
    · exact .refl
    · exact putQueueClaim_writes
    · exact putQueueClaim_writes
  | hold request =>
    refine transaction_writes fun answer after call => ?_
    unfold WorkflowRunDO.holdRunQueueMessage at call
    split at call
    · cases call
    simp only at call
    split at call
    · cases call
      exact .refl
    · cases call
      exact putQueueClaim_writes
  | release claimName messageId =>
    refine unit_writes fun after call => ?_
    unfold WorkflowRunDO.releaseRunQueueMessage at call
    repeat' split at call
    all_goals cases call
    · exact .refl
    · exact keepQueueClaim_writes
    · exact .refl
  | complete claimName messageId =>
    refine unit_writes fun after call => ?_
    unfold WorkflowRunDO.completeRunQueueMessage at call
    repeat' split at call
    all_goals cases call
    · exact .refl
    · exact keepQueueClaim_writes
  | abandonReservation claimName messageId =>
    refine unit_writes fun after call => ?_
    unfold WorkflowRunDO.abandonRunQueueMessageReservation at call
    repeat' split at call
    all_goals cases call
    · exact .refl
    · exact keepQueueClaim_writes
    · exact .refl
  | registerPayload registration =>
    refine transaction_writes fun answer after call => ?_
    unfold WorkflowRunDO.registerQueuePayload at call
    repeat' split at call
    all_goals cases call
    · exact .refl
    · exact ⟨_, _, rfl⟩
  | unregisterPayload messageId =>
    refine unit_writes fun after call => ?_
    unfold WorkflowRunDO.unregisterQueuePayload at call
    split at call
    all_goals cases call
    exact ⟨_, _, rfl⟩

end QueueOp

end CelldWorld
