import CelldWorld.Spec.QueueClaims

namespace CelldWorld

/-- The storage of one claim cell, and its alarm. -/
structure QueueCell where
  /-- `queue-reservation` -/
  reservation : Option QueueMessageReservation := none
  /-- `claim` -/
  claim : Option InflightClaim := none
  alarm : Option Nat := none
  deriving DecidableEq, Repr

/-- The earlier deadline of what the cell keeps; without one there is no alarm. -/
def nextClaimAlarm (reservation : Option QueueMessageReservation) (claim : Option InflightClaim) : Option Nat :=
  match reservation, claim with
  | some reservation, some claim => some (min reservation.expiresAt claim.expiresAt)
  | some reservation, none => some reservation.expiresAt
  | none, some claim => some claim.expiresAt
  | none, none => none

/-- Keep a reservation and a claim, and arm the alarm for the earlier deadline. -/
def QueueCell.armed (reservation : Option QueueMessageReservation) (claim : Option InflightClaim) : QueueCell :=
  { reservation, claim, alarm := nextClaimAlarm reservation claim }

namespace WorkflowRunDO
variable (now : Nat)

def reserveQueueMessage (messageId : String) (expiresAt : Nat) (publicationPending : Bool) (cell : QueueCell) :
    Except Thrown ((Bool × String × Bool) × QueueCell) :=
  if messageId = "" ∨ MAX_SAFE_INTEGER < expiresAt then
    .error (.typeError "world-celld queue message reservation is invalid")
  else match cell.reservation.filter fun existing => now < existing.expiresAt ∧
      (existing.messageId ≠ messageId ∨ publicationPending) with
    | some existing =>
      .ok ((false, existing.messageId, existing.publicationPending), .armed cell.reservation cell.claim)
    | none =>
      let reservation : QueueMessageReservation :=
        { messageId
          expiresAt := max ((cell.reservation.map (·.expiresAt)).getD 0) expiresAt
          publicationPending }
      .ok ((true, messageId, false), .armed (some reservation) cell.claim)

def confirmQueueMessagePublication (messageId : String) (expiresAt : Nat) (cell : QueueCell) :
    Except Thrown QueueCell :=
  if messageId = "" ∨ MAX_SAFE_INTEGER < expiresAt then
    .error (.typeError "world-celld queue publication confirmation is invalid")
  else match cell.reservation.filter (·.messageId = messageId) with
    | none => .ok cell
    | some existing =>
      .ok (.armed (some { messageId, expiresAt := max existing.expiresAt expiresAt }) cell.claim)

def completeQueueMessage (messageId : String) (cell : QueueCell) : Except Thrown QueueCell :=
  if messageId = "" then .error (.typeError "world-celld queue messageId must be a non-empty string")
  else .ok (.armed (cell.reservation.filter (·.messageId ≠ messageId))
    (cell.claim.filter (·.messageId ≠ messageId)))

/-- Abandon the enqueue reservation without releasing an active delivery claim. -/
def abandonQueueMessageReservation (messageId : String) (cell : QueueCell) : Except Thrown QueueCell :=
  if messageId = "" then
    .error (.typeError "world-celld queue reservation messageId must be a non-empty string")
  else if cell.reservation.any (·.messageId = messageId) then .ok (.armed none cell.claim)
  else .ok cell

def claimInflight (messageId : String) (staleMs : Nat) (cell : QueueCell) :
    Except Thrown ((Bool × Option Nat) × QueueCell) :=
  if messageId = "" ∨ staleMs = 0 ∨ MAX_SAFE_INTEGER < staleMs then
    .error (.typeError "world-celld queue claim is invalid")
  else
    let reservation := cell.reservation.map fun reservation =>
      if reservation.publicationPending ∧ reservation.messageId = messageId then
        { messageId, expiresAt := max reservation.expiresAt (now + QUEUE_RESERVATION_GRACE_MS) }
      else reservation
    let granted : QueueCell := .armed reservation (some { messageId, expiresAt := now + staleMs })
    match cell.claim.filter (now < ·.expiresAt) with
    | none => .ok ((true, none), granted)
    | some existing =>
      if existing.messageId ≠ messageId then .ok ((false, none), { cell with reservation })
      else if existing.retryAt.all (now < ·) then
        .ok ((false, some (existing.retryAt.getD existing.expiresAt)), { cell with reservation })
      else .ok ((true, none), granted)

def holdInflight (messageId : String) (retryAt expiresAt : Nat) (reservationExpiresAt : Option Nat)
    (cell : QueueCell) : Except Thrown (Bool × QueueCell) :=
  if messageId = "" ∨ MAX_SAFE_INTEGER < retryAt ∨ MAX_SAFE_INTEGER < expiresAt ∨
      reservationExpiresAt.any (MAX_SAFE_INTEGER < ·) then
    .error (.typeError "world-celld queue claim hold is invalid")
  else match cell.claim.filter (·.messageId = messageId) with
    | none => .ok (false, cell)
    | some existing =>
      let reservation := cell.reservation.map fun reservation =>
        match reservationExpiresAt with
        | some expiresAt =>
          if reservation.messageId = messageId ∧ reservation.expiresAt < expiresAt then
            { reservation with expiresAt }
          else reservation
        | none => reservation
      .ok (true, .armed reservation
        (some { existing with retryAt := some retryAt, expiresAt := max existing.expiresAt expiresAt }))

/-- Without a message, whatever claim there is. -/
def releaseInflight (messageId : Option String) (cell : QueueCell) : QueueCell :=
  match cell.claim with
  | none => cell
  | some existing =>
    if messageId.any (existing.messageId ≠ ·) then cell else .armed cell.reservation none

/-- `executeScheduledCleanupPage` of a claim cell. -/
def expireQueueClaims (cell : QueueCell) : QueueCell :=
  .armed (cell.reservation.filter (now < ·.expiresAt)) (cell.claim.filter (now < ·.expiresAt))

end WorkflowRunDO

namespace QueueClaimCall
open WorkflowRunDO
variable (now : Nat)

/-- A transaction that throws leaves its cell as it was. -/
def answered {σ α : Type} (store : σ) (answer : α → QueueClaimAnswer) :
    Except Thrown (α × σ) → QueueClaimAnswer × σ
  | .error _ => (.refused, store)
  | .ok (result, after) => (answer result, after)

def settled {σ : Type} (store : σ) : Except Thrown σ → QueueClaimAnswer × σ
  | .error _ => (.refused, store)
  | .ok after => (.done, after)

/-- `cellQueueClaim`, with the reservation of the enqueue. -/
def cellScoped (call : QueueClaimCall) (cell : QueueCell) : QueueClaimAnswer × QueueCell :=
  match call with
  | .reserve messageId expiresAt publicationPending =>
    answered cell (fun (admitted, existing, pending) => .reserved admitted existing pending)
      (reserveQueueMessage now messageId expiresAt publicationPending cell)
  | .confirmPublication messageId expiresAt =>
    settled cell (confirmQueueMessagePublication messageId expiresAt cell)
  | .claim messageId staleMs =>
    answered cell (fun (claimed, retryAt) => .claimed claimed retryAt) (claimInflight now messageId staleMs cell)
  | .hold messageId retryAt expiresAt reservationExpiresAt =>
    answered cell .held (holdInflight messageId retryAt expiresAt reservationExpiresAt cell)
  | .release messageId => (.done, releaseInflight (some messageId) cell)
  | .complete messageId => settled cell (completeQueueMessage messageId cell)
  | .abandonReservation messageId => settled cell (abandonQueueMessageReservation messageId cell)

/-- `runQueueClaim`, with the reservation of the enqueue. -/
def runScoped (claimName : String) (call : QueueClaimCall) (store : RunStore) : QueueClaimAnswer × RunStore :=
  match call with
  | .reserve messageId expiresAt publicationPending =>
    answered store (fun reservation => match reservation with
      | .run admitted existing pending => .reserved admitted existing pending
      | .cell => .refused
      | .refused _ => .refused)
      (reserveRunQueueMessage now { claimName, messageId, expiresAt, publicationPending } store)
  | .confirmPublication messageId expiresAt =>
    settled store (confirmRunQueueMessagePublication claimName messageId expiresAt store)
  | .claim messageId staleMs =>
    answered store (fun claim => match claim with
      | .answered claimed retryAt => .claimed claimed retryAt
      | .expired => .refused)
      (claimRunQueueMessage now claimName messageId staleMs store)
  | .hold messageId retryAt expiresAt reservationExpiresAt =>
    answered store .held
      (holdRunQueueMessage { claimName, messageId, retryAt, expiresAt, reservationExpiresAt } store)
  | .release messageId => settled store (releaseRunQueueMessage claimName messageId store)
  | .complete messageId => settled store (completeRunQueueMessage claimName messageId store)
  | .abandonReservation messageId => settled store (abandonRunQueueMessageReservation claimName messageId store)

end QueueClaimCall

/-- One event of a claim cell. The alarm runs at any time from the one it is armed for on. -/
inductive QueueCellStep (now : Nat) : QueueClaimEvent → QueueCell → QueueCell → Prop
  | call {call : QueueClaimCall} {answer : QueueClaimAnswer} {before after : QueueCell} :
      call.cellScoped now before = (answer, after) → QueueCellStep now (.call call answer) before after
  | alarm {cell : QueueCell} {due : Nat} : cell.alarm = some due → due ≤ now →
      QueueCellStep now .lapse cell (WorkflowRunDO.expireQueueClaims now cell)

/-- One event of a run cell, as the claim of one key sees it. Anything else may happen to
the run between the calls. -/
inductive RunClaimStep (claimName : String) (now : Nat) : QueueClaimEvent → RunStore → RunStore → Prop
  | call {call : QueueClaimCall} {answer : QueueClaimAnswer} {before after : RunStore} :
      call.runScoped now claimName before = (answer, after) →
        RunClaimStep claimName now (.call call answer) before after
  | other {before after : RunStore} : after.queueClaims[claimName]? = before.queueClaims[claimName]? →
      RunClaimStep claimName now .lapse before after

/-- The claim that a claim cell keeps. -/
def QueueCell.kept (cell : QueueCell) :
    RunQueueClaimState := { reservation := cell.reservation, claim := cell.claim }

end CelldWorld
