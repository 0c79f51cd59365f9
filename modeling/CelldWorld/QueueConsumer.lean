import CelldWorld.QueueDelivery

namespace CelldWorld

open Interleaving

/-- A message as the broker hands it to the consumer; its body is none unless it is the
JSON of an envelope's fields. -/
structure NativeQueueMessage where
  body : Option NativeQueueEnvelope
  attempts : Nat
  deriving DecidableEq, Repr

structure QueueConsumerEnv where
  WORLD_SECRET : Option String := none
  deriving DecidableEq, Repr

/-- What the consumer does besides computing: `Date.now()`, its two bindings, and the
answer to the broker. -/
inductive ConsumerEffect : Type → Type
  | now : ConsumerEffect Nat
  | send (envelope : NativeQueueEnvelope) (delaySeconds : Nat) : ConsumerEffect (Except Thrown Unit)
  | deliver (secret : String) (envelope : NativeQueueEnvelope) (attempt : Nat) :
      ConsumerEffect (Except Thrown QueueDeliveryResult)
  | ack : ConsumerEffect Unit
  | retry (delaySeconds : Nat) : ConsumerEffect Unit

abbrev ConsumerProgram (α : Type) := Prog ConsumerEffect Thrown α

def backoffSeconds (attempt : Nat) : Nat := min 60 (2 ^ min attempt 30)

/-- Send an envelope on and acknowledge the message that it replaces, or have that one
delivered again. -/
def replaceMessage (envelope : NativeQueueEnvelope) (now attempt : Nat) : ConsumerProgram Unit := do
  match ← .perform (.send envelope (nativeQueueDelaySeconds envelope.notBefore now)) with
  | .ok _ => .perform .ack
  | .error _ => .perform (.retry (backoffSeconds attempt))

/-- The replacement of a suspended message, if its suspension is accepted. -/
def suspendedEnvelope (envelope : NativeQueueEnvelope) (now timeoutSeconds attempt : Nat) :
    Option NativeQueueEnvelope :=
  let suspensionCount := envelope.suspensionCount.getD 0 + 1
  match queueDelayDeadline now (some timeoutSeconds) 1 QUEUE_CLAIM_STALE_MS with
  | none => none
  | some notBefore =>
    if suspensionCount ≤ MAX_QUEUE_SUSPENSIONS then
      some { envelope with
        notBefore := some notBefore
        deliveryFailures := some (attempt - 1)
        suspensionCount := some suspensionCount }
    else none

/-- A delivery of the message, and the answer to the broker. -/
def deliverMessage (secret : String) (envelope : NativeQueueEnvelope) (attempt : Nat) : ConsumerProgram Unit := do
  match ← .perform (.deliver secret envelope attempt) with
  | .error _ => .perform (.retry (backoffSeconds attempt))
  | .ok .complete => .perform .ack
  | .ok .retry => .perform (.retry (backoffSeconds attempt))
  | .ok (.suspend timeoutSeconds) =>
    let now ← .perform .now
    match suspendedEnvelope envelope now timeoutSeconds attempt with
    | none => .perform (.retry (backoffSeconds attempt))
    | some replacement =>
      let now ← .perform .now
      replaceMessage replacement now attempt

def consume (message : NativeQueueMessage) (env : QueueConsumerEnv) : ConsumerProgram Unit :=
  match message.body.map validateNativeQueueEnvelope with
  | none | some (.error _) => .perform (.retry (backoffSeconds message.attempts))
  | some (.ok envelope) => do
    let now ← .perform .now
    if envelope.notBefore.any (now < ·) then
      -- The broker delays a message by a day at most: go on with what remains.
      replaceMessage envelope now message.attempts
    else
      let attempt := envelope.deliveryFailures.getD 0 + message.attempts
      match truthy env.WORLD_SECRET with
      | none => .perform (.retry (backoffSeconds attempt))
      | some secret => deliverMessage secret envelope attempt

end CelldWorld
