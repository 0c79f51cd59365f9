import CelldWorld.QueueExclusion

namespace CelldWorld

def MAX_QUEUE_TIMESTAMP_MS : Nat := 9999999999999
def MAX_QUEUE_DELAY_SECONDS : Nat := MAX_QUEUE_TIMESTAMP_MS / 1000
def NATIVE_QUEUE_MAX_DELAY_SECONDS : Nat := 86400
def NATIVE_QUEUE_MAX_MESSAGE_BYTES : Nat := 128000
def MAX_QUEUE_SUSPENSIONS : Nat := 256
def QUEUE_PUBLICATION_LEASE_MS : Nat := 5 * 60 * 1000
def MAX_INLINE_RUN_BODY_BYTES : Nat := 8 * 1024
def QUEUE_CLAIM_STALE_MS : Nat := 15 * 60 * 1000
def QUEUE_ORPHAN_GRACE_MS : Nat := 5 * 24 * 60 * 60 * 1000
def QUEUE_ALARM_EDGE_MS : Nat := 1
def MAX_QUEUE_DERIVED_DEADLINE_HEADROOM_MS : Nat := QUEUE_CLAIM_STALE_MS + QUEUE_ALARM_EDGE_MS
def MAX_QUEUE_SCHEDULE_TIMESTAMP_MS : Nat :=
  MAX_QUEUE_TIMESTAMP_MS - MAX_QUEUE_DERIVED_DEADLINE_HEADROOM_MS

/-- The length of a string of the source, in UTF-16 code units. -/
def utf16Length (text : String) : Nat :=
  text.toList.foldl (fun length char => length + if char.toNat < 0x10000 then 1 else 2) 0

def hexDigit (digit : Nat) : Char :=
  if digit < 10 then Char.ofNat ('0'.toNat + digit) else Char.ofNat ('A'.toNat + (digit - 10))

/-- The characters that `encodeURIComponent` keeps. -/
def isUnreserved (char : Char) : Bool :=
  char.isAlphanum || "-_.!~*'()".toList.contains char

def encodeURIComponent (text : String) : String :=
  String.ofList (text.toList.flatMap fun char =>
    if isUnreserved char then [char]
    else char.toString.toUTF8.toList.flatMap fun byte =>
      ['%', hexDigit (byte.toNat / 16), hexDigit (byte.toNat % 16)])

def queuePayloadObjectKey (runId messageId : String) : String :=
  s!"workflow-queue/{encodeURIComponent runId}/{encodeURIComponent messageId}"

def queueClaimName (queueName idempotencyKey : String) : String :=
  s!"claim:{utf16Length queueName}:{queueName}:{idempotencyKey}"

/-- The message that native Queues carry: the body of a message of a run lies in object
storage, unless it is small and carries no user data. -/
structure NativeQueueEnvelope where
  version : Nat := 1
  messageId : String
  queueName : String
  targetBaseUrl : String
  runId : Option String := none
  idempotencyKey : Option String := none
  payloadKey : Option String := none
  body : Option String := none
  /-- Absolute workflow redelivery deadline; long waits are chained by the consumer. -/
  notBefore : Option Nat := none
  /-- Where the idempotency claim lives: absent, in its own claim cell. -/
  claimScope : Option String := none
  /-- Failed deliveries carried across suspension re-publishes. -/
  deliveryFailures : Option Nat := none
  suspensionCount : Option Nat := none
  deriving DecidableEq, Repr

structure NativeQueueSendOptions where
  delaySeconds : Option Nat := none
  deriving DecidableEq, Repr

def nativeQueueDelaySeconds (notBefore : Option Nat) (now : Nat) : Nat :=
  match notBefore with
  | none => 0
  | some notBefore =>
    if notBefore ≤ now then 0 else min NATIVE_QUEUE_MAX_DELAY_SECONDS ((notBefore - now + 999) / 1000)

/-- Add an offset to a queue timestamp, with room for a later deadline. -/
def checkedQueueTimestampAdd (timestampMs offsetMs requiredHeadroomMs : Nat) : Option Nat :=
  if MAX_QUEUE_TIMESTAMP_MS < timestampMs ∨ MAX_QUEUE_TIMESTAMP_MS - timestampMs < offsetMs then none
  else if requiredHeadroomMs ≤ MAX_QUEUE_TIMESTAMP_MS - (timestampMs + offsetMs) then
    some (timestampMs + offsetMs)
  else none

/-- A delay that is not a non-negative safe integer reads as none. -/
def queueDelayDeadline (now : Nat) (delaySeconds : Option Nat) (minimum requiredHeadroomMs : Nat) : Option Nat :=
  match delaySeconds with
  | none => none
  | some delaySeconds =>
    if now ≤ MAX_SAFE_INTEGER ∧ minimum ≤ delaySeconds ∧ delaySeconds ≤ MAX_QUEUE_DELAY_SECONDS then
      checkedQueueTimestampAdd now (delaySeconds * 1000) requiredHeadroomMs
    else none

def validateNativeQueueEnvelope (value : NativeQueueEnvelope) : Except Thrown NativeQueueEnvelope :=
  let strings := [("messageId", value.messageId), ("queueName", value.queueName),
    ("targetBaseUrl", value.targetBaseUrl)]
  let integers := [("notBefore", value.notBefore), ("deliveryFailures", value.deliveryFailures),
    ("suspensionCount", value.suspensionCount)]
  if value.version ≠ 1 then .error (.typeError "world-celld native queue envelope version must be 1")
  else match strings.find? (·.2 = "") with
  | some (field, _) =>
    .error (.typeError s!"world-celld native queue envelope {field} must be a non-empty string")
  | none =>
    if value.claimScope.any fun claimScope => claimScope ≠ "run" ∨ value.runId = none then
      .error (.typeError "world-celld native queue envelope claimScope must be 'run' with a runId")
    else if value.payloadKey.isNone = value.body.isNone then
      .error (.typeError "world-celld native queue envelope must contain exactly one payload source")
    else match integers.find? (·.2.any (MAX_SAFE_INTEGER < ·)) with
    | some (field, _) =>
      .error (.typeError s!"world-celld native queue envelope {field} must be a non-negative safe integer")
    | none =>
      if value.notBefore.any (MAX_QUEUE_SCHEDULE_TIMESTAMP_MS < ·) then
        .error (.typeError
          s!"world-celld native queue envelope notBefore must not exceed {MAX_QUEUE_SCHEDULE_TIMESTAMP_MS}")
      else .ok value

def validateNativeQueueSendOptions (value : NativeQueueSendOptions) : Except Thrown NativeQueueSendOptions :=
  if value.delaySeconds.any (NATIVE_QUEUE_MAX_DELAY_SECONDS < ·) then
    .error (.typeError
      s!"world-celld native queue delaySeconds must be an integer between 0 and {NATIVE_QUEUE_MAX_DELAY_SECONDS}")
  else .ok value

/-- Where the idempotency claim of a message is kept. -/
inductive QueueClaimSite
  | cell (claimName : String)
  | run (runId claimName : String)
  deriving DecidableEq, Repr

/-- The claim a delivered envelope was reserved under, if it has an idempotency key. -/
def deliveryQueueClaim (envelope : NativeQueueEnvelope) : Option QueueClaimSite :=
  match truthy envelope.idempotencyKey with
  | none => none
  | some idempotencyKey =>
    let claimName := queueClaimName envelope.queueName idempotencyKey
    match envelope.claimScope, truthy envelope.runId with
    | some "run", some runId => some (.run runId claimName)
    | _, _ => some (.cell claimName)

theorem validateNativeQueueEnvelope_ok {value envelope : NativeQueueEnvelope}
    (valid : validateNativeQueueEnvelope value = .ok envelope) :
    envelope = value ∧ envelope.messageId ≠ "" ∧ envelope.payloadKey.isNone ≠ envelope.body.isNone := by
  unfold validateNativeQueueEnvelope at valid
  simp only at valid
  split at valid
  · cases valid
  split at valid
  · cases valid
  rename_i named
  split at valid
  · cases valid
  split at valid
  · cases valid
  rename_i sourced
  split at valid
  · cases valid
  split at valid
  · cases valid
  cases valid
  have named := List.find?_eq_none.mp named ("messageId", value.messageId) (.head _)
  exact ⟨rfl, by simpa using named, sourced⟩

end CelldWorld
