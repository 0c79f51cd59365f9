import Std.Data.ExtTreeMap
import Std.Data.ExtTreeMap.Lemmas

namespace CelldWorld

/-- Durable Object storage under one key prefix. Keys list in byte order,
which is the order of Lean strings. -/
abbrev KeyMap (ν : Type) := Std.ExtTreeMap String ν

/-- Storage under a prefix whose keys carry a creation time before the ID. -/
abbrev CreationMap (ν : Type) := Std.ExtTreeMap (Nat × String) ν (@compare _ lexOrd)

/-- Storage under a prefix whose keys name a hook ID and a token. -/
abbrev ReferenceMap (ν : Type) := Std.ExtTreeMap (String × String) ν (@compare _ lexOrd)

/-- A stored value the cells never look into, apart from the string
properties that `readStringProp` reads from an error. -/
inductive Value
  | string (text : String)
  | object (strings : List (String × String)) (rest : Nat)
  | other (tag : Nat)
  deriving DecidableEq, Repr

inductive RunStatus
  | pending | running | completed | failed | cancelled
  deriving DecidableEq, Repr

def isTerminalWorkflowRunStatus : RunStatus → Bool
  | .completed | .failed | .cancelled => true
  | .pending | .running => false

def RunStatus.name : RunStatus → String
  | .pending => "pending"
  | .running => "running"
  | .completed => "completed"
  | .failed => "failed"
  | .cancelled => "cancelled"

/-- The step statuses a run cell writes. -/
inductive StepStatus
  | pending | running | completed | failed
  deriving DecidableEq, Repr

def isTerminalStepStatus : StepStatus → Bool
  | .completed | .failed => true
  | .pending | .running => false

def StepStatus.name : StepStatus → String
  | .pending => "pending"
  | .running => "running"
  | .completed => "completed"
  | .failed => "failed"

inductive WaitStatus
  | waiting | completed
  deriving DecidableEq, Repr

abbrev Attributes := List (String × String)

structure AttributeChange where
  key : String
  value : Option String
  deriving DecidableEq, Repr

/-- `toStructuredError`: the error stored on a failed run. -/
structure StructuredError where
  message : String
  stack : Option String
  code : Option String
  deriving DecidableEq, Repr

structure WorkflowRun where
  runId : String
  deploymentId : String
  workflowName : String
  specVersion : Nat
  executionContext : Option Value
  attributes : Attributes
  encryptionPublicKey : Option String
  input : Value
  status : RunStatus
  output : Option Value
  error : Option StructuredError
  startedAt : Option Nat
  completedAt : Option Nat
  createdAt : Nat
  updatedAt : Nat
  expiredAt : Option Nat
  deriving DecidableEq, Repr

structure Step where
  runId : String
  stepId : String
  stepName : String
  status : StepStatus
  input : Value
  output : Option Value
  error : Option Value
  attempt : Nat
  startedAt : Option Nat
  completedAt : Option Nat
  retryAfter : Option Nat
  createdAt : Nat
  updatedAt : Nat
  specVersion : Nat
  deriving DecidableEq, Repr

/-- The owner of a hook token or hook ID. -/
structure HookTokenOwner where
  runId : String
  hookId : String
  deriving DecidableEq, Repr

/-- The hook a forced creation takes its token from. -/
structure HookClaimedFrom where
  runId : String
  hookId : String
  workflowName : Option String
  deploymentId : Option String
  runSpecVersion : Option Nat
  deriving DecidableEq, Repr

structure Hook where
  runId : String
  hookId : String
  token : String
  metadata : Option Value
  ownerId : String
  projectId : String
  environment : String
  createdAt : Nat
  specVersion : Nat
  isWebhook : Bool
  isSystem : Option Bool
  tokenRetentionUntil : Option Nat
  claimedFrom : Option HookClaimedFrom
  deriving DecidableEq, Repr

structure Wait where
  waitId : String
  runId : String
  status : WaitStatus
  resumeAt : Nat
  completedAt : Option Nat
  createdAt : Nat
  updatedAt : Nat
  specVersion : Nat
  deriving DecidableEq, Repr

def Hook.owner (hook : Hook) : HookTokenOwner := ⟨hook.runId, hook.hookId⟩

def HookClaimedFrom.owner (claimedFrom : HookClaimedFrom) : HookTokenOwner :=
  ⟨claimedFrom.runId, claimedFrom.hookId⟩

/-- The event data of `run_created`, also carried by a resilient `run_started`. -/
structure RunCreatedData where
  deploymentId : String
  workflowName : String
  input : Value
  executionContext : Option Value
  attributes : Option Attributes
  allowReservedAttributes : Option Bool
  encryptionPublicKey : Option String
  deriving DecidableEq, Repr

/-- The optional run input of a resilient `run_started`. -/
structure RunStartedData where
  deploymentId : Option String
  workflowName : Option String
  input : Option Value
  executionContext : Option Value
  attributes : Option Attributes
  allowReservedAttributes : Option Bool
  encryptionPublicKey : Option String
  deriving DecidableEq, Repr

inductive AttributeWriter
  | workflow
  | other (name : String)
  deriving DecidableEq, Repr

structure AttrSetData where
  changes : List AttributeChange
  writer : AttributeWriter
  allowReservedAttributes : Option Bool
  deriving DecidableEq, Repr

structure StepCreatedData where
  stepName : String
  workflowName : Option String
  input : Value
  deriving DecidableEq, Repr

structure StepStartedData where
  stepName : Option String
  workflowName : Option String
  input : Option Value
  deriving DecidableEq, Repr

structure HookCreatedData where
  token : String
  metadata : Option Value
  isWebhook : Option Bool
  isSystem : Option Bool
  tokenRetentionUntil : Option Nat
  force : Option Bool
  forceClaimedFrom : Option HookClaimedFrom
  deriving DecidableEq, Repr

/-- The only reason a forced creation is refused for. -/
inductive ForceRefusedReason
  | victimSpecVersion
  deriving DecidableEq, Repr

/-- A stored event by type, with the event data the journal keeps for it. -/
inductive EventData
  | runCreated (eventData : RunCreatedData)
  | runStarted
  | runCompleted (output : Option Value)
  | runFailed (error : Value) (errorCode : Option String)
  | runCancelled
  | attrSet (correlationId : Option String) (eventData : AttrSetData)
  | stepCreated (correlationId : String) (eventData : StepCreatedData)
  | stepStarted (correlationId : String) (eventData : Option StepStartedData)
  | stepCompleted (correlationId : String) (result : Option Value)
  | stepFailed (correlationId : String) (error : Option Value)
  | stepRetrying (correlationId : String) (error : Option Value) (retryAfter : Option Nat)
  | hookCreated (correlationId : String) (eventData : HookCreatedData)
  | hookConflict (correlationId token conflictingRunId : String)
      (forceRefusedReason : Option ForceRefusedReason)
  | hookReceived (correlationId : String) (payload : Value)
  | hookDisposed (correlationId : String) (token : Option String)
      (forceClaimedBy : Option HookTokenOwner)
  | waitCreated (correlationId : String) (resumeAt : Nat)
  | waitCompleted (correlationId : String) (resumeAt : Option Nat)
  deriving DecidableEq, Repr

structure Event where
  eventId : String
  runId : String
  createdAt : Nat
  occurredAt : Option Nat
  resumeId : Option String
  specVersion : Nat
  data : EventData
  deriving DecidableEq, Repr

/-- An event a client may ask for. `hook_conflict` is written by the world only. -/
inductive CreateEvent
  | runCreated (eventData : RunCreatedData)
  | runStarted (eventData : Option RunStartedData)
  | runCompleted (output : Option Value)
  | runFailed (error : Value) (errorCode : Option String)
  | runCancelled
  | attrSet (correlationId : Option String) (eventData : AttrSetData)
  | stepCreated (correlationId : String) (eventData : StepCreatedData)
  | stepStarted (correlationId : String) (eventData : Option StepStartedData)
  | stepCompleted (correlationId : String) (result : Option Value)
  | stepFailed (correlationId : String) (error : Option Value)
  | stepRetrying (correlationId : String) (error : Option Value) (retryAfter : Option Nat)
  | hookCreated (correlationId : String) (eventData : HookCreatedData)
  | hookReceived (correlationId : String) (payload : Value)
  | hookDisposed (correlationId : String) (token : Option String)
      (forceClaimedBy : Option HookTokenOwner)
  | waitCreated (correlationId : String) (resumeAt : Nat)
  | waitCompleted (correlationId : String) (resumeAt : Option Nat)
  deriving DecidableEq, Repr

structure CreateEventRequest where
  specVersion : Option Nat
  data : CreateEvent
  deriving DecidableEq, Repr

/-- Workflow 5 event-log position and preload options. -/
structure CreateEventParams where
  occurredAt : Option Nat
  resumeId : Option String
  resumePayloadDigest : Option String
  sinceCursor : Option String
  eventCount : Option Nat
  skipPreload : Bool
  preloadEvents : Bool
  deriving DecidableEq, Repr

end CelldWorld
