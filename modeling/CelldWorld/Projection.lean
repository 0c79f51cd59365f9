import CelldWorld.EventLog

namespace CelldWorld

structure RunView where
  status : RunStatus
  output : Option Value
  error : Option StructuredError
  attributes : Attributes
  startedAt : Option Nat
  completedAt : Option Nat
  deriving DecidableEq, Repr

structure StepView where
  status : StepStatus
  attempt : Nat
  output : Option Value
  error : Option Value
  retryAfter : Option Nat
  startedAt : Option Nat
  completedAt : Option Nat
  deriving DecidableEq, Repr

structure WaitView where
  status : WaitStatus
  resumeAt : Nat
  deriving DecidableEq, Repr

/-- What a log says about a run and its entities. -/
structure Projection where
  run : Option RunView := none
  steps : String → Option StepView := fun _ => none
  waits : String → Option WaitView := fun _ => none
  hooks : String → Option Hook := fun _ => none

/-- The hook that a `hook_created` event describes. -/
def Event.hook (event : Event) (hookId : String) (eventData : HookCreatedData) : Hook :=
  { runId := event.runId, hookId
    token := eventData.token
    metadata := eventData.metadata
    ownerId := "", projectId := "", environment := ""
    createdAt := event.createdAt
    specVersion := event.specVersion
    isWebhook := eventData.isWebhook.getD false
    isSystem := eventData.isSystem
    tokenRetentionUntil := eventData.tokenRetentionUntil
    claimedFrom := eventData.forceClaimedFrom }

namespace Projection
variable (W : WorldContract) (state : Projection)

def finishRun (status : RunStatus) (output : Option Value) (error : Option StructuredError)
    (time : Nat) : Projection :=
  { state with run := state.run.map fun run =>
      { run with status, output, error, completedAt := some time } }

def updateStep (id : String) (update : StepView → StepView) : Projection :=
  { state with steps := Function.update state.steps id ((state.steps id).map update) }

/-- The reading of one event. A cancellation of a cancelled run changes nothing. -/
def apply (event : Event) : Projection :=
  match event.data with
  | .runCreated eventData =>
      { state with run := some ⟨.pending, none, none, eventData.attributes.getD [], none, none⟩ }
  | .runStarted =>
      { state with run := state.run.map fun run =>
          { run with
            status := .running, output := none, error := none, completedAt := none
            startedAt := run.startedAt.or (some event.createdAt) } }
  | .runCompleted output => state.finishRun .completed output none event.createdAt
  | .runFailed error errorCode =>
      state.finishRun .failed none (some (toStructuredError error errorCode)) event.createdAt
  | .runCancelled =>
      if state.run.any (·.status = .cancelled) then state
      else state.finishRun .cancelled none none event.createdAt
  | .attrSet _ eventData =>
      { state with run := state.run.map fun run =>
          { run with attributes := W.applyAttributeChanges run.attributes eventData.changes } }
  | .stepCreated id _ =>
      let created : StepView := ⟨.pending, 0, none, none, none, none, none⟩
      { state with steps := Function.update state.steps id (some created) }
  | .stepStarted id _ => state.updateStep id fun step =>
      { step with
        status := .running, attempt := step.attempt + 1, retryAfter := none
        startedAt := step.startedAt.or (some event.createdAt) }
  | .stepCompleted id result => state.updateStep id fun step =>
      { step with status := .completed, output := result, completedAt := some event.createdAt }
  | .stepFailed id error => state.updateStep id fun step =>
      { step with status := .failed, error, completedAt := some event.createdAt }
  | .stepRetrying id error retryAfter => state.updateStep id fun step =>
      { step with status := .pending, error, retryAfter }
  | .hookCreated id eventData =>
      { state with hooks := Function.update state.hooks id (some (event.hook id eventData)) }
  | .hookDisposed id _ _ => { state with hooks := Function.update state.hooks id none }
  | .waitCreated id resumeAt =>
      { state with waits := Function.update state.waits id (some ⟨.waiting, resumeAt⟩) }
  | .waitCompleted id resumeAt =>
      let complete (wait : WaitView) : WaitView :=
        { status := .completed, resumeAt := resumeAt.getD wait.resumeAt }
      { state with waits := Function.update state.waits id ((state.waits id).map complete) }
  | .hookConflict .. | .hookReceived .. => state

end Projection

/-- The pure fold of a log in slot order. -/
def project (W : WorldContract) (log : List Event) : Projection :=
  log.foldl (Projection.apply W) {}

theorem project_append {W : WorldContract} {log : List Event} {event : Event} :
    project W (log ++ [event]) = (project W log).apply W event := by
  rw [project, List.foldl_append]
  rfl

def WorkflowRun.view (run : WorkflowRun) : RunView :=
  ⟨run.status, run.output, run.error, run.attributes, run.startedAt, run.completedAt⟩

def Step.view (step : Step) : StepView :=
  ⟨step.status, step.attempt, step.output, step.error, step.retryAfter, step.startedAt, step.completedAt⟩

def Wait.view (wait : Wait) : WaitView := ⟨wait.status, wait.resumeAt⟩

/-- A creation-time index holds exactly one entry for each stored entity. -/
def IndexedBy {ν : Type} (index : CreationMap String) (entities : KeyMap ν) (createdAt : ν → Nat) : Prop :=
  ∀ (time : Nat) (key id : String), index[(time, key)]? = some id ↔
    key = id ∧ ∃ entity, entities[id]? = some entity ∧ createdAt entity = time

/-- The run and its steps are what the log says. -/
structure RunProjected (store : RunStore) (state : Projection) : Prop where
  run : store.run.map WorkflowRun.view = state.run
  steps : ∀ id : String, store.steps[id]?.map Step.view = state.steps id
  stepCreated : IndexedBy store.stepCreated store.steps Step.createdAt

/-- Every stored hook has its creation marker. -/
def HooksMarked (store : RunStore) : Prop :=
  ∀ (id : String) hook, store.hooks[id]? = some hook → ∃ eventId, store.hookEvent[id]? = some eventId

/-- The waits and the live hooks are what the log says. -/
structure EntitiesProjected (store : RunStore) (state : Projection) : Prop where
  waits : ∀ id : String, store.waits[id]?.map Wait.view = state.waits id
  hooks : ∀ id : String, store.hooks[id]? = state.hooks id
  hookIds : ∀ (id : String) hook, store.hooks[id]? = some hook → hook.hookId = id
  hookCreated : IndexedBy store.hookCreated store.hooks Hook.createdAt

end CelldWorld
