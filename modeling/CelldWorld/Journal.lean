import CelldWorld.Retention
import CelldWorld.Library.SlotLog

namespace CelldWorld

namespace RunStore

/-- Write the next event of the log. -/
def append (store : RunStore) (event : Event) : RunStore :=
  { store with
    events := store.events.insert event.eventId event
    eventSequence := store.eventSequence + 1 }

/-- The event log in slot order. -/
def log (W : WorldContract) (store : RunStore) : List Event :=
  SlotLog.entries W.slotToEventId store.events store.eventSequence

/-- No stored event answers for the resume ID. -/
def Unclaimed (store : RunStore) (resumeId : String) : Prop :=
  ∀ claim, store.hookResume[resumeId]? = some claim → store.events[claim.eventId]? = none

end RunStore

def Event.endsAs (event : Event) : Option RunStatus :=
  match event.data with
  | .runCompleted _ => some .completed
  | .runFailed .. => some .failed
  | .runCancelled => some .cancelled
  | _ => none

/-- The output and the error that a terminal run event leaves on its run. -/
def Event.result (event : Event) : Option Value × Option StructuredError :=
  match event.data with
  | .runCompleted output => (output, none)
  | .runFailed error errorCode => (none, some (toStructuredError error errorCode))
  | _ => (none, none)

/-- The step that a step event addresses and its update of an existing step. -/
def Event.stepUpdate (event : Event) : Option (String × (Step → Step)) :=
  match event.data with
  | .stepStarted id _ => some (id, event.stamp.startedStep)
  | .stepCompleted id result => some (id, (event.stamp.completedStep · result))
  | .stepFailed id error => some (id, (event.stamp.failedStep · error))
  | .stepRetrying id error retryAfter => some (id, (event.stamp.retryingStep · error retryAfter))
  | _ => none

/-- The event that the next slot of the run's log may take. -/
structure NextEvent (W : WorldContract) (runId : String) (now : Nat) (store : RunStore)
    (event : Event) : Prop where
  eventId : event.eventId = W.slotToEventId (store.eventSequence + 1)
  ofRun : event.runId = runId
  createdAt : event.createdAt = now

/-- One journaled event: what the store was found to hold and what it holds next. -/
inductive Journal (W : WorldContract) (store : RunStore) (event : Event) : RunStore → Prop
  | runCreated {eventData : RunCreatedData}
      (data : event.data = .runCreated eventData)
      (absent : store.run = none) :
      Journal W store event ((store.putRun (event.stamp.createdRun eventData)).append event)
  | runStarted {run : WorkflowRun}
      (data : event.data = .runStarted)
      (current : store.run = some run)
      (fresh : run.status = .pending) :
      Journal W store event ((store.putRun (event.stamp.startedRun run)).append event)
  | runFinished {run : WorkflowRun} {status : RunStatus}
      (ends : event.endsAs = some status)
      (current : store.run = some run)
      (active : isTerminalWorkflowRunStatus run.status = false) :
      Journal W store event ((store.putRun (event.stamp.finishedRun run status
        event.result.1 event.result.2)).append event)
  | runCancelledAgain {run : WorkflowRun}
      (data : event.data = .runCancelled)
      (current : store.run = some run)
      (cancelled : run.status = .cancelled) :
      Journal W store event (store.append event)
  | attrSet {run : WorkflowRun} {correlationId : Option String} {eventData : AttrSetData}
      (data : event.data = .attrSet correlationId eventData)
      (current : store.run = some run)
      (active : isTerminalWorkflowRunStatus run.status = false)
      (unmarked : ∀ key, ApplyEventContext.attributeMarker correlationId eventData = some key →
        store.attrEvent[key]? = none) :
      Journal W store event (((store.putRun (event.stamp.attributedRun W run eventData)).markAttribute
        (ApplyEventContext.attributeMarker correlationId eventData) event.eventId).append event)
  | stepCreated {run : WorkflowRun} {id : String} {eventData : StepCreatedData}
      (data : event.data = .stepCreated id eventData)
      (current : store.run = some run)
      (active : isTerminalWorkflowRunStatus run.status = false)
      (absent : store.steps[id]? = none) :
      Journal W store event (((store.putStep id
          (event.stamp.createdStep id eventData.stepName eventData.input)).putStepCreated
          (event.stamp.createdStep id eventData.stepName eventData.input)).append event)
  | stepUpdated {id : String} {update : Step → Step} {step : Step}
      (updates : event.stepUpdate = some (id, update))
      (stored : store.steps[id]? = some step)
      (unfinished : isTerminalStepStatus step.status = false)
      (due : ∀ eventData, event.data = .stepStarted id eventData →
        ∀ retryAfter, step.retryAfter = some retryAfter → retryAfter ≤ event.createdAt) :
      Journal W store event ((store.putStep id (update step)).append event)
  | hookConflict {run : WorkflowRun} {id token holder : String} {reason : Option ForceRefusedReason}
      (data : event.data = .hookConflict id token holder reason)
      (current : store.run = some run)
      (active : isTerminalWorkflowRunStatus run.status = false) :
      Journal W store event (store.append event)
  | hookCreated {run : WorkflowRun} {id : String} {eventData : HookCreatedData}
      (data : event.data = .hookCreated id eventData)
      (current : store.run = some run)
      (active : isTerminalWorkflowRunStatus run.status = false)
      (fresh : store.hookEvent[id]? = none) :
      Journal W store event (((store.putHook
        (event.stamp.createdHook id eventData eventData.forceClaimedFrom)).putHookEvent id
        event.eventId).append event)
  | hookReceived {run : WorkflowRun} {id : String} {payload : Value} {resumes : KeyMap HookResumeClaim}
      (data : event.data = .hookReceived id payload)
      (current : store.run = some run)
      (stored : id ≠ "" → (∃ hook, store.hooks[id]? = some hook) ∧
        isTerminalWorkflowRunStatus run.status = false)
      (claims : truthy event.resumeId = none ∧ resumes = store.hookResume ∨
        ∃ resumeId digest, truthy event.resumeId = some resumeId ∧ store.Unclaimed resumeId ∧
          resumes = store.hookResume.insert resumeId ⟨id, event.eventId, digest⟩) :
      Journal W store event (({ store with hookResume := resumes } : RunStore).append event)
  | hookDisposed {run : WorkflowRun} {id : String} {token : Option String}
      {claimedBy : Option HookTokenOwner} {hook : Hook}
      (data : event.data = .hookDisposed id token claimedBy)
      (current : store.run = some run)
      (stored : store.hooks[id]? = some hook) :
      Journal W store event ((store.releaseHook id hook).append event)
  | hookForced {run : WorkflowRun} {id token : String} {claimedBy : HookTokenOwner} {hook : Hook}
      (data : event.data = .hookDisposed id (some token) (some claimedBy))
      (current : store.run = some run)
      (active : isTerminalWorkflowRunStatus run.status = false)
      (stored : store.hooks[id]? = some hook)
      (sameToken : hook.token = token)
      (unforced : store.hookForced[id]? = none) :
      Journal W store event (((store.releaseHook id hook).putHookForced id ⟨token, claimedBy⟩).append event)
  | waitCreated {run : WorkflowRun} {id : String} {resumeAt : Nat}
      (data : event.data = .waitCreated id resumeAt)
      (current : store.run = some run)
      (active : isTerminalWorkflowRunStatus run.status = false)
      (absent : store.waits[id]? = none) :
      Journal W store event ((store.putWait id (event.stamp.createdWait id resumeAt)).append event)
  | waitCompleted {run : WorkflowRun} {id : String} {resumeAt : Option Nat} {wait : Wait}
      (data : event.data = .waitCompleted id resumeAt)
      (current : store.run = some run)
      (stored : store.waits[id]? = some wait)
      (waiting : wait.status = .waiting) :
      Journal W store event ((store.putWait id (event.stamp.completedWait wait resumeAt)).append event)

/-- A sequence of journaled events, all of one run at one time. -/
inductive Journals (W : WorldContract) (runId : String) (now : Nat) (store : RunStore) :
    List Event → RunStore → Prop
  | start : Journals W runId now store [] store
  | next {events : List Event} {before after : RunStore} {event : Event}
      (reach : Journals W runId now store events before)
      (stamped : NextEvent W runId now before event)
      (journal : Journal W before event after) : Journals W runId now store (events ++ [event]) after

theorem Journals.single {W : WorldContract} {runId : String} {now : Nat} {before after : RunStore}
    {event : Event} (stamped : NextEvent W runId now before event) (journal : Journal W before event after) :
    Journals W runId now before [event] after :=
  .next .start stamped journal

theorem Journals.trans {W : WorldContract} {runId : String} {now : Nat} {first middle last : RunStore}
    {earlier later : List Event} (head : Journals W runId now first earlier middle)
    (tail : Journals W runId now middle later last) :
    Journals W runId now first (earlier ++ later) last := by
  induction tail with
  | start => rwa [List.append_nil]
  | next _ stamped journal ih => exact List.append_assoc _ _ _ ▸ .next ih stamped journal

/-- Every journaled event is appended to the stored events, and to nothing else. -/
theorem Journal.appends {W : WorldContract} {before after : RunStore} {event : Event}
    (journal : Journal W before event after) :
    after.events = before.events.insert event.eventId event ∧
      after.eventSequence = before.eventSequence + 1 := by
  cases journal <;> exact ⟨rfl, rfl⟩

end CelldWorld
