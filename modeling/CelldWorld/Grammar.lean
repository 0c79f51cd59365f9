import CelldWorld.Replay

namespace CelldWorld

namespace EventData

/-- The events that only an active run may still journal. -/
def opens : EventData → Bool
  | .runCreated _ | .runStarted | .attrSet .. | .stepCreated .. | .hookCreated .. | .waitCreated .. => true
  | _ => false

def createdStep : EventData → Option String
  | .stepCreated id _ => some id
  | _ => none

def updatedStep : EventData → Option String
  | .stepStarted id _ | .stepCompleted id _ | .stepFailed id _ | .stepRetrying id _ _ => some id
  | _ => none

def finishedStep : EventData → Option String
  | .stepCompleted id _ | .stepFailed id _ => some id
  | _ => none

def createdWait : EventData → Option String
  | .waitCreated id _ => some id
  | _ => none

def completedWait : EventData → Option String
  | .waitCompleted id _ => some id
  | _ => none

/-- The correlation ID of a workflow-authored `attr_set`. -/
def workflowAttribute : EventData → Option String
  | .attrSet correlationId eventData => if eventData.writer = .workflow then correlationId else none
  | _ => none

def createdHook : EventData → Option String
  | .hookCreated id _ => some id
  | _ => none

def disposedHook : EventData → Option String
  | .hookDisposed id _ _ => some id
  | _ => none

def receivedHook : EventData → Option String
  | .hookReceived id _ => some id
  | _ => none

/-- The `retryAfter` of a step after one more event. -/
def retries (id : String) (last : Option Nat) : EventData → Option Nat
  | .stepRetrying other _ retryAfter => if other = id then retryAfter else last
  | _ => last

end EventData

open EventData

/-- Some event of the history is of the kind and about the entity. -/
def Occurs (kind : EventData → Option String) (id : String) (history : List Event) : Prop :=
  ∃ event ∈ history, kind event.data = some id

@[simp] theorem not_occurs_nil {kind : EventData → Option String} {id : String} : ¬ Occurs kind id [] :=
  fun ⟨_, member, _⟩ => nomatch member

@[simp] theorem occurs_snoc {kind : EventData → Option String} {id : String} {history : List Event}
    {event : Event} :
    Occurs kind id (history ++ [event]) ↔ Occurs kind id history ∨ kind event.data = some id := by
  simp only [Occurs, List.mem_append, List.mem_singleton, or_and_right, exists_or, exists_eq_left]

/-- The `retryAfter` of the latest `step_retrying` of a step. -/
def lastRetry (id : String) (history : List Event) : Option Nat :=
  history.foldl (fun last event => event.data.retries id last) none

/-- The next event of a log is allowed after its history. `covers` are the
correlation IDs whose attribute and hook events are held to the grammar. -/
structure Follows (covers : String → Prop) (history : List Event) (event : Event) : Prop where
  runCreated : (∃ eventData, event.data = .runCreated eventData) ↔ history = []
  ended : ∀ earlier ∈ history, ∀ status, earlier.endsAs = some status →
    event.data.opens = false ∧
      (event.endsAs = none ∨ event.endsAs = some .cancelled ∧ status = .cancelled)
  stepCreated : ∀ id, event.data.createdStep = some id →
    ¬ Occurs createdStep id history ∧ ¬ Occurs updatedStep id history
  stepUpdated : ∀ id, event.data.updatedStep = some id →
    Occurs createdStep id history ∧ ¬ Occurs finishedStep id history
  stepStarted : ∀ id eventData, event.data = .stepStarted id eventData →
    ∀ retryAfter, lastRetry id history = some retryAfter → retryAfter ≤ event.createdAt
  waitCreated : ∀ id, event.data.createdWait = some id → ¬ Occurs createdWait id history
  waitCompleted : ∀ id, event.data.completedWait = some id →
    Occurs createdWait id history ∧ ¬ Occurs completedWait id history
  attributeSet : ∀ id, covers id → event.data.workflowAttribute = some id →
    ¬ Occurs workflowAttribute id history
  hookCreated : ∀ id, event.data.createdHook = some id → ¬ Occurs createdHook id history
  hookDisposed : ∀ id, event.data.disposedHook = some id →
    Occurs createdHook id history ∧ ¬ Occurs disposedHook id history
  hookReceived : ∀ id, covers id → event.data.receivedHook = some id →
    Occurs createdHook id history ∧ ¬ Occurs disposedHook id history ∧
      ∀ earlier ∈ history, earlier.endsAs = none

/-- Every event of the log is allowed after the events before it. -/
def Grammar (covers : String → Prop) (log : List Event) : Prop :=
  ∀ history event rest, log = history ++ event :: rest → Follows covers history event

theorem Grammar.nil {covers : String → Prop} : Grammar covers [] := by
  intro history event rest split
  cases history <;> cases split

theorem Grammar.snoc {covers : String → Prop} {log : List Event} {event : Event}
    (grammar : Grammar covers log) (follows : Follows covers log event) :
    Grammar covers (log ++ [event]) := by
  intro history other rest split
  rcases List.eq_nil_or_concat rest with rfl | ⟨front, last, rfl⟩
  · obtain ⟨rfl, same⟩ := List.append_inj' split rfl
    cases same
    exact follows
  · have split : log ++ [event] = (history ++ other :: front) ++ [last] := by simpa using split
    exact grammar history other front (List.append_inj' split rfl).1

end CelldWorld
