import CelldWorld.Grammar
import Mathlib.Data.List.Induction

namespace CelldWorld

open EventData

section States
variable (now : Nat) (store : RunStore) (history : List Event)

structure RunState : Prop where
  unstarted : store.run = none ↔ history = []
  ended : ∀ event ∈ history, ∀ status, event.endsAs = some status →
    ∃ run, store.run = some run ∧ run.status = status

structure StepState : Prop where
  created : ∀ id, Occurs createdStep id history ↔ ∃ step, store.steps[id]? = some step
  updated : ∀ id, Occurs updatedStep id history → ∃ step, store.steps[id]? = some step
  finished : ∀ id, Occurs finishedStep id history →
    ∃ step, store.steps[id]? = some step ∧ isTerminalStepStatus step.status = true
  /-- A start clears `retryAfter` once it is due, and it stays due. -/
  retry : ∀ id step retryAfter, store.steps[id]? = some step → lastRetry id history = some retryAfter →
    step.retryAfter = some retryAfter ∨ retryAfter ≤ now

structure WaitState : Prop where
  created : ∀ id wait, store.waits[id]? = some wait → Occurs createdWait id history
  kept : ∀ id, Occurs createdWait id history →
    (∃ wait, store.waits[id]? = some wait) ∨ store.isTerminal = true
  ordered : ∀ id, Occurs completedWait id history → Occurs createdWait id history
  completed : ∀ id wait, Occurs completedWait id history → store.waits[id]? = some wait →
    wait.status = .completed

def AttributeState : Prop :=
  ∀ id, id ≠ "" → Occurs workflowAttribute id history → ∃ eventId, store.attrEvent[id]? = some eventId

structure HookState : Prop where
  marked : ∀ id, Occurs createdHook id history → ∃ eventId, store.hookEvent[id]? = some eventId
  ordered : ∀ id, Occurs disposedHook id history → Occurs createdHook id history
  live : ∀ id hook, store.hooks[id]? = some hook →
    Occurs createdHook id history ∧ ¬ Occurs disposedHook id history

end States

variable {W : WorldContract} {runId : String} {now : Nat} {before after : RunStore} {event : Event}
variable {history : List Event}

theorem lastRetry_snoc {id : String} :
    lastRetry id (history ++ [event]) = event.data.retries id (lastRetry id history) := by
  rw [lastRetry, List.foldl_append]
  rfl

theorem endsAs_terminal {status : RunStatus} (ends : event.endsAs = some status) :
    isTerminalWorkflowRunStatus status = true := by
  cases data : event.data <;> simp only [Event.endsAs, data, reduceCtorEq, Option.some.injEq] at ends <;>
    subst ends <;> rfl

/-- The history of an active run holds no terminal run event. -/
theorem RunState.endsAs_of_active {run : WorkflowRun} (state : RunState before history)
    (current : before.run = some run) (active : isTerminalWorkflowRunStatus run.status = false) :
    ∀ earlier ∈ history, earlier.endsAs = none := by
  intro earlier member
  cases ends : earlier.endsAs with
  | none => rfl
  | some status =>
    obtain ⟨other, stored, same⟩ := state.ended earlier member status ends
    obtain rfl := Option.some.inj (current.symm.trans stored)
    rw [same, endsAs_terminal ends] at active
    cases active

/-- Terminal status and what it means for the stored run survive every journaled event. -/
theorem Journal.runStatus {run : WorkflowRun} (journal : Journal W before event after)
    (current : before.run = some run) (terminal : isTerminalWorkflowRunStatus run.status = true) :
    after.run = some run := by
  cases journal with
  | runCreated data absent => cases absent.symm.trans current
  | runStarted data stored fresh =>
    obtain rfl := Option.some.inj (current.symm.trans stored)
    rw [fresh] at terminal
    cases terminal
  | runFinished ends stored active | attrSet data stored active =>
    obtain rfl := Option.some.inj (current.symm.trans stored)
    rw [active] at terminal
    cases terminal
  | _ => exact current

theorem Journal.runState (journal : Journal W before event after) (state : RunState before history)
    (steps : StepState now before history) : RunState after (history ++ [event]) := by
  have started : after.run ≠ none := by
    cases journal with
    | stepUpdated updates stored =>
      rename_i id update step _ _
      intro absent
      have empty := state.unstarted.mp absent
      have occurs := (steps.created id).mpr ⟨step, stored⟩
      rw [empty] at occurs
      exact not_occurs_nil occurs
    | runCreated | runStarted | runFinished | attrSet => exact fun absent => by cases absent
    | runCancelledAgain data current | stepCreated data current | hookConflict data current
    | hookCreated data current | hookReceived data current | hookDisposed data current
    | hookForced data current | waitCreated data current | waitCompleted data current =>
      exact fun absent => by cases absent.symm.trans current
  refine ⟨⟨fun absent => absurd absent started, by simp⟩, fun other member status ends => ?_⟩
  rcases List.mem_append.mp member with old | new
  · obtain ⟨run, current, same⟩ := state.ended other old status ends
    exact ⟨run, journal.runStatus current (same ▸ endsAs_terminal ends), same⟩
  · obtain rfl := List.mem_singleton.mp new
    cases journal with
    | runFinished ended current active =>
      obtain rfl := Option.some.inj (ended.symm.trans ends)
      exact ⟨_, rfl, rfl⟩
    | runCancelledAgain data current cancelled =>
      simp only [Event.endsAs, data, Option.some.injEq] at ends
      exact ⟨_, current, cancelled.trans ends⟩
    | stepUpdated updates =>
      cases data : other.data <;> simp [Event.endsAs, Event.stepUpdate, data] at ends updates
    | runCreated data | runStarted data | attrSet data | stepCreated data | hookConflict data
    | hookCreated data | hookReceived data | hookDisposed data | hookForced data | waitCreated data
    | waitCompleted data => simp [Event.endsAs, data] at ends

theorem EventData.finishedStep_updated {data : EventData} {id : String}
    (finished : data.finishedStep = some id) : data.updatedStep = some id := by
  cases data <;> simp_all [finishedStep, updatedStep]

theorem EventData.retries_of_not_updated {data : EventData} (other : data.updatedStep = none) (id : String)
    (last : Option Nat) : data.retries id last = last := by
  cases data <;> simp_all [updatedStep, retries]

theorem lastRetry_updated {id : String} {retryAfter : Nat} (last : lastRetry id history = some retryAfter) :
    Occurs updatedStep id history := by
  induction history using List.reverseRecOn with
  | nil => cases last
  | append_singleton history event ih =>
    rw [lastRetry_snoc] at last
    rw [occurs_snoc]
    cases updated : event.data.updatedStep with
    | none =>
      rw [retries_of_not_updated updated] at last
      exact .inl (ih last)
    | some other =>
      cases data : event.data with
      | stepRetrying target error after =>
        by_cases same : target = id
        · exact .inr (by rw [← updated, data, updatedStep, same])
        · simp only [data, retries, same, if_false] at last
          exact .inl (ih last)
      | _ =>
        simp only [data, retries] at last
        exact .inl (ih last)

/-- An event about no step. -/
theorem StepState.frame (state : StepState now before history) (steps : after.steps = before.steps)
    (created : event.data.createdStep = none) (updated : event.data.updatedStep = none) :
    StepState now after (history ++ [event]) := by
  have finished : ∀ id, event.data.finishedStep ≠ some id := by
    intro id same
    rw [finishedStep_updated same] at updated
    cases updated
  refine ⟨fun id => ?_, fun id occurs => ?_, fun id occurs => ?_, fun id step retryAfter => ?_⟩
  · simpa [created, steps] using state.created id
  · rw [steps]
    exact state.updated id (by simpa [updated] using occurs)
  · rw [steps]
    exact state.finished id (by simpa [finished id] using occurs)
  · rw [steps, lastRetry_snoc, retries_of_not_updated updated]
    exact state.retry id step retryAfter

/-- A step that was just created. -/
theorem StepState.create {id : String} {step : Step} (state : StepState now before history)
    (steps : after.steps = before.steps.insert id step) (absent : before.steps[id]? = none)
    (created : event.data.createdStep = some id) : StepState now after (history ++ [event]) := by
  have updated : event.data.updatedStep = none := by
    cases data : event.data <;> simp [data, createdStep, updatedStep] at created ⊢
  have finished : ∀ other, event.data.finishedStep ≠ some other := by
    intro other same
    rw [finishedStep_updated same] at updated
    cases updated
  have fresh : ¬ Occurs createdStep id history := by simp [state.created id, absent]
  refine ⟨fun other => ?_, fun other occurs => ?_, fun other occurs => ?_, fun other found retryAfter => ?_⟩
  · rw [steps, Std.ExtTreeMap.getElem?_insert, occurs_snoc, created, state.created other]
    by_cases same : id = other <;> simp [same]
  · obtain ⟨found, held⟩ := state.updated other (by simpa [updated] using occurs)
    rw [steps, Std.ExtTreeMap.getElem?_insert]
    by_cases same : id = other <;> simp [same, held]
  · obtain ⟨found, held, terminal⟩ := state.finished other (by simpa [finished other] using occurs)
    have different : id ≠ other := by
      rintro rfl
      rw [absent] at held
      cases held
    exact ⟨found, by simpa [steps, Std.ExtTreeMap.getElem?_insert, different] using held, terminal⟩
  · rw [steps, Std.ExtTreeMap.getElem?_insert, lastRetry_snoc, retries_of_not_updated updated]
    by_cases same : id = other
    · intro _ last
      obtain ⟨held, stored⟩ := state.updated other (lastRetry_updated last)
      rw [← same, absent] at stored
      cases stored
    · simpa [same] using state.retry other found retryAfter

/-- An existing step that was updated before it was finished. -/
theorem StepState.update {id : String} {change : Step → Step} {step : Step}
    (state : StepState now before history) (steps : after.steps = before.steps.insert id (change step))
    (updates : event.stepUpdate = some (id, change)) (stored : before.steps[id]? = some step)
    (unfinished : isTerminalStepStatus step.status = false) (time : event.createdAt = now)
    (due : ∀ eventData, event.data = .stepStarted id eventData →
      ∀ retryAfter, step.retryAfter = some retryAfter → retryAfter ≤ event.createdAt) :
    StepState now after (history ++ [event]) := by
  have created : event.data.createdStep = none := by
    cases data : event.data <;> simp [data, createdStep, Event.stepUpdate] at updates ⊢
  have updated : event.data.updatedStep = some id := by
    cases data : event.data <;> simp [data, updatedStep, Event.stepUpdate] at updates ⊢ <;> exact updates.1
  refine ⟨fun other => ?_, fun other occurs => ?_, fun other occurs => ?_, fun other found retryAfter => ?_⟩
  · rw [steps, Std.ExtTreeMap.getElem?_insert, occurs_snoc, created, state.created other]
    by_cases same : id = other
    · subst same
      simp [stored]
    · simp [same]
  · rw [steps, Std.ExtTreeMap.getElem?_insert]
    by_cases same : id = other
    · exact ⟨change step, by simp [same]⟩
    · obtain ⟨found, held⟩ := state.updated other (by simpa [updated, same] using occurs)
      exact ⟨found, by simpa [same] using held⟩
  · by_cases same : id = other
    · subst same
      refine ⟨change step, by simp [steps], ?_⟩
      rcases occurs_snoc.mp occurs with old | new
      · obtain ⟨found, held, terminal⟩ := state.finished id old
        obtain rfl := Option.some.inj (stored.symm.trans held)
        rw [unfinished] at terminal
        cases terminal
      · cases data : event.data <;>
          simp only [data, finishedStep, Event.stepUpdate, reduceCtorEq, Option.some.injEq,
            Prod.mk.injEq] at new updates <;> rw [← updates.2] <;> rfl
    · have different : event.data.finishedStep ≠ some other := by
        intro finished
        have := (finishedStep_updated finished).symm.trans updated
        exact same (Option.some.inj this).symm
      obtain ⟨found, held, terminal⟩ := state.finished other (by simpa [different] using occurs)
      exact ⟨found, by simpa [steps, Std.ExtTreeMap.getElem?_insert, same] using held, terminal⟩
  · rw [steps, Std.ExtTreeMap.getElem?_insert, lastRetry_snoc]
    by_cases same : id = other
    · subst same
      intro found_eq last
      simp only [Std.ReflCmp.compare_self, if_true, Option.some.injEq] at found_eq
      subst found_eq
      cases data : event.data <;>
        simp only [data, Event.stepUpdate, reduceCtorEq, Option.some.injEq, Prod.mk.injEq] at updates <;>
        obtain ⟨rfl, rfl⟩ := updates <;> simp only [data, retries, if_true] at last
      case stepStarted =>
        right
        rcases state.retry _ step retryAfter stored last with waits | passed
        · exact time ▸ due _ data retryAfter waits
        · exact passed
      case stepRetrying => exact .inl last
      all_goals exact state.retry _ step retryAfter stored last
    · have other_step : event.data.retries other (lastRetry other history) = lastRetry other history := by
        cases data : event.data <;> simp only [retries]
        rw [if_neg]
        rintro rfl
        rw [data] at updated
        exact same (Option.some.inj updated).symm
      rw [other_step]
      simpa [same] using state.retry other found retryAfter

theorem Journal.stepState (journal : Journal W before event after) (time : event.createdAt = now)
    (state : StepState now before history) : StepState now after (history ++ [event]) := by
  cases journal with
  | stepCreated data current active absent => exact state.create rfl absent (by rw [data]; rfl)
  | stepUpdated updates stored unfinished due =>
    exact state.update rfl updates stored unfinished time due
  | runFinished ends =>
    refine state.frame rfl ?_ ?_ <;> cases data : event.data <;>
      simp [data, Event.endsAs, createdStep, updatedStep] at ends ⊢
  | runCreated data | runStarted data | runCancelledAgain data | attrSet data | hookConflict data
  | hookCreated data | hookReceived data | hookDisposed data | hookForced data | waitCreated data
  | waitCompleted data => exact state.frame rfl (by rw [data]; rfl) (by rw [data]; rfl)

end CelldWorld
