import CelldWorld.GrammarEntities

namespace CelldWorld

open EventData

/-- What ties a run cell's store to the grammar of its history. -/
structure GrammarState (now : Nat) (store : RunStore) (history : List Event) : Prop where
  grammar : Grammar (· ≠ "") history
  run : RunState store history
  steps : StepState now store history
  waits : WaitState store history
  attributes : AttributeState store history
  hooks : HookState store history

namespace Journal
variable {W : WorldContract} {runId : String} {now : Nat} {before after : RunStore} {event : Event}
variable {history : List Event} {id : String}

/-! What a journaled event found in the store, by what the event is about. -/

theorem createdStep_absent (journal : Journal W before event after)
    (created : event.data.createdStep = some id) : before.steps[id]? = none := by
  cases journal with
  | stepCreated data current active absent =>
    obtain rfl := Option.some.inj ((congrArg createdStep data).symm.trans created)
    exact absent
  | runFinished known | stepUpdated known =>
    cases data : event.data <;> simp [data, Event.endsAs, Event.stepUpdate, createdStep] at known created
  | runCreated data | runStarted data | runCancelledAgain data | attrSet data | hookConflict data
  | hookCreated data | hookReceived data | hookDisposed data | hookForced data | waitCreated data
  | waitCompleted data => simp [data, createdStep] at created

theorem updatedStep_stored (journal : Journal W before event after)
    (updated : event.data.updatedStep = some id) :
    ∃ step, before.steps[id]? = some step ∧ isTerminalStepStatus step.status = false ∧
      ∀ eventData, event.data = .stepStarted id eventData →
        ∀ retryAfter, step.retryAfter = some retryAfter → retryAfter ≤ event.createdAt := by
  cases journal with
  | @stepUpdated target update step updates stored unfinished due =>
    have same : event.data.updatedStep = some target := by
      cases data : event.data <;> simp [data, updatedStep, Event.stepUpdate] at updates ⊢ <;> exact updates.1
    obtain rfl := Option.some.inj (same.symm.trans updated)
    exact ⟨_, stored, unfinished, due⟩
  | runFinished known =>
    cases data : event.data <;> simp [data, Event.endsAs, updatedStep] at known updated
  | runCreated data | runStarted data | runCancelledAgain data | attrSet data | stepCreated data
  | hookConflict data | hookCreated data | hookReceived data | hookDisposed data | hookForced data
  | waitCreated data | waitCompleted data => simp [data, updatedStep] at updated

theorem createdWait_absent (journal : Journal W before event after)
    (created : event.data.createdWait = some id) :
    before.waits[id]? = none ∧ before.isTerminal = false := by
  cases journal with
  | waitCreated data current active absent =>
    obtain rfl := Option.some.inj ((congrArg createdWait data).symm.trans created)
    exact ⟨absent, by simp [RunStore.isTerminal, current, active]⟩
  | runFinished known | stepUpdated known =>
    cases data : event.data <;> simp [data, Event.endsAs, Event.stepUpdate, createdWait] at known created
  | runCreated data | runStarted data | runCancelledAgain data | attrSet data | stepCreated data
  | hookConflict data | hookCreated data | hookReceived data | hookDisposed data | hookForced data
  | waitCompleted data => simp [data, createdWait] at created

theorem completedWait_stored (journal : Journal W before event after)
    (completed : event.data.completedWait = some id) :
    ∃ wait, before.waits[id]? = some wait ∧ wait.status = .waiting := by
  cases journal with
  | waitCompleted data current stored waiting =>
    obtain rfl := Option.some.inj ((congrArg completedWait data).symm.trans completed)
    exact ⟨_, stored, waiting⟩
  | runFinished known | stepUpdated known =>
    cases data : event.data <;> simp [data, Event.endsAs, Event.stepUpdate, completedWait] at known completed
  | runCreated data | runStarted data | runCancelledAgain data | attrSet data | stepCreated data
  | hookConflict data | hookCreated data | hookReceived data | hookDisposed data | hookForced data
  | waitCreated data => simp [data, completedWait] at completed

theorem workflowAttribute_unmarked (journal : Journal W before event after) (nonempty : id ≠ "")
    (written : event.data.workflowAttribute = some id) : before.attrEvent[id]? = none := by
  cases journal with
  | attrSet data current active unmarked =>
    rw [data] at written
    exact unmarked id (attributeMarker_eq_some.mpr ⟨written, nonempty⟩)
  | runFinished known | stepUpdated known =>
    cases data : event.data <;> simp [data, Event.endsAs, Event.stepUpdate, workflowAttribute] at known written
  | runCreated data | runStarted data | runCancelledAgain data | stepCreated data
  | hookConflict data | hookCreated data | hookReceived data | hookDisposed data | hookForced data
  | waitCreated data | waitCompleted data => simp [data, workflowAttribute] at written

theorem createdHook_fresh (journal : Journal W before event after)
    (created : event.data.createdHook = some id) : before.hookEvent[id]? = none := by
  cases journal with
  | hookCreated data current active fresh =>
    obtain rfl := Option.some.inj ((congrArg createdHook data).symm.trans created)
    exact fresh
  | runFinished known | stepUpdated known =>
    cases data : event.data <;> simp [data, Event.endsAs, Event.stepUpdate, createdHook] at known created
  | runCreated data | runStarted data | runCancelledAgain data | attrSet data | stepCreated data
  | hookConflict data | hookReceived data | hookDisposed data | hookForced data | waitCreated data
  | waitCompleted data => simp [data, createdHook] at created

theorem disposedHook_stored (journal : Journal W before event after)
    (disposed : event.data.disposedHook = some id) : ∃ hook, before.hooks[id]? = some hook := by
  cases journal with
  | hookDisposed data current stored | hookForced data current active stored =>
    obtain rfl := Option.some.inj ((congrArg disposedHook data).symm.trans disposed)
    exact ⟨_, stored⟩
  | runFinished known | stepUpdated known =>
    cases data : event.data <;> simp [data, Event.endsAs, Event.stepUpdate, disposedHook] at known disposed
  | runCreated data | runStarted data | runCancelledAgain data | attrSet data | stepCreated data
  | hookConflict data | hookCreated data | hookReceived data | waitCreated data
  | waitCompleted data => simp [data, disposedHook] at disposed

theorem receivedHook_stored (journal : Journal W before event after) (nonempty : id ≠ "")
    (received : event.data.receivedHook = some id) :
    (∃ hook, before.hooks[id]? = some hook) ∧
      ∃ run, before.run = some run ∧ isTerminalWorkflowRunStatus run.status = false := by
  cases journal with
  | hookReceived data current stored =>
    obtain rfl := Option.some.inj ((congrArg receivedHook data).symm.trans received)
    exact ⟨(stored nonempty).1, _, current, (stored nonempty).2⟩
  | runFinished known | stepUpdated known =>
    cases data : event.data <;> simp [data, Event.endsAs, Event.stepUpdate, receivedHook] at known received
  | runCreated data | runStarted data | runCancelledAgain data | attrSet data | stepCreated data
  | hookConflict data | hookCreated data | hookDisposed data | hookForced data | waitCreated data
  | waitCompleted data => simp [data, receivedHook] at received

theorem opens_active (journal : Journal W before event after) (opens : event.data.opens = true)
    {run : WorkflowRun} (current : before.run = some run) : isTerminalWorkflowRunStatus run.status = false := by
  cases journal with
  | runCreated data absent => cases absent.symm.trans current
  | runStarted data stored fresh =>
    obtain rfl := Option.some.inj (stored.symm.trans current)
    rw [fresh]
    rfl
  | attrSet data stored active | stepCreated data stored active | hookConflict data stored active
  | hookCreated data stored active | waitCreated data stored active =>
    exact Option.some.inj (stored.symm.trans current) ▸ active
  | runFinished known | stepUpdated known =>
    cases data : event.data <;> simp [data, Event.endsAs, Event.stepUpdate, EventData.opens] at known opens
  | runCancelledAgain data | hookReceived data | hookDisposed data | hookForced data
  | waitCompleted data => simp [data, EventData.opens] at opens

/-- A terminal run event finds an active run, or cancels a cancelled one again. -/
theorem endsAs_active {status : RunStatus} (journal : Journal W before event after)
    (ends : event.endsAs = some status) : ∃ run, before.run = some run ∧
      (isTerminalWorkflowRunStatus run.status = false ∨ run.status = .cancelled ∧ status = .cancelled) := by
  cases journal with
  | runFinished known current active => exact ⟨_, current, .inl active⟩
  | runCancelledAgain data current cancelled =>
    simp only [Event.endsAs, data, Option.some.injEq] at ends
    exact ⟨_, current, .inr ⟨cancelled, ends.symm⟩⟩
  | stepUpdated known =>
    cases data : event.data <;> simp [data, Event.endsAs, Event.stepUpdate, Event.endsAs] at known ends
  | runCreated data | runStarted data | attrSet data | stepCreated data | hookConflict data
  | hookCreated data | hookReceived data | hookDisposed data | hookForced data | waitCreated data
  | waitCompleted data => simp [data, Event.endsAs] at ends

theorem runCreated_absent (journal : Journal W before event after) {eventData : RunCreatedData}
    (created : event.data = .runCreated eventData) : before.run = none := by
  cases journal with
  | runCreated data absent => exact absent
  | runFinished known | stepUpdated known =>
    simp [created, Event.endsAs, Event.stepUpdate] at known
  | runStarted data | runCancelledAgain data | attrSet data | stepCreated data | hookConflict data
  | hookCreated data | hookReceived data | hookDisposed data | hookForced data | waitCreated data
  | waitCompleted data => cases data.symm.trans created

/-- Only the creation of a run finds no run, and steps are found only in a run. -/
theorem absent_runCreated (journal : Journal W before event after) (state : GrammarState now before history)
    (absent : before.run = none) : ∃ eventData, event.data = .runCreated eventData := by
  cases journal with
  | runCreated data => exact ⟨_, data⟩
  | stepUpdated updates stored =>
    have occurs := (state.steps.created _).mpr ⟨_, stored⟩
    rw [state.run.unstarted.mp absent] at occurs
    exact absurd occurs not_occurs_nil
  | runStarted data current | runFinished data current | runCancelledAgain data current
  | attrSet data current | stepCreated data current | hookConflict data current
  | hookCreated data current | hookReceived data current | hookDisposed data current
  | hookForced data current | waitCreated data current | waitCompleted data current =>
    cases absent.symm.trans current

theorem follows (journal : Journal W before event after) (time : event.createdAt = now)
    (state : GrammarState now before history) : Follows (· ≠ "") history event where
  runCreated := by
    rw [← state.run.unstarted]
    exact ⟨fun ⟨_, data⟩ => journal.runCreated_absent data, journal.absent_runCreated state⟩
  ended earlier member status ends := by
    obtain ⟨run, current, same⟩ := state.run.ended earlier member status ends
    have terminal : isTerminalWorkflowRunStatus run.status = true := same ▸ endsAs_terminal ends
    refine ⟨?_, ?_⟩
    · cases opens : event.data.opens with
      | false => rfl
      | true =>
        rw [journal.opens_active opens current] at terminal
        cases terminal
    · cases again : event.endsAs with
      | none => exact .inl rfl
      | some later =>
        obtain ⟨other, stored, active | ⟨cancelled, rfl⟩⟩ := journal.endsAs_active again
        · obtain rfl := Option.some.inj (current.symm.trans stored)
          rw [active] at terminal
          cases terminal
        · obtain rfl := Option.some.inj (current.symm.trans stored)
          exact .inr ⟨rfl, same.symm.trans cancelled⟩
  stepCreated id created := by
    have absent := journal.createdStep_absent created
    refine ⟨fun occurs => ?_, fun occurs => ?_⟩
    · obtain ⟨step, stored⟩ := (state.steps.created id).mp occurs
      cases absent.symm.trans stored
    · obtain ⟨step, stored⟩ := state.steps.updated id occurs
      cases absent.symm.trans stored
  stepUpdated id updated := by
    obtain ⟨step, stored, unfinished, -⟩ := journal.updatedStep_stored updated
    refine ⟨(state.steps.created id).mpr ⟨step, stored⟩, fun occurs => ?_⟩
    obtain ⟨other, held, terminal⟩ := state.steps.finished id occurs
    obtain rfl := Option.some.inj (stored.symm.trans held)
    rw [unfinished] at terminal
    cases terminal
  stepStarted id eventData data retryAfter last := by
    have updated : event.data.updatedStep = some id := by rw [data]; rfl
    obtain ⟨step, stored, -, due⟩ := journal.updatedStep_stored updated
    rcases state.steps.retry id step retryAfter stored last with waits | passed
    · exact due eventData data retryAfter waits
    · exact time ▸ passed
  waitCreated id created := by
    obtain ⟨absent, active⟩ := journal.createdWait_absent created
    intro occurs
    rcases state.waits.kept id occurs with ⟨wait, stored⟩ | terminal
    · cases absent.symm.trans stored
    · cases active.symm.trans terminal
  waitCompleted id completed := by
    obtain ⟨wait, stored, waiting⟩ := journal.completedWait_stored completed
    refine ⟨state.waits.created id wait stored, fun occurs => ?_⟩
    cases waiting.symm.trans (state.waits.completed id wait occurs stored)
  attributeSet id nonempty written := by
    intro occurs
    obtain ⟨eventId, marker⟩ := state.attributes id nonempty occurs
    cases (journal.workflowAttribute_unmarked nonempty written).symm.trans marker
  hookCreated id created := by
    intro occurs
    obtain ⟨eventId, marker⟩ := state.hooks.marked id occurs
    cases (journal.createdHook_fresh created).symm.trans marker
  hookDisposed id disposed := by
    obtain ⟨hook, stored⟩ := journal.disposedHook_stored disposed
    exact state.hooks.live id hook stored
  hookReceived id nonempty received := by
    obtain ⟨⟨hook, stored⟩, run, current, active⟩ := journal.receivedHook_stored nonempty received
    obtain ⟨created, notDisposed⟩ := state.hooks.live id hook stored
    exact ⟨created, notDisposed, state.run.endsAs_of_active current active⟩

end Journal

theorem Quiet.grammarState {now : Nat} {before after : RunStore} {history : List Event}
    (state : GrammarState now before history) (quiet : Quiet before after) :
    GrammarState now after history where
  grammar := state.grammar
  run := by
    have status := RunStore.status_congr quiet.run
    refine ⟨?_, fun event member status' ends => ?_⟩
    · rw [← state.run.unstarted]
      rw [← Option.map_eq_none_iff (f := WorkflowRun.status), status, Option.map_eq_none_iff]
    · obtain ⟨run, current, same⟩ := state.run.ended event member status' ends
      rw [current, Option.map_some, same] at status
      obtain ⟨other, stored, same'⟩ := Option.map_eq_some_iff.mp status
      exact ⟨other, stored, same'⟩
  steps := by
    obtain ⟨created, updated, finished, retry⟩ := state.steps
    constructor <;> rw [quiet.steps] <;> assumption
  waits := by
    refine ⟨fun id wait stored => state.waits.created id wait (quiet.waits.some stored), fun id occurs => ?_,
      state.waits.ordered, fun id wait occurs stored => state.waits.completed id wait occurs
        (quiet.waits.some stored)⟩
    rw [RunStore.isTerminal_congr quiet.run]
    rcases state.waits.kept id occurs with ⟨wait, stored⟩ | terminal
    · rcases quiet.waits id with same | ⟨-, ended⟩
      · exact .inl ⟨wait, same.trans stored⟩
      · cases current : before.run with
        | none =>
          rw [state.run.unstarted.mp current] at occurs
          exact absurd occurs not_occurs_nil
        | some run => exact .inr (by simpa [RunStore.isTerminal, current] using ended run current)
    · exact .inr terminal
  attributes := by
    unfold AttributeState
    rw [quiet.attrEvent]
    exact state.attributes
  hooks := by
    refine ⟨?_, state.hooks.ordered, fun id hook stored => state.hooks.live id hook (quiet.hooks.some stored)⟩
    rw [quiet.hookEvent]
    exact state.hooks.marked

theorem grammar_invariant (W : WorldContract) (runId : String) :
    CellInvariant W runId (· ≤ ·) GrammarState where
  start _ :=
    { grammar := .nil
      run := ⟨⟨fun _ => rfl, fun _ => rfl⟩, fun _ member => nomatch member⟩
      steps := ⟨fun _ => by simp, fun _ occurs => absurd occurs not_occurs_nil,
        fun _ occurs => absurd occurs not_occurs_nil, fun _ _ _ stored => by simp at stored⟩
      waits := ⟨fun _ _ stored => by simp at stored, fun _ occurs => absurd occurs not_occurs_nil,
        fun _ occurs => absurd occurs not_occurs_nil, fun _ _ occurs => absurd occurs not_occurs_nil⟩
      attributes := fun _ _ occurs => absurd occurs not_occurs_nil
      hooks := ⟨fun _ occurs => absurd occurs not_occurs_nil,
        fun _ occurs => absurd occurs not_occurs_nil, fun _ _ stored => by simp at stored⟩ }
  tick later state :=
    { state with steps := { state.steps with
        retry := fun id step retryAfter stored last =>
          (state.steps.retry id step retryAfter stored last).imp_right (Nat.le_trans · later) } }
  journal state stamped journal :=
    { grammar := state.grammar.snoc (journal.follows stamped.createdAt state)
      run := journal.runState state.run state.steps
      steps := journal.stepState stamped.createdAt state.steps
      waits := journal.waitState state.waits
      attributes := journal.attributeState state.attributes
      hooks := journal.hookState state.hooks }
  quiet state quiet := quiet.grammarState state

/-- Under a clock that never goes back, every journaled history follows the grammar,
with the empty correlation ID left out of the attribute and resume rules. -/
theorem journal_follows_grammar {W : WorldContract} {runId : String} {now : Nat} {store : RunStore}
    {history : List Event} (reach : CellReach W runId (· ≤ ·) now store history) :
    Grammar (· ≠ "") history ∧ (store.beforePayload = true → store.log W = history) := by
  obtain ⟨-, time, last, state⟩ := (grammar_invariant W runId).reach reach
  exact ⟨state.grammar, fun before => (reach.logState before).log⟩

/-- A resume without a hook ID, and the log it leaves. -/
def CellOp.anonymousResume (runId : String) : CellOp :=
  .applyEvent { runId, data := { specVersion := none, data := .hookReceived "" (.string "payload") } }

theorem journal_follows_grammar_started :
    let started := CellOp.run .unary "run" 1 (.resilientStart "run" "deployment" "workflow" (.string "input")) {}
    Grammar (· ≠ "") ([] ++ appended .unary {} started) :=
  (journal_follows_grammar (.next _ (.start 0) (Nat.zero_le 1))).1

/-- The empty correlation ID passes the hook guard: its resume is journaled although
no hook was created. -/
theorem anonymousResume_breaks_grammar :
    ¬ ∀ W runId now store history, CellReach W runId (· ≤ ·) now store history →
      Grammar (fun _ => True) history := by
  intro claim
  have grammar := claim .unary "run" 1 _ _ (.next (.anonymousResume "run")
    (.next (.resilientStart "run" "deployment" "workflow" (.string "input")) (.start 1)
      (Nat.le_refl 1)) (Nat.le_refl 1))
  let created : EventData := .runCreated ⟨"deployment", "workflow", .string "input", none, none, none, none⟩
  have follows := grammar
    [⟨"0", "run", 1, none, none, 5, created⟩, ⟨"00", "run", 1, none, none, 5, .runStarted⟩]
    ⟨"000", "run", 1, none, none, 5, .hookReceived "" (.string "payload")⟩ [] (by decide)
  obtain ⟨⟨event, member, createdHook⟩, -⟩ := follows.hookReceived "" trivial rfl
  simp only [List.mem_cons, List.not_mem_nil, or_false] at member
  rcases member with rfl | rfl <;> cases createdHook

end CelldWorld
