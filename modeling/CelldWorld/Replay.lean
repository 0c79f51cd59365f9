import CelldWorld.Materialization

namespace CelldWorld

/-- What a run cell's store has in common with its journaled history. -/
structure MaterializedState (W : WorldContract) (store : RunStore) (history : List Event) : Prop where
  run : RunProjected store (project W history)
  marked : HooksMarked store
  unstarted : store.run = none → store.hooks = ∅ ∧ store.waits = ∅ ∧ store.hookCreated = ∅
  entities : store.isTerminal = false → EntitiesProjected store (project W history)

theorem Journal.hooksMarked {W : WorldContract} {before after : RunStore} {event : Event}
    (journal : Journal W before event after) (marked : HooksMarked before) : HooksMarked after := by
  have released (id : String) (hook : Hook) : HooksMarked (before.releaseHook id hook) := by
    intro other found held
    simp only [RunStore.releaseHook, Std.ExtTreeMap.getElem?_erase] at held
    split at held
    · cases held
    · exact marked other found held
  cases journal
  case hookCreated id eventData data current active fresh =>
    intro other found held
    simp only [RunStore.append, RunStore.putHookEvent, RunStore.putHook,
      Std.ExtTreeMap.getElem?_insert] at held ⊢
    split at held
    · rename_i same
      exact ⟨event.eventId, if_pos same⟩
    · rename_i different
      obtain ⟨eventId, marker⟩ := marked other found held
      exact ⟨eventId, (if_neg different).trans marker⟩
  case hookDisposed id token claimedBy hook _ _ _ => exact released id hook
  case hookForced id token claimedBy hook _ _ _ _ _ _ => exact released id hook
  all_goals exact marked

/-- Hooks and waits belong to a run that exists. -/
theorem Journal.unstarted {W : WorldContract} {before after : RunStore} {event : Event}
    (journal : Journal W before event after) (absent : after.run = none) :
    before.run = none ∧ after.hooks = before.hooks ∧ after.waits = before.waits ∧
      after.hookCreated = before.hookCreated := by
  cases journal with
  | stepUpdated => exact ⟨absent, rfl, rfl, rfl⟩
  | runCreated | runStarted | runFinished | attrSet => cases absent
  | runCancelledAgain data current | stepCreated data current | hookConflict data current
  | hookCreated data current | hookReceived data current | hookDisposed data current
  | hookForced data current | waitCreated data current | waitCompleted data current =>
    cases absent.symm.trans current

theorem WorkflowRun.view_unexpired {before after : RunStore}
    (same : after.run.map WorkflowRun.unexpired = before.run.map WorkflowRun.unexpired) :
    after.run.map WorkflowRun.view = before.run.map WorkflowRun.view := by
  have views := congrArg (Option.map WorkflowRun.view) same
  rwa [Option.map_map, Option.map_map] at views

theorem Swept.of_empty {κ ν : Type} {cmp : κ → κ → Ordering} [Std.TransCmp cmp] [Std.LawfulEqCmp cmp]
    {before after : Std.ExtTreeMap κ ν cmp} {ended : Prop} (swept : Swept before after ended)
    (empty : before = ∅) : after = before := by
  refine Std.ExtTreeMap.ext_getElem? fun {key} => ?_
  rcases swept key with same | ⟨gone, -⟩
  · exact same
  · rw [gone, empty, Std.ExtTreeMap.getElem?_empty]

/-- While a run is not terminal a quiet change keeps its hooks and waits. -/
theorem Quiet.keepsEntities {before after : RunStore} (quiet : Quiet before after)
    (active : before.isTerminal = false)
    (unstarted : before.run = none → before.hooks = ∅ ∧ before.waits = ∅ ∧ before.hookCreated = ∅) :
    after.hooks = before.hooks ∧ after.waits = before.waits ∧ after.hookCreated = before.hookCreated := by
  cases current : before.run with
  | none =>
    obtain ⟨hooks, waits, hookCreated⟩ := unstarted current
    exact ⟨quiet.hooks.of_empty hooks, quiet.waits.of_empty waits, quiet.hookCreated.of_empty hookCreated⟩
  | some run =>
    have goesOn : ¬ before.Ended := by
      intro ended
      have := ended run current
      simp [RunStore.isTerminal, current, this] at active
    exact ⟨quiet.hooks.eq goesOn, quiet.waits.eq goesOn, quiet.hookCreated.eq goesOn⟩

theorem materialized_invariant (W : WorldContract) (runId : String) (clock : Nat → Nat → Prop) :
    CellInvariant W runId clock fun _ => MaterializedState W where
  start _ :=
    { run := ⟨rfl, fun _ => by simp [project], fun _ _ _ => by simp⟩
      marked := fun _ _ held => by simp at held
      unstarted := fun _ => ⟨rfl, rfl, rfl⟩
      entities := fun _ => ⟨fun _ => by simp [project], fun _ => by simp [project],
        fun _ _ held => by simp at held, fun _ _ _ => by simp⟩ }
  tick _ state := state
  journal {now before after history event} state stamped journal := by
    have run := journal.runProjected state.run
    rw [← project_append] at run
    refine ⟨run, journal.hooksMarked state.marked, fun absent => ?_, fun active => ?_⟩
    · obtain ⟨absent, hooks, waits, hookCreated⟩ := journal.unstarted absent
      rw [hooks, waits, hookCreated]
      exact state.unstarted absent
    · have active : before.isTerminal = false := by
        cases terminal : before.isTerminal with
        | false => rfl
        | true => exact absurd (journal.isTerminal terminal) (by simp [active])
      rw [project_append]
      exact journal.entitiesProjected state.marked (state.entities active)
  quiet {now before after history} state quiet := by
    refine ⟨⟨?_, ?_, ?_⟩, fun id hook held => ?_, fun absent => ?_, fun active => ?_⟩
    · rw [WorkflowRun.view_unexpired quiet.run]
      exact state.run.run
    · rw [quiet.steps]
      exact state.run.steps
    · rw [quiet.steps, quiet.stepCreated]
      exact state.run.stepCreated
    · rw [quiet.hookEvent]
      exact state.marked id hook (quiet.hooks.some held)
    · have absent : before.run = none := by
        have same := quiet.run
        rw [absent, Option.map_none, eq_comm, Option.map_eq_none_iff] at same
        exact same
      obtain ⟨hooks, waits, hookCreated⟩ := state.unstarted absent
      exact ⟨(quiet.hooks.of_empty hooks).trans hooks, (quiet.waits.of_empty waits).trans waits,
        (quiet.hookCreated.of_empty hookCreated).trans hookCreated⟩
    · rw [RunStore.isTerminal_congr quiet.run] at active
      obtain ⟨hooks, waits, hookCreated⟩ := quiet.keepsEntities active state.unstarted
      exact (state.entities active).congr waits hooks hookCreated rfl rfl

/-- What a cell adds around an application leaves every entity alone and starts no
payload deletion. -/
structure Settled (before after : RunStore) : Prop where
  hooks : after.hooks = before.hooks
  waits : after.waits = before.waits
  hookCreated : after.hookCreated = before.hookCreated
  tombstone : after.tombstone = before.tombstone
  cleanup : after.cleanup = before.cleanup ∨
    ∃ record, after.cleanup = some record ∧ record.phase = .retained

theorem Settled.refl {store : RunStore} : Settled store store :=
  ⟨rfl, rfl, rfl, rfl, .inl rfl⟩

theorem Settled.beforePayload {before after : RunStore} (settled : Settled before after)
    (payload : before.beforePayload = true) : after.beforePayload = true := by
  unfold RunStore.beforePayload at payload ⊢
  rw [settled.tombstone]
  rcases settled.cleanup with same | ⟨record, stored, phase⟩
  · rw [same]
    exact payload
  · rw [stored]
    simp only [Bool.and_eq_true] at payload
    simp [payload.1, phase]

namespace WorkflowRunDO
variable {W : WorldContract} {runId : String} {now : Nat} {store store' : RunStore}

theorem commitOutcome_settled {request : ApplyEventRequest} {success : ApplyEventSuccess} {txn : EventTxn}
    {outcome : ApplyEventOutcome}
    (run : commitOutcome W request now txn.store.eventSequence success txn = .ok (outcome, store')) :
    Settled txn.commit store' := by
  obtain ⟨scheduled, committed, -⟩ := commitOutcome_ok run
  cases committed with
  | active => exact ⟨rfl, rfl, rfl, rfl, .inl rfl⟩
  | ended => exact ⟨rfl, rfl, rfl, rfl, .inl rfl⟩
  | retained => exact ⟨rfl, rfl, rfl, rfl, .inr ⟨_, rfl, rfl⟩⟩

end WorkflowRunDO

theorem Journals.keepCleanup {W : WorldContract} {runId : String} {now : Nat} {before after : RunStore}
    {events : List Event} (journals : Journals W runId now before events after) :
    after.beforePayload = before.beforePayload := by
  induction journals with
  | start => rfl
  | next _ _ journal ih =>
    rw [← ih]
    cases journal <;> rfl

/-- The two calls that write events. -/
def CellOp.isCall : CellOp → Bool
  | .applyEvent _ | .forceDisposeHook .. => true
  | _ => false

/-- A call on a run that is not terminal journals its events and settles. -/
theorem CellOp.call_settled (W : WorldContract) (runId : String) (now : Nat) {op : CellOp}
    {store : RunStore} (call : op.isCall = true) (active : store.isTerminal = false)
    (unstarted : store.run = none → store.hooks = ∅) :
    ∃ events middle, Journals W runId now store events middle ∧
      Quiet middle (op.run W runId now store) ∧ Settled middle (op.run W runId now store) := by
  cases op with
  | applyEvent request =>
    simp only [CellOp.run]
    cases answer : WorkflowRunDO.applyEvent W runId now request store with
    | error => exact ⟨[], store, .start, .refl, .refl⟩
    | ok result =>
      rcases WorkflowRunDO.applyEvent_ok answer with ⟨-, same⟩ | ⟨success, txn, ofRun, -, applied, commit⟩
      · simp only [transaction, same]
        exact ⟨[], store, .start, .refl, .refl⟩
      · obtain ⟨-, -, events, journals⟩ := applyEvent_journals applied
        exact ⟨events, txn.commit, ofRun ▸ journals,
          WorkflowRunDO.commitOutcome_quiet (applyEvent_answers applied) commit,
          WorkflowRunDO.commitOutcome_settled commit⟩
  | forceDisposeHook hookId token claimedBy =>
    simp only [CellOp.run]
    cases answer : WorkflowRunDO.forceDisposeHook W runId now hookId token claimedBy store with
    | error => exact ⟨[], store, .start, .refl, .refl⟩
    | ok result =>
      rcases WorkflowRunDO.forceDisposeHook_ok answer with ⟨-, events, journals⟩ | ⟨hook, stored, -, -, ended, -⟩
      · exact ⟨events, _, journals, .refl, .refl⟩
      · -- a hook that is swept silently would need an ended run
        exfalso
        cases current : store.run with
        | none =>
          rw [unstarted current] at stored
          simp at stored
        | some run => simp [RunStore.isTerminal, current, ended run current] at active
  | _ => cases call

/-- The stores reached by calls on a run that is not terminal. -/
inductive CallReach (W : WorldContract) (runId : String) : RunStore → Prop
  | start : CallReach W runId {}
  | next {store : RunStore} {op : CellOp} {now : Nat} (reach : CallReach W runId store)
      (call : op.isCall = true) (active : store.isTerminal = false) :
      CallReach W runId (op.run W runId now store)

/-- Journaling a sequence of events is followed by reading them. -/
theorem Journals.projected {W : WorldContract} {runId : String} {now : Nat} {before after : RunStore}
    {events history : List Event} (journals : Journals W runId now before events after)
    (run : RunProjected before (project W history)) (marked : HooksMarked before)
    (entities : EntitiesProjected before (project W history)) :
    RunProjected after (project W (history ++ events)) ∧ HooksMarked after ∧
      EntitiesProjected after (project W (history ++ events)) := by
  induction journals with
  | start =>
    rw [List.append_nil]
    exact ⟨run, marked, entities⟩
  | next _ _ journal ih =>
    obtain ⟨run, marked, entities⟩ := ih
    rw [← List.append_assoc, project_append]
    exact ⟨journal.runProjected run, journal.hooksMarked marked, journal.entitiesProjected marked entities⟩

theorem Quiet.runProjected {before after : RunStore} {state : Projection} (quiet : Quiet before after)
    (projected : RunProjected before state) : RunProjected after state where
  run := (WorkflowRun.view_unexpired quiet.run).trans projected.run
  steps := quiet.steps ▸ projected.steps
  stepCreated := by
    rw [quiet.steps, quiet.stepCreated]
    exact projected.stepCreated

/-- The stored state is the fold of the log, also right after a call that ended the run. -/
theorem CellReach.call_projected {W : WorldContract} {runId : String} {clock : Nat → Nat → Prop}
    {now : Nat} {store : RunStore} {history : List Event} (reach : CellReach W runId clock now store history)
    (before : store.beforePayload = true) (active : store.isTerminal = false) {op : CellOp}
    (call : op.isCall = true) (later : Nat) :
    RunProjected (op.run W runId later store) (project W ((op.run W runId later store).log W)) ∧
      EntitiesProjected (op.run W runId later store) (project W ((op.run W runId later store).log W)) ∧
      (op.run W runId later store).beforePayload = true := by
  have state := (((materialized_invariant W runId clock).reach reach).1 before).2
  obtain ⟨events, middle, journals, quiet, settled⟩ := CellOp.call_settled W runId later
    call active fun absent => (state.unstarted absent).1
  obtain ⟨run, -, entities⟩ := journals.projected state.run state.marked (state.entities active)
  rw [quiet.log, journals.log, (reach.logState before).log]
  exact ⟨quiet.runProjected run, entities.congr settled.waits settled.hooks settled.hookCreated rfl rfl,
    settled.beforePayload (journals.keepCleanup.trans before)⟩

theorem CallReach.cellReach {W : WorldContract} {runId : String} {store : RunStore}
    (reach : CallReach W runId store) :
    store.beforePayload = true ∧ ∃ now history, CellReach W runId (fun _ _ => True) now store history := by
  induction reach with
  | start => exact ⟨rfl, 0, [], .start 0⟩
  | @next store op now reach call active ih =>
    obtain ⟨before, earlier, history, reached⟩ := ih
    exact ⟨(reached.call_projected before active call now).2.2, now, _, .next op reached trivial⟩

/-- The materialized state of an active run is the fold of its log, in every store
that calls on the run can reach. -/
theorem materialized_eq_fold {W : WorldContract} {runId : String} {store : RunStore}
    (reach : CallReach W runId store) :
    RunProjected store (project W (store.log W)) ∧ EntitiesProjected store (project W (store.log W)) := by
  cases reach with
  | start =>
    have state := (materialized_invariant W runId fun _ _ => True).start 0
    exact ⟨state.run, state.entities rfl⟩
  | next reach call active =>
    obtain ⟨before, now, history, reached⟩ := reach.cellReach
    obtain ⟨run, entities, -⟩ := reached.call_projected before active call _
    exact ⟨run, entities⟩

/-- A run with a completed step, a live hook and a wait. -/
def RunStore.waiting : RunStore :=
  [CellOp.resilientStart "run" "deployment" "workflow" (.string "input"),
    .event (.stepCreated "step" ⟨"work", none, .string "argument"⟩), .event (.stepStarted "step" none),
    .event (.stepCompleted "step" (some (.string "result"))),
    .event (.hookCreated "hook" ⟨"token", none, none, none, none, none, none⟩),
    .event (.waitCreated "wait" 9)].foldl (fun store op => CellOp.run .unary "run" 7 op store) {}

theorem RunStore.waiting_reach : CallReach .unary "run" .waiting := by
  simp only [RunStore.waiting, List.foldl_cons, List.foldl_nil]
  refine .next (.next (.next (.next (.next (.next .start rfl ?_) rfl ?_) rfl ?_) rfl ?_) rfl ?_) rfl ?_
  all_goals decide +kernel

theorem materialized_eq_fold_waiting :
    RunProjected .waiting (project .unary (RunStore.waiting.log .unary)) ∧
      EntitiesProjected .waiting (project .unary (RunStore.waiting.log .unary)) ∧
      (project .unary (RunStore.waiting.log .unary)).steps "step" =
        some ⟨.completed, 1, some (.string "result"), none, none, some 7, some 7⟩ ∧
      ((project .unary (RunStore.waiting.log .unary)).hooks "hook").isSome = true ∧
      (project .unary (RunStore.waiting.log .unary)).waits "wait" = some ⟨.waiting, 9⟩ :=
  ⟨(materialized_eq_fold RunStore.waiting_reach).1, (materialized_eq_fold RunStore.waiting_reach).2,
    by decide +kernel, by decide +kernel, by decide +kernel⟩

end CelldWorld
