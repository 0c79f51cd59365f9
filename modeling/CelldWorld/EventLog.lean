import CelldWorld.CellRuns

namespace CelldWorld

/-- The stored log is dense, holds each event under its own ID, and is the history. -/
structure LogState (W : WorldContract) (runId : String) (store : RunStore) (history : List Event) :
    Prop where
  dense : SlotLog.Dense W.slotToEventId store.events store.eventSequence
  stored : ∀ (id : String) event, store.events[id]? = some event → event.eventId = id ∧ event.runId = runId
  log : store.log W = history

theorem logState_invariant (W : WorldContract) (runId : String) (clock : Nat → Nat → Prop) :
    CellInvariant W runId clock fun _ => LogState W runId where
  start _ := ⟨SlotLog.dense_empty, fun id event stored => by simp at stored, rfl⟩
  tick _ state := state
  journal {now before after history event} state stamped journal := by
    obtain ⟨events, sequence⟩ := journal.appends
    refine ⟨?_, fun id other stored => ?_, ?_⟩
    · rw [events, sequence, stamped.eventId]
      exact state.dense.insert_next event
    · rw [events, Std.ExtTreeMap.getElem?_insert] at stored
      split at stored
      · rename_i same
        obtain rfl := Option.some.inj stored
        exact ⟨Std.LawfulEqCmp.eq_of_compare same, stamped.ofRun⟩
      · exact state.stored id other stored
    · rw [journal.log stamped, state.log]
  quiet state quiet := by
    refine ⟨?_, fun id event stored => state.stored id event (quiet.events ▸ stored), ?_⟩
    · rw [quiet.events, quiet.eventSequence]
      exact state.dense
    · rw [quiet.log, state.log]

/-- Before payload deletion the stored log is the whole journaled history. -/
theorem CellReach.logState {W : WorldContract} {runId : String} {clock : Nat → Nat → Prop} {now : Nat}
    {store : RunStore} {history : List Event} (reach : CellReach W runId clock now store history)
    (before : store.beforePayload = true) : LogState W runId store history :=
  (((logState_invariant W runId clock).reach reach).1 before).2

/-- Journaling never rewrites a stored event: the next slot is still free. -/
theorem Journals.keeps {W : WorldContract} {runId : String} {now : Nat} {before after : RunStore}
    {events : List Event} (journals : Journals W runId now before events after)
    (dense : SlotLog.Dense W.slotToEventId before.events before.eventSequence) :
    SlotLog.Dense W.slotToEventId after.events after.eventSequence ∧
      ∀ (id : String) event, before.events[id]? = some event → after.events[id]? = some event := by
  induction journals with
  | start => exact ⟨dense, fun _ _ stored => stored⟩
  | next _ stamped journal ih =>
    obtain ⟨dense, kept⟩ := ih
    obtain ⟨events, sequence⟩ := journal.appends
    rw [events, sequence, stamped.eventId]
    refine ⟨dense.insert_next _, fun id event stored => ?_⟩
    have held := kept id event stored
    rw [Std.ExtTreeMap.getElem?_insert, if_neg]
    · exact held
    · intro same
      refine dense.next_absent W.slotToEventId_injective ?_
      rw [Std.LawfulEqCmp.eq_of_compare same, Std.ExtTreeMap.mem_iff_isSome_getElem?, held]
      rfl

namespace WorkflowRunDO
variable {W : WorldContract} {runId : String} {now : Nat} {store after : RunStore}

theorem commitOutcome_succeeds {request : ApplyEventRequest} {storedSequence : Nat}
    {success : ApplyEventSuccess} {txn : EventTxn} {refusal : ApplyEventFailure} :
    commitOutcome W request now storedSequence success txn ≠ .ok (.fail refusal, after) := by
  intro commit
  unfold commitOutcome at commit
  obtain ⟨⟨scheduled, retained⟩, -, commit⟩ := bind_ok.mp commit
  have answered := (Prod.mk.inj (Except.ok.inj commit)).1
  unfold finalizeEventPage at answered
  simp only at answered
  repeat' split at answered
  all_goals cases answered

/-- A refused application leaves the whole store as it was. -/
theorem applyEvent_fails {request : ApplyEventRequest} {refusal : ApplyEventFailure}
    (call : applyEvent W runId now request store = .ok (.fail refusal, after)) : after = store := by
  rcases applyEvent_ok call with ⟨-, rfl⟩ | ⟨success, txn, -, -, -, commit⟩
  · rfl
  · exact absurd commit commitOutcome_succeeds

end WorkflowRunDO

/-- The log of a cell before payload deletion is dense, and holds events of the run under
their own IDs. A transaction keeps every stored event and appends to the log, and one that
fails or throws changes nothing. -/
theorem eventLog_dense_appendOnly {W : WorldContract} {runId : String} {clock : Nat → Nat → Prop}
    {now : Nat} {store : RunStore} {history : List Event}
    (reach : CellReach W runId clock now store history)
    (before : store.beforePayload = true) :
    (∀ id : String, id ∈ store.events ↔
      ∃ slot, 1 ≤ slot ∧ slot ≤ store.eventSequence ∧ W.slotToEventId slot = id) ∧
    (∀ (id : String) event, store.events[id]? = some event → event.eventId = id ∧ event.runId = runId) ∧
    (∀ op later (id : String) event, store.events[id]? = some event →
      (CellOp.run W runId later op store).events[id]? = some event) ∧
    (∀ op later, ∃ suffix, (CellOp.run W runId later op store).log W = store.log W ++ suffix) ∧
    (∀ request later refusal after,
      WorkflowRunDO.applyEvent W runId later request store = .ok (.fail refusal, after) → after = store) ∧
    (∀ request later thrown, WorkflowRunDO.applyEvent W runId later request store = .error thrown →
      CellOp.run W runId later (.applyEvent request) store = store) ∧
    (∀ hookId token claimedBy later thrown,
      WorkflowRunDO.forceDisposeHook W runId later hookId token claimedBy store = .error thrown →
      CellOp.run W runId later (.forceDisposeHook hookId token claimedBy) store = store) := by
  obtain ⟨cleans, state⟩ := ((logState_invariant W runId clock).reach reach).1 before
  refine ⟨state.dense, state.stored, fun op later id event stored => ?_, fun op later => ?_,
    fun request later refusal after call => WorkflowRunDO.applyEvent_fails call,
    fun request later thrown call => by rw [CellOp.run, call]; rfl,
    fun hookId token claimedBy later thrown call => by rw [CellOp.run, call]; rfl⟩
  · obtain ⟨events, middle, journals, quiet⟩ :=
      CellOp.run_transition W runId later op before cleans
    rw [quiet.events]
    exact (journals.keeps state.dense).2 id event stored
  · obtain ⟨events, middle, journals, quiet⟩ :=
      CellOp.run_transition W runId later op before cleans
    exact ⟨events, by rw [quiet.log, journals.log]⟩

/-- The log of a run that a resilient `run_started` has just bootstrapped. -/
theorem eventLog_dense_appendOnly_bootstrapped :
    let started := CellOp.run .unary "run" 7 (.resilientStart "run" "deployment" "workflow" (.string "input")) {}
    ∀ id : String, id ∈ started.events ↔
      ∃ slot, 1 ≤ slot ∧ slot ≤ 2 ∧ WorldContract.unary.slotToEventId slot = id :=
  have reach : CellReach .unary "run" (· ≤ ·) 7 _ _ := .next _ (.start 0) (Nat.zero_le 7)
  (eventLog_dense_appendOnly reach (by decide)).1

end CelldWorld
