import CelldWorld.PayloadDeletion

namespace CelldWorld

/-- The events by which one transaction extended the log. -/
def appended (W : WorldContract) (before after : RunStore) : List Event :=
  (after.log W).drop (before.log W).length

/-- The stores of the run cell named `runId` that are reachable by its transactions,
each with all the events journaled so far. `clock` says which readings of the clock
may follow one another. -/
inductive CellReach (W : WorldContract) (runId : String) (clock : Nat → Nat → Prop) :
    Nat → RunStore → List Event → Prop
  | start (now : Nat) : CellReach W runId clock now {} []
  | next {earlier now : Nat} {store : RunStore} {history : List Event} (op : CellOp)
      (reach : CellReach W runId clock earlier store history) (tick : clock earlier now) :
      CellReach W runId clock now (op.run W runId now store)
        (history ++ appended W store (op.run W runId now store))

/-- A run cell and its history after further transactions, all at one time. -/
def CellOp.runAll (W : WorldContract) (runId : String) (now : Nat) (ops : List CellOp)
    (cell : RunStore × List Event) : RunStore × List Event :=
  ops.foldl (fun cell op =>
    let after := op.run W runId now cell.1
    (after, cell.2 ++ appended W cell.1 after)) cell

theorem CellReach.runAll {W : WorldContract} {runId : String} {clock : Nat → Nat → Prop} {now : Nat}
    {cell : RunStore × List Event} (ops : List CellOp) (still : clock now now)
    (reach : CellReach W runId clock now cell.1 cell.2) :
    CellReach W runId clock now (CellOp.runAll W runId now ops cell).1
      (CellOp.runAll W runId now ops cell).2 := by
  induction ops generalizing cell with
  | nil => exact reach
  | cons op ops ih => exact ih (.next op reach still)

/-- The runs all of whose transactions are admitted, at their time and store. -/
inductive CellReachWhere (W : WorldContract) (runId : String) (clock : Nat → Nat → Prop)
    (admits : Nat → RunStore → CellOp → Prop) : Nat → RunStore → List Event → Prop
  | start (now : Nat) : CellReachWhere W runId clock admits now {} []
  | next {earlier now : Nat} {store : RunStore} {history : List Event} {op : CellOp}
      (reach : CellReachWhere W runId clock admits earlier store history) (tick : clock earlier now)
      (admitted : admits now store op) :
      CellReachWhere W runId clock admits now (op.run W runId now store)
        (history ++ appended W store (op.run W runId now store))

theorem CellReachWhere.reach {W : WorldContract} {runId : String} {clock : Nat → Nat → Prop}
    {admits : Nat → RunStore → CellOp → Prop} {now : Nat} {store : RunStore} {history : List Event}
    (reach : CellReachWhere W runId clock admits now store history) :
    CellReach W runId clock now store history := by
  induction reach with
  | start => exact .start _
  | next _ tick _ ih => exact .next _ ih tick

theorem Journal.log {W : WorldContract} {runId : String} {now : Nat} {before after : RunStore}
    {event : Event} (stamped : NextEvent W runId now before event) (journal : Journal W before event after) :
    after.log W = before.log W ++ [event] := by
  obtain ⟨events, sequence⟩ := journal.appends
  unfold RunStore.log
  rw [events, sequence, stamped.eventId]
  exact SlotLog.entries_insert_next W.slotToEventId_injective event

theorem Journals.log {W : WorldContract} {runId : String} {now : Nat} {before after : RunStore}
    {events : List Event} (journals : Journals W runId now before events after) :
    after.log W = before.log W ++ events := by
  induction journals with
  | start => rw [List.append_nil]
  | next _ stamped journal ih => rw [journal.log stamped, ih, List.append_assoc]

theorem Quiet.log {W : WorldContract} {before after : RunStore} (quiet : Quiet before after) :
    after.log W = before.log W := by
  unfold RunStore.log
  rw [quiet.events, quiet.eventSequence]

/-- Terminal runs stay terminal. -/
theorem Journal.isTerminal {W : WorldContract} {before after : RunStore} {event : Event}
    (journal : Journal W before event after) (terminal : before.isTerminal = true) :
    after.isTerminal = true := by
  cases journal
  case runCreated _ _ absent => simp [RunStore.isTerminal, absent] at terminal
  case runStarted _ _ current fresh =>
    simp [RunStore.isTerminal, current, fresh, isTerminalWorkflowRunStatus] at terminal
  case runFinished _ _ _ current active => simp [RunStore.isTerminal, current, active] at terminal
  case attrSet _ _ _ _ current active _ => simp [RunStore.isTerminal, current, active] at terminal
  all_goals exact terminal

theorem Journal.terminalCleanup {W : WorldContract} {before after : RunStore} {event : Event}
    (journal : Journal W before event after) : after.terminalCleanup = before.terminalCleanup := by
  cases journal <;> rfl

theorem Journals.cleansTerminal {W : WorldContract} {runId : String} {now : Nat} {before after : RunStore}
    {events : List Event} (journals : Journals W runId now before events after)
    (cleans : before.CleansTerminal) : after.CleansTerminal := by
  induction journals with
  | start => exact cleans
  | next _ _ journal ih => exact fun started => journal.isTerminal (ih (journal.terminalCleanup ▸ started))

theorem Quiet.cleansTerminal {before after : RunStore} (quiet : Quiet before after)
    (cleans : before.CleansTerminal) : after.CleansTerminal := by
  intro started
  rw [RunStore.isTerminal_congr quiet.run]
  rcases quiet.terminalCleanup started with earlier | terminal
  · exact cleans earlier
  · exact terminal

theorem Transition.appended {W : WorldContract} {runId : String} {now : Nat} {before middle after : RunStore}
    {events : List Event} (journals : Journals W runId now before events middle)
    (quiet : Quiet middle after) : appended W before after = events := by
  unfold CelldWorld.appended
  rw [quiet.log, journals.log, List.drop_left]

theorem Quiet.appended {W : WorldContract} {before after : RunStore} (quiet : Quiet before after) :
    appended W before after = [] := by
  unfold CelldWorld.appended
  rw [quiet.log, List.drop_length]

theorem Remains.appended {W : WorldContract} {before after : RunStore} (remains : Remains before after) :
    appended W before after = [] :=
  List.drop_eq_nil_of_le (SlotLog.length_entries_le remains.events remains.eventSequence)

/-- An invariant of the run cell: it survives the clock, every journaled event and
every quiet change. -/
structure CellInvariant (W : WorldContract) (runId : String) (clock : Nat → Nat → Prop)
    (invariant : Nat → RunStore → List Event → Prop) : Prop where
  start : ∀ now, invariant now {} []
  tick : ∀ {now later store history}, clock now later → invariant now store history →
    invariant later store history
  journal : ∀ {now before after history event}, invariant now before history →
    NextEvent W runId now before event → Journal W before event after →
    invariant now after (history ++ [event])
  quiet : ∀ {now before after history}, invariant now before history → Quiet before after →
    invariant now after history

namespace CellInvariant
variable {W : WorldContract} {runId : String} {clock : Nat → Nat → Prop}
variable {now : Nat} {store after : RunStore} {history : List Event}
variable {invariant : Nat → RunStore → List Event → Prop}

theorem journals {events : List Event} (preserved : CellInvariant W runId clock invariant)
    (holds : invariant now store history) (journals : Journals W runId now store events after) :
    invariant now after (history ++ events) := by
  induction journals with
  | start => rwa [List.append_nil]
  | next _ stamped journal ih => exact List.append_assoc _ _ _ ▸ preserved.journal ih stamped journal

/-- The invariant holds in every reachable store before payload deletion, and of
every journaled history with the last store before payload deletion. -/
theorem reach (preserved : CellInvariant W runId clock invariant)
    (reach : CellReach W runId clock now store history) :
    (store.beforePayload = true → store.CleansTerminal ∧ invariant now store history) ∧
      ∃ time last, invariant time last history := by
  induction reach with
  | start => exact ⟨fun _ => ⟨nofun, preserved.start _⟩, _, _, preserved.start 0⟩
  | @next earlier now store history op reach tick ih =>
    obtain ⟨ih, time, last, held⟩ := ih
    cases before : store.beforePayload with
    | true =>
      obtain ⟨cleans, holds⟩ := ih before
      obtain ⟨events, middle, journals, quiet⟩ :=
        CellOp.run_transition W runId now op before cleans
      rw [Transition.appended journals quiet]
      have held := preserved.quiet (preserved.journals (preserved.tick tick holds) journals) quiet
      exact ⟨fun _ => ⟨quiet.cleansTerminal (journals.cleansTerminal cleans), held⟩, now, _, held⟩
    | false =>
      have remains := CellOp.run_remains W runId now op before
      rw [remains.appended, List.append_nil]
      refine ⟨fun after => ?_, time, last, held⟩
      rw [remains.payload] at after
      cases after

end CellInvariant

end CelldWorld
