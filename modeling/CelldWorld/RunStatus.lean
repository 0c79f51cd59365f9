import CelldWorld.LogGrammar

namespace CelldWorld

/-- The position of a status on the way from pending to terminal. -/
def RunStatus.rank : RunStatus → Nat
  | .pending => 0
  | .running => 1
  | .completed | .failed | .cancelled => 2

theorem RunStatus.rank_le_two (status : RunStatus) : status.rank ≤ 2 := by
  cases status <;> decide

/-- A later value of a run record: the status only moves forward, and a terminal
status is kept with its result. -/
structure Advances (earlier later : WorkflowRun) : Prop where
  status : earlier.status.rank ≤ later.status.rank
  frozen : isTerminalWorkflowRunStatus earlier.status = true →
    later.status = earlier.status ∧ later.output = earlier.output ∧ later.error = earlier.error ∧
      later.completedAt = earlier.completedAt

theorem Advances.refl {run : WorkflowRun} : Advances run run :=
  ⟨Nat.le_refl _, fun _ => ⟨rfl, rfl, rfl, rfl⟩⟩

theorem Advances.trans {first middle last : WorkflowRun} (head : Advances first middle)
    (tail : Advances middle last) : Advances first last where
  status := Nat.le_trans head.status tail.status
  frozen terminal := by
    obtain ⟨status, output, error, completedAt⟩ := head.frozen terminal
    obtain ⟨status', output', error', completedAt'⟩ := tail.frozen (status ▸ terminal)
    exact ⟨status'.trans status, output'.trans output, error'.trans error, completedAt'.trans completedAt⟩

theorem Advances.of_active {earlier later : WorkflowRun}
    (active : isTerminalWorkflowRunStatus earlier.status = false)
    (forward : earlier.status.rank ≤ later.status.rank) : Advances earlier later :=
  ⟨forward, fun terminal => by cases active.symm.trans terminal⟩

/-- One journaled event advances the run it finds. -/
theorem Journal.advances {W : WorldContract} {before after : RunStore} {event : Event} {run : WorkflowRun}
    (journal : Journal W before event after) (current : before.run = some run) :
    ∃ run', after.run = some run' ∧ Advances run run' := by
  cases journal with
  | runCreated data absent => cases absent.symm.trans current
  | runStarted data stored fresh =>
    obtain rfl := Option.some.inj (stored.symm.trans current)
    exact ⟨_, rfl, .of_active (by rw [fresh]; rfl) (by rw [fresh]; exact Nat.zero_le _)⟩
  | @runFinished found status ends stored active =>
    obtain rfl := Option.some.inj (stored.symm.trans current)
    have last : status.rank = 2 := by
      have terminal := endsAs_terminal ends
      cases status <;> first | rfl | cases terminal
    exact ⟨_, rfl, .of_active active (last ▸ RunStatus.rank_le_two _)⟩
  | attrSet data stored active =>
    obtain rfl := Option.some.inj (stored.symm.trans current)
    exact ⟨_, rfl, .of_active active (Nat.le_refl _)⟩
  | _ => exact ⟨run, current, .refl⟩

/-- The stores that later transactions of one cell can lead to, at any times. -/
inductive CellPath (W : WorldContract) (runId : String) (store : RunStore) : RunStore → Prop
  | start : CellPath W runId store store
  | next {before : RunStore} {now : Nat} (op : CellOp) (path : CellPath W runId store before) :
      CellPath W runId store (op.run W runId now before)

/-- A relation between a run record and its later values: every journaled event and every
rewrite of the expiry time carries it on. -/
structure Carried (W : WorldContract) (R : WorkflowRun → WorkflowRun → Prop) : Prop where
  refl : ∀ run, R run run
  trans : ∀ {first middle last}, R first middle → R middle last → R first last
  journal : ∀ {before after : RunStore} {event : Event} {run : WorkflowRun}, Journal W before event after →
    before.run = some run → ∃ run', after.run = some run' ∧ R run run'
  unexpired : ∀ {run run' : WorkflowRun}, run'.unexpired = run.unexpired → R run run'

namespace Carried
variable {W : WorldContract} {R : WorkflowRun → WorkflowRun → Prop} {before after : RunStore} {run : WorkflowRun}

theorem journals {runId : String} {now : Nat} {events : List Event} (carried : Carried W R)
    (journals : Journals W runId now before events after) (current : before.run = some run) :
    ∃ run', after.run = some run' ∧ R run run' := by
  induction journals with
  | start => exact ⟨run, current, carried.refl run⟩
  | next _ _ journal ih =>
    obtain ⟨middle, stored, head⟩ := ih
    obtain ⟨last, stored', tail⟩ := carried.journal journal stored
    exact ⟨last, stored', carried.trans head tail⟩

theorem rewritten (carried : Carried W R)
    (same : after.run.map WorkflowRun.unexpired = before.run.map WorkflowRun.unexpired)
    (current : before.run = some run) : ∃ run', after.run = some run' ∧ R run run' := by
  rw [current, Option.map_some] at same
  obtain ⟨run', stored, same⟩ := Option.map_eq_some_iff.mp same
  exact ⟨run', stored, carried.unexpired same⟩

end Carried

/-- Along any path such a relation holds, until payload deletion takes the run. -/
theorem CellPath.carries {W : WorldContract} {runId : String} {store later : RunStore} {run : WorkflowRun}
    {R : WorkflowRun → WorkflowRun → Prop} (carried : Carried W R) (path : CellPath W runId store later)
    (current : store.run = some run) (cleans : store.beforePayload = true → store.CleansTerminal) :
    (later.beforePayload = true → later.CleansTerminal) ∧
      ((∃ run', later.run = some run' ∧ R run run') ∨ later.run = none ∧ later.beforePayload = false) := by
  induction path with
  | start => exact ⟨cleans, .inl ⟨run, current, carried.refl run⟩⟩
  | @next before now op path ih =>
    obtain ⟨cleans, ih⟩ := ih
    cases deletes : before.beforePayload with
    | true =>
      obtain ⟨middle, stored, head⟩ := ih.resolve_right fun gone => by cases gone.2.symm.trans deletes
      obtain ⟨events, mid, journals, quiet⟩ :=
        CellOp.run_transition W runId now op deletes (cleans deletes)
      refine ⟨fun _ => quiet.cleansTerminal (journals.cleansTerminal (cleans deletes)), .inl ?_⟩
      obtain ⟨run', stored', tail⟩ := carried.journals journals stored
      obtain ⟨last, stored'', end_⟩ := carried.rewritten quiet.run stored'
      exact ⟨last, stored'', carried.trans (carried.trans head tail) end_⟩
    | false =>
      have remains := CellOp.run_remains W runId now op deletes
      refine ⟨fun after => (by cases remains.payload.symm.trans after), ?_⟩
      rcases remains.run with gone | same
      · exact .inr ⟨gone, remains.payload⟩
      · rcases ih with ⟨middle, stored, head⟩ | ⟨gone, -⟩
        · obtain ⟨last, stored', tail⟩ := carried.rewritten same stored
          exact .inl ⟨last, stored', carried.trans head tail⟩
        · rw [gone, Option.map_none, Option.map_eq_none_iff] at same
          exact .inr ⟨same, remains.payload⟩

theorem Advances.carried (W : WorldContract) : Carried W Advances where
  refl _ := .refl
  trans := .trans
  journal := Journal.advances
  unexpired {run run'} same := by
    have field {α : Type} (get : WorkflowRun → α) : get run'.unexpired = get run.unexpired := congrArg get same
    have status : run'.status = run.status := field WorkflowRun.status
    refine ⟨Nat.le_of_eq (by rw [status]), fun _ => ⟨status, ?_, ?_, ?_⟩⟩
    · exact field WorkflowRun.output
    · exact field WorkflowRun.error
    · exact field WorkflowRun.completedAt

/-- Along any path the run advances, until payload deletion takes it. -/
theorem CellPath.advances {W : WorldContract} {runId : String} {store later : RunStore} {run : WorkflowRun}
    (path : CellPath W runId store later) (current : store.run = some run)
    (cleans : store.beforePayload = true → store.CleansTerminal) :
    (later.beforePayload = true → later.CleansTerminal) ∧
      ((∃ run', later.run = some run' ∧ Advances run run') ∨ later.run = none ∧ later.beforePayload = false) :=
  path.carries (Advances.carried W) current cleans

/-- The data of a run that never change, and from which its catalog keys are made. -/
structure SameIdentity (earlier later : WorkflowRun) : Prop where
  runId : later.runId = earlier.runId
  workflowName : later.workflowName = earlier.workflowName
  createdAt : later.createdAt = earlier.createdAt

theorem SameIdentity.carried (W : WorldContract) : Carried W SameIdentity where
  refl _ := ⟨rfl, rfl, rfl⟩
  trans head tail := ⟨tail.runId.trans head.runId, tail.workflowName.trans head.workflowName,
    tail.createdAt.trans head.createdAt⟩
  journal {before after event run} journal current := by
    cases journal with
    | runCreated data absent => cases absent.symm.trans current
    | runStarted data stored =>
      obtain rfl := Option.some.inj (stored.symm.trans current)
      exact ⟨_, rfl, rfl, rfl, rfl⟩
    | runFinished ends stored =>
      obtain rfl := Option.some.inj (stored.symm.trans current)
      exact ⟨_, rfl, rfl, rfl, rfl⟩
    | attrSet data stored =>
      obtain rfl := Option.some.inj (stored.symm.trans current)
      exact ⟨_, rfl, rfl, rfl, rfl⟩
    | _ => exact ⟨run, current, rfl, rfl, rfl⟩
  unexpired {run run'} same := by
    have field {α : Type} (get : WorkflowRun → α) : get run'.unexpired = get run.unexpired := congrArg get same
    exact ⟨field WorkflowRun.runId, field WorkflowRun.workflowName, field WorkflowRun.createdAt⟩

theorem attachHookReplayPreload_page {W : WorldContract} {store : RunStore} {result : ApplyEventSuccess} :
    ∃ page maxEvents replayRun,
      attachHookReplayPreload W store result = { result with page, maxEvents, replayRun } := by
  unfold attachHookReplayPreload
  split
  · exact ⟨_, _, _, rfl⟩
  split
  · exact ⟨_, _, _, rfl⟩
  simp only
  split <;> exact ⟨_, _, _, rfl⟩

theorem attachSkippedEvents_page {W : WorldContract} {store : RunStore} {result : ApplyEventSuccess}
    {event : Event} {eventCount : Nat} :
    ∃ page, attachSkippedEvents W store result event eventCount = { result with page } := by
  unfold attachSkippedEvents
  split
  · exact ⟨_, rfl⟩
  split <;> exact ⟨_, rfl⟩

/-- The completion of the event page changes only the page, its limit and the replayed run. -/
theorem finalizeEventPage_page {W : WorldContract} {store : RunStore} {success success' : ApplyEventSuccess}
    {params : Option CreateEventParams}
    (finalized : finalizeEventPage W store (.ok success) params = .ok success') :
    ∃ page maxEvents replayRun, success' = { success with page, maxEvents, replayRun } := by
  have limited : ∃ maxEvents, (if success.run.isSome ∧ success.maxEvents = none then
      { success with maxEvents := some W.getMaxEventsPerRun } else success) = { success with maxEvents } := by
    split <;> exact ⟨_, rfl⟩
  obtain ⟨maxEvents, limited⟩ := limited
  unfold finalizeEventPage at finalized
  simp only [limited] at finalized
  split at finalized
  · cases finalized
    exact ⟨_, _, _, rfl⟩
  · cases finalized
    exact ⟨_, _, _, rfl⟩
  split at finalized
  · obtain ⟨page, maxEvents, replayRun, same⟩ :=
      @attachHookReplayPreload_page W store { success with maxEvents }
    rw [same] at finalized
    cases finalized
    exact ⟨_, _, _, rfl⟩
  split at finalized
  · cases finalized
    exact ⟨_, _, _, rfl⟩
  · cases finalized
    exact ⟨_, _, _, rfl⟩
  · rename_i event _ _ _ _ _ eventCount _ _
    obtain ⟨page, same⟩ := @attachSkippedEvents_page W store { success with maxEvents } event eventCount
    rw [same] at finalized
    cases finalized
    exact ⟨_, _, _, rfl⟩

theorem finalizeEventPage_run {W : WorldContract} {store : RunStore} {success success' : ApplyEventSuccess}
    {params : Option CreateEventParams}
    (finalized : finalizeEventPage W store (.ok success) params = .ok success') : success'.run = success.run := by
  obtain ⟨page, maxEvents, replayRun, rfl⟩ := finalizeEventPage_page finalized
  rfl

/-- The run of an answer, which is the one to be published, is the run then stored. -/
theorem WorkflowRunDO.applyEvent_publishes {W : WorldContract} {runId : String} {now : Nat}
    {request : ApplyEventRequest} {before after : RunStore} {success : ApplyEventSuccess} {run : WorkflowRun}
    (call : applyEvent W runId now request before = .ok (.ok success, after))
    (answered : success.run = some run) : after.run = some run := by
  rcases applyEvent_ok call with ⟨⟨refusal, refused⟩, -⟩ | ⟨applied, txn, -, -, application, commit⟩
  · cases refused
  obtain ⟨scheduled, committed, finalized⟩ := commitOutcome_ok commit
  have published := (finalizeEventPage_run finalized.symm).symm.trans answered
  have carried : scheduled.run = some run := by
    unfold setPublicationDeadline at published
    split at published <;> exact published
  cases committed with
  | active => exact applyEvent_answers application run carried
  | ended => exact applyEvent_answers application run carried
  | retained => exact carried

end CelldWorld
