import CelldWorld.RecordSteps

namespace CelldWorld

/-- The time to which the recorded failures of a page put off its next try. -/
def retryDeadline (attempts : Nat) (lastAttemptAt : Option Nat) : Nat :=
  if attempts = 0 then 0 else lastAttemptAt.getD 0 + WorkflowRunDO.cleanupRetryDelay attempts

namespace RunStore
variable (store : RunStore)

/-- The retention cleanup that is not finished yet. -/
def pendingCleanup : Option CleanupRecord := store.cleanup.filter fun record => record.phase ≠ .tombstoned

/-- The cell still has a terminal or a retention cleanup to do. -/
def Pending : Prop := store.pendingCleanup.isSome ∨ store.terminalCleanup.isSome

/-- The latest time at which pending cleanup may continue: the next tick, the cleanup
deadline or the recorded retry delay. -/
def alarmLimit (now : Nat) : Nat :=
  max (now + 1) (max
    ((store.pendingCleanup.map fun record =>
      max record.dueAt (retryDeadline record.attempts record.lastAttemptAt)).getD 0)
    ((store.terminalCleanup.map fun record => retryDeadline record.attempts record.lastAttemptAt).getD 0))

/-- Pending cleanup has an alarm, and in time. -/
def Armed (now : Nat) : Prop :=
  store.Pending → ∃ due, store.alarm = some due ∧ due ≤ store.alarmLimit now

end RunStore

/-- What one call of the cell does to its cleanup records and its alarm. -/
inductive AlarmStep (now : Nat) (before after : RunStore) : Prop
  | kept (cleanup : after.cleanup = before.cleanup) (terminalCleanup : after.terminalCleanup =
      before.terminalCleanup)
      (alarm : after.alarm = before.alarm)
  | armed (armed : after.Armed now)

variable {W : WorldContract} {runId : String} {now : Nat} {before middle after store : RunStore} {op : CellOp}

namespace RunStore

theorem next_le_alarmLimit : now + 1 ≤ store.alarmLimit now :=
  Nat.le_max_left ..

theorem dueAt_le_alarmLimit {record : CleanupRecord} (pending : store.pendingCleanup = some record) :
    record.dueAt ≤ store.alarmLimit now := by
  unfold alarmLimit
  rw [pending]
  simp only [Option.map_some, Option.getD_some]
  omega

theorem retry_le_alarmLimit {record : CleanupRecord} (pending : store.pendingCleanup = some record) :
    retryDeadline record.attempts record.lastAttemptAt ≤ store.alarmLimit now := by
  unfold alarmLimit
  rw [pending]
  simp only [Option.map_some, Option.getD_some]
  omega

theorem terminalRetry_le_alarmLimit {record : TerminalCleanupRecord}
    (pending : store.terminalCleanup = some record) :
    retryDeadline record.attempts record.lastAttemptAt ≤ store.alarmLimit now := by
  unfold alarmLimit
  rw [pending]
  simp only [Option.map_some, Option.getD_some]
  omega

theorem alarmLimit_mono {later : Nat} (forward : now ≤ later) :
    store.alarmLimit now ≤ store.alarmLimit later := by
  unfold alarmLimit
  omega

theorem pendingCleanup_eq {record : CleanupRecord} (stored : store.cleanup = some record)
    (unfinished : record.phase ≠ .tombstoned) :
    store.pendingCleanup = some record := by
  unfold pendingCleanup
  rw [stored, Option.filter_some, if_pos (by simpa using unfinished)]

theorem pendingCleanup_some {record : CleanupRecord} (pending : store.pendingCleanup = some record) :
    store.cleanup = some record ∧ record.phase ≠ .tombstoned := by
  unfold pendingCleanup at pending
  obtain ⟨stored, unfinished⟩ := Option.filter_eq_some_iff.mp pending
  exact ⟨stored, by simpa using unfinished⟩

/-- Only the cleanup records say whether cleanup is pending, and until when. -/
theorem pending_congr (cleanup : after.cleanup = before.cleanup)
    (terminalCleanup : after.terminalCleanup = before.terminalCleanup) :
    (after.Pending ↔ before.Pending) ∧ after.alarmLimit now = before.alarmLimit now := by
  unfold Pending alarmLimit pendingCleanup
  rw [cleanup, terminalCleanup]
  exact ⟨.rfl, rfl⟩

theorem Armed.kept (armed : before.Armed now) (cleanup : after.cleanup = before.cleanup)
    (terminalCleanup : after.terminalCleanup = before.terminalCleanup) (alarm : after.alarm = before.alarm) :
    after.Armed now := by
  intro pending
  obtain ⟨samePending, sameLimit⟩ := @pending_congr now before after cleanup terminalCleanup
  rw [alarm, sameLimit]
  exact armed (samePending.mp pending)

theorem Armed.later {later : Nat} (armed : store.Armed now) (forward : now ≤ later) : store.Armed later := by
  intro pending
  obtain ⟨due, alarm, limit⟩ := armed pending
  exact ⟨due, alarm, Nat.le_trans limit (alarmLimit_mono forward)⟩

theorem Armed.at_next (alarm : store.alarm = some (now + 1)) : store.Armed now :=
  fun _ => ⟨_, alarm, next_le_alarmLimit⟩

theorem Armed.at_dueAt {record : CleanupRecord} (stored : store.cleanup = some record)
    (unfinished : record.phase ≠ .tombstoned)
    (alarm : store.alarm = some (max (now + 1) record.dueAt) ∨ store.alarm = some record.dueAt) :
    store.Armed now := by
  intro _
  have next := @next_le_alarmLimit now store
  have dueAt := @dueAt_le_alarmLimit now store record (pendingCleanup_eq stored unfinished)
  rcases alarm with alarm | alarm
  · exact ⟨_, alarm, Nat.max_le.mpr ⟨next, dueAt⟩⟩
  · exact ⟨_, alarm, dueAt⟩

theorem Armed.at_rest (retention : store.pendingCleanup = none) (terminal : store.terminalCleanup = none) :
    store.Armed now := by
  rintro (pending | pending)
  · rw [retention] at pending
    cases pending
  · rw [terminal] at pending
    cases pending

end RunStore

open RunStore

namespace AlarmStep

theorem refl : AlarmStep now store store :=
  .kept rfl rfl rfl

theorem trans (head : AlarmStep now before middle) (tail : AlarmStep now middle after) :
    AlarmStep now before after := by
  cases tail with
  | armed armed => exact .armed armed
  | kept cleanup terminalCleanup alarm =>
    cases head with
    | kept cleanup' terminalCleanup' alarm' =>
      exact .kept (cleanup.trans cleanup') (terminalCleanup.trans terminalCleanup') (alarm.trans alarm')
    | armed armed => exact .armed (armed.kept cleanup terminalCleanup alarm)

/-- A step that leaves pending cleanup without an alarm has found it so. -/
theorem unarmed (step : AlarmStep now before after) (pending : after.Pending) (alarm : after.alarm = none) :
    after.cleanup = before.cleanup ∧ after.terminalCleanup = before.terminalCleanup ∧ before.alarm = none := by
  cases step with
  | kept cleanup terminalCleanup same => exact ⟨cleanup, terminalCleanup, same.symm.trans alarm⟩
  | armed armed =>
    obtain ⟨due, present, -⟩ := armed pending
    rw [alarm] at present
    cases present

end AlarmStep

theorem Journals.alarmStep {events : List Event} (journals : Journals W runId now before events after) :
    AlarmStep now before after := by
  induction journals with
  | start => exact .refl
  | next _ _ journal ih => exact ih.trans (by cases journal <;> exact .kept rfl rfl rfl)

namespace WorkflowRunDO

theorem applyEvent_alarm {request : ApplyEventRequest} {outcome : ApplyEventOutcome}
    (call : applyEvent W runId now request store = .ok (outcome, after)) : AlarmStep now store after := by
  rcases applyEvent_ok call with ⟨-, rfl⟩ | ⟨success, txn, -, -, applied, commit⟩
  · exact .refl
  obtain ⟨-, -, events, journals⟩ := applyEvent_journals applied
  obtain ⟨scheduled, committed, -⟩ := commitOutcome_ok commit
  cases committed with
  | active => exact journals.alarmStep.trans (.kept rfl rfl rfl)
  | ended => exact .armed (.at_next rfl)
  | retained => exact .armed (.at_next rfl)

theorem forceDisposeHook_alarm {hookId token : String} {claimedBy : HookTokenOwner} {journaled : Bool}
    (call : forceDisposeHook W runId now hookId token claimedBy store = .ok (journaled, after)) :
    AlarmStep now store after := by
  rcases forceDisposeHook_ok call with ⟨-, events, journals⟩ | ⟨hook, -, -, -, -, rfl⟩
  · exact journals.alarmStep
  · exact .kept rfl rfl rfl

theorem rearmCleanup_alarm : AlarmStep now store (rearmCleanup now store) := by
  unfold rearmCleanup
  split
  · exact .armed (.at_next rfl)
  · rename_i terminal retention
    exact .armed (.at_rest (by rw [pendingCleanup, retention]; rfl) terminal)
  · rename_i record terminal stored
    split
    · rename_i finished
      exact .armed (.at_rest (by rw [pendingCleanup, stored, Option.filter_some, finished]; rfl) terminal)
    · rename_i unfinished
      exact .armed (.at_dueAt stored unfinished (.inl rfl))

end WorkflowRunDO

/-- The transactions that the two cleanups run in their passes. -/
def CellOp.isPass : CellOp → Bool
  | .executeCleanup .. | .recordCleanupFailure .. | .executeTerminalCleanup ..
  | .recordTerminalCleanupFailure .. => true
  | _ => false

/-- Outside the passes an alarm stays with its records, or the cell is armed. -/
theorem CellStep.alarm (step : CellStep W runId now store op after) (other : op.isPass = false) :
    AlarmStep now store after := by
  cases step with
  | idle => exact .refl
  | applied call => exact WorkflowRunDO.applyEvent_alarm call
  | disposed call => exact WorkflowRunDO.forceDisposeHook_alarm call
  | @queued op =>
    obtain ⟨claims, payloads, same⟩ : QueueOp.Writes store (op.run now store) := op.run_writes
    rw [same]
    exact .kept rfl rfl rfl
  | fenced => exact .kept rfl rfl rfl
  | @scheduled request run dueAt =>
    by_cases soon : store.terminalCleanup.isSome ∨ dueAt ≤ now
    · rw [if_pos soon]
      exact .armed (.at_next rfl)
    · rw [if_neg soon]
      exact .armed (.at_dueAt rfl nofun (.inr rfl))
  | checked | aged | due => exact .armed (.at_next rfl)
  | rearmed rearms => exact rearms ▸ WorkflowRunDO.rearmCleanup_alarm
  | paged | failed | swept | terminalFailed => cases other

namespace WorkflowRunDO

/-- A page of the retention cleanup arms the next one, unless another pass has advanced the
record. -/
theorem commitCleanupPage_alarm {expected : CleanupRecord} {update : CleanupRecord → CleanupRecord}
    {keys : List StoreKey} :
    AlarmStep now store (commitCleanupPage expected update (now + 1) keys store) ∧
      (sameCleanup store expected = true →
        (commitCleanupPage expected update (now + 1) keys store).Armed now) := by
  unfold commitCleanupPage
  split
  · exact ⟨.armed (.at_next rfl), fun _ => .at_next rfl⟩
  · rename_i other
    exact ⟨.refl, fun same => absurd same other⟩

/-- A payload page sets an alarm for the next one, and the last leaves nothing that would
need an alarm. -/
theorem deletePayloadBatch_alarm {record : CleanupRecord} (stored : store.cleanup = some record)
    (payload : record.phase = .payload) : (deletePayloadBatch now store).Armed now := by
  have step := @deletePayloadBatch_step now store
  generalize deletePayloadBatch now store = after at step ⊢
  cases step with
  | idle same other => simp [stored, payload] at other
  | batched _ _ _ _ batch => exact batch ▸ .at_next rfl
  | finished _ _ _ bare =>
    obtain ⟨tombstone, alarm, bare⟩ := bare
    rw [bare]
    exact .at_rest rfl rfl

/-- A failed page is tried again after its retry delay. -/
theorem recordCleanupFailure_alarm {error : String} {expected : CleanupRecord}
    (unfinished : expected.phase ≠ .tombstoned) :
    AlarmStep now store (recordCleanupFailure now error expected store) ∧
      (sameCleanup store expected = true → (recordCleanupFailure now error expected store).Armed now) := by
  unfold recordCleanupFailure
  split
  · rename_i absent
    exact ⟨.refl, fun same => by simp [sameCleanup, absent] at same⟩
  rename_i record stored
  split
  · rename_i stale
    refine ⟨.refl, fun same => ?_⟩
    obtain ⟨current, found, samePhase, -⟩ := sameCleanup_stored same
    obtain rfl : record = current := Option.some.inj (stored.symm.trans found)
    rcases stale with other | finished
    · rw [same] at other
      cases other
    · exact absurd (samePhase.symm.trans finished) unfinished
  · rename_i current
    have retried : ∀ after : RunStore, after.cleanup = some
        { record with
          generation := record.generation + 1
          attempts := record.attempts + 1
          lastError := some error
          lastAttemptAt := some now } →
        after.alarm = some (now + cleanupRetryDelay (record.attempts + 1)) → after.Armed now := by
      intro after written alarm _
      have retry := @retry_le_alarmLimit now after _ (pendingCleanup_eq written fun finished =>
        current (.inr finished))
      exact ⟨_, alarm, by simpa [retryDeadline] using retry⟩
    exact ⟨.armed (retried _ rfl rfl), fun _ => retried _ rfl rfl⟩

/-- When the terminal cleanup ends, the retention cleanup gets the alarm back. -/
theorem endTerminalCleanup_alarm : (endTerminalCleanup now store).Armed now := by
  unfold endTerminalCleanup
  split
  · rename_i record stored
    split
    · rename_i finished
      exact .at_rest (by simp [pendingCleanup, stored, finished]) rfl
    · rename_i unfinished
      exact .at_dueAt stored unfinished (.inl rfl)
  · rename_i absent
    exact .at_rest (by simp [pendingCleanup, absent]) rfl

theorem commitTerminalPage_alarm {expected : TerminalCleanupRecord} {next : TerminalCleanupPhase}
    {keys : List StoreKey} :
    AlarmStep now store (commitTerminalPage now expected next keys store) ∧
      (sameTerminalCleanup store expected = true →
        (commitTerminalPage now expected next keys store).Armed now) := by
  unfold commitTerminalPage
  split
  · exact ⟨.armed (.at_next rfl), fun _ => .at_next rfl⟩
  · rename_i other
    exact ⟨.refl, fun same => absurd same other⟩

theorem deleteTerminalWaitPage_alarm {expected : TerminalCleanupRecord} :
    AlarmStep now store (deleteTerminalWaitPage now expected store) ∧
      (sameTerminalCleanup store expected = true → (deleteTerminalWaitPage now expected store).Armed now) := by
  unfold deleteTerminalWaitPage
  simp only
  split
  · rename_i other
    refine ⟨.refl, fun same => ?_⟩
    rw [same] at other
    cases other
  split
  · exact commitTerminalPage_alarm
  · exact ⟨.armed endTerminalCleanup_alarm, fun _ => endTerminalCleanup_alarm⟩

/-- The one-page cleanup either ends, or leaves the store to the paged one. -/
theorem completeSmallTerminalCleanup_alarm {expected : TerminalCleanupRecord} {hooks : List Hook}
    {markers : List (String × String)}
    (run : completeSmallTerminalCleanup now expected hooks markers store = some after) :
    AlarmStep now store after ∧ (sameTerminalCleanup store expected = true → after.Armed now) := by
  unfold completeSmallTerminalCleanup at run
  split at run
  · rename_i other
    cases run
    refine ⟨.refl, fun same => ?_⟩
    rw [same] at other
    cases other
  split at run
  · cases run
  · cases run
    exact ⟨.armed endTerminalCleanup_alarm, fun _ => endTerminalCleanup_alarm⟩

theorem recordTerminalCleanupFailure_alarm {error : String} {expected : TerminalCleanupRecord} :
    AlarmStep now store (recordTerminalCleanupFailure now error expected store) ∧
      (sameTerminalCleanup store expected = true →
        (recordTerminalCleanupFailure now error expected store).Armed now) := by
  unfold recordTerminalCleanupFailure
  split
  · rename_i absent
    exact ⟨.refl, fun same => by simp [sameTerminalCleanup, absent] at same⟩
  rename_i record stored
  split
  · rename_i other
    refine ⟨.refl, fun same => ?_⟩
    rw [same] at other
    cases other
  · have retried : ∀ after : RunStore, after.terminalCleanup = some
        { record with
          generation := record.generation + 1
          attempts := record.attempts + 1
          lastError := some error
          lastAttemptAt := some now } →
        after.alarm = some (now + cleanupRetryDelay (record.attempts + 1)) → after.Armed now := by
      intro after written alarm _
      have retry := @terminalRetry_le_alarmLimit now after _ written
      exact ⟨_, alarm, by simpa [retryDeadline] using retry⟩
    exact ⟨.armed (retried _ rfl rfl), fun _ => retried _ rfl rfl⟩

end WorkflowRunDO

end CelldWorld
