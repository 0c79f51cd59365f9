import CelldWorld.CellRuns
import CelldWorld.Tombstone

namespace CelldWorld

/-- The record that a page was started for, if the transaction commits a page. -/
def CellOp.pageRecord : CellOp → Option CleanupRecord
  | .executeCleanup expected _ => some expected
  | _ => none

/-- How one transaction at time `now` rewrites a stored cleanup record. -/
inductive RecordChange (now : Nat) (op : CellOp) (record next : CleanupRecord) : Prop
  | aged (retained : record.phase = .retained) (phase : next.phase = .retained)
      (sooner : next.dueAt < record.dueAt) (counts : next.counts = record.counts)
  | due (phase : next.phase = record.phase) (dueAt : next.dueAt = now) (counts : next.counts = record.counts)
  | failed (phase : next.phase = record.phase) (dueAt : next.dueAt = record.dueAt)
      (counts : next.counts = record.counts)
  | paged {expected : CleanupRecord} (page : op.pageRecord = some expected)
      (samePhase : record.phase = expected.phase) (sameGeneration : record.generation = expected.generation)
      (phase : next.phase = record.phase ∨ next.phase = record.phase.next)
      (before : record.phase ≠ .payload ∧ record.phase ≠ .tombstoned)
      (started : record.phase = .retained → expected.dueAt ≤ now) (dueAt : next.dueAt = record.dueAt)

/-- What one transaction at time `now` does to the cleanup record and the tombstone. -/
inductive RecordStep (now : Nat) (op : CellOp) (before after : RunStore) : Prop
  | kept (cleanup : after.cleanup = before.cleanup) (tombstone : after.tombstone = before.tombstone)
  | scheduled {record : CleanupRecord} (absent : before.cleanup = none) (alive : before.tombstone = none)
      (cleanup : after.cleanup = some record) (tombstone : after.tombstone = none)
      (retained : record.phase = .retained) (first : record.generation = 0) (counts : record.counts = (0, 0, 0))
  | changed {record next : CleanupRecord} (stored : before.cleanup = some record)
      (cleanup : after.cleanup = some next) (tombstone : after.tombstone = before.tombstone)
      (generation : next.generation = record.generation + 1) (change : RecordChange now op record next)
  | batched {record next : CleanupRecord} (stored : before.cleanup = some record)
      (payload : record.phase = .payload) (cleanup : after.cleanup = some next)
      (tombstone : after.tombstone = some (cleanupTombstone record now))
      (generation : next.generation = record.generation + 1) (phase : next.phase = .payload)
      (dueAt : next.dueAt = record.dueAt) (page : op.pageRecord.isSome)
  | finished {record last : CleanupRecord} (stored : before.cleanup = some record)
      (payload : record.phase = .payload) (cleanup : after.cleanup = none)
      (tombstone : after.tombstone = some (cleanupTombstone last now))
      (generation : last.generation = record.generation + 1) (phase : last.phase = .tombstoned)
      (dueAt : last.dueAt = record.dueAt) (bare : after.Bare) (page : op.pageRecord.isSome)

variable {W : WorldContract} {runId : String} {now : Nat} {before after store : RunStore} {op : CellOp}

theorem RecordStep.refl : RecordStep now op store store :=
  .kept rfl rfl

theorem Journals.retention {events : List Event} (journals : Journals W runId now before events after) :
    after.cleanup = before.cleanup ∧ after.tombstone = before.tombstone := by
  induction journals with
  | start => exact ⟨rfl, rfl⟩
  | next _ _ journal ih =>
    obtain ⟨cleanup, tombstone⟩ := ih
    rw [← cleanup, ← tombstone]
    cases journal <;> exact ⟨rfl, rfl⟩

namespace WorkflowRunDO

theorem tombstone_of_unexpired (unexpired : store.tombstoneFrom now = none) : store.tombstone = none := by
  unfold RunStore.tombstoneFrom at unexpired
  split at unexpired
  · cases unexpired
  · assumption
  · assumption

theorem applyEvent_records {request : ApplyEventRequest} {outcome : ApplyEventOutcome}
    (call : applyEvent W runId now request store = .ok (outcome, after)) : RecordStep now op store after := by
  rcases applyEvent_ok call with ⟨-, rfl⟩ | ⟨success, txn, -, unexpired, applied, commit⟩
  · exact .refl
  have alive := tombstone_of_unexpired unexpired
  obtain ⟨-, -, events, journals⟩ := applyEvent_journals applied
  obtain ⟨cleanup, tombstone⟩ := journals.retention
  obtain ⟨scheduled, committed, -⟩ := commitOutcome_ok commit
  cases committed with
  | active => exact .kept cleanup tombstone
  | ended => exact .kept cleanup tombstone
  | retained _ _ _ absent =>
    exact .scheduled (cleanup.symm.trans absent) alive rfl (tombstone.trans alive) rfl rfl rfl

theorem forceDisposeHook_records {hookId token : String} {claimedBy : HookTokenOwner} {journaled : Bool}
    (call : forceDisposeHook W runId now hookId token claimedBy store = .ok (journaled, after)) :
    RecordStep now op store after := by
  rcases forceDisposeHook_ok call with ⟨-, events, journals⟩ | ⟨hook, -, -, -, -, rfl⟩
  · exact .kept journals.retention.1 journals.retention.2
  · exact .kept rfl rfl

end WorkflowRunDO

theorem BatchStep.records (step : BatchStep now store after) (page : op.pageRecord.isSome) :
    RecordStep now op store after := by
  cases step with
  | idle same =>
    rw [same]
    exact .refl
  | batched stored payload nodup present batch =>
    rw [batch]
    exact .batched stored payload rfl rfl rfl payload rfl page
  | finished stored payload batch bare =>
    subst batch
    exact .finished stored payload rfl rfl rfl rfl rfl bare page

theorem PageStep.records {expected : CleanupRecord} {page : CleanupPage}
    (step : PageStep now expected page store after) :
    RecordStep now (.executeCleanup expected page) store after := by
  cases step with
  | stale same =>
    obtain ⟨alarm, rfl⟩ := same
    exact .kept rfl rfl
  | batch _ _ deletes => exact deletes.records rfl
  | @committed record alarm paged phase stored samePhase sameGeneration commit started =>
    obtain ⟨-, -, tombstone⟩ := @RunStore.deleteAll_lifecycle store page.keys
      fun _ member => .inl (CleanupPage.keys_indexed member)
    have own : record.phase = page.phase := samePhase.trans phase
    rw [commit]
    exact .changed stored rfl tombstone rfl
      (.paged rfl samePhase sameGeneration (CleanupPage.update_phase own) (own ▸ CleanupPage.phase_early paged)
        (fun retained => started (CleanupPage.start_of_retained (own.symm.trans retained)))
        CleanupPage.update_dueAt)

/-- Every transaction of the cell is one step of its cleanup record. -/
theorem CellStep.records (step : CellStep W runId now store op after) : RecordStep now op store after := by
  cases step with
  | idle => exact .refl
  | applied call => exact WorkflowRunDO.applyEvent_records call
  | disposed call => exact WorkflowRunDO.forceDisposeHook_records call
  | @queued op =>
    obtain ⟨claims, payloads, same⟩ : QueueOp.Writes store (op.run now store) := op.run_writes
    exact .kept (by rw [same]) (by rw [same])
  | fenced => exact .kept rfl rfl
  | scheduled absent alive => exact .scheduled absent alive rfl alive rfl rfl rfl
  | checked => exact .kept rfl rfl
  | aged alive _ _ changes =>
    rcases (WorkflowRunDO.maximumAgeRecord_change changes).2 with ⟨absent, phase, first, counts⟩ |
      ⟨record, stored, generation, retained, phase, sooner, counts⟩
    · exact .scheduled absent alive rfl alive phase first counts
    · exact .changed stored rfl rfl generation (.aged retained phase sooner counts)
  | due stored => exact .changed stored rfl rfl rfl (.due rfl rfl rfl)
  | rearmed => exact .kept rfl rfl
  | paged step => exact step.records
  | failed stored => exact .changed stored rfl rfl rfl (.failed rfl rfl rfl)
  | @swept _ _ keys _ _ _ derived =>
    obtain ⟨-, cleanup, tombstone⟩ := @RunStore.deleteAll_lifecycle store keys fun key member =>
      .inr (derived key member)
    exact .kept cleanup tombstone
  | terminalFailed => exact .kept rfl rfl

theorem CellOp.recordStep (W : WorldContract) (runId : String) (now : Nat) (op : CellOp) (store : RunStore) :
    RecordStep now op store (op.run W runId now store) :=
  (op.run_step W runId now store).records

end CelldWorld
