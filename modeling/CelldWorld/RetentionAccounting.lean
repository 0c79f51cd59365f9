import CelldWorld.CleanupAccounting
import CelldWorld.StreamAccounting

namespace CelldWorld

/-- What a run promises of its retention cleanup: every write of the record takes a newer
generation, a phase is left when nothing of it remains, and the final counts are those of
what was removed. -/
structure RetentionSystem.Accounted (system : RetentionSystem) : Prop where
  descending : system.ledger.overwritten.Pairwise (· > ·)
  older : ∀ generation ∈ system.ledger.overwritten,
    ∃ record, WorkflowRunDO.getCleanupStatus system.cell = some record ∧ generation < record.generation
  index : system.cell.Reached .streams → ∀ key, system.cell.has (.hookMarker key) = false
  streams : system.cell.Reached .queues → system.registry.streams = ∅
  queues : system.cell.Reached .payload → ∀ id, system.cell.has (.queuePayload id) = false
  payload : system.cell.Reached .tombstoned → system.cell.keys = [.tombstone]
  distinct : system.ledger.streams.Nodup ∧ system.ledger.registrations.Nodup ∧ system.ledger.keys.Nodup
  counts : ∀ record, WorkflowRunDO.getCleanupStatus system.cell = some record → record.phase = .tombstoned →
    record.deletedStreams = system.ledger.streams.length ∧
      record.deletedQueuePayloads = system.ledger.registrations.length ∧
      record.deletedPayloadKeys = system.ledger.keys.length

variable {W : WorldContract} {runId : String} {start : Nat} {system : RetentionSystem}

theorem RunStore.Reached.tombstoned {store : RunStore} (reached : store.Reached .tombstoned) :
    ∃ record, WorkflowRunDO.getCleanupStatus store = some record ∧ record.phase = .tombstoned := by
  obtain ⟨record, status, rank⟩ := reached
  refine ⟨record, status, ?_⟩
  cases same : record.phase with
  | tombstoned => rfl
  | _ =>
    rw [same] at rank
    exact absurd rank (by decide)

/-- The payload phase ends with the tombstone alone. -/
theorem RetentionRun.tombstoned (reach : RetentionRun W runId { now := start } system)
    (reached : system.cell.Reached .tombstoned) : system.cell.keys = [.tombstone] := by
  obtain ⟨earlier, reads, -, cell, -⟩ := reach.cellPasses
  obtain ⟨record, status, phase⟩ := reached.tombstoned
  have final : system.cell.cleanupPhase = some .tombstoned := by
    rw [RunStore.cleanupPhase, status, ← phase]
    rfl
  exact RunStore.Bare.keys ((cell.recorded .start).tombstoned final)

/-- A queue page counts the registrations that its pass has listed, so the total is right if
and only if none of them was unregistered before its commit. -/
theorem retentionCleanup_accounted_iff {W : WorldContract} {runId : String} {start : Nat}
    {system : RetentionSystem}
    (reach : RetentionRun W runId { now := start } system) :
    system.Accounted ↔ (system.cell.Reached .tombstoned → system.ledger.missed = []) := by
  have ordered := reach.ordered
  have counted := reach.counted
  have streams := reach.streamsCounted
  constructor
  · intro accounted reached
    obtain ⟨record, status, phase⟩ := reached.tombstoned
    have removed := (accounted.counts record status phase).2.1
    have listed := (counted.counts record status).1
    have none_ : system.ledger.missed.length = 0 := by omega
    exact List.eq_nil_of_length_eq_zero none_
  · intro unmissed
    refine ⟨ordered.descending, ordered.older, counted.unmarked,
      fun left => ((reach.streamsSound .start).drained left).2, counted.unregistered, reach.tombstoned,
      ⟨streams.nodup, counted.registrations, counted.keys⟩, fun record status phase => ?_⟩
    have rank : record.phase.rank = 5 := by rw [phase]; rfl
    have reached : system.cell.Reached .tombstoned := ⟨record, status, by rw [rank]; decide⟩
    obtain ⟨payloads, keys⟩ := counted.counts record status
    rw [unmissed reached] at payloads
    exact ⟨streams.counts record status (by rw [rank]; decide), payloads, keys⟩

/-- A run with one queue payload, which stays registered until its page is committed. -/
theorem retentionCleanup_accounted_unary : ∃ system : RetentionSystem, system.Accounted ∧
    system.cell.keys = [.tombstone] ∧ system.ledger.registrations = [.queuePayload "message"] := by
  have started := (@RetentionRun.start .unary "run" { now := 1 }).next (@RetentionStep.transaction _ _ _
    (.resilientStart "run" "deployment" "workflow" (.string "input")) rfl)
  have registered := started.next (@RetentionStep.transaction _ _ _
    (.queue (.registerPayload ⟨"message", "key", 100⟩)) rfl)
  have completed := (registered.next (.tick (show 1 ≤ 2 by decide))).next
    (@RetentionStep.transaction _ _ _ (.completeRetained "run") rfl)
  have due := (completed.next (.tick (show 2 ≤ 9 by decide))).next (.read rfl)
  have index := ((due.next (.commit (.head _) rfl)).next (.read rfl)).next (.listIndex (.head _) rfl)
  have streams := ((index.next (.commit (.head _) rfl)).next (.read rfl)).next (.fenceRegistry (.head _) rfl rfl)
  have left := (streams.next (.finalizeRegistry (.head _) (.inl rfl) rfl)).next (.commit (.head _) rfl)
  have queues := ((left.next (.read rfl)).next (.listQueues (.head _) rfl)).next (.commit (.head _) rfl)
  have payload := (queues.next (.read rfl)).next (.commit (.head _) rfl)
  have final := (payload.next (.read rfl)).next (.commit (.head _) rfl)
  exact ⟨_, (retentionCleanup_accounted_iff final).mpr fun _ => rfl, rfl, rfl⟩

/-- The payload is delivered and unregistered after the pass has listed it: the page counts
one registration and deletes none. -/
theorem retentionCleanup_counts_unregistered :
    ¬ ∀ system, RetentionRun .unary "run" { now := 1 } system → system.Accounted := by
  intro accounted
  have started := (@RetentionRun.start .unary "run" { now := 1 }).next (@RetentionStep.transaction _ _ _
    (.resilientStart "run" "deployment" "workflow" (.string "input")) rfl)
  have registered := started.next (@RetentionStep.transaction _ _ _
    (.queue (.registerPayload ⟨"message", "key", 100⟩)) rfl)
  have completed := (registered.next (.tick (show 1 ≤ 2 by decide))).next
    (@RetentionStep.transaction _ _ _ (.completeRetained "run") rfl)
  have due := (completed.next (.tick (show 2 ≤ 9 by decide))).next (.read rfl)
  have index := ((due.next (.commit (.head _) rfl)).next (.read rfl)).next (.listIndex (.head _) rfl)
  have streams := ((index.next (.commit (.head _) rfl)).next (.read rfl)).next (.fenceRegistry (.head _) rfl rfl)
  have left := (streams.next (.finalizeRegistry (.head _) (.inl rfl) rfl)).next (.commit (.head _) rfl)
  have listed := (left.next (.read rfl)).next (.listQueues (.head _) rfl)
  have queues := (listed.next (@RetentionStep.transaction _ _ _ (.queue (.unregisterPayload "message")) rfl)).next
    (.commit (.head _) rfl)
  have payload := (queues.next (.read rfl)).next (.commit (.head _) rfl)
  have final := (payload.next (.read rfl)).next (.commit (.head _) rfl)
  have counts := ((accounted _ final).counts _ rfl rfl).2.1
  have counted : (1 : Nat) = 0 := counts
  cases counted

end CelldWorld
