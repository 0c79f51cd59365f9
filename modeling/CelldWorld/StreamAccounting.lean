import CelldWorld.CleanupLedger

namespace CelldWorld

variable {W : WorldContract} {runId : String} {now : Nat} {system after : RetentionSystem}

/-- What joins the count of a registry, the streams that it lost, and the cleanup record. -/
structure RetentionSystem.StreamsCounted (system : RetentionSystem) : Prop where
  fenced : ∀ fence, system.registry.expired = some fence → fence.deleted = system.ledger.streams.length
  unfenced : system.registry.expired = none → system.ledger.streams = []
  nodup : system.ledger.streams.Nodup
  removed : ∀ name ∈ system.ledger.streams, system.registry.streams.contains name = false
  finalized : ∀ record deleted, .streamsFinalized record deleted true ∈ system.passes →
    deleted = system.ledger.streams.length
  counts : ∀ record, WorkflowRunDO.getCleanupStatus system.cell = some record →
    CleanupPhase.queues.rank ≤ record.phase.rank → record.deletedStreams = system.ledger.streams.length

theorem eraseDups_nodup {α : Type} [BEq α] [LawfulBEq α] (names : List α) : names.eraseDups.Nodup := by
  induction length : names.length using Nat.strongRecOn generalizing names with
  | ind size ih =>
    cases names with
    | nil => exact .nil
    | cons first names =>
      rw [List.eraseDups_cons, List.nodup_cons, List.mem_eraseDups, List.mem_filter]
      have shorter := List.length_filter_le (fun name => !name == first) names
      have smaller : names.length < size := by simp only [← length, List.length_cons, Nat.lt_succ_self]
      exact ⟨fun member => by simp at member, ih _ (Nat.lt_of_le_of_lt shorter smaller) _ rfl⟩

/-- A batch counts the names that the registry loses with it. -/
theorem StreamDO.finalizeRegistry_counts {streams : List String} {result : FinalizeRunStreamsResult}
    {registry after : StreamRegistry} (call : finalizeRegistry runId streams registry = .ok (result, after)) :
    streams.eraseDups.countP (registry.streams.contains ·) =
      (registry.streams.keys.filter fun name => !after.streams.contains name).length := by
  obtain ⟨fence, -, -, -, -, remaining⟩ := finalizeRegistry_ok call
  rw [List.countP_eq_length_filter]
  apply List.Perm.length_eq
  rw [List.perm_ext_iff_of_nodup ((eraseDups_nodup streams).filter _) (Std.ExtTreeMap.nodup_keys.filter _)]
  intro name
  rw [List.mem_filter, List.mem_filter, Std.ExtTreeMap.mem_keys, Std.ExtTreeMap.mem_iff_contains, remaining]
  cases registry.streams.contains name <;> simp

namespace RetentionSystem.StreamsCounted

theorem start {start : Nat} : StreamsCounted { now := start } where
  fenced _ absent := by cases absent
  unfenced _ := rfl
  nodup := .nil
  removed _ member := by cases member
  finalized _ _ member := by cases member
  counts _ status := by cases status

/-- A step that leaves the registry and its part of the ledger alone, and finalizes nothing. -/
theorem frame (counted : system.StreamsCounted) (registry : after.registry = system.registry)
    (streams : after.ledger.streams = system.ledger.streams)
    (passes : ∀ record deleted, .streamsFinalized record deleted true ∈ after.passes →
      .streamsFinalized record deleted true ∈ system.passes)
    (counts : ∀ record, WorkflowRunDO.getCleanupStatus after.cell = some record →
      CleanupPhase.queues.rank ≤ record.phase.rank → record.deletedStreams = system.ledger.streams.length) :
    after.StreamsCounted := by
  refine ⟨?_, ?_, ?_, ?_, ?_, ?_⟩
  · rw [registry, streams]
    exact counted.fenced
  · rw [registry, streams]
    exact counted.unfenced
  · rw [streams]
    exact counted.nodup
  · rw [registry, streams]
    exact counted.removed
  · intro record deleted member
    rw [streams]
    exact counted.finalized record deleted (passes record deleted member)
  · rw [streams]
    exact counts

theorem transact {op : CellOp} (counted : system.StreamsCounted) (other : op.pageRecord = none) :
    (system.transact W runId op).StreamsCounted := by
  refine counted.frame rfl rfl (fun _ _ => id) fun record status late => ?_
  have step := op.recordStep W runId system.now system.cell
  cases step.status other with
  | kept same => exact counted.counts record (same.symm.trans status) late
  | scheduled absent same retained =>
    obtain rfl := Option.some.inj (same.symm.trans status)
    rw [retained] at late
    exact absurd late (by decide)
  | @rewritten earlier next before same generation phase counts =>
    obtain rfl := Option.some.inj (same.symm.trans status)
    obtain ⟨streams, -⟩ : next.deletedStreams = earlier.deletedStreams ∧
        next.deletedQueuePayloads = earlier.deletedQueuePayloads ∧
        next.deletedPayloadKeys = earlier.deletedPayloadKeys := by simpa [CleanupRecord.counts] using counts
    exact streams.trans (counted.counts earlier before (phase ▸ late))

/-- A pass counts the streams of its run when it has finalized the last of them. -/
theorem commitPage {pass : CleanupPass} {page : CleanupPage} (counted : system.StreamsCounted)
    (started : pass ∈ system.passes) (ready : pass.page = some page) :
    (system.commitPage W runId pass page).StreamsCounted := by
  refine counted.frame rfl rfl (fun _ _ => id) fun next status late => ?_
  have step := @WorkflowRunDO.executeCleanup_step system.now system.cell pass.record page
  simp only [RetentionSystem.commitPage, RetentionSystem.transact, CellOp.run] at status
  generalize WorkflowRunDO.executeCleanup system.now pass.record page system.cell = cell at step status
  have paid {record : CleanupRecord} (stored : system.cell.cleanup = some record)
      (late : CleanupPhase.queues.rank ≤ record.phase.rank) :
      record.deletedStreams = system.ledger.streams.length := by
    refine counted.counts record ?_ late
    rw [WorkflowRunDO.getCleanupStatus, stored, Option.some_or]
  cases step with
  | stale same =>
    obtain ⟨alarm, rfl⟩ := same
    exact counted.counts next status late
  | batch payload phase deletes =>
    cases deletes with
    | idle same => exact counted.counts next (same ▸ status) late
    | @batched record _ stored paying nodup present batch =>
      have known := paid stored (by rw [paying]; decide)
      rw [batch] at status
      obtain rfl := Option.some.inj status
      exact known
    | @finished record stored paying batch =>
      have known := paid stored (by rw [paying]; decide)
      rw [batch] at status
      obtain rfl := Option.some.inj status
      exact known
  | @committed record alarm paged phase stored samePhase sameGeneration commit =>
    rw [commit] at status
    have known (queues : page.phase.rank = 3) : record.deletedStreams = system.ledger.streams.length :=
      paid stored (by rw [samePhase, phase, queues]; decide)
    have early (phase : CleanupPhase) (before : phase.rank < 3) (same : next.phase = phase) : False := by
      rw [same] at late
      exact absurd late (Nat.not_le_of_lt before)
    obtain rfl := Option.some.inj status
    cases page with
    | streams deleted done =>
      cases pass with
      | streamsFinalized expected deleted' done' =>
        cases ready
        cases done with
        | true => exact counted.finalized expected deleted started
        | false => exact (early .streams (by decide) rfl).elim
      | read expected =>
        simp only [CleanupPass.page] at ready
        split at ready <;> cases ready
      | _ => cases ready
    | queues ids more => exact known rfl
    | index markers more =>
      cases more with
      | true => exact (early .index (by decide) rfl).elim
      | false => exact (early .streams (by decide) rfl).elim
    | start => exact (early .index (by decide) rfl).elim
    | payload => exact absurd rfl paged

theorem finalizeRegistry {record : CleanupRecord} {completed : List String}
    {result : FinalizeRunStreamsResult} {registry : StreamRegistry} (counted : system.StreamsCounted)
    (sound : system.StreamsSound)
    (call : StreamDO.finalizeRegistry runId completed system.registry = .ok (result, registry)) :
    ({ system with
        registry
        ledger := { system.ledger with
          streams := (system.registry.streams.keys.filter fun name => !registry.streams.contains name) ++
            system.ledger.streams } }.awaiting
      (.streamsFinalized record result.deleted result.done)).StreamsCounted := by
  have batch := StreamDO.finalizeRegistry_counts call
  obtain ⟨fence, fenced, kept, deleted, done, streams⟩ := StreamDO.finalizeRegistry_ok call
  have counts : result.deleted =
    ((system.registry.streams.keys.filter fun name => !registry.streams.contains name) ++
      system.ledger.streams).length := by
    rw [deleted, counted.fenced fence fenced, batch, List.length_append, Nat.add_comm]
  have idle (drained : system.registry.Drained) :
      (system.registry.streams.keys.filter fun name => !registry.streams.contains name) = [] := by
    rw [drained.2]
    rfl
  refine ⟨fun other same => ?_, fun absent => ?_, ?_, fun name member => ?_, fun other deleted member => ?_,
    fun other status late => ?_⟩
  · obtain rfl := Option.some.inj (kept.symm.trans same)
    exact counts
  · cases kept.symm.trans absent
  · refine List.nodup_append.mpr ⟨Std.ExtTreeMap.nodup_keys.filter _, counted.nodup,
      fun name first other last same => ?_⟩
    have stored := Std.ExtTreeMap.mem_iff_contains.mp (Std.ExtTreeMap.mem_keys.mp (List.mem_filter.mp first).1)
    rw [same, counted.removed other last] at stored
    cases stored
  · rcases List.mem_append.mp member with lost | earlier
    · have gone : registry.streams.contains name = false := by simpa using (List.mem_filter.mp lost).2
      exact gone
    · exact (streams name).trans (by rw [counted.removed name earlier, Bool.false_and])
  · rcases List.mem_cons.mp member with same | earlier
    · obtain ⟨-, rfl, -⟩ := CleanupPass.streamsFinalized.inj same
      exact counts
    · simp only [RetentionSystem.awaiting, idle (sound.finalized other deleted earlier), List.nil_append]
      exact counted.finalized other deleted earlier
  · simp only [RetentionSystem.awaiting, idle (sound.drained ⟨other, status, late⟩), List.nil_append]
    exact counted.counts other status late

theorem step (counted : system.StreamsCounted) (sound : system.StreamsSound)
    (step : RetentionStep W runId system after) :
    after.StreamsCounted := by
  have awaits {pass : CleanupPass} (unfinished : ∀ record deleted, pass ≠ .streamsFinalized record deleted true) :
      ∀ record deleted, .streamsFinalized record deleted true ∈ pass :: system.passes →
        .streamsFinalized record deleted true ∈ system.passes := by
    intro record deleted member
    rcases List.mem_cons.mp member with same | earlier
    · exact absurd same.symm (unfinished record deleted)
    · exact earlier
  cases step with
  | tick => exact counted.frame rfl rfl (fun _ _ => id) counted.counts
  | transaction other => exact counted.transact other
  | read => exact counted.frame rfl rfl (awaits fun _ _ same => by cases same) counted.counts
  | listIndex => exact counted.frame rfl rfl (awaits fun _ _ same => by cases same) counted.counts
  | listQueues => exact counted.frame rfl rfl (awaits fun _ _ same => by cases same) counted.counts
  | fenceRegistry started phase call =>
    obtain ⟨streams, fence, fenced, before⟩ := StreamDO.expireRegistry_ok call
    refine ⟨fun other same => ?_, fun absent => ?_, counted.nodup, fun name member => ?_,
      fun other deleted member => ?_,
      counted.counts⟩
    · obtain rfl := Option.some.inj (fenced.symm.trans same)
      cases already : system.registry.expired with
      | some earlier =>
        rw [already] at before
        obtain rfl : earlier = fence := before
        exact counted.fenced earlier already
      | none =>
        rw [already] at before
        obtain rfl := before
        simp only [RetentionSystem.awaiting, counted.unfenced already]
        rfl
    · cases fenced.symm.trans absent
    · rw [RetentionSystem.awaiting, streams]
      exact counted.removed name member
    · exact counted.finalized other deleted (awaits (fun _ _ same => by cases same) other deleted member)
  | expireStream => exact counted.frame rfl rfl (awaits fun _ _ same => by cases same) counted.counts
  | finalizeRegistry listed ended call => exact counted.finalizeRegistry sound call
  | commit started ready => exact counted.commitPage started ready
  | register call =>
    obtain ⟨unfenced, absent, -⟩ := StreamDO.registerStream_ok call
    have none_ := counted.unfenced unfenced
    refine ⟨fun fence fenced => ?_, fun _ => none_, counted.nodup, fun name member => ?_,
      counted.finalized, counted.counts⟩
    · cases absent.symm.trans fenced
    · rw [none_] at member
      cases member
  | write => exact counted.frame rfl rfl (fun _ _ => id) counted.counts
  | foreign => exact counted.frame rfl rfl (fun _ _ => id) counted.counts

end RetentionSystem.StreamsCounted

theorem RetentionRun.streamsCounted {start : Nat} (reach : RetentionRun W runId { now := start } system) :
    system.StreamsCounted := by
  induction reach with
  | start => exact .start
  | next earlier step ih => exact ih.step (earlier.streamsSound .start) step

theorem RetentionRun.ordered {start : Nat} (reach : RetentionRun W runId { now := start } system) :
    system.Ordered := by
  induction reach with
  | start => exact .start
  | next _ step ih => exact ih.step step

end CelldWorld
