import CelldWorld.StreamExpiry

namespace CelldWorld

variable {W : WorldContract} {runId : String} {now : Nat} {system after : RetentionSystem}

/-- A transaction leaves the record alone, creates it, or raises its generation by one. -/
theorem RecordStep.generation {op : CellOp} {before after : RunStore} (step : RecordStep now op before after) :
    WorkflowRunDO.getCleanupStatus after = WorkflowRunDO.getCleanupStatus before ∨
      WorkflowRunDO.getCleanupStatus before = none ∨
      ∃ record next, WorkflowRunDO.getCleanupStatus before = some record ∧
        WorkflowRunDO.getCleanupStatus after = some next ∧ next.generation = record.generation + 1 := by
  unfold WorkflowRunDO.getCleanupStatus
  cases step with
  | kept cleanup tombstone =>
    left
    rw [cleanup, tombstone]
  | scheduled absent alive cleanup tombstone =>
    right; left
    rw [absent, alive]
    rfl
  | changed stored cleanup tombstone generation change =>
    right; right
    rw [stored, cleanup]
    exact ⟨_, _, rfl, rfl, generation⟩
  | batched stored payload cleanup tombstone generation =>
    right; right
    rw [stored, cleanup]
    exact ⟨_, _, rfl, rfl, generation⟩
  | finished stored payload cleanup tombstone generation =>
    right; right
    rw [stored, cleanup, tombstone]
    exact ⟨_, _, rfl, rfl, generation⟩

/-- Every overwritten generation is older than the record, and none is overwritten twice. -/
structure RetentionSystem.Ordered (system : RetentionSystem) : Prop where
  older : ∀ generation ∈ system.ledger.overwritten,
    ∃ record, WorkflowRunDO.getCleanupStatus system.cell = some record ∧ generation < record.generation
  descending : system.ledger.overwritten.Pairwise (· > ·)

namespace RetentionSystem.Ordered

theorem start {start : Nat} : Ordered { now := start } where
  older _ member := by cases member
  descending := .nil

theorem transact {op : CellOp} (ordered : system.Ordered) : (system.transact W runId op).Ordered := by
  have step := op.recordStep W runId system.now system.cell
  rcases step.generation with same | absent | ⟨record, next, stored, status, generation⟩
  · have none_ : system.cell.overwritten (op.run W runId system.now system.cell) = none := if_pos same
    simp only [RetentionSystem.transact, none_]
    refine ⟨fun generation member => ?_, ordered.descending⟩
    obtain ⟨record, status, newer⟩ := ordered.older generation member
    exact ⟨record, same.trans status, newer⟩
  · have untouched : system.ledger.overwritten = [] := by
      rw [List.eq_nil_iff_forall_not_mem]
      intro generation member
      obtain ⟨record, status, -⟩ := ordered.older generation member
      cases absent.symm.trans status
    have none_ : system.cell.overwritten (op.run W runId system.now system.cell) = none := by
      unfold RunStore.overwritten
      rw [absent]
      split <;> rfl
    simp only [RetentionSystem.transact, none_, untouched]
    refine ⟨fun generation member => ?_, .nil⟩
    cases member
  · have wrote : system.cell.overwritten (op.run W runId system.now system.cell) = some record.generation := by
      unfold RunStore.overwritten
      rw [status, stored, if_neg]
      · rfl
      · intro same
        rw [Option.some.inj same] at generation
        omega
    have above (older : Nat) (member : older ∈ system.ledger.overwritten) : older < record.generation := by
      obtain ⟨other, same, newer⟩ := ordered.older older member
      obtain rfl := Option.some.inj (stored.symm.trans same)
      exact newer
    simp only [RetentionSystem.transact, wrote]
    refine ⟨fun older member => ⟨next, status, ?_⟩, .cons above ordered.descending⟩
    rcases List.mem_cons.mp member with rfl | earlier
    · omega
    · have := above older earlier
      omega

theorem step (ordered : system.Ordered) (step : RetentionStep W runId system after) : after.Ordered := by
  cases step with
  | transaction => exact ordered.transact
  | @commit pass page =>
    have committed := @transact W runId system (.executeCleanup pass.record page) ordered
    exact ⟨committed.older, committed.descending⟩
  | _ => exact ⟨ordered.older, ordered.descending⟩

end RetentionSystem.Ordered

namespace RunStore
variable {before after : RunStore} {keys : List StoreKey}

theorem mem_lost {key : StoreKey} :
    key ∈ before.lost after ↔ before.has key = true ∧ key.isPayload = true ∧ after.has key = false := by
  unfold lost
  rw [List.mem_filter, mem_keys, Bool.and_eq_true, Bool.not_eq_true']

theorem lost_nodup : (before.lost after).Nodup :=
  before.keys_nodup.filter _

theorem lost_self : before.lost before = [] := by
  rw [List.eq_nil_iff_forall_not_mem]
  intro key member
  obtain ⟨kept, -, gone⟩ := mem_lost.mp member
  rw [kept] at gone
  cases gone

/-- A page that deletes these keys loses those that were stored. -/
theorem lost_length (nodup : keys.Nodup) (payload : ∀ key ∈ keys, key.isPayload = true)
    (deletes : ∀ key, key.isPayload = true → after.has key = (before.has key && key ∉ keys)) :
    (before.lost after).length = keys.countP (before.has ·) := by
  rw [List.countP_eq_length_filter]
  apply List.Perm.length_eq
  rw [List.perm_ext_iff_of_nodup lost_nodup (nodup.filter _)]
  intro key
  rw [mem_lost, List.mem_filter]
  constructor
  · rintro ⟨stored, paid, gone⟩
    rw [deletes key paid, stored, Bool.true_and] at gone
    exact ⟨by simpa using gone, stored⟩
  · rintro ⟨member, stored⟩
    have paid := payload key member
    exact ⟨stored, paid, by rw [deletes key paid]; simp [member]⟩

end RunStore

end CelldWorld
