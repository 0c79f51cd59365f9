import CelldWorld.RecordSteps
import CelldWorld.PayloadDeletion

namespace CelldWorld

variable {W : WorldContract} {runId : String} {now : Nat} {tombstone : RunTombstone} {alarm : Option Nat}

theorem QueueOp.run_tombstone (op : QueueOp) :
    op.run now (tombstone.store alarm) = tombstone.store alarm := by
  have expired : (tombstone.store alarm).tombstoneFrom now = some tombstone := rfl
  have unclaimed (claimName : String) : (tombstone.store alarm).queueClaims[claimName]? = none :=
    Std.ExtTreeMap.getElem?_empty
  cases op with
  | reserve request =>
    simp only [QueueOp.run, WorkflowRunDO.reserveRunQueueMessage, expired]
    split <;> rfl
  | confirmPublication claimName messageId expiresAt =>
    simp only [QueueOp.run, WorkflowRunDO.confirmRunQueueMessagePublication, unclaimed]
    split <;> rfl
  | claim claimName messageId staleMs =>
    simp only [QueueOp.run, WorkflowRunDO.claimRunQueueMessage, expired, Option.isSome_some, if_true]
    split <;> rfl
  | hold request =>
    simp only [QueueOp.run, WorkflowRunDO.holdRunQueueMessage, RunStore.queueClaim, unclaimed]
    split <;> rfl
  | release claimName messageId =>
    simp only [QueueOp.run, WorkflowRunDO.releaseRunQueueMessage, unclaimed]
    split <;> rfl
  | complete claimName messageId =>
    simp only [QueueOp.run, WorkflowRunDO.completeRunQueueMessage, unclaimed]
    split <;> rfl
  | abandonReservation claimName messageId =>
    simp only [QueueOp.run, WorkflowRunDO.abandonRunQueueMessageReservation, unclaimed]
    split <;> rfl
  | registerPayload registration =>
    simp only [QueueOp.run, WorkflowRunDO.registerQueuePayload, expired]
    split <;> rfl
  | unregisterPayload messageId =>
    simp only [QueueOp.run, WorkflowRunDO.unregisterQueuePayload]
    split
    · rfl
    · have erased : (tombstone.store alarm).queuePayloads.erase messageId =
          (tombstone.store alarm).queuePayloads :=
        Std.ExtTreeMap.erase_empty
      simp only [transaction, Except.map, erased]

/-- In the tombstoned state no transaction of the cell adds a key: only its alarm may be set. -/
theorem CellOp.run_tombstone (W : WorldContract) (runId : String) (now : Nat) (op : CellOp)
    (tombstone : RunTombstone) (alarm : Option Nat) :
    ∃ alarm', op.run W runId now (tombstone.store alarm) = tombstone.store alarm' := by
  have expired : (tombstone.store alarm).tombstoneFrom now = some tombstone := rfl
  have step := op.run_step W runId now (tombstone.store alarm)
  generalize op.run W runId now (tombstone.store alarm) = after at step
  cases step with
  | idle => exact ⟨alarm, rfl⟩
  | applied call => exact ⟨alarm, (WorkflowRunDO.applyEvent_expired expired call).1⟩
  | disposed call => exact ⟨alarm, (WorkflowRunDO.forceDisposeHook_expired expired call).1⟩
  | @queued op => exact ⟨alarm, op.run_tombstone⟩
  | fenced _ unexpired => cases unexpired.symm.trans expired
  | scheduled _ alive => cases alive
  | checked alive => cases alive
  | aged alive => cases alive
  | due stored => cases stored
  | @rearmed alarm _ => exact ⟨alarm, rfl⟩
  | paged step =>
    cases step with
    | stale same =>
      obtain ⟨later, rfl⟩ := same
      exact ⟨later, rfl⟩
    | batch _ _ deletes =>
      cases deletes with
      | idle same => exact ⟨alarm, same⟩
      | batched stored => cases stored
      | finished stored => cases stored
    | committed _ _ stored => cases stored
  | failed stored => cases stored
  | swept held => cases held
  | terminalFailed held => cases held

/-- A run cell, the clock, and the records that its cleanup passes have read so far. -/
structure ExpiringCell where
  now : Nat
  store : RunStore
  passes : List CleanupRecord

/-- Transactions of a run cell on a clock that never runs backwards. A pass reads its
cleanup record first and commits its page later, if at all. -/
inductive CellPasses (W : WorldContract) (runId : String) (first : ExpiringCell) : ExpiringCell → Prop
  | start : CellPasses W runId first first
  | read {cell : ExpiringCell} {record : CleanupRecord} (reach : CellPasses W runId first cell)
      (stored : cell.store.cleanup = some record) :
      CellPasses W runId first { cell with passes := record :: cell.passes }
  | next {cell : ExpiringCell} {now : Nat} (op : CellOp) (reach : CellPasses W runId first cell)
      (tick : cell.now ≤ now) (follows : ∀ expected, op.pageRecord = some expected → expected ∈ cell.passes) :
      CellPasses W runId first { cell with now, store := op.run W runId now cell.store }

/-- What joins the cleanup record, the tombstone and the records in the hands of passes. -/
structure ExpiringCell.Recorded (cell : ExpiringCell) : Prop where
  due : ∀ record, cell.store.cleanup = some record → record.phase ≠ .retained → record.dueAt ≤ cell.now
  unfinished : ∀ record, cell.store.cleanup = some record → record.phase ≠ .tombstoned
  read : ∀ record, cell.store.cleanup = some record →
    ∀ read ∈ cell.passes, read.generation < record.generation ∨ read = record
  unread : cell.store.cleanup = none → cell.store.tombstone = none → cell.passes = []
  expired : ∀ tombstone, cell.store.tombstone = some tombstone → tombstone.expiredAt ≤ cell.now ∧
    ∀ record, cell.store.cleanup = some record → record.phase = .payload
  bare : ∀ tombstone, cell.store.tombstone = some tombstone → cell.store.cleanup = none →
    ∃ alarm, cell.store = tombstone.store alarm
  stamped : ∀ tombstone, cell.store.tombstone = some tombstone →
    tombstone.cleanup.dueAt = tombstone.expiredAt ∧ tombstone.cleanup.phase = .tombstoned

theorem ExpiringCell.Recorded.start {now : Nat} : ExpiringCell.Recorded ⟨now, {}, []⟩ := by
  refine ⟨?_, ?_, ?_, fun _ _ => rfl, ?_, ?_, ?_⟩ <;> intro _ stored <;> cases stored

namespace ExpiringCell.Recorded
variable {cell : ExpiringCell}

theorem readNow {record : CleanupRecord} (recorded : cell.Recorded) (stored : cell.store.cleanup = some record) :
    ExpiringCell.Recorded { cell with passes := record :: cell.passes } where
  due := recorded.due
  unfinished := recorded.unfinished
  read other same read member := by
    obtain rfl : record = other := Option.some.inj (stored.symm.trans same)
    rcases List.mem_cons.mp member with rfl | earlier
    · exact .inr rfl
    · exact recorded.read record stored read earlier
  unread absent _ := by cases stored.symm.trans absent
  expired := recorded.expired
  bare := recorded.bare
  stamped := recorded.stamped

section Step
variable {now : Nat} {op : CellOp} {after : RunStore} {record next : CleanupRecord}

theorem aged (recorded : cell.Recorded) (tick : cell.now ≤ now) (stored : cell.store.cleanup = some record)
    (left : record.phase ≠ .retained) : record.dueAt ≤ now :=
  Nat.le_trans (recorded.due record stored left) tick

/-- A record that has changed is due by now, unless it is still retained: a page that has
started it was read from this very record, and has seen it due. -/
theorem changed_due (recorded : cell.Recorded) (tick : cell.now ≤ now)
    (follows : ∀ expected, op.pageRecord = some expected → expected ∈ cell.passes)
    (stored : cell.store.cleanup = some record) (change : RecordChange now op record next)
    (left : next.phase ≠ .retained) : next.dueAt ≤ now := by
  cases change with
  | aged retained phase sooner => exact absurd phase left
  | due phase dueAt => exact Nat.le_of_eq dueAt
  | failed phase dueAt => exact dueAt ▸ recorded.aged tick stored (phase ▸ left)
  | @paged expected page samePhase sameGeneration phase before started dueAt =>
    rw [dueAt]
    by_cases retained : record.phase = .retained
    · have own : expected = record := by
        rcases recorded.read record stored expected (follows expected page) with older | own
        · exact absurd sameGeneration (Nat.ne_of_gt older)
        · exact own
      exact own ▸ started retained
    · exact recorded.aged tick stored retained

/-- No change of the record finishes it: its last page replaces it by the tombstone. -/
theorem changed_unfinished (change : RecordChange now op record next) (unfinished : record.phase ≠ .tombstoned) :
    next.phase ≠ .tombstoned := by
  cases change with
  | aged retained phase sooner =>
    rw [phase]
    nofun
  | due phase dueAt => exact phase ▸ unfinished
  | failed phase dueAt => exact phase ▸ unfinished
  | paged page samePhase sameGeneration phase before started dueAt =>
    rcases phase with phase | phase
    · exact phase ▸ unfinished
    · rw [phase]
      intro last
      cases current : record.phase <;> rw [current] at last before
      case payload => exact before.1 rfl
      case tombstoned => exact before.2 rfl
      all_goals cases last

theorem changed_payload (change : RecordChange now op record next) (payload : record.phase = .payload) :
    next.phase = .payload := by
  cases change with
  | aged retained phase sooner => cases retained.symm.trans payload
  | due phase dueAt => exact phase.trans payload
  | failed phase dueAt => exact phase.trans payload
  | paged page samePhase sameGeneration phase before started dueAt => exact absurd payload before.1

/-- A transaction that leaves the record and the tombstone alone; a bare tombstone stays bare. -/
theorem kept (recorded : cell.Recorded) (tick : cell.now ≤ now) (cleanup : after.cleanup = cell.store.cleanup)
    (tombstone : after.tombstone = cell.store.tombstone)
    (bare : ∀ (expired : RunTombstone) (alarm : Option Nat), cell.store = expired.store alarm →
      ∃ alarm, after = expired.store alarm) :
    ExpiringCell.Recorded { cell with now, store := after } where
  due record stored left := recorded.aged tick (cleanup.symm.trans stored) left
  unfinished record stored := recorded.unfinished record (cleanup.symm.trans stored)
  read record stored := recorded.read record (cleanup.symm.trans stored)
  unread gone alive := recorded.unread (cleanup.symm.trans gone) (tombstone.symm.trans alive)
  expired expired stored := by
    obtain ⟨past, payload⟩ := recorded.expired expired (tombstone.symm.trans stored)
    exact ⟨Nat.le_trans past tick, fun record kept => payload record (cleanup.symm.trans kept)⟩
  bare expired stored gone := by
    obtain ⟨alarm, same⟩ := recorded.bare expired (tombstone.symm.trans stored) (cleanup.symm.trans gone)
    exact bare expired alarm same
  stamped expired stored := recorded.stamped expired (tombstone.symm.trans stored)

/-- A first record, which no pass has read yet. -/
theorem scheduled (recorded : cell.Recorded) (absent : cell.store.cleanup = none)
    (alive : cell.store.tombstone = none) (cleanup : after.cleanup = some record)
    (tombstone : after.tombstone = none)
    (retained : record.phase = .retained) : ExpiringCell.Recorded { cell with now, store := after } where
  due other stored left := by
    obtain rfl := Option.some.inj (cleanup.symm.trans stored)
    exact absurd retained left
  unfinished other stored := by
    obtain rfl := Option.some.inj (cleanup.symm.trans stored)
    rw [retained]
    nofun
  read other stored read member := by
    have unread : cell.passes = [] := recorded.unread absent alive
    simp only [unread] at member
    cases member
  unread gone := by cases cleanup.symm.trans gone
  expired other stored := by cases tombstone.symm.trans stored
  bare other stored := by cases tombstone.symm.trans stored
  stamped other stored := by cases tombstone.symm.trans stored

/-- The record under its next generation, which makes every record that was read before old. -/
theorem rewritten (recorded : cell.Recorded) (stored : cell.store.cleanup = some record)
    (cleanup : after.cleanup = some next) (generation : next.generation = record.generation + 1)
    (due : next.phase ≠ .retained → next.dueAt ≤ now) (unfinished : next.phase ≠ .tombstoned)
    (expired : ∀ tombstone, after.tombstone = some tombstone →
      (tombstone.expiredAt ≤ now ∧ next.phase = .payload) ∧
      tombstone.cleanup.dueAt = tombstone.expiredAt ∧ tombstone.cleanup.phase = .tombstoned) :
    ExpiringCell.Recorded { cell with now, store := after } where
  due other same left := by
    obtain rfl := Option.some.inj (cleanup.symm.trans same)
    exact due left
  unfinished other same := Option.some.inj (cleanup.symm.trans same) ▸ unfinished
  read other same read member := by
    obtain rfl := Option.some.inj (cleanup.symm.trans same)
    left
    rcases recorded.read record stored read member with older | rfl
    · omega
    · omega
  unread gone := by cases cleanup.symm.trans gone
  expired tombstone same := by
    obtain ⟨⟨past, payload⟩, -⟩ := expired tombstone same
    exact ⟨past, fun other kept => Option.some.inj (cleanup.symm.trans kept) ▸ payload⟩
  bare tombstone same gone := by cases cleanup.symm.trans gone
  stamped tombstone same := (expired tombstone same).2

/-- The last page, which leaves nothing but the tombstone. -/
theorem finished (cleanup : after.cleanup = none) (tombstone : after.tombstone = some (cleanupTombstone next now))
    (due : next.dueAt ≤ now) (bare : after.Bare) : ExpiringCell.Recorded { cell with now, store := after } where
  due other same := by cases cleanup.symm.trans same
  unfinished other same := by cases cleanup.symm.trans same
  read other same := by cases cleanup.symm.trans same
  unread _ alive := by cases tombstone.symm.trans alive
  expired expired same := by
    obtain rfl := Option.some.inj (tombstone.symm.trans same)
    exact ⟨due, fun other kept => by cases cleanup.symm.trans kept⟩
  bare expired same _ := by
    obtain ⟨left, alarm, after⟩ := bare
    have left : some left = some expired := by
      simp only [after] at same
      exact same
    obtain rfl := Option.some.inj left
    exact ⟨alarm, after⟩
  stamped expired same := by
    obtain rfl := Option.some.inj (tombstone.symm.trans same)
    exact ⟨rfl, rfl⟩

theorem step (recorded : cell.Recorded) (tick : cell.now ≤ now)
    (follows : ∀ expected, op.pageRecord = some expected → expected ∈ cell.passes) :
    ExpiringCell.Recorded { cell with now, store := op.run W runId now cell.store } := by
  cases op.recordStep W runId now cell.store with
  | kept cleanup tombstone =>
    refine recorded.kept tick cleanup tombstone fun expired alarm same => ?_
    rw [same]
    exact op.run_tombstone W runId now expired alarm
  | scheduled absent alive cleanup tombstone retained =>
    exact recorded.scheduled absent alive cleanup tombstone retained
  | @changed record next stored cleanup tombstone generation change =>
    refine recorded.rewritten stored cleanup generation (recorded.changed_due tick follows stored change)
      (changed_unfinished change (recorded.unfinished record stored)) fun expired same => ?_
    have kept := tombstone.symm.trans same
    obtain ⟨past, payload⟩ := recorded.expired expired kept
    exact ⟨⟨Nat.le_trans past tick, changed_payload change (payload record stored)⟩,
      recorded.stamped expired kept⟩
  | @batched record next stored payload cleanup tombstone generation phase dueAt =>
    have due : record.dueAt ≤ now := recorded.aged tick stored (by rw [payload]; nofun)
    refine recorded.rewritten stored cleanup generation (fun _ => dueAt ▸ due) (by rw [phase]; nofun)
      fun expired same => ?_
    obtain rfl := Option.some.inj (tombstone.symm.trans same)
    exact ⟨⟨due, phase⟩, rfl, rfl⟩
  | @finished record last stored payload cleanup tombstone generation phase dueAt bare =>
    have due : record.dueAt ≤ now := recorded.aged tick stored (by rw [payload]; nofun)
    exact finished cleanup tombstone (Nat.le_trans (Nat.le_of_eq dueAt) due) bare

end Step

end ExpiringCell.Recorded

theorem CellPasses.recorded {first cell : ExpiringCell} (reach : CellPasses W runId first cell)
    (recorded : first.Recorded) : cell.Recorded := by
  induction reach with
  | start => exact recorded
  | read _ stored ih => exact ih.readNow stored
  | next _ _ tick follows ih => exact ih.step tick follows

namespace RunStore
variable {before after store : RunStore} {op : CellOp}

theorem tombstoneFrom_isSome_iff : (store.tombstoneFrom now).isSome ↔ store.tombstone.isSome ∨
    ∃ record, store.cleanup = some record ∧ (record.phase = .retained → record.dueAt ≤ now) := by
  unfold tombstoneFrom
  cases store.tombstone with
  | some tombstone => simp
  | none =>
    cases store.cleanup with
    | none => simp
    | some record =>
      simp only [Option.some.injEq, exists_eq_left', Option.isSome_none, Bool.false_eq_true, false_or]
      split
      · rename_i kept
        simp [kept.1, kept.2]
      · rename_i due
        simp only [Option.isSome_some, true_iff]
        exact fun retained => Nat.le_of_not_lt fun early => due ⟨retained, early⟩

end RunStore

/-- An expired run stays expired. -/
theorem RecordStep.expired {now later : Nat} {before after : RunStore} {op : CellOp}
    (step : RecordStep later op before after)
    (tick : now ≤ later) (expired : (before.tombstoneFrom now).isSome) : (after.tombstoneFrom later).isSome := by
  rw [RunStore.tombstoneFrom_isSome_iff] at expired ⊢
  cases step with
  | kept cleanup tombstone =>
    rw [cleanup, tombstone]
    rcases expired with gone | ⟨record, stored, due⟩
    · exact .inl gone
    · exact .inr ⟨record, stored, fun retained => Nat.le_trans (due retained) tick⟩
  | scheduled absent alive cleanup tombstone retained first =>
    rcases expired with gone | ⟨record, stored, due⟩
    · rw [alive] at gone
      cases gone
    · cases absent.symm.trans stored
  | @changed record next stored cleanup tombstone generation change =>
    rcases expired with gone | ⟨other, same, due⟩
    · exact .inl (tombstone ▸ gone)
    obtain rfl := Option.some.inj (stored.symm.trans same)
    refine .inr ⟨next, cleanup, fun retained => ?_⟩
    cases change with
    | aged before phase sooner => exact Nat.le_trans (Nat.le_of_lt sooner) (Nat.le_trans (due before) tick)
    | due phase dueAt => exact Nat.le_of_eq dueAt
    | failed phase dueAt => exact dueAt ▸ Nat.le_trans (due (phase ▸ retained)) tick
    | paged page samePhase sameGeneration phase before started dueAt =>
      rw [dueAt]
      rcases phase with phase | phase
      · exact Nat.le_trans (due (phase ▸ retained)) tick
      · rw [phase] at retained
        cases current : record.phase <;> rw [current] at retained <;> cases retained
  | batched stored payload cleanup tombstone generation phase dueAt =>
    exact .inl (by rw [tombstone]; rfl)
  | finished stored payload cleanup tombstone generation phase dueAt bare =>
    exact .inl (by rw [tombstone]; rfl)

theorem CellPasses.expired {first cell : ExpiringCell} (reach : CellPasses W runId first cell)
    (expired : (first.store.tombstoneFrom first.now).isSome) : (cell.store.tombstoneFrom cell.now).isSome := by
  induction reach with
  | start => exact expired
  | read _ _ ih => exact ih
  | next op _ tick _ ih => exact (op.recordStep W runId _ _).expired tick ih

end CelldWorld
