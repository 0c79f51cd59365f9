import CelldWorld.CellEffects

namespace CelldWorld

/-- What every transaction keeps once payload deletion has begun: nothing is
journaled again and stored events only go. -/
structure Remains (before after : RunStore) : Prop where
  payload : after.beforePayload = false
  events : ∀ (id : String) event, after.events[id]? = some event → before.events[id]? = some event
  eventSequence : after.eventSequence ≤ before.eventSequence
  run : after.run = none ∨ after.run.map WorkflowRun.unexpired = before.run.map WorkflowRun.unexpired

theorem Remains.refl {store : RunStore} (payload : store.beforePayload = false) : Remains store store :=
  ⟨payload, fun _ _ stored => stored, Nat.le_refl _, .inr rfl⟩

theorem Remains.trans {first middle last : RunStore} (head : Remains first middle)
    (tail : Remains middle last) : Remains first last where
  payload := tail.payload
  events id event stored := head.events id event (tail.events id event stored)
  eventSequence := Nat.le_trans tail.eventSequence head.eventSequence
  run := by
    rcases tail.run with gone | same
    · exact .inl gone
    · rcases head.run with gone | earlier
      · rw [gone, Option.map_none, Option.map_eq_none_iff] at same
        exact .inl same
      · exact .inr (same.trans earlier)

/-- A quiet change that leaves the cleanup state past the payload phase. -/
theorem Quiet.remains {before after : RunStore} (quiet : Quiet before after)
    (payload : after.beforePayload = false) : Remains before after :=
  ⟨payload, fun _ _ stored => quiet.events ▸ stored, Nat.le_of_eq quiet.eventSequence, .inr quiet.run⟩

namespace RunStore

theorem beforePayload_eq_false {store : RunStore} : store.beforePayload = false ↔
    (∃ tombstone, store.tombstone = some tombstone) ∨ ∃ cleanup, store.cleanup = some cleanup ∧
      (cleanup.phase = .payload ∨ cleanup.phase = .tombstoned) := by
  unfold beforePayload
  cases store.tombstone <;> cases store.cleanup <;> simp
  rename_i cleanup
  cases cleanup.phase <;> simp

theorem tombstoneFrom_isSome {store : RunStore} (payload : store.beforePayload = false) (now : Nat) :
    ∃ tombstone, store.tombstoneFrom now = some tombstone := by
  rcases beforePayload_eq_false.mp payload with ⟨tombstone, stored⟩ | ⟨cleanup, stored, phase⟩
  · exact ⟨tombstone, by rw [tombstoneFrom, stored]⟩
  · cases kept : store.tombstone with
    | some tombstone => exact ⟨tombstone, by rw [tombstoneFrom, kept]⟩
    | none =>
      refine ⟨cleanupTombstone cleanup (cleanup.tombstonedAt.getD cleanup.dueAt), ?_⟩
      rw [tombstoneFrom, kept, stored]
      rcases phase with phase | phase <;> simp [phase]

theorem beforePayload_of_unexpired {store : RunStore} {now : Nat} (unexpired : store.tombstoneFrom now = none) :
    store.beforePayload = true := by
  cases before : store.beforePayload with
  | true => rfl
  | false =>
    obtain ⟨tombstone, expired⟩ := tombstoneFrom_isSome before now
    cases unexpired.symm.trans expired

theorem beforePayload_congr {before after : RunStore} (payload : before.beforePayload = false)
    (tombstone : after.tombstone = before.tombstone)
    (cleanup : after.cleanup.map CleanupRecord.phase = before.cleanup.map CleanupRecord.phase) :
    after.beforePayload = false := by
  rw [beforePayload_eq_false] at payload ⊢
  rw [tombstone]
  rcases payload with expired | ⟨record, stored, phase⟩
  · exact .inl expired
  · rw [stored, Option.map_some] at cleanup
    obtain ⟨record', stored', same⟩ := Option.map_eq_some_iff.mp cleanup
    exact .inr ⟨record', stored', by rwa [same]⟩

end RunStore

/-- Deleting one key other than the cleanup record and the tombstone. -/
theorem Remains.delete {store : RunStore} {key : StoreKey} (payload : store.beforePayload = false)
    (kept : key ≠ .cleanup ∧ key ≠ .tombstone) : Remains store (store.delete key) := by
  have payload' : (store.delete key).beforePayload = false := by
    cases key with
    | cleanup => exact absurd rfl kept.1
    | tombstone => exact absurd rfl kept.2
    | _ => exact payload
  cases key with
  | cleanup => exact absurd rfl kept.1
  | tombstone => exact absurd rfl kept.2
  | event id =>
    refine ⟨payload', fun other event stored => ?_, Nat.le_refl _, .inr rfl⟩
    simp only [RunStore.delete, Std.ExtTreeMap.getElem?_erase] at stored
    split at stored
    · cases stored
    · exact stored
  | eventSequence => exact ⟨payload', fun _ _ stored => stored, Nat.zero_le _, .inr rfl⟩
  | run => exact ⟨payload', fun _ _ stored => stored, Nat.le_refl _, .inl rfl⟩
  | _ => exact ⟨payload', fun _ _ stored => stored, Nat.le_refl _, .inr rfl⟩

theorem Remains.deleteAll (keys : List StoreKey) {store : RunStore} (payload : store.beforePayload = false)
    (kept : ∀ key ∈ keys, key ≠ .cleanup ∧ key ≠ .tombstone) : Remains store (store.deleteAll keys) := by
  induction keys generalizing store with
  | nil => exact .refl payload
  | cons key keys ih =>
    have first := Remains.delete payload (kept key (.head _))
    exact first.trans (ih first.payload fun other member => kept other (.tail _ member))

/-- The protocol keys may change as long as the cleanup stays where it was. -/
theorem Remains.bookkeeping {store : RunStore} {run : Option WorkflowRun}
    {hookMarkers : ReferenceMap HookIndexReference} {cleanup : Option CleanupRecord}
    {tombstone : Option RunTombstone} {terminalCleanup : Option TerminalCleanupRecord}
    {queueClaimScope : Option String} {alarm : Option Nat}
    (same : run.map WorkflowRun.unexpired = store.run.map WorkflowRun.unexpired)
    (payload : RunStore.beforePayload { store with
      run, hookMarkers, cleanup, tombstone, terminalCleanup, queueClaimScope, alarm } = false) :
    Remains store { store with
      run, hookMarkers, cleanup, tombstone, terminalCleanup, queueClaimScope, alarm } :=
  ⟨payload, fun _ _ stored => stored, Nat.le_refl _, .inr same⟩

variable {W : WorldContract} {runId : String} {now : Nat} {store store' after : RunStore}

namespace WorkflowRunDO

theorem applyEvent_expired {request : ApplyEventRequest} {outcome : ApplyEventOutcome}
    {tombstone : RunTombstone} (expired : store.tombstoneFrom now = some tombstone)
    (call : applyEvent W runId now request store = .ok (outcome, store')) :
    store' = store ∧ outcome = runExpired request.runId tombstone := by
  unfold applyEvent at call
  obtain ⟨parsed, parse, checked⟩ := bind_ok.mp call
  obtain rfl := parseApplyEventRequest_ok parse
  split at checked
  · cases checked
  obtain ⟨_, -, run⟩ := bind_ok.mp checked
  rw [expired] at run
  obtain ⟨rfl, rfl⟩ := Prod.mk.inj (Except.ok.inj run)
  exact ⟨rfl, rfl⟩

theorem forceDisposeHook_expired {hookId token : String} {claimedBy : HookTokenOwner} {journaled : Bool}
    {tombstone : RunTombstone} (expired : store.tombstoneFrom now = some tombstone)
    (call : forceDisposeHook W runId now hookId token claimedBy store = .ok (journaled, store')) :
    store' = store ∧ journaled = false := by
  unfold forceDisposeHook at call
  split at call
  · cases call
  simp only [expired, Option.isSome_some, if_true] at call
  obtain ⟨rfl, rfl⟩ := Prod.mk.inj (Except.ok.inj call)
  exact ⟨rfl, rfl⟩

end WorkflowRunDO

theorem BatchStep.remains (step : BatchStep now store after) (payload : store.beforePayload = false) :
    Remains store after := by
  cases step with
  | idle same =>
    rw [same]
    exact .refl payload
  | @batched record keys stored paying nodup present batch =>
    have deleted := Remains.deleteAll keys payload fun key member => by
      simpa [StoreKey.isPayload] using (present key member).1
    rw [batch]
    exact deleted.trans (.bookkeeping rfl (RunStore.beforePayload_eq_false.mpr (.inl ⟨_, rfl⟩)))
  | finished stored paying batch =>
    rw [batch]
    exact .bookkeeping rfl (RunStore.beforePayload_eq_false.mpr (.inl ⟨_, rfl⟩))

theorem PageStep.remains {expected : CleanupRecord} {page : CleanupPage}
    (step : PageStep now expected page store after) (payload : store.beforePayload = false) :
    Remains store after := by
  cases step with
  | stale same =>
    obtain ⟨alarm, rfl⟩ := same
    exact .bookkeeping rfl payload
  | batch _ _ deletes => exact deletes.remains payload
  | @committed record alarm paged phase stored samePhase sameGeneration commit started =>
    -- the record is not in its payload phase, so payload deletion has left a tombstone
    have early : record.phase ≠ .payload ∧ record.phase ≠ .tombstoned := by
      rw [samePhase, phase]
      exact CleanupPage.phase_early paged
    have page_ := PageStep.committed paged phase stored samePhase sameGeneration commit started
    refine (page_.quiet (.inl fun late => early.1 (samePhase.trans late))).remains ?_
    rcases RunStore.beforePayload_eq_false.mp payload with ⟨tombstone, kept⟩ | ⟨other, same, late⟩
    · obtain ⟨-, -, tombstones⟩ := @RunStore.deleteAll_lifecycle store page.keys
        fun _ member => .inl (CleanupPage.keys_indexed member)
      rw [commit]
      exact RunStore.beforePayload_eq_false.mpr (.inl ⟨tombstone, tombstones.trans kept⟩)
    · obtain rfl := Option.some.inj (stored.symm.trans same)
      rcases late with late | late
      · exact absurd late early.1
      · exact absurd late early.2

/-- Once payload deletion has begun, no step journals anything. -/
theorem CellStep.remains {op : CellOp} (step : CellStep W runId now store op after)
    (payload : store.beforePayload = false) : Remains store after := by
  obtain ⟨tombstone, expired⟩ := RunStore.tombstoneFrom_isSome payload now
  cases step with
  | idle => exact .refl payload
  | applied call =>
    rw [(WorkflowRunDO.applyEvent_expired expired call).1]
    exact .refl payload
  | disposed call =>
    rw [(WorkflowRunDO.forceDisposeHook_expired expired call).1]
    exact .refl payload
  | @queued op =>
    obtain ⟨claims, payloads, same⟩ : QueueOp.Writes store (op.run now store) := op.run_writes
    exact (QueueOp.run_quiet op).remains (by rw [same]; exact payload)
  | fenced _ unexpired => cases unexpired.symm.trans expired
  | scheduled absent alive => simp [RunStore.beforePayload, absent, alive] at payload
  | checked => exact .bookkeeping rfl payload
  | aged alive _ _ changes =>
    -- without a tombstone the record is past `retained`, where its age no longer counts
    obtain ⟨cleanup, kept, late⟩ := (RunStore.beforePayload_eq_false.mp payload).resolve_left (by simp [alive])
    rcases (WorkflowRunDO.maximumAgeRecord_change changes).2 with ⟨absent, -⟩ | ⟨record, stored, -, retained, -⟩
    · cases absent.symm.trans kept
    · obtain rfl := Option.some.inj (stored.symm.trans kept)
      rw [retained] at late
      rcases late with late | late <;> cases late
  | due stored =>
    refine .bookkeeping ?_ (RunStore.beforePayload_congr payload rfl (by rw [stored]; rfl))
    cases store.run <;> rfl
  | rearmed => exact .bookkeeping rfl payload
  | paged step => exact step.remains payload
  | failed stored => exact .bookkeeping rfl (RunStore.beforePayload_congr payload rfl (by rw [stored]; rfl))
  | @swept _ _ keys _ _ _ derived =>
    have swept := Remains.deleteAll keys payload fun key member => by
      have := derived key member
      constructor <;> rintro rfl <;> cases this
    exact swept.trans (.bookkeeping rfl swept.payload)
  | terminalFailed => exact .bookkeeping rfl payload

/-- Once payload deletion has begun, no transaction of the cell journals anything. -/
theorem CellOp.run_remains (W : WorldContract) (runId : String) (now : Nat) (op : CellOp)
    {store : RunStore} (payload : store.beforePayload = false) : Remains store (op.run W runId now store) :=
  (op.run_step W runId now store).remains payload

end CelldWorld
