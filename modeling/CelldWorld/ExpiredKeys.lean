import CelldWorld.Expiry

namespace CelldWorld

namespace RunStore
variable {store : RunStore}

/-- No key but the cleanup record and the tombstone is added. -/
def Shrinks (before after : RunStore) : Prop :=
  ∀ key : StoreKey, key.isPayload = true → after.has key = true → before.has key = true

theorem Shrinks.refl : Shrinks store store :=
  fun _ _ kept => kept

theorem Shrinks.trans {first middle last : RunStore} (head : Shrinks first middle) (tail : Shrinks middle last) :
    Shrinks first last :=
  fun key payload kept => head key payload (tail key payload kept)

theorem deleteAll_shrinks (keys : List StoreKey) : Shrinks store (store.deleteAll keys) := by
  intro key _ kept
  rw [has_deleteAll, Bool.and_eq_true] at kept
  exact kept.1

theorem retention_shrinks {cleanup : Option CleanupRecord} {tombstone : Option RunTombstone}
    {alarm : Option Nat} :
    Shrinks store { store with cleanup, tombstone, alarm } := by
  intro key payload kept
  cases key <;> first | exact kept | cases payload

theorem putQueueClaim_shrinks {claimName : String} {state stored : RunQueueClaimState}
    (found : store.queueClaims[claimName]? = some stored) :
    Shrinks store (store.putQueueClaim claimName state) := by
  intro key payload kept
  cases key with
  | queueClaim id =>
    have member : id ∈ (store.putQueueClaim claimName state).queueClaims := kept
    rcases Std.ExtTreeMap.mem_insert.mp member with same | earlier
    · rw [Std.LawfulEqCmp.eq_of_compare same] at found
      exact Std.ExtTreeMap.contains_iff_mem.mpr (Std.ExtTreeMap.mem_iff_isSome_getElem?.mpr (by rw [found]; rfl))
    · exact earlier
  | _ => exact kept

theorem keepQueueClaim_shrinks {claimName : String} {state stored : RunQueueClaimState}
    (found : store.queueClaims[claimName]? = some stored) :
    Shrinks store (store.keepQueueClaim claimName state) := by
  unfold keepQueueClaim
  split
  · exact putQueueClaim_shrinks found
  · exact fun key _ kept => @has_of_delete store key (.queueClaim claimName) kept

end RunStore

open RunStore

variable {W : WorldContract} {runId : String} {now : Nat} {store after : RunStore}

/-- Queue transactions of an expired run rewrite claims that are stored, and drop keys. -/
theorem QueueOp.run_shrinks (op : QueueOp) (expired : (store.tombstoneFrom now).isSome) :
    Shrinks store (op.run now store) := by
  obtain ⟨tombstone, expired⟩ := Option.isSome_iff_exists.mp expired
  cases op with
  | reserve request =>
    simp only [run, WorkflowRunDO.reserveRunQueueMessage, expired]
    split <;> exact .refl
  | confirmPublication claimName messageId expiresAt =>
    simp only [run, WorkflowRunDO.confirmRunQueueMessagePublication]
    split
    · exact .refl
    split
    · exact .refl
    rename_i found
    split
    · exact .refl
    · exact putQueueClaim_shrinks found
  | claim claimName messageId staleMs =>
    simp only [run, WorkflowRunDO.claimRunQueueMessage, expired, Option.isSome_some, if_true]
    split <;> exact .refl
  | hold request =>
    simp only [run, WorkflowRunDO.holdRunQueueMessage]
    split
    · exact .refl
    split
    · exact .refl
    rename_i found
    unfold RunStore.queueClaim at found
    cases stored : store.queueClaims[request.claimName]? with
    | none =>
      rw [stored] at found
      cases found
    | some state => exact putQueueClaim_shrinks stored
  | release claimName messageId =>
    simp only [run, WorkflowRunDO.releaseRunQueueMessage]
    split
    · exact .refl
    split
    · exact .refl
    rename_i found
    split
    · exact keepQueueClaim_shrinks found
    · exact .refl
  | complete claimName messageId =>
    simp only [run, WorkflowRunDO.completeRunQueueMessage]
    split
    · exact .refl
    split
    · exact .refl
    · rename_i found
      exact keepQueueClaim_shrinks found
  | abandonReservation claimName messageId =>
    simp only [run, WorkflowRunDO.abandonRunQueueMessageReservation]
    split
    · exact .refl
    split
    · exact .refl
    rename_i found
    split
    · exact keepQueueClaim_shrinks found
    · exact .refl
  | registerPayload registration =>
    simp only [run, WorkflowRunDO.registerQueuePayload, expired]
    split <;> exact .refl
  | unregisterPayload messageId =>
    simp only [run, WorkflowRunDO.unregisterQueuePayload]
    split
    · exact .refl
    · exact fun key _ kept => @has_of_delete store key (.queuePayload messageId) kept

theorem BatchStep.shrinks (step : BatchStep now store after) : Shrinks store after := by
  cases step with
  | idle same =>
    rw [same]
    exact .refl
  | batched stored payload nodup present batch => exact batch ▸ (deleteAll_shrinks _).trans retention_shrinks
  | finished stored payload batch => exact batch ▸ retention_shrinks

theorem PageStep.shrinks {expected : CleanupRecord} {page : CleanupPage}
    (step : PageStep now expected page store after) : Shrinks store after := by
  cases step with
  | stale same =>
    obtain ⟨alarm, rfl⟩ := same
    exact retention_shrinks
  | batch _ _ deletes => exact deletes.shrinks
  | committed _ _ _ _ _ commit => exact commit ▸ (deleteAll_shrinks _).trans retention_shrinks

/-- The terminal cleanup record of a cell that has one is rewritten or deleted, never added. -/
theorem terminalCleanup_shrinks {terminalCleanup : Option TerminalCleanupRecord} {alarm : Option Nat}
    (held : store.terminalCleanup.isSome) : Shrinks store { store with terminalCleanup, alarm } := by
  intro key payload kept
  cases key with
  | terminalCleanup => exact held
  | _ => exact kept

/-- A stored run is rewritten, never added. -/
theorem run_shrinks {run : WorkflowRun} {later : Option WorkflowRun} {cleanup : Option CleanupRecord}
    {alarm : Option Nat} (stored : store.run = some run) :
    Shrinks store { store with run := later, cleanup, alarm } := by
  intro key payload kept
  cases key with
  | run => simp [has, stored]
  | cleanup => cases payload
  | _ => exact kept

/-- No step of an expired run adds a key, other than the cleanup record and the tombstone. -/
theorem CellStep.shrinks {op : CellOp} (step : CellStep W runId now store op after)
    (expired : (store.tombstoneFrom now).isSome) : Shrinks store after := by
  obtain ⟨tombstone, gone⟩ := Option.isSome_iff_exists.mp expired
  cases step with
  | idle => exact .refl
  | applied call =>
    rw [(WorkflowRunDO.applyEvent_expired gone call).1]
    exact .refl
  | disposed call =>
    rw [(WorkflowRunDO.forceDisposeHook_expired gone call).1]
    exact .refl
  | queued => exact QueueOp.run_shrinks _ expired
  | fenced _ unexpired => cases unexpired.symm.trans gone
  | scheduled _ _ current => exact run_shrinks current
  | checked => exact retention_shrinks
  | aged _ current => exact run_shrinks current
  | due =>
    cases current : store.run with
    | some run => exact run_shrinks current
    | none =>
      intro key payload kept
      cases key with
      | run => cases kept
      | cleanup => cases payload
      | _ => exact kept
  | rearmed => exact retention_shrinks
  | paged step => exact step.shrinks
  | failed => exact retention_shrinks
  | @swept _ _ keys _ _ held =>
    intro key payload kept
    cases key with
    | terminalCleanup => exact held
    | _ => exact deleteAll_shrinks keys _ payload kept
  | terminalFailed held => exact terminalCleanup_shrinks (by rw [held]; rfl)

theorem CellOp.run_shrinks (op : CellOp) (expired : (store.tombstoneFrom now).isSome) :
    Shrinks store (op.run W runId now store) :=
  (op.run_step W runId now store).shrinks expired

end CelldWorld
