import CelldWorld.Spec.Transactions

namespace CelldWorld

namespace RunStore

theorem status_congr {before after : RunStore}
    (same : after.run.map WorkflowRun.unexpired = before.run.map WorkflowRun.unexpired) :
    after.run.map WorkflowRun.status = before.run.map WorkflowRun.status := by
  simpa only [Option.map_map, Function.comp_def, WorkflowRun.unexpired] using
    congrArg (Option.map WorkflowRun.status) same

theorem ended_iff {store : RunStore} : store.Ended ↔
    ∀ status, store.run.map WorkflowRun.status = some status → isTerminalWorkflowRunStatus status = true := by
  unfold Ended
  cases store.run <;> simp

theorem ended_congr {before after : RunStore}
    (same : after.run.map WorkflowRun.unexpired = before.run.map WorkflowRun.unexpired) :
    after.Ended ↔ before.Ended := by
  rw [ended_iff, ended_iff, status_congr same]

theorem isTerminal_congr {before after : RunStore}
    (same : after.run.map WorkflowRun.unexpired = before.run.map WorkflowRun.unexpired) :
    after.isTerminal = before.isTerminal := by
  have byStatus (store : RunStore) :
      store.isTerminal = (store.run.map WorkflowRun.status).any isTerminalWorkflowRunStatus := by
    unfold isTerminal
    cases store.run <;> rfl
  rw [byStatus, byStatus, status_congr same]

theorem isTerminal.ended {store : RunStore} (terminal : store.isTerminal = true) : store.Ended := by
  intro run current
  simpa [isTerminal, current] using terminal

end RunStore

theorem Quiet.refl {store : RunStore} : Quiet store store where
  events := rfl
  eventSequence := rfl
  steps := rfl
  stepCreated := rfl
  hookEvent := rfl
  attrEvent := rfl
  hookResume := rfl
  run := rfl
  hooks := .refl
  hookCreated := .refl
  waits := .refl
  fences _ fenced := fenced
  hookForced _ _ forced := forced
  terminalCleanup started := .inl started

theorem Quiet.trans {first middle last : RunStore} (head : Quiet first middle)
    (tail : Quiet middle last) : Quiet first last where
  events := tail.events.trans head.events
  eventSequence := tail.eventSequence.trans head.eventSequence
  steps := tail.steps.trans head.steps
  stepCreated := tail.stepCreated.trans head.stepCreated
  hookEvent := tail.hookEvent.trans head.hookEvent
  attrEvent := tail.attrEvent.trans head.attrEvent
  hookResume := tail.hookResume.trans head.hookResume
  run := tail.run.trans head.run
  hooks := head.hooks.trans ((RunStore.ended_congr head.run).eq ▸ tail.hooks)
  hookCreated := head.hookCreated.trans ((RunStore.ended_congr head.run).eq ▸ tail.hookCreated)
  waits := head.waits.trans ((RunStore.ended_congr head.run).eq ▸ tail.waits)
  fences claimId fenced := tail.fences claimId (head.fences claimId fenced)
  hookForced id claim forced := tail.hookForced id claim (head.hookForced id claim forced)
  terminalCleanup started := by
    rcases tail.terminalCleanup started with earlier | terminal
    · exact head.terminalCleanup earlier
    · exact .inr (RunStore.isTerminal_congr head.run ▸ terminal)

/-- The keys that only serve the retention and index protocols, and the run's expiry time. -/
theorem Quiet.bookkeeping {store : RunStore} {run : Option WorkflowRun}
    {hookMarkers : ReferenceMap HookIndexReference} {cleanup : Option CleanupRecord}
    {tombstone : Option RunTombstone} {terminalCleanup : Option TerminalCleanupRecord}
    {queueClaimScope : Option String} {alarm : Option Nat}
    (same : run.map WorkflowRun.unexpired = store.run.map WorkflowRun.unexpired)
    (terminal : terminalCleanup.isSome → store.terminalCleanup.isSome ∨ store.isTerminal) :
    Quiet store { store with
      run, hookMarkers, cleanup, tombstone, terminalCleanup, queueClaimScope, alarm } where
  events := rfl
  eventSequence := rfl
  steps := rfl
  stepCreated := rfl
  hookEvent := rfl
  attrEvent := rfl
  hookResume := rfl
  run := same
  hooks := .refl
  hookCreated := .refl
  waits := .refl
  fences _ fenced := fenced
  hookForced _ _ forced := forced
  terminalCleanup := terminal

/-- Retention writes its expiry time into the stored run and nothing else. -/
theorem Quiet.expire {store : RunStore} {run : WorkflowRun} {cleanup : Option CleanupRecord}
    {alarm expiredAt : Option Nat} (current : store.run = some run) :
    Quiet store { store with run := some { run with expiredAt }, cleanup, alarm } :=
  .bookkeeping (by rw [current]; rfl) .inl

/-- The queue's keys play no part in the events. -/
theorem Quiet.queues {store : RunStore} {queueClaims : KeyMap RunQueueClaimState}
    {queuePayloads : KeyMap QueuePayloadRegistration} :
    Quiet store { store with queueClaims, queuePayloads } :=
  { (Quiet.refl : Quiet store store) with }

theorem QueueOp.run_quiet {now : Nat} {store : RunStore} (op : QueueOp) : Quiet store (op.run now store) := by
  obtain ⟨claims, payloads, same⟩ := run_writes op
  exact same ▸ .queues

/-- Fences are added, never lifted. -/
theorem Quiet.fenced {store : RunStore} {hookClaimCancelled : KeyMap HookClaimCancellation}
    (fences : ∀ claimId, claimId ∈ store.hookClaimCancelled → claimId ∈ hookClaimCancelled) :
    Quiet store { store with hookClaimCancelled } :=
  { (Quiet.refl : Quiet store store) with fences }

/-- Deleting one derived key of an ended run is quiet. -/
theorem Quiet.delete {store : RunStore} {key : StoreKey} (derived : key.isDerived = true)
    (ended : store.Ended) : Quiet store (store.delete key) := by
  cases key <;> simp only [StoreKey.isDerived, Bool.false_eq_true] at derived
  case hook id => exact { (Quiet.refl : Quiet store store) with hooks := .erase id ended }
  case hookCreated key => exact { (Quiet.refl : Quiet store store) with hookCreated := .erase key ended }
  case hookMarker key => exact .bookkeeping rfl .inl
  case wait id => exact { (Quiet.refl : Quiet store store) with waits := .erase id ended }

theorem Quiet.deleteAll {keys : List StoreKey} {store : RunStore}
    (derived : ∀ key ∈ keys, key.isDerived = true) (ended : store.Ended) :
    Quiet store (store.deleteAll keys) := by
  induction keys generalizing store with
  | nil => exact .refl
  | cons key keys ih =>
    have first := Quiet.delete (derived key (.head _)) ended
    exact first.trans (ih (fun other member => derived other (.tail _ member))
      ((RunStore.ended_congr first.run).mpr ended))

theorem Quiet.deleteIndexed {keys : List StoreKey} {store : RunStore}
    (indexed : ∀ key ∈ keys, key.isIndexed = true) : Quiet store (store.deleteAll keys) := by
  induction keys generalizing store with
  | nil => exact .refl
  | cons key keys ih =>
    have rest := @ih (store.delete key) fun other member => indexed other (.tail _ member)
    have first : Quiet store (store.delete key) := by
      have member := indexed key (.head _)
      cases key <;> simp only [StoreKey.isIndexed, Bool.false_eq_true] at member
      case hookMarker => exact .bookkeeping rfl .inl
      case queuePayload => exact .queues
    exact first.trans rest

/-- Around a successful application the cell only adds bookkeeping. -/
theorem Committed.quiet {W : WorldContract} {now : Nat} {success scheduled : ApplyEventSuccess}
    {store after : RunStore} (committed : Committed W now success store scheduled after)
    (answers : ∀ run, success.run = some run → store.run = some run) : Quiet store after := by
  cases committed with
  | active => exact .bookkeeping rfl .inl
  | ended _ carried terminal =>
    exact .bookkeeping rfl fun _ => .inr (by simpa [RunStore.isTerminal, answers _ carried] using terminal)
  | retained _ carried terminal =>
    exact .bookkeeping (by rw [answers _ carried]; rfl)
      fun _ => .inr (by simpa [RunStore.isTerminal, answers _ carried] using terminal)

theorem WorkflowRunDO.commitOutcome_quiet {W : WorldContract} {now : Nat} {request : ApplyEventRequest}
    {success : ApplyEventSuccess} {txn : EventTxn} {outcome : ApplyEventOutcome} {store' : RunStore}
    (answers : txn.Answers success)
    (run : commitOutcome W request now txn.store.eventSequence success txn = .ok (outcome, store')) :
    Quiet txn.commit store' := by
  obtain ⟨scheduled, committed, -⟩ := commitOutcome_ok run
  exact committed.quiet answers

/-- The effect of one transaction before payload deletion: journaled events, then
a quiet change. -/
def Transition (W : WorldContract) (runId : String) (now : Nat) (before after : RunStore) : Prop :=
  ∃ events middle, Journals W runId now before events middle ∧ Quiet middle after

theorem Transition.quiet {W : WorldContract} {runId : String} {now : Nat} {before after : RunStore}
    (quiet : Quiet before after) : Transition W runId now before after :=
  ⟨[], before, .start, quiet⟩

theorem Transition.refl {W : WorldContract} {runId : String} {now : Nat} {store : RunStore} :
    Transition W runId now store store :=
  .quiet .refl

/-- Terminal cleanup is started by terminal runs only. -/
def RunStore.CleansTerminal (store : RunStore) : Prop :=
  store.terminalCleanup.isSome → store.isTerminal

namespace WorkflowRunDO
variable {W : WorldContract} {runId : String} {now : Nat} {store store' : RunStore}

/-- A call is refused and leaves the store alone, or applies its event to the stored
run and commits what it wrote. -/
theorem applyEvent_ok {request : ApplyEventRequest} {outcome : ApplyEventOutcome}
    (call : applyEvent W runId now request store = .ok (outcome, store')) :
    ((∃ refusal, outcome = .fail refusal) ∧ store' = store) ∨
      ∃ success txn, request.runId = runId ∧ store.tombstoneFrom now = none ∧
        CelldWorld.applyEvent W true { request with now } ⟨store, store.eventSequence⟩ =
          .ok (.ok success, txn) ∧
        commitOutcome W request now txn.store.eventSequence success txn = .ok (outcome, store') := by
  unfold applyEvent at call
  obtain ⟨parsed, parse, checked⟩ := bind_ok.mp call
  obtain rfl := parseApplyEventRequest_ok parse
  split at checked
  · cases checked
  rename_i ofRun
  have ofRun : parsed.runId = runId := by simpa using ofRun
  obtain ⟨_, -, run⟩ := bind_ok.mp checked
  split at run
  · obtain ⟨rfl, rfl⟩ := Prod.mk.inj (Except.ok.inj run)
    exact .inl ⟨⟨_, rfl⟩, rfl⟩
  rename_i unexpired
  obtain ⟨⟨answer, txn⟩, applied, commit⟩ := bind_ok.mp run
  cases answer with
  | fail refusal =>
    obtain rfl := applyEvent_refuses applied
    obtain ⟨rfl, rfl⟩ := Prod.mk.inj (Except.ok.inj commit)
    exact .inl ⟨⟨_, rfl⟩, rfl⟩
  | ok success =>
    have sequence := (applyEvent_journals applied).1
    simp only at sequence commit
    rw [← sequence] at commit
    exact .inr ⟨success, txn, ofRun, unexpired, applied, commit⟩

/-- A call that answers has had its event parsed. -/
theorem applyEvent_parsed {request : ApplyEventRequest} {answer : ApplyEventOutcome × RunStore}
    (call : applyEvent W runId now request store = .ok answer) : W.createEventSchema request.data = true := by
  unfold applyEvent at call
  obtain ⟨_, parse, -⟩ := bind_ok.mp call
  exact parseApplyEventRequest_schema parse

theorem applyEvent_transition {request : ApplyEventRequest} {outcome : ApplyEventOutcome}
    (call : applyEvent W runId now request store = .ok (outcome, store')) :
    Transition W runId now store store' := by
  rcases applyEvent_ok call with ⟨-, rfl⟩ | ⟨success, txn, ofRun, -, applied, commit⟩
  · exact .refl
  · obtain ⟨-, -, events, journals⟩ := applyEvent_journals applied
    exact ⟨events, txn.commit, ofRun ▸ journals, commitOutcome_quiet (applyEvent_answers applied) commit⟩

/-- A forced disposal journals its event, or sweeps a hook of an ended run. -/
theorem forceDisposeHook_ok {hookId token : String} {claimedBy : HookTokenOwner} {journaled : Bool}
    (call : forceDisposeHook W runId now hookId token claimedBy store = .ok (journaled, store')) :
    (store'.run = store.run ∧ ∃ events, Journals W runId now store events store') ∨
      ∃ hook, store.hooks[hookId]? = some hook ∧ hook.token = token ∧ store.hookForced[hookId]? = none ∧
        store.Ended ∧ store' = (store.releaseHook hookId hook).putHookForced hookId ⟨token, claimedBy⟩ := by
  unfold forceDisposeHook at call
  split at call
  · cases call
  split at call
  · cases call
    exact .inl ⟨rfl, [], .start⟩
  obtain ⟨⟨disposed, txn⟩, disposal, run⟩ := bind_ok.mp call
  cases run
  rcases applyForcedHookDisposal_journals disposal with ⟨sequence, same, events, journals⟩ |
    ⟨hook, stored, sameToken, unforced, ended, rfl⟩
  · simp only at sequence
    rw [← sequence, EventTxn.persist_eq]
    exact .inl ⟨same, events, journals⟩
  · refine .inr ⟨hook, stored, sameToken, unforced, ended, ?_⟩
    simp [EventTxn.persist, EventTxn.releaseHook, EventTxn.putHookForced]

theorem forceDisposeHook_transition {hookId token : String} {claimedBy : HookTokenOwner} {journaled : Bool}
    (call : forceDisposeHook W runId now hookId token claimedBy store = .ok (journaled, store')) :
    Transition W runId now store store' := by
  rcases forceDisposeHook_ok call with ⟨-, events, journals⟩ | ⟨hook, stored, sameToken, unforced, ended, rfl⟩
  · exact ⟨events, _, journals, .refl⟩
  · refine .quiet { (Quiet.refl : Quiet store store) with
      hooks := .erase hookId ended
      hookCreated := .erase _ ended
      hookForced := fun id claim forced => ?_ }
    have different : hookId ≠ id := by
      rintro rfl
      rw [unforced] at forced
      cases forced
    simpa [RunStore.releaseHook, RunStore.putHookForced, Std.ExtTreeMap.getElem?_insert, different] using forced

end WorkflowRunDO

/-- The transactions that may journal an event. -/
def CellOp.mayJournal : CellOp → Bool
  | .applyEvent _ | .forceDisposeHook .. => true
  | _ => false

/-- The transactions that may delete a page of the payload. -/
def CellOp.deletesPayload : CellOp → Bool
  | .executeCleanup expected _ => expected.phase = .payload
  | _ => false

section Steps
variable {W : WorldContract} {runId : String} {now : Nat} {op : CellOp} {store after : RunStore}

/-- Before its phase a payload page finds nothing to do. -/
theorem BatchStep.early (step : BatchStep now store after) (before : store.beforePayload = true) :
    after = store := by
  have unpaid {record : CleanupRecord} (stored : store.cleanup = some record) : record.phase ≠ .payload := by
    simp only [RunStore.beforePayload, stored, Option.all_some, Bool.and_eq_true, decide_eq_true_eq] at before
    exact before.2.1
  cases step with
  | idle same => exact same
  | batched stored payload => exact absurd payload (unpaid stored)
  | finished stored payload => exact absurd payload (unpaid stored)

/-- Every page but the payload page is quiet. -/
theorem PageStep.quiet {expected : CleanupRecord} {page : CleanupPage}
    (step : PageStep now expected page store after)
    (unpaid : expected.phase ≠ .payload ∨ store.beforePayload = true) : Quiet store after := by
  cases step with
  | stale same =>
    obtain ⟨alarm, rfl⟩ := same
    exact .bookkeeping rfl .inl
  | batch payload phase deletes =>
    rw [deletes.early (unpaid.resolve_left fun other => other phase)]
    exact .refl
  | committed paged phase stored samePhase sameGeneration commit =>
    rw [commit]
    exact (Quiet.deleteIndexed fun _ => CleanupPage.keys_indexed).trans (.bookkeeping rfl .inl)

/-- A step that applies no event and deletes no payload is quiet. -/
theorem CellStep.quiet (step : CellStep W runId now store op after) (silent : op.mayJournal = false)
    (unpaid : op.deletesPayload = false ∨ store.beforePayload = true) (cleans : store.CleansTerminal) :
    Quiet store after := by
  cases step with
  | idle => exact .refl
  | applied => cases silent
  | disposed => cases silent
  | queued => exact QueueOp.run_quiet _
  | fenced _ _ fences => exact .fenced fences
  | scheduled _ _ current => exact .expire current
  | checked => exact .bookkeeping rfl .inl
  | aged _ current => exact .expire current
  | due =>
    refine .bookkeeping ?_ .inl
    cases store.run <;> rfl
  | rearmed => exact .bookkeeping rfl .inl
  | paged step => exact step.quiet (unpaid.imp_left of_decide_eq_false)
  | failed => exact .bookkeeping rfl .inl
  | swept held derived =>
    have terminal := cleans held
    have swept := Quiet.deleteAll derived (RunStore.isTerminal.ended terminal)
    exact swept.trans (.bookkeeping rfl fun _ => .inr (RunStore.isTerminal_congr swept.run ▸ terminal))
  | terminalFailed held => exact .bookkeeping rfl fun _ => .inl (by rw [held]; rfl)

/-- Before payload deletion every other transaction is quiet. -/
theorem CellOp.run_quiet (W : WorldContract) (runId : String) (now : Nat) {op : CellOp}
    {store : RunStore} (silent : op.mayJournal = false) (before : store.beforePayload = true)
    (cleans : store.CleansTerminal) : Quiet store (op.run W runId now store) :=
  (op.run_step W runId now store).quiet silent (.inr before) cleans

/-- Before payload deletion every transaction of the cell journals events and then
changes the store quietly. -/
theorem CellOp.run_transition (W : WorldContract) (runId : String) (now : Nat) (op : CellOp)
    {store : RunStore} (before : store.beforePayload = true) (cleans : store.CleansTerminal) :
    Transition W runId now store (op.run W runId now store) := by
  have step := op.run_step W runId now store
  generalize op.run W runId now store = after at step ⊢
  cases silent : op.mayJournal with
  | false => exact .quiet (step.quiet silent (.inr before) cleans)
  | true =>
    cases step with
    | applied call => exact WorkflowRunDO.applyEvent_transition call
    | disposed call => exact WorkflowRunDO.forceDisposeHook_transition call
    | idle => exact .refl
    | fenced _ _ fences => exact .quiet (.fenced fences)
    | _ => cases silent

end Steps

end CelldWorld
